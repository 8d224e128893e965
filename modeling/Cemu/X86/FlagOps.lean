import Cemu.X86.AluFlags
import Cemu.X86.EnterFrame
import Cemu.X86.FarTransfer

/-!
# x86: the instructions on the flags word

PUSHF, POPF, CLI and STI, and the bits of EFLAGS the manual lets POPF change. The source builds
the writable set from partial masks, mode by mode; `popfAllowed` is the manual's table.
-/

namespace Cemu.X86

open RaiseM BitVec BitMask X86State

variable {D : Type}

/-! ### The instructions -/

def X86State.virtualIf (s : X86State) : Bool :=
  s.vm && decide (s.iopl ≠ 3) && has s.cr4 (kCr4Vme ||| kCr4Pvi)

def pushfImage (s : X86State) : BitVec 32 :=
  let img := s.fl &&& ~~~0x30000 ||| 2
  if s.virtualIf then
    let img := img &&& ~~~0x200 ||| if s.fl.getLsbD 19 then 0x200 else 0
    let img := img &&& ~~~0x100000 ||| if s.fl.getLsbD 20 then 0x100000 else 0
    img &&& ~~~0x80000
  else img

def pushf : X86M D Unit := do
  let s ← getS
  faultWhen (s.vm && decide (s.iopl ≠ 3) && !s.virtualIf) (gpFault 0)
  pushW (pushfImage s)

def X86State.acMask (s : X86State) : BitVec 32 := if has s.cr0 kCr0Am then 0x40000 else 0

def popfMask (s : X86State) : BitVec 32 :=
  if s.vm then 0x4fd7
  else if s.pe && decide (s.cpl ≠ 0) then
    (if s.iopl.setWidth 8 < s.cpl then 0x4dd7 else 0x4fd7) ||| s.acMask
  else 0x7fd7 ||| 0x40000

def sizedMask (w32 : Bool) (mask : BitVec 32) : BitVec 32 := if w32 then mask else mask &&& 0xffff

def popf : X86M D Unit := do
  let d ← getD
  let v ← popW
  let s ← getS
  if s.virtualIf then modS fun s => s.loadVif true v
  else
    faultWhen (s.vm && decide (s.iopl ≠ 3)) (gpFault 0)
    modS fun s => s.loadFlags (sizedMask d.w32 (popfMask s)) 0x10000 v

def intFlagRefused (s : X86State) : Bool :=
  s.pe && if s.vm then decide (s.iopl ≠ 3) else decide (s.iopl.setWidth 8 < s.cpl)

def cli : X86M D Unit := do
  let s ← getS
  if s.pe && s.virtualIf then modS fun s => s.setFlag 19 false
  else
    faultWhen (intFlagRefused s) (gpFault 0)
    modS fun s => s.setFlag 9 false

def stiStore : X86M D Unit := do
  let s ← getS
  if s.pe && s.virtualIf then modS fun s => s.setFlag 19 true
  else
    faultWhen (intFlagRefused s) (gpFault 0)
    modS fun s => s.setFlag 9 true

def sti : X86M D Unit := do
  stiStore
  modS fun s => { s with intrInhibit := true }

def kEflagsOne : BitVec 32 := 0x2
def kEflagsZero : BitVec 32 := 0x8028

/-- The commit of `x86_step`: RF clears unless the instruction loaded it, and the reserved bits
are constants. -/
def commitFlags (rfLoad : Bool) (fl : BitVec 32) : BitVec 32 :=
  (if rfLoad then fl else fl &&& ~~~0x10000) &&& ~~~kEflagsZero ||| kEflagsOne

/-! ### What the manual lets POPF change -/

def popfAlways (w32 : Bool) : BitVec 32 := if w32 then 0x244dd5 else 0x4dd5

/-- The bits POPF may load from its image: the ordinary flags everywhere, IF where CPL ≤ IOPL and
IOPL at CPL 0. Without VME a virtual-8086 task below IOPL 3 may load nothing. -/
def popfAllowed (s : X86State) (w32 : Bool) : BitVec 32 :=
  if s.vm then
    if s.iopl = 3 then popfAlways w32 ||| 0x200
    else if has s.cr4 kCr4Vme then popfAlways w32
    else 0
  else if s.pe && decide (s.cpl ≠ 0) then
    popfAlways w32 ||| if s.iopl.setWidth 8 < s.cpl then 0 else 0x200
  else popfAlways w32 ||| 0x3200

/-- The flags the manual gives after POPF of the image `v`: with VME the image's IF is VIF. -/
def popfShown (s : X86State) (w32 : Bool) (v : BitVec 32) : BitVec 32 :=
  let fl := s.fl &&& ~~~popfAllowed s w32 ||| v &&& popfAllowed s w32
  if s.vm ∧ s.iopl ≠ 3 ∧ has s.cr4 kCr4Vme then
    ({ s with fl := fl }.setFlag 19 (v.getLsbD 9)).fl
  else fl

def X86State.loadsAc (s : X86State) : Bool :=
  !s.vm && (!s.pe || decide (s.cpl = 0) || has s.cr0 kCr0Am)

/-- The images on which the source agrees with the manual. ID never loads, AC only where
`loadsAc`; a virtual interrupt flag loads with VIP in its company, sets IF and drops the rest. -/
def PopfFits (s : X86State) (w32 : Bool) (v : BitVec 32) : Prop :=
  if s.vm ∧ s.iopl ≠ 3 then
    s.ifl = true ∧ s.fl.getLsbD 20 = v.getLsbD 20 ∧
      if has s.cr4 kCr4Vme then s.fl &&& popfAlways w32 = v &&& popfAlways w32
      else s.fl.getLsbD 19 = v.getLsbD 9
  else w32 = true → s.fl.getLsbD 21 = v.getLsbD 21 ∧
    (s.loadsAc = true ∨ s.fl.getLsbD 18 = v.getLsbD 18)

instance (s : X86State) (w32 : Bool) (v : BitVec 32) : Decidable (PopfFits s w32 v) :=
  inferInstanceAs (Decidable (ite _ _ _))

/-! ### The commit -/

def kCommitted : BitVec 32 := ~~~(0x10000 ||| kEflagsZero ||| kEflagsOne)

theorem commitFlags_eq_iff (x y : BitVec 32) :
    commitFlags false x = commitFlags false y ↔ x &&& kCommitted = y &&& kCommitted := by
  have hbit : ∀ a b c z o : Bool, (a && !c && !z || o) = (b && !c && !z || o) ↔
      (a && !(c || z || o)) = (b && !(c || z || o)) := by decide
  rw [eq_of_getLsbD_eq_iff, eq_of_getLsbD_eq_iff]
  refine forall_congr' fun i => forall_congr' fun hi => ?_
  simp only [commitFlags, kCommitted, Bool.false_eq_true, if_false, getLsbD_and,
    getLsbD_or, getLsbD_not, hi]
  exact hbit _ _ _ _ _

theorem commitFlags_loadFlags (s : X86State) (mask v : BitVec 32) :
    commitFlags false (s.loadFlags mask 0x10000 v).fl =
      commitFlags false (s.fl &&& ~~~mask ||| v &&& mask) := by
  have hbit : ∀ a b p c z o : Bool,
      ((a && !(p || c) || b && p || o) && !c && !z || o) =
        ((a && !p || b && p) && !c && !z || o) := by
    decide
  apply eq_of_getLsbD_eq
  intro i hi
  simp only [commitFlags, loadFlags, Bool.false_eq_true, if_false,
    getLsbD_and, getLsbD_or, getLsbD_not, hi]
  exact hbit _ _ _ _ _ _

/-! ### POPF with its own interrupt flag -/

section Loaded

variable {s : X86State} {w32 : Bool} {v : BitVec 32}

private theorem popfMask_xor (h : ¬(s.vm = true ∧ s.iopl ≠ 3)) :
    (sizedMask w32 (popfMask s) ^^^ popfAllowed s w32) &&& kCommitted =
      if w32 then if s.loadsAc then 0x200000 else 0x240000 else 0 := by
  unfold popfMask popfAllowed loadsAc acMask
  cases hvm : s.vm with
  | true =>
    have hiopl : s.iopl = 3 := by
      by_contra hne
      exact h ⟨hvm, hne⟩
    rw [if_pos rfl, if_pos rfl, if_pos hiopl, Bool.not_true, Bool.false_and]
    cases w32 <;> decide
  | false =>
    rw [if_neg Bool.false_ne_true, if_neg Bool.false_ne_true]
    by_cases hcpl : s.cpl = 0
    · simp only [hcpl, ne_eq, not_true, decide_false, decide_true, Bool.and_false, Bool.or_true,
        Bool.true_or, Bool.false_eq_true, if_false]
      cases w32 <;> decide
    · cases s.pe with
      | false =>
        rw [Bool.false_and, if_neg Bool.false_ne_true, if_neg Bool.false_ne_true, Bool.not_false,
          Bool.true_or, Bool.true_or]
        cases w32 <;> decide
      | true =>
        simp only [hcpl, ne_eq, not_false_eq_true, decide_true, Bool.true_and, if_true]
        cases has s.cr0 kCr0Am <;> split <;> cases w32 <;> decide

private theorem and_two_bits_eq_iff (x y : BitVec 32) :
    x &&& 0x240000 = y &&& 0x240000 ↔
      x.getLsbD 21 = y.getLsbD 21 ∧ x.getLsbD 18 = y.getLsbD 18 := by
  have hsplit : (0x240000 : BitVec 32) = 1#32 <<< 21 ||| 1#32 <<< 18 := by decide
  have h21 := and_bit_eq_iff (x := x) (y := y) (show 21 < 32 by decide)
  have h18 := and_bit_eq_iff (x := x) (y := y) (show 18 < 32 by decide)
  rw [← h21, ← h18, hsplit]
  constructor
  · intro h
    exact ⟨and_congr h (by decide), and_congr h (by decide)⟩
  · rintro ⟨h1, h2⟩
    rw [and_or_distrib_left, and_or_distrib_left, h1, h2]

theorem popf_loaded_iff (h : ¬(s.vm = true ∧ s.iopl ≠ 3)) :
    commitFlags false (s.loadFlags (sizedMask w32 (popfMask s)) 0x10000 v).fl =
      commitFlags false (popfShown s w32 v) ↔ PopfFits s w32 v := by
  have hshown : popfShown s w32 v = s.fl &&& ~~~popfAllowed s w32 ||| v &&& popfAllowed s w32 :=
    if_neg fun hv => h ⟨hv.1, hv.2.1⟩
  rw [commitFlags_loadFlags, hshown, commitFlags_eq_iff, merge_and_eq_iff, popfMask_xor h,
    PopfFits, if_neg h]
  cases w32 with
  | false =>
    refine iff_of_true ?_ fun hw => by cases hw
    exact (and_zero).trans (and_zero).symm
  | true =>
    rw [if_pos rfl]
    cases s.loadsAc with
    | true =>
      rw [if_pos rfl]
      refine (and_bit_eq_iff (show 21 < 32 by decide)).trans ?_
      exact ⟨fun hid _ => ⟨hid, .inl rfl⟩, fun hfits => (hfits rfl).1⟩
    | false =>
      rw [if_neg Bool.false_ne_true]
      refine (and_two_bits_eq_iff _ _).trans ?_
      constructor
      · rintro ⟨hid, hac⟩ _
        exact ⟨hid, .inr hac⟩
      · intro hfits
        exact ⟨(hfits rfl).1, (hfits rfl).2.resolve_left Bool.false_ne_true⟩

/-! ### POPF with a virtual interrupt flag -/

private theorem commitFlags_eq_iff_bits (x y : BitVec 32) :
    commitFlags false x = commitFlags false y ↔
      ∀ i < 32, kCommitted.getLsbD i = true → x.getLsbD i = y.getLsbD i := by
  have hbit : ∀ a b k : Bool, (a && k) = (b && k) ↔ (k = true → a = b) := by decide
  rw [commitFlags_eq_iff, eq_of_getLsbD_eq_iff]
  simp only [getLsbD_and, hbit]

theorem getLsbD_loadVif (i : Nat) :
    (s.loadVif true v).fl.getLsbD i = if i = 9 then true else if i = 20 then v.getLsbD 20
      else if i = 19 then v.getLsbD 9 else s.fl.getLsbD i := by
  rw [loadVif, if_pos rfl, getLsbD_setFlag _ _ (by decide), getLsbD_setFlag _ _ (by decide),
    getLsbD_setFlag _ _ (by decide)]

private theorem getLsbD_popfShown (w32 : Bool) (v : BitVec 32) (hvm : s.vm = true)
    (hiopl : s.iopl ≠ 3) {i : Nat} (hi : i < 32) :
    (popfShown s w32 v).getLsbD i = if has s.cr4 kCr4Vme then
        if i = 19 then v.getLsbD 9
        else if (popfAlways w32).getLsbD i then v.getLsbD i else s.fl.getLsbD i
      else s.fl.getLsbD i := by
  have hmerge : ∀ a b p : Bool, (a && !p || b && p) = if p then b else a := by decide
  unfold popfShown popfAllowed
  rw [if_pos hvm, if_neg hiopl]
  cases hvme : has s.cr4 kCr4Vme with
  | true =>
    rw [if_pos rfl, if_pos ⟨hvm, hiopl, rfl⟩, getLsbD_setFlag _ _ (by decide), if_pos rfl]
    simp only [getLsbD_or, getLsbD_and, getLsbD_not, hi, decide_true, Bool.true_and, hmerge]
  | false =>
    rw [if_neg (fun hv => Bool.false_ne_true hv.2.2)]
    have hzero : s.fl &&& ~~~0 ||| v &&& 0 = s.fl := by
      apply eq_of_getLsbD_eq
      intro k hk
      simp only [getLsbD_or, getLsbD_and, getLsbD_not, hk]
      show (_ && !BitVec.getLsbD 0#32 k || _ && BitVec.getLsbD 0#32 k) = _
      rw [getLsbD_zero, Bool.not_false, Bool.and_true, Bool.and_false, Bool.or_false]
    exact congrArg (·.getLsbD i) hzero

theorem popf_virtual_iff (hvm : s.vm = true) (hiopl : s.iopl ≠ 3) :
    commitFlags false (s.loadVif true v).fl = commitFlags false (popfShown s w32 v) ↔
      PopfFits s w32 v := by
  have halways : ∀ i, (popfAlways w32).getLsbD i = true → i ≠ 9 ∧ i ≠ 19 ∧ i ≠ 20 ∧
      kCommitted.getLsbD i = true := by
    intro i hset
    have hi : i < 32 := by
      by_contra hge
      rw [getLsbD_of_ge _ _ (by omega)] at hset
      cases hset
    have hall : ∀ (w : Bool) (j : Fin 32), (popfAlways w).getLsbD j = true →
        j ≠ 9 ∧ j ≠ 19 ∧ j ≠ 20 ∧ kCommitted.getLsbD j = true := by decide
    obtain ⟨h1, h2, h3, h4⟩ := hall w32 ⟨i, hi⟩ hset
    exact ⟨fun h => h1 (Fin.ext h), fun h => h2 (Fin.ext h), fun h => h3 (Fin.ext h), h4⟩
  have h9 : (popfAlways w32).getLsbD 9 = false := by cases w32 <;> decide
  have h20 : (popfAlways w32).getLsbD 20 = false := by cases w32 <;> decide
  have hbits := forall_congr' fun i => forall_congr' fun hi : i < 32 => forall_congr'
    fun _ : kCommitted.getLsbD i = true => Iff.of_eq (congrArg₂ (· = ·)
      (getLsbD_loadVif (s := s) (v := v) i) (getLsbD_popfShown w32 v hvm hiopl hi))
  rw [commitFlags_eq_iff_bits, PopfFits, if_pos ⟨hvm, hiopl⟩, hbits]
  cases hvme : has s.cr4 kCr4Vme with
  | true =>
    simp only [if_true]
    constructor
    · intro h
      refine ⟨?_, ?_, ?_⟩
      · have := h 9 (by decide) (by decide)
        rw [if_pos rfl, if_neg (by decide), h9, if_neg Bool.false_ne_true] at this
        exact this.symm
      · have := h 20 (by decide) (by decide)
        rw [if_neg (by decide), if_pos rfl, if_neg (by decide), h20, if_neg Bool.false_ne_true]
          at this
        exact this.symm
      · apply eq_of_getLsbD_eq
        intro i hi
        rw [getLsbD_and, getLsbD_and]
        cases hset : (popfAlways w32).getLsbD i with
        | false => rw [Bool.and_false, Bool.and_false]
        | true =>
          obtain ⟨h1, h2, h3, hk⟩ := halways i hset
          have := h i hi hk
          rw [if_neg h1, if_neg h3, if_neg h2, if_neg h2, hset, if_pos rfl] at this
          rw [this]
    · rintro ⟨hif, hvip, hrest⟩ i hi _
      by_cases hi9 : i = 9
      · rw [hi9, if_pos rfl, if_neg (by decide), h9, if_neg Bool.false_ne_true]
        exact hif.symm
      by_cases hi20 : i = 20
      · rw [hi20, if_neg (by decide), if_pos rfl, if_neg (by decide), h20,
          if_neg Bool.false_ne_true]
        exact hvip.symm
      rw [if_neg hi9, if_neg hi20]
      split
      · rfl
      split
      · next hset =>
        have := congrArg (·.getLsbD i) hrest
        simpa only [getLsbD_and, hset, Bool.and_true] using this
      · rfl
  | false =>
    simp only [Bool.false_eq_true, if_false]
    constructor
    · intro h
      have h₉ := h 9 (by decide) (by decide)
      have h₂₀ := h 20 (by decide) (by decide)
      have h19 := h 19 (by decide) (by decide)
      rw [if_pos rfl] at h₉
      rw [if_neg (by decide), if_pos rfl] at h₂₀
      rw [if_neg (by decide), if_neg (by decide), if_pos rfl] at h19
      exact ⟨h₉.symm, h₂₀.symm, h19.symm⟩
    · rintro ⟨hif, hvip, hvif⟩ i _ _
      split
      · next hi => rw [hi]; exact hif.symm
      split
      · next hi => rw [hi]; exact hvip.symm
      · split
        · next hi => rw [hi]; exact hvif.symm
        · rfl

end Loaded

/-! ### Runs -/

section Runs

variable {m m' m₁ : Machine D} {v : BitVec 32}

private theorem moved_state {m0 : Machine D} {e : BitVec 32} (hframe : MemFrame m m0)
    (hm1 : m₁ = m0.setS (m0.s.setE espI e)) :
    ∃ t e, m₁.s = (m.s.withCaches t).setE espI e ∧
      m₁.d = { m.d with watchHit := m₁.d.watchHit } := by
  refine ⟨m0.s, e, ?_, ?_⟩
  · rw [← hframe.s, hm1]
    rfl
  · rw [hm1]
    exact hframe.d

theorem popW_state (h : popW m = .ok v m₁) : ∃ t e, m₁.s = (m.s.withCaches t).setE espI e ∧
      m₁.d = { m.d with watchHit := m₁.d.watchHit } := by
  obtain ⟨m0, -, hframe, hm1⟩ := stackPop_returns h
  exact moved_state hframe hm1

theorem pushW_state (h : pushW v m = .ok () m₁) : ∃ t e, m₁.s = (m.s.withCaches t).setE espI e ∧
      m₁.d = { m.d with watchHit := m₁.d.watchHit } := by
  obtain ⟨m0, -, hframe, hm1⟩ := stackPush_returns h
  exact moved_state hframe hm1

theorem popf_returns (h : popf m = .ok () m') :
    ∃ v m₁, popW m = .ok v m₁ ∧ m'.d = { m.d with watchHit := m₁.d.watchHit } ∧
      m'.s.seg = m.s.seg ∧ m'.s.fl = (if m.s.virtualIf then m.s.loadVif true v
        else m.s.loadFlags (sizedMask m.d.w32 (popfMask m.s)) 0x10000 v).fl ∧
      (m.s.vm = true ∧ m.s.iopl ≠ 3 → m.s.virtualIf = true) := by
  obtain ⟨v, m₁, hpop, h⟩ := bind_eq_ok (show (popW >>= _) m = _ from h)
  obtain ⟨t, e, hs, hd⟩ := popW_state hpop
  refine ⟨v, m₁, hpop, ?_⟩
  have hvirtual : m₁.s.virtualIf = m.s.virtualIf := by
    rw [hs]
    rfl
  have h : (if m₁.s.virtualIf then modS fun s => s.loadVif true v else _) m₁ = .ok () m' := h
  cases hv : m.s.virtualIf with
  | true =>
    rw [hvirtual, hv] at h
    cases h
    refine ⟨hd, ?_, ?_, fun _ => rfl⟩
    · show (m₁.s.loadVif true v).seg = _
      rw [hs]
      rfl
    · show (m₁.s.loadVif true v).fl = _
      rw [hs]
      rfl
  | false =>
    rw [hvirtual, hv] at h
    obtain ⟨_, m2, hcheck, h⟩ := bind_eq_ok h
    obtain ⟨hrefused, hm2⟩ := faultWhen_ok raiseVec_ne_ok hcheck
    rw [hm2] at h
    cases h
    refine ⟨hd, ?_, ?_, ?_⟩
    · show m₁.s.seg = _
      rw [hs]
      rfl
    · show (m₁.s.loadFlags (sizedMask m.d.w32 (popfMask m₁.s)) 0x10000 v).fl = _
      rw [hs]
      rfl
    · rintro ⟨hvm, hiopl⟩
      have hrefused : (m.s.vm && decide (m.s.iopl ≠ 3)) = false := by
        rw [← hrefused, hs]
        rfl
      rw [hvm, decide_eq_true hiopl] at hrefused
      cases hrefused

theorem popf_pushfImage {s : X86State} (hvm : s.vm = false) (hcpl : s.pe = false ∨ s.cpl = 0) :
    commitFlags false (s.loadFlags (sizedMask true (popfMask s)) 0x10000 (pushfImage s)).fl =
      commitFlags false s.fl := by
  have hguard : (s.pe && decide (s.cpl ≠ 0)) = false := by
    rcases hcpl with hpe | hcpl
    · rw [hpe, Bool.false_and]
    · rw [hcpl, decide_eq_false (fun hne => hne rfl), Bool.and_false]
  have hmask : popfMask s = 0x47fd7 := by
    rw [popfMask, hvm, hguard]
    rfl
  have himage : pushfImage s = s.fl &&& ~~~0x30000 ||| 2 := by
    rw [pushfImage, virtualIf, hvm]
    rfl
  have hbit : ∀ a b p c k : Bool, (p && c && k) = false → (b && p && k) = false →
      ((a && !p || (a && !c || b) && p) && k) = (a && k) := by decide
  rw [commitFlags_loadFlags, commitFlags_eq_iff, hmask, himage]
  apply eq_of_getLsbD_eq
  intro i hi
  have hout : ∀ j : Fin 32, ((0x47fd7#32).getLsbD j && (0x30000#32).getLsbD j &&
      kCommitted.getLsbD j) = false ∧ ((2#32).getLsbD j && (0x47fd7#32).getLsbD j &&
      kCommitted.getLsbD j) = false := by decide
  simp only [getLsbD_and, getLsbD_or, getLsbD_not, hi]
  exact hbit _ _ _ _ _ (hout ⟨i, hi⟩).1 (hout ⟨i, hi⟩).2

end Runs

/-- POPF, from every machine. Behind the commit of the step the flags are those of the manual
exactly for the images `PopfFits` describes; and at CPL 0, or in real mode, a POPFD that reads back
what PUSHFD pushed leaves EFLAGS alone, except RF and VM. -/
theorem popf_permissions_iff (D : Type) :
    (∀ (m m' : Machine D), m.d.rfLoad = false → popf m = .ok () m' →
      ∃ v m₁, popW m = .ok v m₁ ∧
        (commitFlags m'.d.rfLoad m'.s.fl = commitFlags false (popfShown m.s m.d.w32 v) ↔
          PopfFits m.s m.d.w32 v)) ∧
    (∀ (m m₁ m₂ m₃ m' : Machine D), m.d.w32 = true → m.d.rfLoad = false →
      m.s.vm = false → m.s.pe = false ∨ m.s.cpl = 0 →
      pushf m = .ok () m₁ → MemFrame m₁ m₂ → popW m₂ = .ok (pushfImage m.s) m₃ →
      popf m₂ = .ok () m' →
      commitFlags m'.d.rfLoad m'.s.fl &&& ~~~0x30000 =
        commitFlags false m.s.fl &&& ~~~0x30000) := by
  constructor
  · intro m m' hrf h
    obtain ⟨v, m₁, hpop, hd, -, hfl, hvirtual⟩ := popf_returns h
    have hrf' : m'.d.rfLoad = false := by rw [hd]; exact hrf
    refine ⟨v, m₁, hpop, ?_⟩
    rw [hrf', hfl]
    by_cases hvm : m.s.vm = true ∧ m.s.iopl ≠ 3
    · rw [if_pos (hvirtual hvm)]
      exact popf_virtual_iff hvm.1 hvm.2
    have hreal : m.s.virtualIf = false := by
      rw [X86State.virtualIf]
      by_contra hne
      simp only [Bool.not_eq_false, Bool.and_eq_true, decide_eq_true_eq] at hne
      exact hvm hne.1
    rw [hreal, if_neg Bool.false_ne_true]
    exact popf_loaded_iff hvm
  · intro m m₁ m₂ m₃ m' hw hrf hvm hcpl hpush hframe hpop h
    obtain ⟨_, m₀, hcheck, hpush⟩ :=
      bind_eq_ok (show ((faultWhen _ (gpFault 0) : X86M D Unit) >>= _)
      m = _ from hpush)
    rw [(faultWhen_ok raiseVec_ne_ok hcheck).2] at hpush
    obtain ⟨t, e, hs, hd₁⟩ := pushW_state hpush
    have hs₂ : m₂.s = ((m.s.withCaches t).setE espI e).withCaches m₂.s := by
      rw [← hs]
      exact hframe.s
    obtain ⟨v, m₃', hpop', hd, -, hfl, -⟩ := popf_returns h
    rw [hpop] at hpop'
    cases hpop'
    have hd₂ : m₂.d.rfLoad = false ∧ m₂.d.w32 = true := by
      rw [hframe.d, hd₁]
      exact ⟨hrf, hw⟩
    have hrf' : m'.d.rfLoad = false := by rw [hd]; exact hd₂.1
    have hreal : m₂.s.virtualIf = false := by
      rw [hs₂]
      show (m.s.vm && _ && _) = false
      rw [hvm]
      rfl
    rw [hrf', hfl, hreal, if_neg Bool.false_ne_true, hd₂.2]
    have hload : (m₂.s.loadFlags (sizedMask true (popfMask m₂.s)) 0x10000 (pushfImage m.s)).fl =
        (m.s.loadFlags (sizedMask true (popfMask m.s)) 0x10000 (pushfImage m.s)).fl := by
      rw [hs₂]
      rfl
    rw [hload, popf_pushfImage hvm hcpl]

def imageMachine (image : BitVec 32) : Machine Unit :=
  { frameMachine ⟨0x1000, 0⟩ with w := answeringWorld fun _ => image.setWidth 64 }

/-- POPFD of 0xad5 at CPL 0 loads CF, PF, AF, ZF, SF, IF and OF; and PUSHFD and POPFD of
0x202, the flags there are, leave them alone. -/
theorem popf_arithmetic_image :
    (∃ m', popf (imageMachine 0xad5) = .ok () m' ∧ commitFlags m'.d.rfLoad m'.s.fl =
      commitFlags false (popfShown (imageMachine 0xad5).s true 0xad5)) ∧
    ∃ m₁ m', pushf (imageMachine 0x202) = .ok () m₁ ∧ popf m₁ = .ok () m' ∧
      commitFlags m'.d.rfLoad m'.s.fl &&& ~~~0x30000 =
        commitFlags false (imageMachine 0x202).s.fl &&& ~~~0x30000 := by
  constructor
  · have hok : (popf (imageMachine 0xad5)).isOk = true := by decide +kernel
    have hvalue : (popW (imageMachine 0xad5)).value? = some 0xad5 := by decide +kernel
    obtain ⟨_, m', hm'⟩ := Outcome.exists_of_isOk hok
    obtain ⟨v, m₁, hpop, hiff⟩ := (popf_permissions_iff Unit).1 _ m' rfl hm'
    rw [hpop] at hvalue
    obtain rfl := Option.some.inj hvalue
    exact ⟨m', hm', hiff.mpr (by decide +kernel)⟩
  · have hok : ((pushf >>= fun _ => popf) (imageMachine 0x202)).isOk = true := by decide +kernel
    have hvalue : ((pushf >>= fun _ => popW) (imageMachine 0x202)).value? =
        some (pushfImage (imageMachine 0x202).s) := by decide +kernel
    obtain ⟨_, m', hrun⟩ := Outcome.exists_of_isOk hok
    obtain ⟨_, m₁, hpush, hpopf⟩ := bind_eq_ok hrun
    rw [bind_of_ok hpush] at hvalue
    obtain ⟨m₃, hpop⟩ := Outcome.exists_of_value hvalue
    exact ⟨m₁, m', hpush, hpopf, (popf_permissions_iff Unit).2 _ m₁ m₁ m₃ m' rfl rfl
      (by decide +kernel) (.inr (by decide +kernel)) hpush (.refl m₁) hpop hpopf⟩

/-- POPFD of 0x200202 at CPL 0, the first half of every test for CPUID: ID stays clear. -/
theorem popf_drops_id :
    (match popf (imageMachine 0x200202) with
      | .ok _ m' => decide (commitFlags m'.d.rfLoad m'.s.fl = 0x202)
      | _ => false) = true ∧
    (match popW (imageMachine 0x200202) with
      | .ok v _ =>
        decide (commitFlags false (popfShown (imageMachine 0x200202).s true v) = 0x200202)
      | _ => false) = true := by
  refine ⟨by decide +kernel, by decide +kernel⟩

end Cemu.X86
