import Cemu.Riscv64.PureWalk

/-!
# riscv64: the walk against the privileged architecture

`Sv.translate` is the address translation of the privileged architecture, over the fields of a
table entry and in the order of its steps. The walker of `mmu.c` tests masks, leaves the loop at
level minus one when it finds no leaf, and updates the entry before it looks at the alignment.
The two succeed together, with one physical address and one memory.
-/

namespace Cemu.Rv64

open BitVec BitMask RaiseM Outcome

variable {D : Type}

namespace Sv

/-! ### The algorithm -/

section

variable (pte : BitVec 64)

def v : Bool := pte.getLsbD 0
def r : Bool := pte.getLsbD 1
def w : Bool := pte.getLsbD 2
def x : Bool := pte.getLsbD 3
def u : Bool := pte.getLsbD 4
def a : Bool := pte.getLsbD 6
def d : Bool := pte.getLsbD 7

def ppn : BitVec 44 := pte.extractLsb' 10 44

def reserved : BitVec 10 := pte.extractLsb' 54 10

end

def vpn (va : BitVec 64) (i : Nat) : BitVec 9 := va.extractLsb' (12 + 9 * i) 9

def pteAddr (base : BitVec 44) (va : BitVec 64) (i : Nat) : BitVec 64 :=
  (base ++ 0#12).setWidth 64 + (vpn va i ++ 0#3).setWidth 64

def canonical (levels : Nat) (va : BitVec 64) : Bool :=
  decide ((va.setWidth (12 + 9 * levels)).signExtend 64 = va)

def permits (s : RiscvState) (eff : BitVec 8) (acc : Acc) (pte : BitVec 64) : Bool :=
  (if eff = kPrivUser then u pte
    else if eff = kPrivSupervisor then
      !u pte || (decide (s.mstatus &&& kMstatusSum ≠ 0) && decide (acc ≠ .ifetch))
    else true) &&
  match acc with
  | .ifetch => x pte
  | .read => r pte || (decide (s.mstatus &&& kMstatusMxr ≠ 0) && x pte)
  | .write | .amo => w pte

/-- The entry with A set, and D for a store; `none` where D may only be set by software. -/
def updated (s : RiscvState) (acc : Acc) (pte : BitVec 64) : Option (BitVec 64) :=
  if acc = .write ∨ acc = .amo then
    if d pte = false ∧ s.menvcfg &&& kMenvcfgAdue = 0 then none
    else some (pte ||| kPteA ||| kPteD)
  else some (pte ||| kPteA)

/-- A leaf at level `i` supplies the page numbers from `i` up, the address the rest. -/
def paddr (va pte : BitVec 64) (i : Nat) : BitVec 64 :=
  ((ppn pte).extractLsb' (9 * i) (44 - 9 * i) ++ va.setWidth (12 + 9 * i)).setWidth 64

/-- The descent through the levels below `n`. With `strict`, a pointer entry with D, A or U set
is reserved, too. -/
def walk (strict : Bool) (s : RiscvState) (va : BitVec 64) (acc : Acc) :
    Nat → BitVec 44 → WorldM D Walk
  | 0, _ => raiseTrap (pageFaultCause acc) va
  | i + 1, base => do
    let pte ← pteRead s (pteAddr base va i) acc
    if !v pte || (!r pte && w pte) || decide (reserved pte ≠ 0) then
      raiseTrap (pageFaultCause acc) va
    else if r pte || x pte then pure ⟨pteAddr base va i, pte, i⟩
    else if strict && (d pte || a pte || u pte) then raiseTrap (pageFaultCause acc) va
    else walk strict s va acc i (ppn pte)

def useLeaf (s : RiscvState) (va : BitVec 64) (acc : Acc) (eff : BitVec 8) (leaf : Walk) :
    WorldM D (BitVec 64) :=
  if !permits s eff acc leaf.pte then raiseTrap (pageFaultCause acc) va
  -- a superpage begins at a multiple of its size
  else if (ppn leaf.pte).setWidth (9 * leaf.level.toNat) ≠ 0 then raiseTrap (pageFaultCause acc) va
  else
    match updated s acc leaf.pte with
    | none => raiseTrap (pageFaultCause acc) va
    | some new => do
      writeBack va acc leaf.pteAddr leaf.pte new
      pure (paddr va leaf.pte leaf.level.toNat)

def translate (strict : Bool) (s : RiscvState) (va : BitVec 64) (acc : Acc) (eff : BitVec 8) :
    WorldM D (BitVec 64) :=
  if !canonical (walkLevels s) va then raiseTrap (pageFaultCause acc) va
  else do
    let leaf ← walk strict s va acc (walkLevels s) (s.satp.setWidth 44)
    useLeaf s va acc eff leaf

end Sv

/-! ### Masks and fields -/

section

variable {pte : BitVec 64}

theorem and_kPteV : pte &&& kPteV = 0 ↔ Sv.v pte = false := and_bit_eq_zero
theorem and_kPteR : pte &&& kPteR = 0 ↔ Sv.r pte = false := and_bit_eq_zero
theorem and_kPteW : pte &&& kPteW = 0 ↔ Sv.w pte = false := and_bit_eq_zero
theorem and_kPteX : pte &&& kPteX = 0 ↔ Sv.x pte = false := and_bit_eq_zero
theorem and_kPteU : pte &&& kPteU = 0 ↔ Sv.u pte = false := and_bit_eq_zero
theorem and_kPteA : pte &&& kPteA = 0 ↔ Sv.a pte = false := and_bit_eq_zero
theorem and_kPteD : pte &&& kPteD = 0 ↔ Sv.d pte = false := and_bit_eq_zero

theorem and_kPteReserved : pte &&& kPteReserved = 0 ↔ Sv.reserved pte = 0 := by
  have hbit (k : Nat) : (pte &&& kPteReserved).getLsbD k = (decide (54 ≤ k) && pte.getLsbD k) := by
    have hmask : kPteReserved = BitVec.allOnes 64 <<< 54 := by decide
    rw [hmask, getLsbD_and, getLsbD_shiftLeft, getLsbD_allOnes]
    grind
  constructor
  · intro h
    ext k hk
    have hk54 := hbit (54 + k)
    rw [h] at hk54
    simpa [Sv.reserved] using hk54
  · intro h
    ext k hk
    have hk54 := congrArg (·.getLsbD (k - 54)) h
    rw [← getLsbD_eq_getElem, hbit]
    simp [Sv.reserved] at hk54 ⊢
    grind

theorem pteInvalid_eq (pte : BitVec 64) :
    pteInvalid pte = (!Sv.v pte || (!Sv.r pte && Sv.w pte) || decide (Sv.reserved pte ≠ 0)) := by
  simp only [pteInvalid, and_kPteV, and_kPteR, and_kPteW, and_kPteReserved, ne_eq]
  cases Sv.v pte <;> cases Sv.r pte <;> cases Sv.w pte <;> simp

theorem pteLeaf_eq (pte : BitVec 64) : pteLeaf pte = (Sv.r pte || Sv.x pte) := by
  have hsplit : pte &&& (kPteR ||| kPteX) = 0 ↔ pte &&& kPteR = 0 ∧ pte &&& kPteX = 0 := by
    rw [and_or_distrib_left]
    exact or_eq_zero_iff
  simp only [pteLeaf, ne_eq, hsplit, and_kPteR, and_kPteX]
  cases Sv.r pte <;> cases Sv.x pte <;> simp

theorem ptePermits_eq (s : RiscvState) (eff : BitVec 8) (acc : Acc) (pte : BitVec 64) :
    ptePermits s eff acc pte = Sv.permits s eff acc pte := by
  simp only [ptePermits, Sv.permits, and_kPteR, and_kPteW, and_kPteX, and_kPteU, ne_eq]
  by_cases huser : eff = kPrivUser
  · subst huser
    cases Sv.u pte <;> cases acc <;> simp [show kPrivUser ≠ kPrivSupervisor by decide]
  · by_cases hsuper : eff = kPrivSupervisor
    · cases Sv.u pte <;> cases acc <;> simp [huser]
    · cases acc <;> simp [hsuper]

theorem adUpdate_eq (s : RiscvState) (acc : Acc) (pte : BitVec 64) :
    adUpdate s acc pte = Sv.updated s acc pte := by
  have ha (h : Sv.a pte = true) : pte ||| kPteA = pte := or_bit_of_set h
  have hd (h : Sv.d pte = true) : pte ||| kPteD = pte := or_bit_of_set h
  have hswap : pte ||| kPteD ||| kPteA = pte ||| kPteA ||| kPteD := by
    rw [BitVec.or_assoc, BitVec.or_comm kPteD, ← BitVec.or_assoc]
  simp only [adUpdate, Sv.updated, and_kPteA, and_kPteD]
  by_cases hstore : acc = .write ∨ acc = .amo
  · simp only [hstore, true_and, if_true]
    split
    · rfl
    · cases hbit : Sv.d pte <;> cases hacc : Sv.a pte <;>
        simp only [Bool.true_eq_false, if_false, if_true]
      · rw [hswap]
      · rw [ha hacc]
      · rw [← hswap, hd hbit]
      · rw [ha hacc, hd hbit]
  · simp only [hstore, false_and, if_false]
    cases hacc : Sv.a pte <;> simp only [Bool.true_eq_false, if_false, if_true]
    rw [ha hacc]

end

theorem pteAddrAt_eq (va : BitVec 64) (i : Nat) (base : BitVec 44) :
    pteAddrAt va i (base.setWidth 64) = Sv.pteAddr base va i := by
  have hbase : base.setWidth 64 <<< 12 = (base ++ 0#12).setWidth 64 := by
    ext k hk
    simp [getElem_shiftLeft]
    grind
  have hvpn : (va >>> (12 + 9 * i) &&& 0x1ff) * 8 = (Sv.vpn va i ++ 0#3).setWidth 64 := by
    have hmask : (0x1ff : BitVec 64) = (BitVec.allOnes 9).setWidth 64 := by decide
    have hscale : (8 : BitVec 64) = BitVec.twoPow 64 3 := rfl
    rw [hmask, and_low, hscale, Sv.vpn]
    ext k hk
    simp [getElem_shiftLeft]
    grind
  rw [pteAddrAt, Sv.pteAddr, hbase, hvpn]

theorem satpRoot_eq (s : RiscvState) : satpRoot s = (s.satp.setWidth 44).setWidth 64 := by
  have hmask : 1#64 <<< 44 - 1#64 = _ := one_shiftLeft_sub_one (by decide)
  exact (congrArg (s.satp &&& ·) hmask).trans (and_low s.satp 44)

theorem shiftRight_ten {pte : BitVec 64} (h : Sv.reserved pte = 0) :
    pte >>> 10 = (Sv.ppn pte).setWidth 64 := by
  ext k hk
  have hhigh := congrArg (·.getLsbD (k - 44)) h
  simp [Sv.reserved, Sv.ppn] at hhigh ⊢
  grind

theorem shiftLeft_sshiftRight (va : BitVec 64) {n : Nat} (h0 : 0 < n) (hn : n < 64) :
    (va <<< (64 - n)).sshiftRight (64 - n) = (va.setWidth n).signExtend 64 := by
  ext k hk
  simp only [getElem_sshiftRight, getElem_signExtend, msb_eq_getLsbD_last, getLsbD_shiftLeft]
  by_cases h : k < n
  · have hin : 64 - n + k < 64 := by omega
    simp [h, hin, getLsbD_eq_getElem hk]
  have hout : ¬ 64 - n + k < 64 := by omega
  have hge : ¬ 64 - 1 < 64 - n := by omega
  have hlast : 64 - 1 - (64 - n) = n - 1 := by omega
  simp [h, hout, hge, hlast]
  omega

theorem isCanonical_eq (s : RiscvState) (va : BitVec 64) :
    isCanonical s va = Sv.canonical (walkLevels s) va := by
  have h48 := shiftLeft_sshiftRight va (n := 48) (by omega) (by omega)
  have h39 := shiftLeft_sshiftRight va (n := 39) (by omega) (by omega)
  rw [isCanonical, walkLevels]
  by_cases hmode : satpMode s = kSatpModeSv48
  · rw [if_pos hmode, if_pos hmode]
    exact congrArg (fun x => decide (x = va)) h48
  · rw [if_neg hmode, if_neg hmode]
    exact congrArg (fun x => decide (x = va)) h39

section

variable {pte : BitVec 64} (hres : Sv.reserved pte = 0) {i : Nat} (hi : i ≤ 3)

include hres hi

theorem leafPaddr_eq (va : BitVec 64) :
    leafPaddr va pte i =
      if (Sv.ppn pte).setWidth (9 * i) ≠ 0 then none else some (Sv.paddr va pte i) := by
  have hone : (1 : BitVec 64) = 1#64 := rfl
  rw [leafPaddr, shiftRight_ten hres]
  cases i with
  | zero =>
    have hzero : (Sv.ppn pte).setWidth (9 * 0) = 0 := eq_nil _
    have hmask : (0xfff : BitVec 64) = (BitVec.allOnes 12).setWidth 64 := by decide
    rw [if_neg (by simp), if_neg (by simpa using hzero), hmask, and_low, Sv.paddr]
    refine congrArg some ?_
    ext k hk
    simp [getElem_shiftLeft]
    grind
  | succ n =>
    have hlevel : (0 : Int) < (n + 1 : Nat) := by omega
    rw [if_pos hlevel]
    simp only [Int.toNat_natCast, hone]
    rw [one_shiftLeft_sub_one (by omega), one_shiftLeft_sub_one (by omega),
      and_low, and_low, Sv.paddr]
    have hwide : 9 * (n + 1) ≤ 27 := by omega
    generalize 9 * (n + 1) = j at hwide ⊢
    generalize Sv.ppn pte = ppn
    have hzero : ((ppn.setWidth 64).setWidth j).setWidth 64 = 0 ↔ ppn.setWidth j = 0 := by
      constructor
      · intro h
        ext k hk
        have hbit := congrArg (·.getLsbD k) h
        simp at hbit ⊢
        grind
      · intro h
        ext k hk
        have hbit := congrArg (·.getLsbD k) h
        simp at hbit ⊢
        grind
    simp only [ne_eq, hzero]
    split
    · rfl
    · refine congrArg some ?_
      ext k hk
      simp [getElem_shiftLeft]
      grind

end

/-! ### The two walks -/

open RaiseM

theorem walk_eq (s : RiscvState) (va : BitVec 64) (acc : Acc) (n : Nat) (base : BitVec 44)
    (pteAddr pte : BitVec 64) :
    (Sv.walk false s va acc n base : WorldM D Walk) =
      (walkFrom s va acc n (base.setWidth 64) pteAddr pte >>= fun leaf =>
        if leaf.level < 0 then raiseTrap (pageFaultCause acc) va else pure leaf) := by
  induction n generalizing base pteAddr pte with
  | zero => rfl
  | succ n ih =>
    rw [Sv.walk, walkFrom, bind_assoc, pteAddrAt_eq]
    refine congrArg (pteRead s (Sv.pteAddr base va n) acc >>= ·) (funext fun pte' => ?_)
    simp only [← pteInvalid_eq, ← pteLeaf_eq]
    cases hinv : pteInvalid pte' with
    | true => rfl
    | false =>
      have hres : Sv.reserved pte' = 0 := by
        rw [pteInvalid_eq] at hinv
        simp at hinv
        exact hinv.2
      cases pteLeaf pte' with
      | true =>
        have hlevel : ¬ (n : Int) < 0 := by omega
        simp [hlevel]
      | false =>
        simp only [shiftRight_ten hres]
        exact ih (Sv.ppn pte') (Sv.pteAddr base va n) pte'

variable {s : RiscvState} {va p : BitVec 64} {acc : Acc} {leaf : Walk} {w w' : World D}
  {eff : BitVec 8}

theorem walk_ok {n : Nat} {base : BitVec 44} (h : Sv.walk false s va acc n base w = .ok leaf w') :
    Sv.reserved leaf.pte = 0 ∧ ∃ i < n, leaf.level = i := by
  induction n generalizing base w with
  | zero => cases h
  | succ n ih =>
    obtain ⟨pte, w1, -, h⟩ := RaiseM.bind_eq_ok h
    split at h
    · cases h
    rename_i hval
    split at h
    · cases h
      refine ⟨?_, n, by omega, rfl⟩
      simp at hval
      exact hval.2
    · obtain ⟨hres, i, hi, hlevel⟩ := ih h
      exact ⟨hres, i, by omega, hlevel⟩

theorem walkFrom_fallthrough {ppnBase pteAddr pte : BitVec 64} {n : Nat} (hpte : IsPointer pte)
    (h : walkFrom s va acc n ppnBase pteAddr pte w = .ok leaf w') (hneg : leaf.level < 0) :
    IsPointer leaf.pte := by
  induction n generalizing ppnBase pteAddr pte w with
  | zero =>
    cases h
    exact hpte
  | succ n ih =>
    obtain ⟨pte', w1, -, hval, ⟨-, rfl, -⟩ | ⟨hleaf, hrest⟩⟩ := walkFrom_succ_eq_ok h
    · exact absurd hneg (by simp)
    · exact ih (isPointer_of_valid hval hleaf) hrest

theorem useLeaf_pointer (h : IsPointer leaf.pte) (w : World D) :
    useLeaf s va acc eff leaf w = .raise ⟨pageFaultCause acc, va, none⟩ w := by
  rw [useLeaf, ptePermits_pointer h]
  rfl

/-- At a leaf the two succeed together: the order of the alignment check and the update of the
entry shows in failed translations only. -/
theorem useLeaf_ok_iff (hres : Sv.reserved leaf.pte = 0) {i : Nat} (hi : i ≤ 3)
    (hlevel : leaf.level = i) :
    useLeaf s va acc eff leaf w = .ok p w' ↔ Sv.useLeaf s va acc eff leaf w = .ok p w' := by
  have hpaddr := leafPaddr_eq hres hi va
  unfold Sv.useLeaf
  rw [hlevel, Int.toNat_natCast, ← ptePermits_eq, ← adUpdate_eq]
  constructor
  · intro h
    obtain ⟨hperm, new, hup, hleaf, hback⟩ := useLeaf_eq_ok h
    obtain ⟨hsub, hrest⟩ := adUpdate_eq_some hup
    rw [AdGrown.leafPaddr ⟨hsub, hrest⟩, hlevel, hpaddr] at hleaf
    split at hleaf
    · cases hleaf
    · next halign =>
      cases hleaf
      simp only [hperm, Bool.not_true, Bool.false_eq_true, if_false, halign, hup,
        bind_apply, hback, bind_ok, pure_apply]
  · intro h
    cases hperm : ptePermits s eff acc leaf.pte with
    | false => simp [hperm] at h
    | true =>
      simp only [hperm, Bool.not_true, Bool.false_eq_true, if_false] at h
      split at h
      · cases h
      rename_i halign
      cases hup : adUpdate s acc leaf.pte with
      | none => rw [hup] at h; cases h
      | some new =>
        obtain ⟨hsub, hrest⟩ := adUpdate_eq_some hup
        rw [hup] at h
        simp only [useLeaf, hperm, hup,
          AdGrown.leafPaddr ⟨hsub, hrest⟩, hlevel, hpaddr, if_neg halign]
        exact h

theorem walkPage_ok_iff :
    walkPage s va acc eff w = .ok p w' ↔ Sv.translate false s va acc eff w = .ok p w' := by
  have hlevels : walkLevels s ≤ 4 := by
    unfold walkLevels
    split <;> omega
  unfold walkPage Sv.translate
  rw [isCanonical_eq, satpRoot_eq, walk_eq s va acc _ _ 0 0]
  split
  · rfl
  simp only [bind_apply]
  have hwalk := walk_eq (D := D) s va acc (walkLevels s) (s.satp.setWidth 44) 0 0
  cases hf : walkFrom s va acc (walkLevels s) ((s.satp.setWidth 44).setWidth 64) 0 0 w with
  | raise t w1 => rfl
  | fatal => rfl
  | ok leaf w1 =>
    simp only [bind_ok]
    by_cases hneg : leaf.level < 0
    · rw [if_pos hneg, useLeaf_pointer (walkFrom_fallthrough ⟨rfl, rfl⟩ hf hneg)]
      rfl
    rw [if_neg hneg]
    have hok : Sv.walk false s va acc (walkLevels s) (s.satp.setWidth 44) w = .ok leaf w1 := by
      rw [hwalk, bind_apply, hf, bind_ok, if_neg hneg]
      rfl
    obtain ⟨hres, i, hi, hlevel⟩ := walk_ok hok
    exact useLeaf_ok_iff hres (by omega) hlevel

structure SvActive (s : RiscvState) (acc : Acc) : Prop where
  mode : satpMode s = kSatpModeSv39 ∨ satpMode s = kSatpModeSv48
  eff : effPriv s acc ≠ kPrivMachine

theorem SvActive.notBare (h : SvActive s acc) : isBare s acc = false := by
  have hmode : satpMode s ≠ kSatpModeBare := by
    obtain hm | hm := h.mode <;> rw [hm] <;> decide
  simp [isBare, h.eff, hmode]

def TlbEmpty (s : RiscvState) : Prop := ∀ i, (s.tlb i).gen ≠ s.tlbGen

theorem TlbEmpty.lookup (h : TlbEmpty s) (va : BitVec 64) (acc : Acc) :
    tlbLookup s va acc = none := by
  have hdead (i : Nat) : tlbMatches s va acc (s.tlb i) = false := by
    simp [tlbMatches, h i]
  simp only [tlbLookup, hdead, Bool.false_eq_true, if_false]

theorem riscvTranslate_miss {m : Machine D} (hsv : SvActive m.rs acc) (hempty : TlbEmpty m.rs)
    (size : Nat) :
    riscvTranslate va size acc m = translateMiss va size acc (effPriv m.rs acc) m := by
  rw [riscvTranslate_apply, hsv.notBare, hempty.lookup]
  rfl

/-- From an empty cache, the translation goes through exactly where the architecture's does and
PMP allows the access itself, with the same address and the same memory. A walk that reads a
pointer at level 0 is a page fault. -/
theorem riscvTranslate_spec (m : Machine D) (va : BitVec 64) (size : Nat) (acc : Acc)
    (hsv : SvActive m.rs acc) (hempty : TlbEmpty m.rs) :
    (∀ p w', (∃ host m', riscvTranslate va size acc m = .ok (p, host) m' ∧ m'.w = w') ↔
      Sv.translate false m.rs va acc (effPriv m.rs acc) m.w = .ok p w' ∧
        riscvPmpAllowed m.rs p size acc m.rs.priv = true) ∧
    (∀ leaf w', walkFrom m.rs va acc (walkLevels m.rs) (satpRoot m.rs) 0 0 m.w = .ok leaf w' →
      leaf.level < 0 →
        ∃ m', riscvTranslate va size acc m = .raise ⟨pageFaultCause acc, va, none⟩ m') := by
  rw [riscvTranslate_miss hsv hempty, translateMiss_apply]
  refine ⟨fun p w' => ?_, fun leaf w' hf hneg => ?_⟩
  · rw [← walkPage_ok_iff]
    constructor
    · rintro ⟨host, m', h, rfl⟩
      cases hwalk : walkPage m.rs va acc (effPriv m.rs acc) m.w with
      | raise t w => rw [hwalk] at h; cases h
      | fatal => rw [hwalk] at h; cases h
      | ok p' w =>
        rw [hwalk] at h
        simp only at h
        split at h
        · next hpmp =>
          cases h
          exact ⟨rfl, hpmp⟩
        · cases h
    · rintro ⟨hwalk, hpmp⟩
      rw [hwalk]
      simp only [hpmp]
      exact ⟨_, _, rfl, rfl⟩
  · have hwalk : ∃ w₁, walkPage m.rs va acc (effPriv m.rs acc) m.w =
        .raise ⟨pageFaultCause acc, va, none⟩ w₁ := by
      unfold walkPage
      split
      · exact ⟨m.w, rfl⟩
      · rw [bind_apply, hf, bind_ok,
          useLeaf_pointer (walkFrom_fallthrough ⟨rfl, rfl⟩ hf hneg)]
        exact ⟨w', rfl⟩
    obtain ⟨w₁, hwalk⟩ := hwalk
    rw [hwalk]
    exact ⟨_, rfl⟩

def pagedState : RiscvState :=
  { riscvInit with priv := kPrivSupervisor, satp := kSatpModeSv39 <<< 60 ||| 0x80000 }

theorem pagedState_svActive : SvActive pagedState .read where
  mode := .inl (by decide)
  eff := by decide

theorem pagedState_tlbEmpty : TlbEmpty pagedState := by
  intro i
  exact (by decide : (0 : BitVec 64) ≠ 1)

/-- The root table points to a second one, which maps the megapage at address zero to
`0x80000000`; the pointer has the given flags. -/
def pointerMachine (flags : BitVec 64) : Machine Unit :=
  let mem := ByteMem.store (fun _ => 0) 0 8 (0x80001 <<< 10 ||| flags)
  let mem := ByteMem.store mem 0x1000 8 (0x80000 <<< 10 ||| 0xCF)
  (Machine.init (World.dram mem) 0x80000000).setRs pagedState

theorem riscvTranslate_spec_megapage :
    ∃ host m', riscvTranslate 0x123 1 .read (pointerMachine kPteV) = .ok (0x80000123, host) m' := by
  obtain ⟨w', hspec⟩ : ∃ w', Sv.translate false (pointerMachine kPteV).rs 0x123 .read
      (effPriv (pointerMachine kPteV).rs .read) (pointerMachine kPteV).w = .ok 0x80000123 w' :=
    ⟨_, rfl⟩
  obtain ⟨host, m', h, -⟩ := ((riscvTranslate_spec (pointerMachine kPteV) 0x123 1 .read
    pagedState_svActive pagedState_tlbEmpty).1 0x80000123 w').mpr
      ⟨hspec, by decide +kernel⟩
  exact ⟨host, m', h⟩

/-- A pointer with its A bit set: the architecture calls the bit reserved, the walker goes on. -/
theorem riscvTranslate_follows_accessed_pointer :
    SvActive (pointerMachine (kPteV ||| kPteA)).rs .read ∧
    TlbEmpty (pointerMachine (kPteV ||| kPteA)).rs ∧
    (riscvTranslate 0x123 1 .read (pointerMachine (kPteV ||| kPteA))).result.map
      (·.toOption.map (·.1)) = some (some 0x80000123) ∧
    (Sv.translate true (pointerMachine (kPteV ||| kPteA)).rs 0x123 .read kPrivSupervisor
      (pointerMachine (kPteV ||| kPteA)).w).result =
        some (.error ⟨kExLoadPageFault, 0x123, none⟩) :=
  ⟨pagedState_svActive, pagedState_tlbEmpty, by decide +kernel, by decide +kernel⟩

end Cemu.Rv64
