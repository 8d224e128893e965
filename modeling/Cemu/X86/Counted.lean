import Cemu.Lib.SignExtend
import Cemu.X86.String

/-!
# x86: what a repeated instruction counts

A run of a REP instruction, iteration by iteration, and the counter it keeps. The iterations of
the source count in the register of the operand size: CX when `d.w32` is clear, ECX when it is
set. LOOP and its variants do the same.
-/

namespace Cemu.X86

open RaiseM BitVec X86State

variable {D : Type}

/-! ### A register at its two widths -/

def span (wide : Bool) : Nat := if wide then 0x100000000 else 0x10000

theorem span_pred {wide : Bool} {e e' : Nat} (h : e' + 1 = e) (hne : e % span wide ≠ 0) :
    e' % span wide + 1 = e % span wide ∧ e' / span wide = e / span wide := by
  cases wide with
  | false =>
    change e % 0x10000 ≠ 0 at hne
    show e' % 0x10000 + 1 = e % 0x10000 ∧ e' / 0x10000 = e / 0x10000
    omega
  | true =>
    change e % 0x100000000 ≠ 0 at hne
    show e' % 0x100000000 + 1 = e % 0x100000000 ∧ e' / 0x100000000 = e / 0x100000000
    omega

theorem toNat_merge16 (e : BitVec 32) (u : BitVec 16) :
    (e &&& 0xffff0000 ||| u.setWidth 32).toNat = e.toNat / 0x10000 * 0x10000 + u.toNat := by
  have hmask : ∀ k < 32, (0xffff0000 : BitVec 32).getLsbD k = decide (16 ≤ k) := by decide
  have happend : e &&& 0xffff0000 ||| u.setWidth 32 = e.extractLsb' 16 16 ++ u := by
    apply eq_of_getLsbD_eq
    intro k hk
    rw [getLsbD_or, getLsbD_and, getLsbD_setWidth, getLsbD_append,
      hmask k hk]
    by_cases hlow : k < 16
    · simp [hlow, hk]
    · have hhigh : 16 + (k - 16) = k := by omega
      simp [hlow, hhigh, Nat.le_of_not_lt hlow, show k - 16 < 16 by omega]
  rw [happend, toNat_append, ← Nat.shiftLeft_add_eq_or_of_lt u.isLt,
    BitVec.extractLsb'_toNat, Nat.shiftLeft_eq, Nat.shiftRight_eq_div_pow]
  omega

namespace X86State

variable (s : X86State) (wide : Bool) {i j : Reg}

theorem toNat_sized (i : Reg) : (s.sized wide i).toNat = (s.r i).toNat % span wide := by
  cases wide with
  | false =>
    rfl
  | true =>
    show (s.r i).toNat = _ % 0x100000000
    omega

theorem toNat_r_setSized (i : Reg) (v : BitVec 32) :
    ((s.setSized wide i v).r i).toNat =
      (s.r i).toNat / span wide * span wide + v.toNat % span wide := by
  cases wide with
  | false =>
    show ((s.setX i (v.setWidth 16)).r i).toNat = _
    rw [setX, r_setE_same, toNat_merge16, toNat_setWidth]
    rfl
  | true =>
    show ((s.setE i v).r i).toNat = _ / 0x100000000 * 0x100000000 + _ % 0x100000000
    rw [r_setE_same]
    omega

def count : Nat := (s.sized wide ecxI).toNat

theorem count_eq : s.count wide = (s.r ecxI).toNat % span wide := s.toNat_sized wide ecxI

theorem sized_eq_zero : s.sized wide ecxI = 0 ↔ s.count wide = 0 := by
  constructor
  · intro h
    rw [count, h]
    rfl
  · intro h
    exact eq_of_toNat_eq h

theorem count_setSized (v : BitVec 32) :
    (s.setSized wide ecxI v).count wide = v.toNat % span wide := by
  rw [count_eq, toNat_r_setSized, Nat.mul_comm, Nat.mul_add_mod, Nat.mod_mod]

/-- The 32-bit difference and the counter it is stored in are zero together, also when the
counter wraps. -/
theorem sized_pred_ne_zero :
    s.sized wide ecxI - 1 ≠ 0 ↔ (s.sized wide ecxI - 1).toNat % span wide ≠ 0 := by
  have hlt := s.toNat_sized wide ecxI
  rw [Ne, ← toNat_inj, toNat_sub]
  cases wide with
  | false =>
    change _ = _ % 0x10000 at hlt
    show (2 ^ 32 - 1 + _) % 2 ^ 32 ≠ 0 ↔ (2 ^ 32 - 1 + _) % 2 ^ 32 % 0x10000 ≠ 0
    omega
  | true =>
    show (2 ^ 32 - 1 + _) % 2 ^ 32 ≠ 0 ↔ (2 ^ 32 - 1 + _) % 2 ^ 32 % 0x100000000 ≠ 0
    omega

theorem toNat_counted (h : s.count wide ≠ 0) :
    ((s.setSized wide ecxI (s.sized wide ecxI - 1)).r ecxI).toNat + 1 = (s.r ecxI).toNat := by
  have hsub : (s.sized wide ecxI - 1).toNat = s.count wide - 1 := by
    rw [toNat_sub]
    show (2 ^ 32 - 1 + s.count wide) % 2 ^ 32 = _
    rw [count] at h ⊢
    omega
  rw [toNat_r_setSized, hsub]
  rw [count_eq] at h ⊢
  cases wide with
  | false =>
    rw [span, if_neg (by decide)] at h ⊢
    omega
  | true =>
    rw [span, if_pos rfl] at h ⊢
    omega

end X86State

/-! ### What the body of an iteration leaves alone -/

/-- A relation that also allows what the body of an iteration does: a port access, a load of the
accumulator and a comparison. -/
class BodyFraming (R : Machine D → Machine D → Prop) : Prop extends Framing R where
  port {m m' : Machine D} (on : Bool) (hs : m'.s = x86SetA20Line m.s on)
    (hd : m'.d = { m.d with watchHit := m'.d.watchHit }) : R m m'
  acc (m : Machine D) (size : Nat) (v : BitVec 32) : R m (m.setS (m.s.setAcc size v))
  compared (m : Machine D) (a b r : BitVec 32) (size : Nat) :
    R m (m.setS (flagsSub m.s a b r size 0))

namespace BodyFraming

open Framing

variable {R : Machine D → Machine D → Prop} [BodyFraming R]
  {lin : BitVec 64} {size : Nat} {v : BitVec 32} {p : BitVec 16}

theorem getS : Quiet R (getS : X86M D X86State) := quiet .getS

theorem watchData {write : Bool} : Quiet R (watchData lin size write : X86M D Unit) :=
  quiet .watchData

theorem rdSized : Quiet R (rdSized size lin : X86M D (BitVec 32)) :=
  quiet (MemFrame.ite (MemFrame.bind MemFrame.rd8 fun _ => MemFrame.pure _)
    (MemFrame.ite (MemFrame.bind MemFrame.rd16 fun _ => MemFrame.pure _) MemFrame.rd32))

theorem wrSized : Quiet R (wrSized size lin v : X86M D Unit) :=
  quiet (MemFrame.ite MemFrame.busStore (MemFrame.ite MemFrame.busStore MemFrame.busStore))

theorem compareFlags {a b : BitVec 32} : Quiet R (compareFlags a b size : X86M D Unit) :=
  fun m => compared m a b _ size

theorem setAcc : Quiet R (modS fun s => s.setAcc size v : X86M D Unit) := fun m => acc m size v

theorem portRead : Quiet R (portRead p size : X86M D (BitVec 32)) := by
  intro m
  cases hfind : portFind m p size with
  | mk region m₁ =>
    have hm1 : m₁ = (portFind m p size).2 := by rw [hfind]
    cases region with
    | none =>
      apply SpecAt.of_fatal
      rw [X86.portRead, hfind]
    | some region =>
      refine .of_ok (by rw [X86.portRead, hfind]) ?_
      rw [hm1]
      exact port m.s.a20 (if_pos rfl).symm rfl

theorem portWrite : Quiet R (portWrite p size v : X86M D Unit) := by
  intro m
  cases hfind : portFind m p size with
  | mk region m₁ =>
    have hm1 : m₁ = (portFind m p size).2 := by rw [hfind]
    cases region with
    | none =>
      apply SpecAt.of_fatal
      rw [X86.portWrite, hfind]
    | some region =>
      refine .of_ok (by rw [X86.portWrite, hfind]) ?_
      rw [hm1]
      exact port _ rfl rfl

theorem ioBpHit : Quiet R (ioBpHit p : X86M D Unit) := fun m => port m.s.a20 (if_pos rfl).symm rfl

theorem ioIn : Quiet R (ioIn p size : X86M D (BitVec 32)) := by
  refine bind (quiet MemFrame.ioAllowed) fun allowed => ?_
  split
  · exact bind portRead fun _ => bind ioBpHit fun _ => pure _
  · exact quiet .raiseVec

theorem ioOut : Quiet R (ioOut p size v : X86M D Unit) := by
  refine bind (quiet MemFrame.ioAllowed) fun allowed => ?_
  split
  · exact bind portWrite fun _ => ioBpHit
  · exact quiet .raiseVec

theorem strBody (op : StrOp) {slin dlin : BitVec 64} :
    Quiet R (strBody op size slin dlin : X86M D Unit) := by
  cases op with
  | movs => exact bind watchData fun _ => bind watchData fun _ => bind rdSized fun _ => wrSized
  | cmps =>
    exact bind watchData fun _ => bind watchData fun _ => bind rdSized fun _ =>
      bind rdSized fun _ => compareFlags
  | stos => exact bind watchData fun _ => bind getS fun _ => wrSized
  | lods => exact bind watchData fun _ => bind rdSized fun _ => setAcc
  | ins => exact bind watchData fun _ => bind getS fun _ => bind ioIn fun _ => wrSized
  | outs => exact bind watchData fun _ => bind rdSized fun _ => bind getS fun _ => ioOut
  | scas =>
    exact bind watchData fun _ => bind getS fun _ => bind rdSized fun _ => compareFlags

theorem strChecks {op : StrOp} {sseg : Seg} {sio dio : BitVec 32} :
    Quiet R (strChecks op sseg sio dio size : X86M D Unit) := by
  apply quiet
  unfold X86.strChecks
  cases op.usesSi with
  | false =>
    cases op.usesDi with
    | false => exact MemFrame.pure ()
    | true => exact MemFrame.segUse
  | true =>
    cases op.usesDi with
    | false => exact MemFrame.bind MemFrame.segUse fun _ => MemFrame.pure ()
    | true => exact MemFrame.bind MemFrame.segUse fun _ => MemFrame.segUse

end BodyFraming

structure BodyFrame (m m' : Machine D) : Prop where
  r : ∀ i, i ≠ eaxI → m'.s.r i = m.s.r i
  d : m'.d = { m.d with watchHit := m'.d.watchHit }

namespace BodyFrame

variable {m m' m'' : Machine D}

theorem trans (h : BodyFrame m m') (h' : BodyFrame m' m'') : BodyFrame m m'' where
  r := fun i hi => (h'.r i hi).trans (h.r i hi)
  d := by
    rw [h'.d, h.d]

theorem r_x86SetA20Line (s : X86State) (on : Bool) : (x86SetA20Line s on).r = s.r := by
  unfold x86SetA20Line
  split
  · rfl
  · unfold tlbFlushAll
    dsimp only
    split <;> rfl

theorem r_setAcc (s : X86State) (size : Nat) (v : BitVec 32) {i : Reg} (hi : i ≠ eaxI) :
    (s.setAcc size v).r i = s.r i := by
  unfold setAcc
  split
  · exact r_setE_ne s _ hi
  · split
    · exact r_setE_ne s _ hi
    · exact r_setE_ne s _ hi

instance : BodyFraming (D := D) BodyFrame where
  trans := trans
  ofMem h := ⟨fun _ _ => by rw [h.r], h.d⟩
  port _ hs hd := ⟨fun _ _ => by rw [hs, r_x86SetA20Line], hd⟩
  acc m size v := ⟨fun _ hi => r_setAcc m.s size v hi, rfl⟩
  compared _ _ _ _ _ := ⟨fun _ _ => rfl, rfl⟩

end BodyFrame

/-! ### One iteration -/

def stopsAt (op : StrOp) (rep : Rep) (s : X86State) : Prop :=
  op.compares = true ∧ s.zf ≠ decide (rep = .repe)

/-- What a repeated iteration does to its counter: one less, and the instruction runs again
unless the counter is used up or the comparison stops it. -/
structure Counts (op : StrOp) (m m' : Machine D) : Prop where
  counted : (m'.s.r ecxI).toNat + 1 = (m.s.r ecxI).toNat
  stops : m'.s.count m.d.w32 = 0 ∨ stopsAt op m.d.rep m'.s → m'.d.nxt = m.d.nxt
  again : ¬(m'.s.count m.d.w32 = 0 ∨ stopsAt op m.d.rep m'.s) → m'.d.nxt = 0

theorem strAdvance_keeps (op : StrOp) (a32 : Bool) (sio dio step : BitVec 32) (s : X86State) :
    (strAdvance op a32 sio dio step s).r ecxI = s.r ecxI ∧
      (strAdvance op a32 sio dio step s).fl = s.fl := by
  have hsi (t : X86State) (v : BitVec 32) : (t.setSized a32 esiI v).r ecxI = t.r ecxI ∧
      (t.setSized a32 esiI v).fl = t.fl :=
    ⟨t.r_setSized_ne a32 v (by decide), t.fl_setSized a32 _ v⟩
  have hdi (t : X86State) (v : BitVec 32) : (t.setSized a32 ediI v).r ecxI = t.r ecxI ∧
      (t.setSized a32 ediI v).fl = t.fl :=
    ⟨t.r_setSized_ne a32 v (by decide), t.fl_setSized a32 _ v⟩
  unfold strAdvance
  cases op.usesSi with
  | false =>
    cases op.usesDi with
    | false => exact ⟨rfl, rfl⟩
    | true => exact hdi ..
  | true =>
    cases op.usesDi with
    | false => exact hsi ..
    | true => exact ⟨(hdi ..).1.trans (hsi ..).1, (hdi ..).2.trans (hsi ..).2⟩

variable {m m' : Machine D}

theorem strNext_counts (op : StrOp) (h : m.s.count m.d.w32 ≠ 0) : Counts op m (strNext op m) := by
  have hs := strNext_s op m
  have hcounted : ((strNext op m).s.r ecxI).toNat + 1 = (m.s.r ecxI).toNat := by
    rw [hs]
    exact m.s.toNat_counted m.d.w32 h
  have hzf : (strNext op m).s.zf = m.s.zf := by
    rw [hs, X86State.zf, fl_setSized]
    rfl
  have hzero : m.s.sized m.d.w32 ecxI - 1 = 0 ↔ (strNext op m).s.count m.d.w32 = 0 := by
    have hcount : (strNext op m).s.count m.d.w32 + 1 = m.s.count m.d.w32 := by
      rw [X86State.count_eq] at h ⊢
      rw [X86State.count_eq]
      exact (span_pred hcounted h).1
    rw [BitVec.sub_eq_iff_eq_add, ← toNat_inj]
    show m.s.count m.d.w32 = 1 ↔ _
    omega
  refine ⟨hcounted, fun hstop => ?_, fun hgo => ?_⟩
  · unfold strNext
    dsimp only
    split
    · rfl
    rename_i hne
    rcases hstop with hdone | ⟨hcmp, hne'⟩
    · exact absurd (hzero.mpr hdone) hne
    · rw [hzf] at hne'
      rw [hcmp, Bool.true_and, if_pos (bne_iff_ne.mpr hne')]
      rfl
  · have hne : ¬m.s.sized m.d.w32 ecxI - 1 = 0 := fun hz => hgo (.inl (hzero.mp hz))
    have hcmp : ¬(op.compares && m.s.zf != decide (m.d.rep = .repe)) = true := by
      intro hstop
      rw [Bool.and_eq_true, bne_iff_ne, ← hzf] at hstop
      exact hgo (.inr hstop)
    unfold strNext
    rw [if_neg hne, if_neg hcmp]
    rfl

theorem stringOp_counts {op : StrOp} {wide : Bool} (hrep : m.d.rep ≠ .none)
    (hidle : ¬strIdle m.d m.s) (h : stringOp op wide m = .ok () m') : Counts op m m' := by
  rw [stringOp_apply, if_neg hidle] at h
  obtain ⟨_, t, hchecks, h⟩ := bind_eq_ok h
  obtain ⟨_, t', hbody, h⟩ := bind_eq_ok h
  have hframe : BodyFrame m t' :=
    .trans (BodyFraming.strChecks.of_ok hchecks) ((BodyFraming.strBody op).of_ok hbody)
  cases h
  obtain ⟨hr, hfl⟩ := strAdvance_keeps op m.d.a32 (m.s.sized m.d.a32 esiI)
    (m.s.sized m.d.a32 ediI) (strStep m.s (strSize m.d wide)) t'.s
  have hecx := hr.trans (hframe.r ecxI (by decide))
  have hbusy : m.s.count m.d.w32 ≠ 0 := fun hzero =>
    hidle ⟨hrep, (m.s.sized_eq_zero m.d.w32).mpr hzero⟩
  have hw : t'.d.w32 = m.d.w32 := by rw [hframe.d]
  have hbusy' : (strAdvance op m.d.a32 (m.s.sized m.d.a32 esiI) (m.s.sized m.d.a32 ediI)
      (strStep m.s (strSize m.d wide)) t'.s).count t'.d.w32 ≠ 0 := by
    rwa [hw, X86State.count_eq, hecx, ← X86State.count_eq]
  have hnext := strNext_counts op (m := t'.setS (strAdvance op m.d.a32 (m.s.sized m.d.a32 esiI)
    (m.s.sized m.d.a32 ediI) (strStep m.s (strSize m.d wide)) t'.s)) hbusy'
  rw [strEnd, if_neg hrep]
  have hd : t'.d.rep = m.d.rep ∧ t'.d.nxt = m.d.nxt := by
    rw [hframe.d]
    exact ⟨rfl, rfl⟩
  obtain ⟨hcounted, hstops, hagain⟩ := hnext
  refine ⟨hcounted.trans (congrArg BitVec.toNat hecx), ?_, ?_⟩
  · intro hstop
    rw [← hw, ← hd.1] at hstop
    exact (hstops hstop).trans hd.2
  · intro hgo
    rw [← hw, ← hd.1] at hgo
    exact hagain hgo

/-! ### A whole run -/

/-- A run of a repeated instruction in the context `d`, with the machine behind each iteration.
Between two iterations devices run and interrupts are served; the general registers come back as
they were. A run that is not done may have been cut anywhere. -/
inductive RepRun (op : StrOp) (wide : Bool) (d : Dec) :
    Bool → Machine D → List (Machine D) → Prop
  | idle {m : Machine D} (hidle : strIdle d m.s) : RepRun op wide d true m []
  | cut {m : Machine D} : RepRun op wide d false m []
  | last {m m₁ : Machine D} (hbusy : ¬strIdle d m.s)
      (hrun : stringOp op wide (m.setD d) = .ok () m₁) (hnxt : m₁.d.nxt ≠ 0) :
      RepRun op wide d true m [m₁]
  | more {done : Bool} {m m₁ m₂ : Machine D} {ms : List (Machine D)} (hbusy : ¬strIdle d m.s)
      (hrun : stringOp op wide (m.setD d) = .ok () m₁) (hnxt : m₁.d.nxt = 0)
      (hback : m₂.s.r = m₁.s.r) (hrest : RepRun op wide d done m₂ ms) :
      RepRun op wide d done m (m₁ :: ms)

def endOf (m : Machine D) (ms : List (Machine D)) : Machine D := ms.getLast?.getD m

theorem endOf_cons (m m₁ : Machine D) (ms : List (Machine D)) :
    endOf m (m₁ :: ms) = endOf m₁ ms := by
  rw [endOf, List.getLast?_cons, Option.getD_some, endOf]

theorem endOf_r (ms : List (Machine D)) (h : m'.s.r = m.s.r) :
    (endOf m' ms).s.r = (endOf m ms).s.r := by
  cases ms with
  | nil => exact h
  | cons m₁ ms => rw [endOf_cons, endOf_cons]

/-- A run counts in CX or ECX: each iteration takes one from the register and leaves the bits
above it alone; a move runs until the register is zero, a comparison until then or until the
first comparison that stops it. -/
structure CountsIn (wide : Bool) (op : StrOp) (rep : Rep) (done : Bool) (m : Machine D)
    (ms : List (Machine D)) : Prop where
  left : (endOf m ms).s.count wide + ms.length = m.s.count wide
  above : ((endOf m ms).s.r ecxI).toNat / span wide = (m.s.r ecxI).toNat / span wide
  all : done = true → op.compares = false → ms.length = m.s.count wide
  held : ∀ t ∈ ms.dropLast, ¬stopsAt op rep t.s
  stopped : done = true → op.compares = true →
    ms.length = m.s.count wide ∨ ∃ t, ms.getLast? = some t ∧ stopsAt op rep t.s

section Run

variable {op : StrOp} {wide : Bool} {d : Dec} {m m₁ : Machine D}

theorem iteration_counts (hrep : d.rep ≠ .none) (hbusy : ¬strIdle d m.s)
    (hrun : stringOp op wide (m.setD d) = .ok () m₁) :
    m₁.s.count d.w32 + 1 = m.s.count d.w32 ∧
      (m₁.s.r ecxI).toNat / span d.w32 = (m.s.r ecxI).toNat / span d.w32 := by
  have hcounts : Counts op (m.setD d) m₁ := stringOp_counts hrep hbusy hrun
  have hne : m.s.count d.w32 ≠ 0 := fun hzero =>
    hbusy ⟨hrep, (m.s.sized_eq_zero d.w32).mpr hzero⟩
  rw [X86State.count_eq] at hne ⊢
  rw [X86State.count_eq]
  exact span_pred hcounts.counted hne

theorem RepRun.countsIn {done : Bool} {ms : List (Machine D)} (hrep : d.rep ≠ .none)
    (hnxt : d.nxt ≠ 0) (h : RepRun op wide d done m ms) : CountsIn d.w32 op d.rep done m ms := by
  induction h with
  | @idle m hidle =>
    have hzero : m.s.count d.w32 = 0 := (m.s.sized_eq_zero d.w32).mp hidle.2
    exact ⟨rfl, rfl, fun _ _ => hzero.symm, by simp, fun _ _ => .inl hzero.symm⟩
  | cut => exact ⟨rfl, rfl, nofun, by simp, nofun⟩
  | @last m m₁ hbusy hrun hnxt1 =>
    obtain ⟨hcount, habove⟩ := iteration_counts hrep hbusy hrun
    have hcounts : Counts op (m.setD d) m₁ := stringOp_counts hrep hbusy hrun
    have hstop : m₁.s.count d.w32 = 0 ∨ stopsAt op d.rep m₁.s := by
      by_contra hgo
      exact hnxt1 (hcounts.again hgo)
    refine ⟨hcount, habove, fun _ hmove => ?_, by simp, fun _ _ => ?_⟩
    · rcases hstop with hzero | ⟨hcmp, -⟩
      · rw [← hcount, hzero]
        rfl
      · rw [hmove] at hcmp
        cases hcmp
    · rcases hstop with hzero | hstop
      · exact .inl (by rw [← hcount, hzero]; rfl)
      · exact .inr ⟨m₁, rfl, hstop⟩
  | @more done m m₁ m2 ms hbusy hrun hnxt1 hback hrest ih =>
    obtain ⟨hcount, habove⟩ := iteration_counts hrep hbusy hrun
    have hcounts : Counts op (m.setD d) m₁ := stringOp_counts hrep hbusy hrun
    -- the counter that the rest of the run starts from
    have hcount2 : m2.s.count d.w32 = m₁.s.count d.w32 := by
      rw [X86State.count_eq, X86State.count_eq, hback]
    have hgo : ¬(m₁.s.count d.w32 = 0 ∨ stopsAt op d.rep m₁.s) := fun hstop =>
      hnxt ((hcounts.stops hstop).symm.trans hnxt1)
    have hend := endOf_r ms hback.symm
    refine ⟨?_, ?_, fun hdone hmove => ?_, ?_, fun hdone hcmp => ?_⟩
    · have hleft := ih.left
      rw [X86State.count_eq, ← hend, ← X86State.count_eq, ← endOf_cons m] at hleft
      rw [List.length_cons]
      omega
    · rw [endOf_cons, hend, ih.above, hback, habove]
    · rw [List.length_cons, ih.all hdone hmove, hcount2, hcount]
    · intro t ht
      cases ms with
      | nil => simp at ht
      | cons m3 ms =>
        rw [List.dropLast_cons_cons, List.mem_cons] at ht
        rcases ht with rfl | ht
        · exact fun hstop => hgo (.inr hstop)
        · exact ih.held t ht
    · rcases ih.stopped hdone hcmp with hall | ⟨t, hlast, hstop⟩
      · exact .inl (by rw [List.length_cons, hall, hcount2, hcount])
      · refine .inr ⟨t, ?_, hstop⟩
        rw [List.getLast?_cons, hlast, Option.getD_some]

end Run

/-! ### The prefixes in front of the opcode -/

variable {m t : Machine D} {rel : BitVec 8}

theorem fetch8_ok {b : BitVec 8} (h : fetch8 m = .ok b t) : t.s.r = m.s.r ∧ t.s.fl = m.s.fl ∧
      t.d = { m.d with nxt := m.d.nxt + 1, watchHit := t.d.watchHit } := by
  have hfetch : fetch8 m =
      if m.s.pe && decide ((m.s.seg .cs).limit < m.eip + m.d.nxt) then gpFault 0 m
      else (fetchByte (linOf m.s .cs (m.eip + m.d.nxt)) m.s.user >>= fun v => do
        modD fun d => { d with nxt := d.nxt + 1 }
        pure v) m := by
    show (if _ then _ else _ : X86M D (BitVec 8)) m = _
    split <;> rfl
  rw [hfetch] at h
  split at h
  · cases h
  obtain ⟨v, t', hbyte, h⟩ := bind_eq_ok h
  have hframe := MemFrame.fetchByte.of_ok hbyte
  cases h
  refine ⟨hframe.r, hframe.fl, ?_⟩
  show ({ t'.d with nxt := t'.d.nxt + 1 }) = _
  rw [hframe.d]
  rfl

/-- The context in front of the byte behind the prefixes `ps`. -/
def Dec.behind (dflt : Bool) (ps : List Prefix) : Dec :=
  { ps.foldl (Dec.applyPrefix dflt) (Dec.start dflt) with nxt := BitVec.ofNat 32 ps.length }

theorem applyPrefix_with (dflt : Bool) (d : Dec) (p : Prefix) (nxt hits : BitVec 32) :
    Dec.applyPrefix dflt { d with nxt := nxt, watchHit := hits } p =
      { d.applyPrefix dflt p with nxt := nxt, watchHit := hits } := by
  cases p <;> rfl

/-- The opcode of a step runs in the context of the prefixes in front of it. -/
theorem doStep_prefixed {run : BitVec 8 → X86M D Unit} {dflt : Bool} {fuel : Nat} {m' : Machine D}
    (ps : List Prefix) (hd : m.d = { Dec.behind dflt ps with watchHit := m.d.watchHit })
    (h : doStep run dflt fuel m = .ok () m') :
    ∃ qs b t, prefixOf b = none ∧ t.s.r = m.s.r ∧
      t.d = { Dec.prefixed dflt qs with watchHit := t.d.watchHit } ∧ run b t = .ok () m' := by
  induction fuel generalizing m ps with
  | zero => cases h
  | succ fuel ih =>
    obtain ⟨b, t, hfetch, h⟩ := bind_eq_ok h
    obtain ⟨hr, -, htd⟩ := fetch8_ok hfetch
    have hnext : t.d = { Dec.prefixed dflt ps with watchHit := t.d.watchHit } := by
      rw [htd, hd, Dec.behind, Dec.prefixed, BitVec.ofNat_add]
      rfl
    cases hb : prefixOf b with
    | none =>
      rw [hb] at h
      exact ⟨ps, b, t, hb, hr, hnext, h⟩
    | some p =>
      rw [hb] at h
      have happlied : t.d.applyPrefix dflt p =
          { Dec.behind dflt (ps ++ [p]) with watchHit := t.d.watchHit } := by
        rw [Dec.behind, List.foldl_append, List.length_append]
        rw [congrArg (Dec.applyPrefix dflt · p) hnext]
        exact applyPrefix_with dflt (ps.foldl (Dec.applyPrefix dflt) (Dec.start dflt)) p
          (BitVec.ofNat 32 (ps.length + 1)) t.d.watchHit
      obtain ⟨qs, b', t', hb', hr', hd', hrun⟩ := ih (m := t.setD (t.d.applyPrefix dflt p))
        (ps ++ [p]) (by cases p <;> exact happlied) h
      exact ⟨qs, b', t', hb', hr'.trans hr, hd', hrun⟩

/-! ### LOOP -/

/-- LOOP counts in CX or ECX: it takes one from the register, leaves the bits above it alone, and
branches when the register is not zero then and the condition holds. -/
def LoopCounts (wide : Bool) (op : LoopOp) (rel : BitVec 8) (m : Machine D) : Prop :=
  ∃ m', loopOp op m = .ok () m' ∧
    m'.s.r ecxI = (m.s.setSized wide ecxI (m.s.sized wide ecxI - 1)).r ecxI ∧
    m'.d.nxt = m.d.nxt + 1 +
      if m'.s.count wide ≠ 0 ∧ op.holds m.s = true then rel.signExtend 32 else 0

theorem holds_congr (op : LoopOp) {s t : X86State} (h : s.fl = t.fl) : op.holds s = op.holds t := by
  cases op <;>
    simp only [LoopOp.holds, cond, X86State.of, X86State.cf, X86State.zf, X86State.sf,
      X86State.pf, h]

theorem loopOp_ok (op : LoopOp) (h : fetch8 m = .ok rel t) :
    ∃ m', loopOp op m = .ok () m' ∧ m'.s = t.s.setSized t.d.w32 ecxI (t.s.sized t.d.w32 ecxI - 1) ∧
      m'.d.nxt = t.d.nxt +
        if t.s.sized t.d.w32 ecxI - 1 ≠ 0 ∧ op.holds t.s = true then rel.signExtend 32 else 0 := by
  rw [loopOp, bind_of_ok h]
  show ∃ m', (if decide (t.s.sized t.d.w32 ecxI - 1 ≠ 0) && op.holds t.s then _ else _ :
    X86M D Unit) (t.setS (t.s.setSized t.d.w32 ecxI (t.s.sized t.d.w32 ecxI - 1))) = _ ∧ _
  cases htaken : decide (t.s.sized t.d.w32 ecxI - 1 ≠ 0) && op.holds t.s with
  | true =>
    rw [Bool.and_eq_true, decide_eq_true_eq] at htaken
    rw [if_pos htaken]
    exact ⟨_, rfl, rfl, rfl⟩
  | false =>
    have hstay : ¬(t.s.sized t.d.w32 ecxI - 1 ≠ 0 ∧ op.holds t.s = true) := by
      rintro ⟨hne, hholds⟩
      rw [decide_eq_true hne, hholds] at htaken
      cases htaken
    rw [if_neg hstay]
    exact ⟨_, rfl, rfl, (BitVec.add_zero _).symm⟩

theorem loopOp_counts (op : LoopOp) (h : fetch8 m = .ok rel t) : LoopCounts m.d.w32 op rel m := by
  obtain ⟨hr, hfl, hd⟩ := fetch8_ok h
  obtain ⟨m', hloop, hs, hnxt⟩ := loopOp_ok op h
  have hw : t.d.w32 = m.d.w32 := by rw [hd]
  have hsized : t.s.sized m.d.w32 ecxI = m.s.sized m.d.w32 ecxI :=
    eq_of_toNat_eq (by rw [X86State.toNat_sized, X86State.toNat_sized, hr])
  rw [hw, hsized] at hs hnxt
  refine ⟨m', hloop, ?_, ?_⟩
  · apply eq_of_toNat_eq
    rw [hs, X86State.toNat_r_setSized, X86State.toNat_r_setSized, hr]
  · -- the 32-bit difference and the register are zero together
    have htest : m.s.sized m.d.w32 ecxI - 1 ≠ 0 ↔ m'.s.count m.d.w32 ≠ 0 := by
      rw [hs, X86State.count_setSized]
      exact m.s.sized_pred_ne_zero m.d.w32
    simp only [hnxt, htest, holds_congr op hfl]
    rw [hd]

/-- Counting at either width gives the same cell exactly when no borrow reaches the upper half. -/
theorem counted_eq_iff (s : X86State) : (s.setSized true ecxI (s.sized true ecxI - 1)).r ecxI =
      (s.setSized false ecxI (s.sized false ecxI - 1)).r ecxI ↔ s.count false ≠ 0 := by
  have hpred (wide : Bool) : ((s.setSized wide ecxI (s.sized wide ecxI - 1)).r ecxI).toNat =
      (s.r ecxI).toNat / span wide * span wide +
        (2 ^ 32 - 1 + (s.r ecxI).toNat % span wide) % 2 ^ 32 % span wide := by
    rw [X86State.toNat_r_setSized, toNat_sub, X86State.toNat_sized]
    rfl
  rw [← toNat_inj, hpred, hpred]
  show (s.r ecxI).toNat / 0x100000000 * 0x100000000 +
      (2 ^ 32 - 1 + (s.r ecxI).toNat % 0x100000000) % 2 ^ 32 % 0x100000000 =
    (s.r ecxI).toNat / 0x10000 * 0x10000 +
      (2 ^ 32 - 1 + (s.r ecxI).toNat % 0x10000) % 2 ^ 32 % 0x10000 ↔
    (s.r ecxI).toNat % 0x10000 ≠ 0
  omega

/-- Two branches under one condition are the same when the tests agree, the condition fails or
the displacement is zero. -/
theorem ite_and_eq_iff {p q : Prop} [Decidable p] [Decidable q] (b : Bool) (v : BitVec 32) :
    ((if p ∧ b = true then v else 0) = if q ∧ b = true then v else 0) ↔
      (p ↔ q) ∨ b = false ∨ v = 0 := by
  cases b with
  | false => simp
  | true =>
    by_cases hp : p
    · by_cases hq : q
      · simp [hp, hq]
      · simp [hp, hq]
    by_cases hq : q
    · simp only [hp, hq, false_iff, not_true, false_or, Bool.true_eq_false]
      exact eq_comm
    · simp [hp, hq]

/-- Where the two sizes differ, LOOP counts as the address size wants exactly when no borrow
reaches the upper half and the branch does not depend on the size. -/
theorem loopCounts_iff (op : LoopOp) (h : fetch8 m = .ok rel t) (hne : m.d.a32 ≠ m.d.w32) :
    LoopCounts m.d.a32 op rel m ↔ m.s.count false ≠ 0 ∧ (m.s.count false = 1 →
        m.s.count true = 1 ∨ op.holds m.s = false ∨ rel = 0) := by
  obtain ⟨m', hloop, hcell, hnxt⟩ := loopOp_counts op h
  have hcell' : m'.s.r ecxI = (m.s.setSized m.d.a32 ecxI (m.s.sized m.d.a32 ecxI - 1)).r ecxI ↔
      m.s.count false ≠ 0 := by
    rw [hcell, ← counted_eq_iff]
    cases ha : m.d.a32 <;> cases hw : m.d.w32
    · exact absurd (ha.trans hw.symm) hne
    · exact .rfl
    · exact eq_comm
    · exact absurd (ha.trans hw.symm) hne
  have hrel : rel.signExtend 32 = 0 ↔ rel = 0 := by
    constructor
    · exact SignExtend.eq_zero_of_signExtend (by decide)
    · rintro rfl
      decide
  have hbranch (hcx : m.s.count false ≠ 0) : (m'.s.count m.d.w32 ≠ 0 ↔ m'.s.count m.d.a32 ≠ 0) ↔
        (m.s.count false = 1 → m.s.count true = 1) := by
    have hlow := m.s.count_eq false
    have hall := m.s.count_eq true
    change _ = _ % 0x10000 at hlow
    change _ = _ % 0x100000000 at hall
    have hpred : (m'.s.r ecxI).toNat + 1 = (m.s.r ecxI).toNat := by
      rw [hcell]
      apply m.s.toNat_counted
      cases m.d.w32 with
      | false => exact hcx
      | true => omega
    have htests : (m'.s.count true ≠ 0 ↔ m'.s.count false ≠ 0) ↔
        (m.s.count false = 1 → m.s.count true = 1) := by
      rw [X86State.count_eq m'.s]
      show ((m'.s.r ecxI).toNat % 0x100000000 ≠ 0 ↔ (m'.s.r ecxI).toNat % 0x10000 ≠ 0) ↔ _
      omega
    rw [← htests]
    cases ha : m.d.a32 <;> cases hw : m.d.w32
    · exact absurd (ha.trans hw.symm) hne
    · exact .rfl
    · exact iff_comm
    · exact absurd (ha.trans hw.symm) hne
  have honly : LoopCounts m.d.a32 op rel m ↔
      m'.s.r ecxI = (m.s.setSized m.d.a32 ecxI (m.s.sized m.d.a32 ecxI - 1)).r ecxI ∧
        m'.d.nxt = m.d.nxt + 1 +
          if m'.s.count m.d.a32 ≠ 0 ∧ op.holds m.s = true then rel.signExtend 32 else 0 := by
    constructor
    · rintro ⟨m'', hloop', hrest⟩
      rw [hloop] at hloop'
      cases hloop'
      exact hrest
    · exact fun hrest => ⟨m', hloop, hrest⟩
  rw [honly, hcell']
  apply and_congr_right
  intro hcx
  rw [hnxt, BitVec.add_right_inj, ite_and_eq_iff, hbranch hcx, hrel]
  constructor
  · rintro (hsame | hrest) hone
    · exact .inl (hsame hone)
    · exact .inr hrest
  · intro hcond
    by_cases hone : m.s.count false = 1
    · rcases hcond hone with hecx | hrest
      · exact .inl fun _ => hecx
      · exact .inr hrest
    · exact .inl fun hone' => absurd hone' hone

end Cemu.X86
