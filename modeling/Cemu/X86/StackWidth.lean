import Cemu.X86.EnterFrame
import Cemu.X86.FarTransfer
import Cemu.X86.Stores

/-!
# x86: the width of the stack pointer

SS.B says how wide the stack pointer is, the operand size says how much moves: `EspMoved k` is a
move by `k` bytes at the width of the stack. Pushes, pops and everything built from them alone
compose such moves; the instructions that also adjust ESP by hand are compared with one.
-/

namespace Cemu.X86

open List

open RaiseM X86State
open BitVec hiding and_comm neg_add neg_zero sub_eq_add_neg

variable {D : Type}

/-! ### Moves of the stack pointer -/

/-- A pointer moved by `k` at the width of the stack. -/
def moved (b : Bool) (esp k : BitVec 32) : BitVec 32 := withPart b esp (esp + k)

theorem moved_zero (b : Bool) (esp : BitVec 32) : moved b esp 0 = esp := by
  rw [moved, show esp + 0 = esp from BitVec.add_zero esp]
  cases b
  · apply eq_of_toNat_eq
    rw [toNat_withPart_false]
    omega
  · rfl

theorem moved_moved (b : Bool) (esp j k : BitVec 32) :
    moved b (moved b esp j) k = moved b esp (j + k) := by
  cases b
  · apply eq_of_toNat_eq
    simp only [moved, toNat_withPart_false, toNat_add]
    omega
  · exact BitVec.add_assoc esp j k

structure EspMoved (k : BitVec 32) (m m' : Machine D) : Prop where
  esp : m'.s.r espI = moved m.s.stackWide (m.s.r espI) k
  ss : m'.s.seg .ss = m.s.seg .ss
  w32 : m'.d.w32 = m.d.w32

namespace EspMoved

variable {j k : BitVec 32} {m m1 m' : Machine D}

theorem stackWide (h : EspMoved k m m') : m'.s.stackWide = m.s.stackWide :=
  congrArg SegReg.dbit h.ss

theorem trans (h : EspMoved j m m1) (h' : EspMoved k m1 m') : EspMoved (j + k) m m' where
  esp := by rw [h'.esp, h.stackWide, h.esp, moved_moved]
  ss := h'.ss.trans h.ss
  w32 := h'.w32.trans h.w32

theorem of_kept (hesp : m'.s.r espI = m.s.r espI) (hss : m'.s.seg .ss = m.s.seg .ss)
    (hw : m'.d.w32 = m.d.w32) : EspMoved 0 m m' :=
  ⟨hesp.trans (moved_zero ..).symm, hss, hw⟩

theorem of_memFrame (h : MemFrame m m') : EspMoved 0 m m' :=
  of_kept (congrFun h.r _) (congrFun h.seg _) (SameStack.of_memFrame h).w32

theorem then_kept (h : EspMoved k m m1) (h' : EspMoved 0 m1 m') : EspMoved k m m' := by
  have := h.trans h'
  rwa [show k + 0 = k from BitVec.add_zero k] at this

theorem kept_then (h : EspMoved 0 m m1) (h' : EspMoved k m1 m') : EspMoved k m m' := by
  have := h.trans h'
  rwa [show 0 + k = k from BitVec.zero_add k] at this

-- What leaves the pointer alone on every path.

instance : Framing (D := D) (EspMoved 0) := ⟨then_kept, of_memFrame⟩

theorem setSeg {seg : Seg} {r : SegReg} (hne : seg ≠ .ss) :
    Quiet (EspMoved 0) (modS fun s => s.setSeg seg r : X86M D Unit) :=
  fun _ => of_kept rfl (seg_setSeg_ne _ _ (.symm hne)) rfl

theorem segCommit {seg : Seg} {sel : BitVec 16} {v : SegView} (hne : seg ≠ .ss) :
    Quiet (EspMoved 0) (segCommit seg sel v : X86M D Unit) := Framing.segCommit (setSeg hne)

theorem loadCs {sel : BitVec 16} : Quiet (EspMoved 0) (loadCs sel : X86M D Unit) :=
  Framing.loadCs fun _ => setSeg (by decide)

end EspMoved

def words (w32 : Bool) (k : Nat) : BitVec 32 := BitVec.ofNat 32 (opSize w32 * k)

theorem words_add (w32 : Bool) (j k : Nat) : words w32 (j + k) = words w32 j + words w32 k := by
  rw [words, Nat.mul_add, ofNat_add]
  rfl

theorem words_zero (w32 : Bool) : words w32 0 = 0 := rfl

theorem words_one (w32 : Bool) : words w32 1 = .ofNat 32 (opSize w32) := by
  rw [words, Nat.mul_one]

theorem words_succ (w32 : Bool) (k : Nat) :
    words w32 (k + 1) = .ofNat 32 (opSize w32) + words w32 k := by
  rw [Nat.add_comm, words_add, words_one]

section Steps

variable {m m' : Machine D} {v : BitVec 32}

theorem stackPush_moved {size : Nat} (h : stackPush size v m = .ok () m') :
    EspMoved (-.ofNat 32 size) m m' := by
  obtain ⟨m1, -, hframe, rfl⟩ := stackPush_returns h
  refine ⟨?_, congrFun hframe.seg _, (SameStack.of_memFrame hframe).w32⟩
  rw [moved, ← sub_eq_add_neg]
  exact r_setE_same ..

theorem stackPop_moved {size : Nat} (h : stackPop size m = .ok v m') :
    EspMoved (.ofNat 32 size) m m' := by
  obtain ⟨m1, -, hframe, rfl⟩ := stackPop_returns h
  exact ⟨r_setE_same .., congrFun hframe.seg _, (SameStack.of_memFrame hframe).w32⟩

theorem kstackPush_moved {size : Nat} (h : kstackPush size v m = .ok () m') :
    EspMoved (-.ofNat 32 size) m m' := by
  obtain ⟨_, m1, huse, h⟩ := bind_eq_ok (show ((segUse .ss (pushOff m.s size) size true :
    X86M D Unit) >>= _) m = _ from h)
  obtain ⟨_, m2, hwatch, h⟩ := bind_eq_ok h
  obtain ⟨_, m3, hwr, h⟩ := bind_eq_ok h
  have hstore : Quiet MemFrame (kwrStack size (linOf m.s .ss (pushOff m.s size)) v : X86M D Unit) :=
    MemFrame.ite MemFrame.kbusStore MemFrame.kbusStore
  have hframe : MemFrame m m3 := ((MemFrame.segUse.of_ok huse).trans
    (MemFrame.watchData.of_ok hwatch)).trans (hstore.of_ok hwr)
  have hesp : pushEsp m3.s (pushOff m.s size) = moved m.s.stackWide (m.s.r espI)
      (-.ofNat 32 size) := by
    rw [pushEsp, hframe.seg, hframe.r, moved, ← sub_eq_add_neg, ← pushEsp_eq]
    rfl
  cases h
  exact ⟨(r_setE_same ..).trans hesp, congrFun hframe.seg _, (SameStack.of_memFrame hframe).w32⟩

theorem pushW_moved (h : pushW v m = .ok () m') : EspMoved (-words m.d.w32 1) m m' := by
  rw [words_one]
  exact stackPush_moved h

theorem popW_moved (h : popW m = .ok v m') : EspMoved (words m.d.w32 1) m m' := by
  rw [words_one]
  exact stackPop_moved h

theorem setEip_kept (h : setEip v m = .ok () m') : EspMoved 0 m m' := by
  cases h
  exact .of_kept rfl rfl rfl

theorem setSized_kept {i : Reg} (wide : Bool) (v : BitVec 32) (hi : i ≠ espI)
    (h : modS (fun s => s.setSized wide i v) m = .ok () m') : EspMoved 0 m m' := by
  cases h
  exact .of_kept (r_setSized_ne _ _ _ (.symm hi)) (by
    show (m.s.setSized wide i v).seg .ss = _
    rw [seg_setSized]) rfl

end Steps

/-! ### Instructions made of pushes and pops -/

section Instructions

variable {m m' : Machine D} {w32 : Bool} {vs : List (BitVec 32)}

theorem pushAll_moved (h : pushAll (opSize w32) vs m = .ok () m') :
    EspMoved (-words w32 vs.length) m m' := by
  induction vs generalizing m with
  | nil =>
    cases h
    rw [length_nil, words_zero]
    exact .of_kept rfl rfl rfl
  | cons v rest ih =>
    obtain ⟨_, m1, hpush, h⟩ := bind_eq_ok h
    rw [length_cons, words_succ, neg_add]
    exact (stackPush_moved hpush).trans (ih h)

theorem kpushAll_moved (h : kpushAll (opSize w32) vs m = .ok () m') :
    EspMoved (-words w32 vs.length) m m' := by
  induction vs generalizing m with
  | nil =>
    cases h
    rw [length_nil, words_zero]
    exact .of_kept rfl rfl rfl
  | cons v rest ih =>
    obtain ⟨_, m1, hpush, h⟩ := bind_eq_ok h
    rw [length_cons, words_succ, neg_add]
    exact (kstackPush_moved hpush).trans (ih h)

theorem popAll_moved {regs : List Reg} (h : popAll w32 regs m = .ok () m') :
    EspMoved (words w32 regs.length) m m' := by
  induction regs generalizing m with
  | nil =>
    cases h
    exact .of_kept rfl rfl rfl
  | cons i rest ih =>
    obtain ⟨v, m1, hpop, h⟩ := bind_eq_ok h
    obtain ⟨_, m2, hset, h⟩ := bind_eq_ok h
    have hkept : EspMoved 0 m1 m2 := by
      unfold popInto at hset
      split at hset
      · cases hset
        exact .of_kept rfl rfl rfl
      · next hi => exact setSized_kept w32 v hi hset
    rw [length_cons, words_succ]
    exact ((stackPop_moved hpop).then_kept hkept).trans (ih h)

theorem pusha_moved (h : pusha m = .ok () m') : EspMoved (-words m.d.w32 8) m m' := pushAll_moved h

theorem popa_moved (h : popa m = .ok () m') : EspMoved (words m.d.w32 8) m m' := popAll_moved h

theorem callRel_moved {rel : BitVec 32} (h : callRel rel m = .ok () m') :
    EspMoved (-words m.d.w32 1) m m' := by
  obtain ⟨_, m1, hpush, h⟩ := bind_eq_ok (show ((pushW _) >>= _) m = _ from h)
  cases h
  exact (pushW_moved hpush).then_kept (.of_kept rfl rfl rfl)

theorem rmW_kept {v : BitVec 32} (h : rmW m = .ok v m') : EspMoved 0 m m' := by
  have hquiet : Quiet MemFrame (rmW : X86M D (BitVec 32)) :=
    MemFrame.bind .getD fun _ =>
      MemFrame.ite MemFrame.rm32 (MemFrame.bind MemFrame.rm16 fun _ => MemFrame.pure _)
  exact .of_memFrame (hquiet.of_ok h)

theorem callRm_moved (h : callRm m = .ok () m') : EspMoved (-words m.d.w32 1) m m' := by
  obtain ⟨t, m1, hrm, h⟩ := bind_eq_ok h
  have hkept := rmW_kept hrm
  obtain ⟨_, m2, hpush, h⟩ := bind_eq_ok (show ((pushW _) >>= _) m1 = _ from h)
  have hmoved := pushW_moved hpush
  rw [hkept.w32] at hmoved
  exact (hkept.kept_then hmoved).then_kept (setEip_kept h)

theorem ret_moved (h : ret m = .ok () m') : EspMoved (words m.d.w32 1) m m' := by
  obtain ⟨t, m1, hpop, h⟩ := bind_eq_ok h
  exact (popW_moved hpop).then_kept (setEip_kept h)

theorem popReg_esp {i : Reg} (h : popReg i m = .ok () m') : ∃ v, m'.s.r espI =
      if i = espI then withPart m.d.w32 (moved m.s.stackWide (m.s.r espI) (words m.d.w32 1)) v
      else moved m.s.stackWide (m.s.r espI) (words m.d.w32 1) := by
  obtain ⟨v, m1, hpop, h⟩ := bind_eq_ok (show (popW >>= _) m = _ from h)
  have hmoved := popW_moved hpop
  cases h
  refine ⟨v, ?_⟩
  show (m1.s.setSized m.d.w32 i v).r espI = _
  split
  · next hi => rw [hi, r_setSized_same, hmoved.esp]
  · next hi => rw [r_setSized_ne _ _ _ (.symm hi), hmoved.esp]

theorem popData_esp {seg : Seg} (h : popData seg m = .ok () m') :
    m'.s.r espI = moved m.s.stackWide (m.s.r espI) (words m.d.w32 1) := by
  obtain ⟨v, m1, hpop, h⟩ := bind_eq_ok h
  rw [show m'.s.r = m1.s.r from (Framing.loadData fun _ => StateKept.modS fun _ => rfl).of_ok h]
  exact (popW_moved hpop).esp

theorem popSs_esp (h : popSs m = .ok () m') :
    m'.s.r espI = moved m.s.stackWide (m.s.r espI) (words m.d.w32 1) := by
  obtain ⟨v, m1, hpop, h⟩ := bind_eq_ok h
  obtain ⟨_, m2, hload, h⟩ := bind_eq_ok h
  cases h
  show m2.s.r espI = _
  rw [show m2.s.r = m1.s.r from (Framing.loadSs fun _ => StateKept.modS fun _ => rfl).of_ok hload]
  exact (popW_moved hpop).esp

def Dec.regDest (d : Dec) : Option Reg := if d.isMem then none else some d.rm

theorem setRmSized_apply (w32 : Bool) (v : BitVec 32) (m : Machine D) :
    ∃ u, setRmSized (opSize w32) v m = if m.d.isMem then
        (memOperand (opSize w32) true >>= fun _ => busStore m.d.mlin (opSize w32) u : X86M D Unit) m
      else .ok () (m.setS (m.s.setSized w32 m.d.rm v)) := by
  cases w32
  · refine ⟨(v.setWidth 16).setWidth 64, ?_⟩
    show (if m.d.isMem then _ else _ : X86M D Unit) m = _
    cases m.d.isMem <;> rfl
  · refine ⟨v.setWidth 64, ?_⟩
    show (if m.d.isMem then _ else _ : X86M D Unit) m = _
    cases m.d.isMem <;> rfl

theorem setRmSized_esp {v : BitVec 32} (h : setRmSized (opSize w32) v m = .ok () m') :
    m'.s.r espI = if m.d.regDest = some espI then withPart w32 (m.s.r espI) v else m.s.r espI := by
  obtain ⟨u, hrun⟩ := setRmSized_apply w32 v m
  rw [hrun] at h
  unfold Dec.regDest
  split at h
  · next hmem =>
    have hquiet : Quiet MemFrame (memOperand (opSize w32) true >>= fun _ =>
        busStore m.d.mlin (opSize w32) u : X86M D Unit) :=
      MemFrame.bind MemFrame.memOperand fun _ => MemFrame.busStore
    rw [hmem]
    exact congrFun (hquiet.of_ok h).r _
  · next hmem =>
    cases h
    show (m.s.setSized w32 m.d.rm v).r espI = _
    rw [if_neg hmem]
    by_cases hrm : m.d.rm = espI
    · rw [hrm, r_setSized_same, if_pos rfl]
    · rw [r_setSized_ne _ _ _ (.symm hrm), if_neg (by simpa using hrm)]

theorem popRm_esp (h : popRm m = .ok () m') : ∃ v, m'.s.r espI = if m.d.regDest = some espI then
        withPart m.d.w32 (moved m.s.stackWide (m.s.r espI) (words m.d.w32 1)) v
      else moved m.s.stackWide (m.s.r espI) (words m.d.w32 1) := by
  obtain ⟨v, m1, hpop, h⟩ := bind_eq_ok h
  have hmoved := popW_moved hpop
  obtain ⟨m0, -, hframe, hm1⟩ := stackPop_returns hpop
  have hd : m1.d = { m.d with watchHit := m1.d.watchHit } := by
    rw [hm1]
    exact hframe.d
  let d' := m1.d.readdress m1.s
  have hw : d'.w32 = m.d.w32 := by
    rw [← hmoved.w32]
    show (Dec.readdress _ _).w32 = _
    unfold Dec.readdress
    split <;> rfl
  have hdest : d'.regDest = m.d.regDest := by
    have : d'.isMem = m.d.isMem ∧ d'.rm = m.d.rm := by
      show (Dec.readdress _ _).isMem = _ ∧ (Dec.readdress _ _).rm = _
      unfold Dec.readdress
      rw [hd]
      split <;> exact ⟨rfl, rfl⟩
    rw [Dec.regDest, Dec.regDest, this.1, this.2]
  have hset : setRmSized (opSize d'.w32) v (m1.setD d') = .ok () m' := h
  have hesp := setRmSized_esp hset
  refine ⟨v, ?_⟩
  rw [hesp]
  show (if d'.regDest = some espI then withPart d'.w32 (m1.s.r espI) v else m1.s.r espI) = _
  rw [hdest, hw, hmoved.esp]

end Instructions

/-! ### Adjustments by hand -/

theorem withPart_congr {b : Bool} (old : BitVec 32) {u v : BitVec 32} (h : part b u = part b v) :
    withPart b old u = withPart b old v := by
  cases b
  · have hnat := congrArg BitVec.toNat h
    rw [toNat_part_false, toNat_part_false] at hnat
    apply eq_of_toNat_eq
    rw [toNat_withPart_false, toNat_withPart_false, hnat]
  · exact h

theorem part_part_add (b : Bool) (v k : BitVec 32) : part b (part b v + k) = part b (v + k) := by
  have h := part_sub_part (b := b) v (-k)
  rwa [sub_neg_eq_add, sub_neg_eq_add] at h

/-- Adding at the width of the operand is adding at the width of the stack exactly when the
widths agree or the low half does not overflow. -/
theorem release_iff (w b : Bool) (e : BitVec 32) (n : BitVec 16) :
    withPart w e (part w e + n.setWidth 32) = moved b e (n.setWidth 32) ↔
      w = b ∨ e.toNat % 65536 + n.toNat < 65536 := by
  have hk : (n.setWidth 32).toNat = n.toNat := by
    rw [toNat_setWidth]
    omega
  cases w <;> cases b
  · simp only [true_or, iff_true]
    exact withPart_congr e (part_part_add ..)
  · simp only [← toNat_inj, moved, toNat_withPart_false, toNat_part_false, withPart_true,
      toNat_add, hk, Bool.false_eq_true, false_or]
    omega
  · simp only [← toNat_inj, moved, toNat_withPart_false, part_true, withPart_true,
      toNat_add, hk, Bool.true_eq_false, false_or]
    omega
  · simp [moved]

/-- Copying EBP to ESP at the width of the operand and popping is the LEAVE of the stack's width
exactly when the widths agree or the upper halves do. -/
theorem leaveEsp_iff (w b : Bool) (p : Ptrs) :
    leaveEsp w b p = moved b (withPart b p.esp p.ebp) (words w 1) ↔
      w = b ∨ p.ebp.toNat / 65536 = p.esp.toNat / 65536 := by
  have hword : (words w 1).toNat = opSize w := by cases w <;> rfl
  have hword' : (wordOf w).toNat = opSize w := by cases w <;> rfl
  cases w <;> cases b
  · have hfrom : leaveFrom false p = withPart false p.esp p.ebp := withPart_congr _ (part_part _)
    simp only [true_or, leaveEsp, hfrom, moved, words_one, wordOf]
  · simp only [← toNat_inj, leaveEsp, leaveFrom, moved, toNat_withPart_false,
      toNat_part_false, withPart_true, toNat_add, hword, hword', Bool.false_eq_true, false_or]
    omega
  · simp only [← toNat_inj, leaveEsp, leaveFrom, moved, toNat_withPart_false,
      part_true, withPart_true, toNat_add, hword, hword', Bool.true_eq_false, false_or]
    omega
  · simp [leaveEsp, leaveFrom, moved, words_one, wordOf]

/-! ### ENTER -/

/-- What keeps the stack pointer of ENTER at the width of the stack. With two or more levels the
loop has replaced ESP by EBP, so the two have to agree at the narrower width; and where operand
and stack differ in width, the upper half must come out as it went in: unborrowed, except that a
wide display loop starts from the upper half of EBP. -/
structure EnterStays (w32 b : Bool) (alloc : BitVec 16) (level : Nat) (p : Ptrs) : Prop where
  meet : level ≤ 1 ∨ PtrsMeet w32 b p
  upper : w32 ≠ b →
    if w32 = true ∧ 2 ≤ level then
      (p.ebp - words true (level - 1)).toNat / 65536 =
        (p.esp.toNat / 65536 + if (below true (level + 1) p).toNat % 65536 < alloc.toNat then 1
          else 0) % 65536
    else alloc.toNat ≤ (below w32 (level + 1) p).toNat % 65536

section Enter

variable {w32 b : Bool} {alloc : BitVec 16} {level : Nat} {p : Ptrs}

theorem below_eq_add (k : Nat) (p : Ptrs) : below w32 k p = p.esp + -words w32 k :=
  sub_eq_add_neg ..

theorem push_eq_moved (p : Ptrs) : (p.push w32 b).esp = moved b p.esp (-words w32 1) := by
  rw [moved, words_one, ← sub_eq_add_neg]
  rfl

theorem enterPushed_flat (hlevel : level ≤ 1) :
    (enterPushed w32 b level p).esp = moved b p.esp (-words w32 (level + 1)) := by
  unfold enterPushed
  by_cases h0 : level = 0
  · rw [if_pos h0, h0, push_eq_moved]
  · have h1 : level = 1 := by omega
    have hsum : words w32 (1 + 1) = words w32 1 + words w32 1 := by rw [words_succ, words_one]
    rw [if_neg h0, h1, push_eq_moved, hsum, neg_add, ← moved_moved, ← push_eq_moved (p := p)]
    rfl

theorem displayEnd_wide (k : Nat) (p : Ptrs) :
    displayEnd true b (k + 1) p =
      ⟨moved b (p.ebp - words true (k + 1)) (-words true 1), p.ebp - words true (k + 1)⟩ := by
  induction k generalizing p with
  | zero =>
    show (p.toSlot true).push true b = _
    rw [show (p.toSlot true).push true b =
      ⟨((p.toSlot true).push true b).esp, (p.toSlot true).ebp⟩ from rfl, push_eq_moved]
    rfl
  | succ k ih =>
    have hebp : ((p.toSlot true).push true b).ebp = p.ebp - words true 1 := rfl
    have hsum : p.ebp - words true 1 - words true (k + 1) = p.ebp - words true (k + 1 + 1) := by
      rw [sub_sub, words_one, ← words_succ]
    rw [displayEnd, ih, hebp, hsum]

theorem displayEnd_narrow_low (k : Nat) (p : Ptrs) :
    part false (displayEnd false b (k + 1) p).esp =
      part false (p.ebp - words false (k + 1) - words false 1) := by
  have hpush (q : Ptrs) : part false (q.push false b).esp = part false (q.esp - words false 1) := by
    cases b
    · exact part_withPart ..
    · rfl
  induction k generalizing p with
  | zero =>
    show part false ((p.toSlot false).push false b).esp = _
    rw [hpush]
    exact part_sub (toSlot_esp rfl) _
  | succ k ih =>
    have hebp : part false ((p.toSlot false).push false b).ebp =
        part false (p.ebp - words false 1) :=
      toSlot_ebp rfl
    have hsum : p.ebp - words false 1 - words false (k + 1) = p.ebp - words false (k + 1 + 1) := by
      rw [sub_sub, words_one, ← words_succ]
    rw [displayEnd, ih, part_sub (part_sub hebp _), hsum]

theorem displayEnd_narrow_upper (k : Nat) (p : Ptrs) :
    (displayEnd false false k p).esp.toNat / 65536 = p.esp.toNat / 65536 := by
  induction k generalizing p with
  | zero => rfl
  | succ k ih =>
    rw [displayEnd, ih, Ptrs.push, toNat_withPart_false, Ptrs.toSlot, toNat_withPart_false]
    omega

theorem enterPushed_deep (hlevel : 2 ≤ level) : (enterPushed w32 b level p).esp =
      moved b (displayEnd w32 b (level - 1) (p.push w32 b)).esp (-words w32 1) := by
  rw [enterPushed, if_neg (by omega), push_eq_moved]

private theorem toNat_alloc (alloc : BitVec 16) : (alloc.setWidth 32).toNat = alloc.toNat := by
  rw [toNat_setWidth]
  omega

private theorem enterPtrs_esp :
    (enterPtrs w32 b alloc level p).esp = withPart w32 (enterPushed w32 b level p).esp
        ((enterPushed w32 b level p).esp - alloc.setWidth 32) :=
  withPart_congr _ (part_sub_part ..)

private theorem target_eq : moved b p.esp (-words w32 (level + 1) - alloc.setWidth 32) =
      withPart b p.esp (below w32 (level + 1) p - alloc.setWidth 32) := by
  rw [moved, below_eq_add, add_sub_assoc]

/-- Without a copied display the pushes are moves of the stack's width, and only the allocation
can differ. -/
private theorem flat_iff (hlevel : level ≤ 1) : (enterPtrs w32 b alloc level p).esp =
        moved b p.esp (-words w32 (level + 1) - alloc.setWidth 32) ↔
      (w32 ≠ b → alloc.toNat ≤ (below w32 (level + 1) p).toNat % 65536) := by
  have hq : (enterPushed w32 b level p).esp = withPart b p.esp (below w32 (level + 1) p) := by
    rw [enterPushed_flat hlevel, moved, below_eq_add]
  have halloc := toNat_alloc alloc
  rw [enterPtrs_esp, target_eq, hq]
  generalize below w32 (level + 1) p = B at *
  cases w32 <;> cases b
  · simp only [ne_eq, not_true_eq_false, false_implies, iff_true]
    simp only [← toNat_inj, toNat_withPart_false, toNat_sub, halloc]
    omega
  · simp only [ne_eq, Bool.false_eq_true, not_false_eq_true, true_implies, ← toNat_inj,
      toNat_withPart_false, withPart_true, toNat_sub, halloc]
    omega
  · simp only [ne_eq, Bool.true_eq_false, not_false_eq_true, true_implies, ← toNat_inj,
      toNat_withPart_false, withPart_true, toNat_sub, halloc]
    omega
  · simp

private theorem deep_low (hlevel : 2 ≤ level) :
    part (w32 && b) (enterPushed w32 b level p).esp =
      part (w32 && b) (p.ebp - words w32 (level + 1)) := by
  obtain ⟨k, rfl⟩ : ∃ k, level = k + 1 + 1 := ⟨level - 2, by omega⟩
  have hsum : p.ebp - words w32 (k + 1) - words w32 1 - words w32 1 =
      p.ebp - words w32 (k + 1 + 1 + 1) := by
    rw [words_add w32 (k + 1 + 1) 1, words_add w32 (k + 1) 1, sub_sub, sub_sub, add_assoc]
  rw [enterPushed_deep hlevel, ← hsum, show k + 1 + 1 - 1 = k + 1 from rfl]
  cases w32
  · have hlow := displayEnd_narrow_low (b := b) k (p.push false b)
    have hmoved (e : BitVec 32) : part false (moved b e (-words false 1)) =
        part false (e - words false 1) := by
      rw [moved, ← sub_eq_add_neg]
      cases b
      · exact part_withPart ..
      · rfl
    show part false _ = part false _
    rw [hmoved]
    exact part_sub hlow _
  · have hend : (displayEnd true b (k + 1) (p.push true b)).esp =
        moved b (p.ebp - words true (k + 1)) (-words true 1) := by
      rw [displayEnd_wide]
      rfl
    have hpart (e : BitVec 32) : part b (moved b e (-words true 1 + -words true 1)) =
        part b (e - words true 1 - words true 1) := by
      rw [moved, part_withPart, ← neg_add, ← sub_eq_add_neg, sub_sub]
    rw [hend, moved_moved]
    exact hpart _

private theorem deep_upper (hlevel : 2 ≤ level) :
    (enterPushed w32 false level p).esp.toNat / 65536 =
      if w32 then (p.ebp - words true (level - 1)).toNat / 65536 else p.esp.toNat / 65536 := by
  obtain ⟨k, rfl⟩ : ∃ k, level = k + 1 + 1 := ⟨level - 2, by omega⟩
  have hmoved (e j : BitVec 32) : (moved false e j).toNat / 65536 = e.toNat / 65536 := by
    rw [moved, toNat_withPart_false]
    omega
  rw [enterPushed_deep hlevel, hmoved, show k + 1 + 1 - 1 = k + 1 from rfl]
  cases w32
  · rw [displayEnd_narrow_upper, push_eq_moved, hmoved]
    rfl
  · rw [displayEnd_wide, hmoved]
    rfl

private theorem stays_iff (hlevel : 2 ≤ level) :
    EnterStays w32 b alloc level p ↔ PtrsMeet w32 b p ∧ (w32 ≠ b → if w32 = true then
        (p.ebp - words true (level - 1)).toNat / 65536 =
          (p.esp.toNat / 65536 + if (below true (level + 1) p).toNat % 65536 < alloc.toNat then 1
            else 0) % 65536
      else alloc.toNat ≤ (below w32 (level + 1) p).toNat % 65536) := by
  constructor
  · intro h
    refine ⟨h.meet.resolve_left (by omega), fun hne => ?_⟩
    have := h.upper hne
    simp only [hlevel, and_true] at this
    exact this
  · rintro ⟨hmeet, hupper⟩
    refine ⟨.inr hmeet, fun hne => ?_⟩
    simp only [hlevel, and_true]
    exact hupper hne

variable {e v q f : BitVec 32}

/-- A word is another one with a new low half exactly when the upper halves agree and the low
half is the new one. -/
private theorem eq_withPart_iff {u : BitVec 32} : u = withPart false e v ↔
    u.toNat / 65536 = e.toNat / 65536 ∧ part false u = part false v := by
  simp only [← toNat_inj, toNat_withPart_false, toNat_part_false]
  omega

private theorem upper_sub (q : BitVec 32) (a : BitVec 16) : (q - a.setWidth 32).toNat / 65536 =
      (q.toNat / 65536 + 65536 - if q.toNat % 65536 < a.toNat then 1 else 0) % 65536 := by
  rw [toNat_sub, toNat_alloc]
  split <;> omega

section

variable (a : BitVec 16) (hlow : part false q = part false (f - v))

include hlow

private theorem deep_narrow_narrow (hupper : q.toNat / 65536 = e.toNat / 65536) :
    withPart false q (q - a.setWidth 32) = withPart false e (e - v - a.setWidth 32) ↔
      part false f = part false e := by
  have hup : (withPart false q (q - a.setWidth 32)).toNat / 65536 = e.toNat / 65536 := by
    rw [toNat_withPart_false]
    omega
  rw [eq_withPart_iff, part_withPart, part_sub_iff, hlow, part_sub_iff]
  exact and_iff_right hup

/-- A narrow operand on a wide stack: the low halves decide where the pushes end, and the
allocation must not borrow. -/
private theorem deep_narrow_wide (hmeets : part false f = part false e → q = e - v) :
    withPart false q (q - a.setWidth 32) = e - v - a.setWidth 32 ↔
      part false f = part false e ∧ a.toNat ≤ (e - v).toNat % 65536 := by
  by_cases hmeet : part false f = part false e
  · have hupper := upper_sub (e - v) a
    rw [hmeets hmeet, eq_comm, eq_withPart_iff, hupper]
    simp only [hmeet, true_and, and_true]
    split <;> omega
  simp only [hmeet, false_and, iff_false]
  intro h
  have hpart := congrArg (part false) h
  rw [part_withPart, part_sub_iff, hlow, part_sub_iff] at hpart
  exact hmeet hpart

/-- A wide operand on a narrow stack: the low halves decide, and the upper half the loop found in
EBP has to be the one ESP had, up to the borrow of the allocation. -/
private theorem deep_wide_narrow {upper : Nat} (hupper : q.toNat / 65536 = upper) :
    q - a.setWidth 32 = withPart false e (e - v - a.setWidth 32) ↔ part false f = part false e ∧
        upper = (e.toNat / 65536 + if (e - v).toNat % 65536 < a.toNat then 1 else 0) % 65536 := by
  rw [eq_withPart_iff, part_sub_iff, hlow, part_sub_iff, and_comm, upper_sub, hupper]
  refine and_congr_right fun hmeet => ?_
  have hq : q.toNat % 65536 = (e - v).toNat % 65536 := by
    rw [← toNat_part_false, ← toNat_part_false, hlow, part_sub hmeet]
  rw [hq]
  split <;> omega

end

private theorem deep_iff (hlevel : 2 ≤ level) :
    (enterPtrs w32 b alloc level p).esp =
        moved b p.esp (-words w32 (level + 1) - alloc.setWidth 32) ↔
      EnterStays w32 b alloc level p := by
  have hlow := @deep_low w32 b level p hlevel
  have hupper := @deep_upper w32 level p hlevel
  have hmeets : PtrsMeet w32 b p → part b (enterPushed w32 b level p).esp =
      part b (below w32 (level + 1) p) := fun h => enterPushed_esp (.inr h)
  rw [enterPtrs_esp, target_eq, stays_iff hlevel]
  cases w32 <;> cases b
  · exact (deep_narrow_narrow alloc hlow hupper).trans
      ⟨fun hmeet => ⟨hmeet, fun hne => absurd rfl hne⟩, And.left⟩
  · refine (deep_narrow_wide alloc hlow hmeets).trans (and_congr_right fun _ => ?_)
    exact ⟨fun h _ => h, fun h => h Bool.false_ne_true⟩
  · refine (deep_wide_narrow alloc hlow hupper).trans (and_congr_right fun _ => ?_)
    exact ⟨fun h _ => h, fun h => h (.symm Bool.false_ne_true)⟩
  · have h : (enterPushed true true level p).esp = p.ebp - words true (level + 1) := hlow
    rw [h]
    show p.ebp - _ - _ = p.esp - words true (level + 1) - alloc.setWidth 32 ↔
      p.ebp = p.esp ∧ (true ≠ true → _)
    simp only [sub_left_inj, ne_eq, not_true_eq_false, false_implies, and_true]

/-- The stack pointer of ENTER moves at the width of the stack exactly on the inputs `EnterStays`
describes. -/
theorem enterEsp_iff : (enterPtrs w32 b alloc level p).esp =
        moved b p.esp (-words w32 (level + 1) - alloc.setWidth 32) ↔
      EnterStays w32 b alloc level p := by
  by_cases hlevel : 2 ≤ level
  · exact deep_iff hlevel
  rw [flat_iff (by omega)]
  have hshallow : ¬(w32 = true ∧ 2 ≤ level) := fun h => hlevel h.2
  constructor
  · intro h
    refine ⟨.inl (by omega), fun hne => ?_⟩
    rw [if_neg hshallow]
    exact h hne
  · intro h hne
    have := h.upper hne
    rwa [if_neg hshallow] at this

end Enter

/-! ### Far transfers -/

namespace MemFrame

theorem retAddr {w : Nat} : Quiet MemFrame (retAddr w : X86M D RetAddr) :=
  bind stackPeek fun _ => bind stackPeek fun _ => pure _

theorem retTarget {w : Nat} {sel : BitVec 16} {saved : BitVec 32} :
    Quiet MemFrame (retTarget w sel saved : X86M D RetTarget) :=
  bind getS fun _ => bind faultVec fun _ => ite
    (bind stackPeek fun _ => bind stackPeek fun _ => bind retCsCheck fun _ =>
      bind retSsCheck fun _ => pure _)
    (bind retCsCheck fun _ => pure _)

theorem iretFrame {w32 : Bool} : Quiet MemFrame (iretFrame w32 : X86M D IretFrame) :=
  bind stackPeek fun _ => bind stackPeek fun _ => bind stackPeek fun _ => pure _

theorem krd32 {lin : BitVec 64} : Quiet MemFrame (krd32 lin : X86M D (BitVec 32)) :=
  bind kbusLoad fun _ => pure _

theorem tssWord {base narrow wide : BitVec 64} {tss16 : Bool} :
    Quiet MemFrame (tssWord base tss16 narrow wide : X86M D (BitVec 32)) :=
  ite (bind krd16 fun _ => pure _) krd32

theorem gateTarget {g : Gate} {isCall : Bool} :
    Quiet MemFrame (gateTarget g isCall : X86M D GateTarget) :=
  bind getS fun _ => bind faultVec fun _ => bind faultVec fun _ => bind descParse fun _ =>
    bind faultVec fun _ => bind faultVec fun _ => bind faultVec fun _ => pure _

end MemFrame

section Far

variable {m m' : Machine D}

def retFound (n : BitVec 32) (m : Machine D) : Option NewStack :=
  let w := opSize m.d.w32
  let frame : X86M D RetTarget := do
    let a ← retAddr w
    retTarget w a.sel (BitVec.ofNat 32 (2 * w) + n)
  (frame m).value?.bind RetTarget.outer

/-- The stack pointer loaded by a switch: its pointer and the width of its segment. -/
structure Switched (o : NewStack) (k : BitVec 32) (m' : Machine D) : Prop where
  esp : m'.s.r espI = o.esp + k
  ss : m'.s.seg .ss = o.sv.toReg o.ss

variable {sel retCs : BitVec 16} {m1 m2 : Machine D} {f : IretFrame} {retEip : BitVec 32}

private theorem commitSs {o : NewStack} (h : (do
      modS fun s => s.setE espI o.esp
      segCommit .ss o.ss o.sv : X86M D Unit) m = .ok () m') :
    Switched o 0 m' ∧ m'.d.w32 = m.d.w32 := by
  have hframe := segCommit_ok h
  refine ⟨⟨?_, ?_⟩, (SameStack.of_memFrame hframe).w32⟩
  · have hset : (m.s.setE espI o.esp).r espI = o.esp := r_setE_same ..
    rw [show o.esp + 0 = o.esp from BitVec.add_zero _]
    exact (congrFun hframe.r _).trans hset
  · exact (congrFun hframe.seg _).trans (seg_setSeg_same ..)

/-- A completed far RET in protected mode: the frame's stack, or this one without the frame and
the parameters. -/
theorem pmRet_esp {n : BitVec 32} (h : pmRet n m = .ok () m') :
    (∀ o, retFound n m = some o → Switched o n m') ∧
    (retFound n m = none → EspMoved (words m.d.w32 2 + n) m m') := by
  obtain ⟨a, m1, haddr, h⟩ := bind_eq_ok (show ((retAddr (opSize m.d.w32)) >>= _) m = _ from h)
  obtain ⟨t, m2, htarget, h⟩ := bind_eq_ok h
  have hfound : retFound n m = t.outer := by
    have hframe : (do
        let a ← retAddr (opSize m.d.w32)
        retTarget (opSize m.d.w32) a.sel (.ofNat 32 (2 * opSize m.d.w32) + n) :
          X86M D RetTarget) m = .ok t m2 := (bind_of_ok haddr _).trans htarget
    show Option.bind (Outcome.value? _) _ = _
    rw [hframe]
    rfl
  have hkept : EspMoved 0 m m2 := .of_memFrame ((MemFrame.retAddr.of_ok haddr).trans
    (MemFrame.retTarget.of_ok htarget))
  obtain ⟨_, m3, hcommit, h⟩ := bind_eq_ok h
  have hkept3 := hkept.then_kept ((EspMoved.segCommit (by decide)).of_ok hcommit)
  let m4 := m3.setS (m3.s.setE espI (popEsp m3.s (.ofNat 32 (2 * opSize m.d.w32) + n)))
  have hmoved : EspMoved (words m.d.w32 2 + n) m m4 := by
    refine hkept3.kept_then ⟨?_, rfl, rfl⟩
    rw [words, Nat.mul_comm (opSize m.d.w32)]
    exact r_setE_same ..
  obtain ⟨_, m5, hswitch, h⟩ := bind_eq_ok (show (retSwitch n t.outer >>= _) m4 = _ from h)
  have heip := setEip_kept h
  rw [hfound]
  constructor
  · intro o ho
    rw [ho] at hswitch
    obtain ⟨_, m6, hss, hrel⟩ := bind_eq_ok (show ((segCommit .ss o.ss o.sv) >>= _)
      (m4.setS (m4.s.setE espI o.esp)) = _ from hswitch)
    obtain ⟨hsw, -⟩ := commitSs hss
    cases hrel
    have hesp : m6.s.r espI = o.esp := by
      rw [hsw.esp]
      exact BitVec.add_zero _
    refine ⟨?_, heip.ss.trans hsw.ss⟩
    rw [heip.esp, moved_zero, ← hesp]
    exact r_setE_same ..
  · intro ho
    rw [ho] at hswitch
    cases hswitch
    exact hmoved.then_kept heip

private theorem retfPops_moved {eip sel : BitVec 32} {m3 m4 : Machine D}
    (hpop : popW m = .ok eip m1) (heip : setEip eip m1 = .ok () m2) (hpop' : popW m2 = .ok sel m3)
    (hcs : loadCs (sel.setWidth 16) m3 = .ok () m4) : EspMoved (words m.d.w32 2) m m4 := by
  have h1 := (popW_moved hpop).then_kept (setEip_kept heip)
  have h2 := popW_moved hpop'
  rw [h1.w32] at h2
  rw [show 2 = 1 + 1 from rfl, words_add]
  exact (h1.trans h2).then_kept (EspMoved.loadCs.of_ok hcs)

def iretLoad (w : Nat) (f : IretFrame) : X86M D (Option (BitVec 32)) :=
  if f.flv.getLsbD 17 then do
    let esp ← stackPeek w (BitVec.ofNat 32 3 * BitVec.ofNat 32 w)
    pure (some esp)
  else do
    let t ← retTarget w f.sel (3 * BitVec.ofNat 32 w)
    pure (t.outer.map NewStack.esp)

def iretLoads (m : Machine D) : Option (BitVec 32) :=
  let loads : X86M D (Option (BitVec 32)) := do
    let f ← iretFrame m.d.w32
    iretLoad (opSize m.d.w32) f
  (loads m).value?.bind id

theorem iretLoads_eq {v : Option (BitVec 32)} (hframe : iretFrame m.d.w32 m = .ok f m1)
    (hload : iretLoad (opSize m.d.w32) f m1 = .ok v m2) : iretLoads m = v := by
  have hrun := (bind_of_ok hframe (iretLoad (opSize m.d.w32))).trans hload
  show .bind (Outcome.value? _) id = v
  rw [hrun]
  rfl

private theorem words_three (w32 : Bool) : words w32 3 = .ofNat 32 (opSize w32) * 3 := by
  cases w32 <;> rfl

theorem iretVm86_moved (h : iretVm86 m = .ok () m') : EspMoved (words m.d.w32 3) m m' := by
  obtain ⟨_, m1, hcheck, h⟩ := bind_eq_ok (show ((faultWhen _ (gpFault 0)) >>= _) m = _ from h)
  obtain ⟨f, m2, hframe, h⟩ := bind_eq_ok h
  obtain ⟨_, m3, hlimit, h⟩ := bind_eq_ok h
  obtain ⟨_, m4, hcommit, h⟩ := bind_eq_ok h
  have hmem := ((MemFrame.faultVec.of_ok hcheck).trans (MemFrame.iretFrame.of_ok hframe)).trans
    (MemFrame.faultVec.of_ok hlimit)
  have hkept :=
    (EspMoved.of_memFrame hmem).then_kept ((EspMoved.segCommit (by decide)).of_ok hcommit)
  let s5 := (m4.s.loadFlags (if m.d.w32 then 0x14fd7 else 0x4fd7) 0 f.flv).loadVif
    (has m.s.cr4 kCr4Vme) f.flv
  have hr : s5.r = m4.s.r := r_loadVif ..
  have hseg : s5.seg = m4.s.seg := seg_loadVif ..
  cases h
  refine hkept.kept_then ⟨?_, ?_, rfl⟩
  · show (s5.setE espI (popEsp s5 (.ofNat 32 (opSize m.d.w32) * 3))).r espI = _
    rw [popEsp_eq, X86State.stackWide, hr, hseg, words_three]
    rfl
  · exact congrFun hseg _

private theorem iretCommit_esp {s : X86State} {w32 : Bool} {t : RetTarget}
    (h : iretCommit s (opSize w32) f t m = .ok () m') :
    (∀ o, t.outer = some o → m'.s.r espI = o.esp) ∧
    (t.outer = none → EspMoved (words w32 3) m m') := by
  let s1 := m.s.loadFlags (iretMask s t.outer.isSome) 0x30000 f.flv
  let m1 : Machine D := (m.setD { m.d with rfLoad := true }).setS s1
  have hkept1 : EspMoved 0 m m1 := .of_kept rfl rfl rfl
  obtain ⟨_, m2, hcs, h⟩ := bind_eq_ok (show ((segCommit .cs f.sel (t.cv.atLevel (rplOf f.sel)) :
    X86M D Unit) >>= _) m1 = _ from h)
  have hkept := hkept1.then_kept ((EspMoved.segCommit (by decide)).of_ok hcs)
  obtain ⟨_, m3, hswitch, h⟩ := bind_eq_ok h
  have heip := setEip_kept h
  constructor
  · intro o ho
    rw [ho] at hswitch
    obtain ⟨hsw, -⟩ := commitSs hswitch
    rw [heip.esp, moved_zero, hsw.esp]
    exact BitVec.add_zero _
  · intro ho
    rw [ho] at hswitch
    have hpop : EspMoved (words w32 3) m2
        (m2.setS (m2.s.setE espI (popEsp m2.s (.ofNat 32 (opSize w32) * 3)))) := by
      refine ⟨?_, rfl, rfl⟩
      rw [words_three]
      exact r_setE_same ..
    cases hswitch
    exact (hkept.kept_then hpop).then_kept heip

private theorem iretToVm86_esp {w : Nat} (h : iretToVm86 w f m = .ok () m') :
    ∃ esp m1, stackPeek w (.ofNat 32 3 * .ofNat 32 w) m = .ok esp m1 ∧ m'.s.r espI = esp := by
  obtain ⟨_, m0, hcheck, h⟩ := bind_eq_ok (show ((faultWhen _ (gpFault 0)) >>= _) m = _ from h)
  have hm0 : m0 = m := (faultWhen_ok raiseVec_ne_ok hcheck).2
  rw [hm0] at h
  obtain ⟨esp, m1, hesp, h⟩ := bind_eq_ok h
  -- the rest of the frame is loaded into the segments and the flags
  iterate 8 obtain ⟨_, _, -, h⟩ := bind_eq_ok h
  refine ⟨esp, m1, hesp, ?_⟩
  cases h
  exact r_setE_same ..

theorem pmIret_esp (hvm : m.s.vm = false) (hnt : m.s.nt = false) (h : pmIret m = .ok () m') :
    (∀ esp, iretLoads m = some esp → m'.s.r espI = esp) ∧
    (iretLoads m = none → EspMoved (words m.d.w32 3) m m') := by
  have h : (do
      let f ← iretFrame m.d.w32
      if f.flv.getLsbD 17 then iretToVm86 (opSize m.d.w32) f
      else iretProtected (opSize m.d.w32) f) m = .ok () m' := by
    rw [← h]
    show _ = (if m.s.vm then _ else if m.s.nt then _ else _ : X86M D Unit) m
    rw [hvm, hnt]
    rfl
  obtain ⟨f, m1, hframe, h⟩ := bind_eq_ok h
  have hkept : EspMoved 0 m m1 := .of_memFrame (MemFrame.iretFrame.of_ok hframe)
  cases hv : f.flv.getLsbD 17 with
  | true =>
    rw [hv] at h
    obtain ⟨esp, m2, hpeek, hesp⟩ := iretToVm86_esp h
    have hsome : iretLoads m = some esp := by
      have hload : iretLoad (opSize m.d.w32) f m1 = .ok (some esp) m2 := by
        rw [iretLoad, hv, if_pos rfl, bind_of_ok hpeek]
        rfl
      exact iretLoads_eq hframe hload
    rw [hsome]
    refine ⟨?_, fun hnone => by cases hnone⟩
    rintro _ ⟨⟩
    exact hesp
  | false =>
    rw [hv] at h
    obtain ⟨t, m2, htarget, h⟩ := bind_eq_ok (show ((retTarget _ _ _) >>= _) m1 = _ from h)
    have hmap : iretLoads m = t.outer.map NewStack.esp := by
      have hload : iretLoad (opSize m.d.w32) f m1 = .ok (t.outer.map NewStack.esp) m2 := by
        rw [iretLoad, hv, if_neg Bool.false_ne_true, bind_of_ok htarget]
        rfl
      exact iretLoads_eq hframe hload
    have hkept2 := hkept.then_kept (.of_memFrame (MemFrame.retTarget.of_ok htarget))
    obtain ⟨houter, hsame⟩ := iretCommit_esp h
    rw [hmap]
    cases ho : t.outer with
    | none =>
      refine ⟨?_, fun _ => hkept2.kept_then (hsame ho)⟩
      rintro _ ⟨⟩
    | some o =>
      refine ⟨?_, fun hnone => by cases hnone⟩
      rintro _ ⟨⟩
      exact houter o ho

theorem iretReal_moved (h : iretReal m = .ok () m') : EspMoved (words m.d.w32 3) m m' := by
  obtain ⟨eip, m1, hpop1, h⟩ := bind_eq_ok (show (popW >>= _) m = _ from h)
  obtain ⟨sel, m2, hpop2, h⟩ := bind_eq_ok h
  obtain ⟨flv, m3, hpop3, h⟩ := bind_eq_ok h
  obtain ⟨_, m4, hcs, h⟩ := bind_eq_ok (show ((segCommit .cs (sel.setWidth 16)
    (segSynth m3.s (sel.setWidth 16))) >>= _) m3 = _ from h)
  have h1 := popW_moved hpop1
  have h2 := h1.trans (h1.w32 ▸ popW_moved hpop2)
  have h3 := h2.trans (h2.w32 ▸ popW_moved hpop3)
  have hall := h3.then_kept ((EspMoved.segCommit (by decide)).of_ok hcs)
  rw [← words_add, ← words_add] at hall
  cases h
  exact hall.then_kept (.of_kept rfl rfl rfl)

def gateStack (t : GateTarget) : X86M D (Option NewStack) :=
  if t.switched then do
    let stack ← tssStack t.newpl
    pure (some stack)
  else pure none

def gateFound (desc : BitVec 64) (m : Machine D) : Option NewStack :=
  let found : X86M D (Option NewStack) := do
    let t ← gateTarget (gateOf desc) true
    gateStack t
  (found m).value?.bind id

theorem gateFound_eq {desc : BitVec 64} {t : GateTarget} {v : Option NewStack}
    (htarget : gateTarget (gateOf desc) true m = .ok t m1) (hstack : gateStack t m1 = .ok v m2) :
    gateFound desc m = v := by
  have hrun := (bind_of_ok htarget gateStack).trans hstack
  show .bind (Outcome.value? _) id = v
  rw [hrun]
  rfl

variable {params : List (BitVec 32)}

theorem gateParams_length {w : Nat} (k : Nat) {at_ : BitVec 32}
    (h : gateParams w k at_ m = .ok params m') : params.length = k := by
  induction k generalizing m at_ params with
  | zero =>
    cases h
    rfl
  | succ k ih =>
    obtain ⟨v, m1, -, h⟩ := bind_eq_ok h
    obtain ⟨rest, m2, hrest, h⟩ := bind_eq_ok h
    cases h
    rw [length_cons, ih hrest]

private theorem gateSwitch_esp {wide : Bool} {o : NewStack}
    (h : gateSwitch (opSize wide) o params retCs retEip m = .ok () m') :
    m'.s.r espI = moved o.sv.dbit o.esp (-words wide (params.length + 4)) := by
  obtain ⟨_, m1, hss, h⟩ := bind_eq_ok (show ((segCommit .ss o.ss o.sv) >>= _)
    (m.setS (m.s.setE espI o.esp)) = _ from h)
  obtain ⟨hsw, -⟩ := commitSs hss
  have hesp : m1.s.r espI = o.esp := by
    rw [hsw.esp]
    exact BitVec.add_zero _
  have hwide : m1.s.stackWide = o.sv.dbit := congrArg SegReg.dbit hsw.ss
  have hlen : ([(m.s.seg .ss).sel.setWidth 32, m.s.r espI] ++ params.reverse ++
      [retCs.setWidth 32, retEip]).length = params.length + 4 := by
    simp only [length_append, length_reverse, length_cons, length_nil]
    omega
  have hpush := @kpushAll_moved _ _ _ wide _ h
  rw [hlen] at hpush
  rw [hpush.esp, hwide, hesp]

theorem callGate_esp {desc : BitVec 64} (h : callGate sel desc true retEip retCs m = .ok () m') :
    (∀ o, gateFound desc m = some o → m'.s.r espI = moved o.sv.dbit o.esp
        (-words (!(gateOf desc).gate16) ((gateOf desc).count + 4))) ∧
    (gateFound desc m = none → EspMoved (-words (!(gateOf desc).gate16) 2) m m') := by
  obtain ⟨_, m0, hdpl, h⟩ := bind_eq_ok (show ((faultWhen _ (gpFault _)) >>= _) m = _ from h)
  rw [(faultWhen_ok raiseVec_ne_ok hdpl).2] at h
  obtain ⟨_, m0, hpresent, h⟩ := bind_eq_ok h
  rw [(faultWhen_ok raiseVec_ne_ok hpresent).2] at h
  obtain ⟨t, m1, htarget, h⟩ := bind_eq_ok h
  have hkept : EspMoved 0 m m1 := .of_memFrame (MemFrame.gateTarget.of_ok htarget)
  obtain ⟨_, m2, hgate, h⟩ := bind_eq_ok h
  obtain ⟨_, m3, hcs, h⟩ := bind_eq_ok h
  have hlast : EspMoved 0 m2 m' :=
    ((EspMoved.segCommit (by decide)).of_ok hcs).then_kept (setEip_kept h)
  have hw : (if (gateOf desc).gate16 then 2 else 4) = opSize (!(gateOf desc).gate16) := by
    cases (gateOf desc).gate16 <;> rfl
  unfold gateFrame at hgate
  rw [hw] at hgate
  cases hs : t.switched with
  | true =>
    rw [hs] at hgate
    obtain ⟨o, m4, htss, hgate⟩ := bind_eq_ok hgate
    obtain ⟨params, m5, hparams, hgate⟩ := bind_eq_ok hgate
    have hfound : gateFound desc m = some o := by
      have hstack : gateStack t m1 = .ok (some o) m4 := by
        rw [gateStack, hs, if_pos rfl, bind_of_ok htss]
        rfl
      exact gateFound_eq htarget hstack
    rw [hfound]
    refine ⟨?_, fun hnone => by cases hnone⟩
    rintro _ ⟨⟩
    rw [hlast.esp, moved_zero, gateSwitch_esp hgate, gateParams_length _ hparams]
  | false =>
    rw [hs] at hgate
    have hfound : gateFound desc m = none := by
      have hstack : gateStack t m1 = .ok none m1 := by
        rw [gateStack, hs]
        rfl
      exact gateFound_eq htarget hstack
    rw [hfound]
    refine ⟨?_, fun _ => (hkept.kept_then (kpushAll_moved hgate)).then_kept hlast⟩
    rintro _ ⟨⟩

theorem farDirect_moved {off : BitVec 32} (h : farDirect sel off true retEip retCs m = .ok () m') :
    EspMoved (-words m.d.w32 2) m m' := by
  obtain ⟨_, m1, hcs, h⟩ := bind_eq_ok h
  obtain ⟨_, m2, hpushes, h⟩ := bind_eq_ok h
  obtain ⟨_, m3, hpush1, hpush2⟩ := bind_eq_ok hpushes
  have hkept := EspMoved.loadCs.of_ok hcs
  have h1 := hkept.kept_then (hkept.w32 ▸ pushW_moved hpush1)
  have h2 := h1.trans (h1.w32 ▸ pushW_moved hpush2)
  rw [← neg_add, ← words_add] at h2
  exact h2.then_kept (setEip_kept h)

end Far

/-! ### Every instruction that moves the stack pointer -/

/-- The instructions that move the stack pointer on their own; `push` is every form of PUSH once
its operand is read. A far CALL is direct or goes through a gate. -/
inductive StackOp where
  | push (v : BitVec 32)
  | popReg (i : Reg)
  | popRm
  | popData (seg : Seg)
  | popSs
  | pusha
  | popa
  | callRel (rel : BitVec 32)
  | callRm
  | callFar (sel : BitVec 16) (off : BitVec 32)
  | callGate (sel : BitVec 16) (desc : BitVec 64)
  | ret
  | retImm (n : BitVec 16)
  | retf
  | retfImm (n : BitVec 16)
  | enter (alloc : BitVec 16) (level : Nat)
  | leave
  | iret

namespace StackOp

def run : StackOp → X86M D Unit
  | push v => pushW v
  | popReg i => X86.popReg i
  | popRm => X86.popRm
  | popData seg => X86.popData seg
  | popSs => X86.popSs
  | pusha => X86.pusha
  | popa => X86.popa
  | callRel rel => X86.callRel rel
  | callRm => X86.callRm
  | callFar sel off => fun m => farDirect sel off true (m.recPc + m.d.nxt) (m.s.seg .cs).sel m
  | callGate sel desc => fun m =>
    X86.callGate sel desc true (m.recPc + m.d.nxt) (m.s.seg .cs).sel m
  | ret => X86.ret
  | retImm n => X86.retImm n
  | retf => X86.retf
  | retfImm n => X86.retfImm n
  | enter alloc level => X86.enter alloc level
  | leave => X86.leave
  | iret => X86.iret

def Moves (k : BitVec 32) (m m' : Machine D) : Prop :=
  m'.s.r espI = moved m.s.stackWide (m.s.r espI) k

def PopsInto (dest : Option Reg) (m m' : Machine D) : Prop :=
  ∃ v, m'.s.r espI = if dest = some espI then
      withPart m.d.w32 (moved m.s.stackWide (m.s.r espI) (words m.d.w32 1)) v
    else moved m.s.stackWide (m.s.r espI) (words m.d.w32 1)

/-- A far return that releases `n` bytes: on the stack it found in its frame, or on this one. -/
def ReturnsFar (n : BitVec 16) (m m' : Machine D) : Prop :=
  match retFound (n.setWidth 32) m with
  | some o => m'.s.r espI = moved o.sv.dbit o.esp (n.setWidth 32)
  | none => Moves (words m.d.w32 2 + n.setWidth 32) m m'

def CallsGate (desc : BitVec 64) (m m' : Machine D) : Prop :=
  match gateFound desc m with
  | some o => m'.s.r espI = moved o.sv.dbit o.esp
      (-words (!(gateOf desc).gate16) ((gateOf desc).count + 4))
  | none => Moves (-words (!(gateOf desc).gate16) 2) m m'

/-- An IRET within protected mode: the pointer of the frame, or this one above the frame. -/
def ReturnsIret (m m' : Machine D) : Prop :=
  match iretLoads m with
  | some esp => m'.s.r espI = esp
  | none => Moves (words m.d.w32 3) m m'

/-- What the manual says of the stack pointer: the stack segment in effect fixes its width, and
the instruction fixes how far it moves. A pointer that is loaded with a new stack moves from
there; a task switch moves none. -/
def Follows : StackOp → Machine D → Machine D → Prop
  | push _, m, m' => Moves (-words m.d.w32 1) m m'
  | popReg i, m, m' => PopsInto (some i) m m'
  | popRm, m, m' => PopsInto m.d.regDest m m'
  | popData _, m, m' => Moves (words m.d.w32 1) m m'
  | popSs, m, m' => Moves (words m.d.w32 1) m m'
  | pusha, m, m' => Moves (-words m.d.w32 8) m m'
  | popa, m, m' => Moves (words m.d.w32 8) m m'
  | callRel _, m, m' => Moves (-words m.d.w32 1) m m'
  | callRm, m, m' => Moves (-words m.d.w32 1) m m'
  | callFar _ _, m, m' => Moves (-words m.d.w32 2) m m'
  | callGate _ desc, m, m' => CallsGate desc m m'
  | ret, m, m' => Moves (words m.d.w32 1) m m'
  | retImm n, m, m' => Moves (words m.d.w32 1 + n.setWidth 32) m m'
  | retf, m, m' =>
    if m.s.pe && !m.s.vm then ReturnsFar 0 m m' else Moves (words m.d.w32 2) m m'
  | retfImm n, m, m' =>
    if m.s.pe && !m.s.vm then ReturnsFar n m m'
    else Moves (words m.d.w32 2 + n.setWidth 32) m m'
  | enter alloc level, m, m' => Moves (-words m.d.w32 (level + 1) - alloc.setWidth 32) m m'
  | leave, m, m' => m'.s.r espI = moved m.s.stackWide
      (withPart m.s.stackWide (m.s.r espI) (m.s.r ebpI)) (words m.d.w32 1)
  | iret, m, m' =>
    if m.s.pe && !m.s.vm then m.s.nt = false → ReturnsIret m m'
    else Moves (words m.d.w32 3) m m'

/-- The release of `n` bytes at the width of the operand does not leave the width of the stack. -/
def ReleaseFits (popped : Nat) (n : BitVec 16) (m : Machine D) : Prop :=
  m.d.w32 = m.s.stackWide ∨
    (moved m.s.stackWide (m.s.r espI) (words m.d.w32 popped)).toNat % 65536 + n.toNat < 65536

def Fits : StackOp → Machine D → Prop
  | retImm n, m => ReleaseFits 1 n m
  | retfImm n, m =>
    if m.s.pe && !m.s.vm then
      ∀ o, retFound (n.setWidth 32) m = some o →
        o.sv.dbit = true ∨ o.esp.toNat % 65536 + n.toNat < 65536
    else ReleaseFits 2 n m
  | enter alloc level, m => EnterStays m.d.w32 m.s.stackWide alloc level m.s.ptrs
  | leave, m => m.d.w32 = m.s.stackWide ∨
      (m.s.r ebpI).toNat / 65536 = (m.s.r espI).toNat / 65536
  | _, _ => True

section Runs

variable {m m' : Machine D} {n : BitVec 16}

private theorem release_moves {popped : Nat} {m1 : Machine D}
    (hpops : EspMoved (words m.d.w32 popped) m m1) (h : releaseParams n m1 = .ok () m') :
    Moves (words m.d.w32 popped + n.setWidth 32) m m' ↔ ReleaseFits popped n m := by
  cases h
  have hesp : (m1.s.setSized m1.d.w32 espI (m1.s.sized m1.d.w32 espI + n.setWidth 32)).r espI =
      withPart m.d.w32 (m1.s.r espI) (part m.d.w32 (m1.s.r espI) + n.setWidth 32) := by
    rw [r_setSized_same, sized_eq_part, hpops.w32]
  show (m1.s.setSized m1.d.w32 espI (m1.s.sized m1.d.w32 espI + n.setWidth 32)).r espI = _ ↔ _
  rw [hesp, ← moved_moved, ← hpops.esp, release_iff, ReleaseFits, hpops.esp]

theorem retImm_moves (h : X86.retImm n m = .ok () m') :
    Moves (words m.d.w32 1 + n.setWidth 32) m m' ↔ ReleaseFits 1 n m := by
  obtain ⟨t, m1, hpop, h⟩ := bind_eq_ok h
  obtain ⟨_, m2, heip, h⟩ := bind_eq_ok h
  exact release_moves ((popW_moved hpop).then_kept (setEip_kept heip)) h

private theorem pmRet_returns (h : pmRet (n.setWidth 32) m = .ok () m') :
    ReturnsFar n m m' ↔ ∀ o, retFound (n.setWidth 32) m = some o →
      o.sv.dbit = true ∨ o.esp.toNat % 65536 + n.toNat < 65536 := by
  obtain ⟨hswitch, hstay⟩ := pmRet_esp h
  unfold ReturnsFar
  cases hfound : retFound (n.setWidth 32) m with
  | none =>
    refine iff_of_true (hstay hfound).esp ?_
    rintro _ ⟨⟩
  | some o =>
    have hesp : m'.s.r espI = withPart true o.esp (part true o.esp + n.setWidth 32) :=
      (hswitch o hfound).esp
    show m'.s.r espI = _ ↔ _
    rw [hesp, release_iff]
    constructor
    · rintro hfits _ ⟨⟩
      exact hfits.imp_left .symm
    · intro hfits
      exact (hfits o rfl).imp_left .symm

theorem retfImm_follows (h : X86.retfImm n m = .ok () m') :
    Follows (retfImm n) m m' ↔ Fits (retfImm n) m := by
  have h : (if m.s.pe && !m.s.vm then pmRet (n.setWidth 32) else _) m = .ok () m' := h
  show (if m.s.pe && !m.s.vm then _ else _) ↔ if m.s.pe && !m.s.vm then _ else _
  by_cases hpm : (m.s.pe && !m.s.vm) = true
  · rw [if_pos hpm] at h ⊢
    rw [if_pos hpm]
    exact pmRet_returns h
  rw [if_neg hpm] at h ⊢
  rw [if_neg hpm]
  obtain ⟨eip, m1, hpop, h⟩ := bind_eq_ok h
  obtain ⟨_, m2, heip, h⟩ := bind_eq_ok h
  obtain ⟨sel, m3, hpop', h⟩ := bind_eq_ok h
  obtain ⟨_, m4, hcs, h⟩ := bind_eq_ok h
  exact release_moves (retfPops_moved hpop heip hpop' hcs) h

theorem retf_follows (h : X86.retf m = .ok () m') : Follows retf m m' := by
  have h : (if m.s.pe && !m.s.vm then pmRet 0 else _) m = .ok () m' := h
  show if m.s.pe && !m.s.vm then _ else _
  by_cases hpm : (m.s.pe && !m.s.vm) = true
  · rw [if_pos hpm] at h ⊢
    -- nothing to release: no carry can leave the lower half
    refine (pmRet_returns (n := 0) h).mpr fun o _ => .inr ?_
    show o.esp.toNat % 65536 + 0 < 65536
    omega
  · rw [if_neg hpm] at h ⊢
    obtain ⟨eip, m1, hpop, h⟩ := bind_eq_ok h
    obtain ⟨_, m2, heip, h⟩ := bind_eq_ok h
    obtain ⟨sel, m3, hpop', h⟩ := bind_eq_ok h
    exact (retfPops_moved hpop heip hpop' h).esp

theorem enter_moves {alloc : BitVec 16} {level : Nat} (h : X86.enter alloc level m = .ok () m') :
    Moves (-words m.d.w32 (level + 1) - alloc.setWidth 32) m m' ↔
      EnterStays m.d.w32 m.s.stackWide alloc level m.s.ptrs := by
  obtain ⟨-, hptrs, -⟩ := enter_performs h
  rw [← enterEsp_iff, ← hptrs]
  exact .rfl

theorem leave_follows (h : X86.leave m = .ok () m') : Follows leave m m' ↔ Fits leave m := by
  obtain ⟨-, v, -, -, -, hptrs⟩ := leave_pops h
  have hesp : m'.s.r espI = leaveEsp m.d.w32 m.s.stackWide m.s.ptrs := congrArg Ptrs.esp hptrs
  show m'.s.r espI = _ ↔ _
  rw [hesp]
  exact leaveEsp_iff ..

private theorem callGate_follows {sel retCs : BitVec 16} {desc : BitVec 64} {retEip : BitVec 32}
    (h : X86.callGate sel desc true retEip retCs m = .ok () m') : CallsGate desc m m' := by
  obtain ⟨hswitch, hstay⟩ := callGate_esp h
  unfold CallsGate
  cases hfound : gateFound desc m with
  | some o => exact hswitch o hfound
  | none => exact (hstay hfound).esp

theorem iret_follows (h : X86.iret m = .ok () m') : Follows iret m m' := by
  obtain ⟨_, m1, hany, h⟩ := bind_eq_ok h
  cases h
  have hany : (if m.s.pe then pmIret else iretReal) m = .ok () m1 := hany
  show if m.s.pe && !m.s.vm then (_ → _) else m1.s.r espI = _
  cases hpe : m.s.pe with
  | false =>
    rw [hpe] at hany
    exact (iretReal_moved hany).esp
  | true =>
    rw [hpe] at hany
    cases hvm : m.s.vm with
    | true =>
      have hvm86 : iretVm86 m = .ok () m1 := by
        rw [← hany]
        show _ = (if m.s.vm then iretVm86 else _) m
        rw [hvm, if_pos rfl]
      exact (iretVm86_moved hvm86).esp
    | false =>
      intro hnt
      obtain ⟨hload, hstay⟩ := pmIret_esp hvm hnt hany
      show match iretLoads m with | some esp => _ | none => _
      cases hloads : iretLoads m with
      | none => exact (hstay hloads).esp
      | some esp => exact hload esp hloads

end Runs

/-- Every completed instruction that moves the stack pointer does so at the width of the stack
segment, whatever the operand size, exactly on the inputs `Fits` describes: on all of them except
where RET imm16, ENTER and LEAVE adjust ESP at the width of the operand and a level-changing far
RET adjusts it at 32 bits. -/
theorem stack_width_iff (op : StackOp) {m m' : Machine D} (h : op.run m = .ok () m') :
    op.Follows m m' ↔ op.Fits m := by
  cases op with
  | push v => exact iff_of_true (pushW_moved h).esp trivial
  | popReg i =>
    refine iff_of_true ?_ trivial
    obtain ⟨v, hv⟩ := popReg_esp h
    exact ⟨v, by simpa only [Option.some.injEq] using hv⟩
  | popRm => exact iff_of_true (popRm_esp h) trivial
  | popData seg => exact iff_of_true (popData_esp h) trivial
  | popSs => exact iff_of_true (popSs_esp h) trivial
  | pusha => exact iff_of_true (pusha_moved h).esp trivial
  | popa => exact iff_of_true (popa_moved h).esp trivial
  | callRel rel => exact iff_of_true (callRel_moved h).esp trivial
  | callRm => exact iff_of_true (callRm_moved h).esp trivial
  | callFar sel off => exact iff_of_true (farDirect_moved h).esp trivial
  | callGate sel desc =>
    exact iff_of_true (callGate_follows h) trivial
  | ret => exact iff_of_true (ret_moved h).esp trivial
  | retImm n => exact retImm_moves h
  | retf => exact iff_of_true (retf_follows h) trivial
  | retfImm n => exact retfImm_follows h
  | enter alloc level => exact enter_moves h
  | leave => exact leave_follows h
  | iret => exact iff_of_true (iret_follows h) trivial

def narrowStack (p : Ptrs) : Machine Unit :=
  let m := frameMachine p
  m.setS (m.s.setSeg .ss { m.s.seg .ss with dbit := false })

/-- A 32-bit RET 8 on a 16-bit stack with SP = 0x1000 leaves SP = 0x100c and the upper half. -/
theorem stack_width_ret_eight :
    ∃ m', (retImm 8).run (narrowStack ⟨0x51000, 0⟩) = .ok () m' ∧
      (retImm 8).Follows (narrowStack ⟨0x51000, 0⟩) m' := by
  have hok : ((retImm 8).run (narrowStack ⟨0x51000, 0⟩)).isOk = true := by decide +kernel
  obtain ⟨_, m', hm'⟩ := Outcome.exists_of_isOk hok
  exact ⟨m', hm', (stack_width_iff (retImm 8) hm').mpr (.inr (by decide +kernel))⟩

/-- A 32-bit RET 0x10 on a 16-bit stack with SP = 0xfff8 carries into the upper half of ESP: from
0x5fff8 to 0x6000c, where SP should have wrapped to 0x000c under the old upper half. -/
theorem stack_width_ret_carry :
    (match (retImm 0x10).run (narrowStack ⟨0x5fff8, 0⟩) with
      | .ok _ m' => decide (m'.s.r espI = 0x6000c)
      | _ => false) = true ∧
    (narrowStack ⟨0x5fff8, 0⟩).s.stackWide = false ∧
    moved false 0x5fff8 (words true 1 + 0x10) = 0x5000c := by
  refine ⟨by decide +kernel, rfl, by decide⟩

end StackOp

end Cemu.X86
