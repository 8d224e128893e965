import Cemu.X86.OneDevice
import Cemu.X86.Stack

/-!
# x86: the frames ENTER builds and LEAVE releases

What a completed ENTER writes is a list of moves onto the stack: the saved frame pointer, the
display entries it copies from the old frame, and the new frame pointer. The list depends on
ESP, EBP, the operand size and SS.B alone, so the frame the manual describes can be compared
with it entry by entry.
-/

namespace Cemu.X86

open RaiseM BitVec X86State

variable {D : Type}

/-! ### Moves onto the stack -/

/-- Where a pushed word comes from: a register, or an offset in the stack segment. -/
inductive Source where
  | word (v : BitVec 32)
  | slot (off : BitVec 32)
  deriving DecidableEq, Repr

structure Move where
  source : Source
  dest : BitVec 32
  deriving DecidableEq, Repr

def Source.read (size : Nat) : Source → X86M D (BitVec 32)
  | .word v => pure v
  | .slot off => do
    let s ← getS
    segUse .ss off size false
    rdStack size (linOf s .ss off)

def pushStore (size : Nat) (off v : BitVec 32) : X86M D Unit := do
  let s ← getS
  segUse .ss off size true
  watchData (linOf s .ss off) size true
  wrStack size (linOf s .ss off) v

def Move.run (size : Nat) (mv : Move) : X86M D Unit := do
  let v ← mv.source.read size
  pushStore size mv.dest v

def Machine.withRegs (m : Machine D) (r : Reg → BitVec 32) : Machine D := m.setS { m.s with r := r }

/-- The moves take `m` to `m'`; between them only general registers change, which no memory
access reads. -/
inductive Performs (size : Nat) : List Move → Machine D → Machine D → Prop
  | done (m : Machine D) (r : Reg → BitVec 32) : Performs size [] m (m.withRegs r)
  | step {mv : Move} {rest : List Move} {m m₁ m' : Machine D} (r : Reg → BitVec 32)
      (run : mv.run size (m.withRegs r) = .ok () m₁) (tail : Performs size rest m₁ m') :
      Performs size (mv :: rest) m m'

namespace Performs

variable {size : Nat} {moves moves' : List Move} {m m₁ m' : Machine D}

theorem of_withRegs {r : Reg → BitVec 32} (h : Performs size moves (m.withRegs r) m') :
    Performs size moves m m' := by
  cases h with
  | done _ r' => exact .done m r'
  | step r' run tail => exact .step r' run tail

theorem append (h : Performs size moves m m₁) (h' : Performs size moves' m₁ m') :
    Performs size (moves ++ moves') m m' := by
  induction h with
  | done m r => exact of_withRegs h'
  | step r run _ ih => exact .step r run (ih h')

end Performs

/-! ### The pointers of a frame -/

structure Ptrs where
  esp : BitVec 32
  ebp : BitVec 32
  deriving DecidableEq, Repr

def X86State.ptrs (s : X86State) : Ptrs := ⟨s.r espI, s.r ebpI⟩

def wordOf (w32 : Bool) : BitVec 32 := BitVec.ofNat 32 (opSize w32)

section Pointers

variable (w32 b : Bool)

def Ptrs.push (p : Ptrs) : Ptrs := { p with esp := withPart b p.esp (p.esp - wordOf w32) }

/-- The first two assignments of the display loop: down one slot of the old frame, and the stack
pointer set to it. -/
def Ptrs.toSlot (p : Ptrs) : Ptrs :=
  let ebp := withPart w32 p.ebp (part w32 p.ebp - wordOf w32)
  ⟨withPart w32 p.esp (part w32 ebp), ebp⟩

def displayMoves : Nat → Ptrs → List Move
  | 0, _ => []
  | k + 1, p =>
    let q := p.toSlot w32
    ⟨.slot (part w32 q.esp), part b (q.esp - wordOf w32)⟩ :: displayMoves k (q.push w32 b)

def displayEnd : Nat → Ptrs → Ptrs
  | 0, p => p
  | k + 1, p => displayEnd k ((p.toSlot w32).push w32 b)

def frameOf (p : Ptrs) : BitVec 32 := part w32 (p.push w32 b).esp

def enterMoves (level : Nat) (p : Ptrs) : List Move :=
  ⟨.word (part w32 p.ebp), part b (p.esp - wordOf w32)⟩ ::
    if level = 0 then []
    else displayMoves w32 b (level - 1) (p.push w32 b) ++
      [⟨.word (frameOf w32 b p),
        part b ((displayEnd w32 b (level - 1) (p.push w32 b)).esp - wordOf w32)⟩]

def enterPushed (level : Nat) (p : Ptrs) : Ptrs :=
  if level = 0 then p.push w32 b else (displayEnd w32 b (level - 1) (p.push w32 b)).push w32 b

def enterPtrs (alloc : BitVec 16) (level : Nat) (p : Ptrs) : Ptrs :=
  let q := enterPushed w32 b level p
  ⟨withPart w32 q.esp (part w32 q.esp - alloc.setWidth 32),
    withPart w32 q.ebp (frameOf w32 b p)⟩

def leaveFrom (p : Ptrs) : BitVec 32 := withPart w32 p.esp (part w32 p.ebp)

def leaveOff (p : Ptrs) : BitVec 32 := part b (leaveFrom w32 p)

def leaveEsp (p : Ptrs) : BitVec 32 :=
  withPart b (leaveFrom w32 p) (leaveFrom w32 p + wordOf w32)

end Pointers

/-! ### Runs of ENTER and LEAVE -/

/-- What neither instruction changes and both read: the segments and the operand size. -/
structure SameStack (m m' : Machine D) : Prop where
  seg : m'.s.seg = m.s.seg
  w32 : m'.d.w32 = m.d.w32

namespace SameStack

variable {m m₁ m' : Machine D}

theorem trans (h : SameStack m m₁) (h' : SameStack m₁ m') : SameStack m m' :=
  ⟨h'.seg.trans h.seg, h'.w32.trans h.w32⟩

theorem stackWide (h : SameStack m m') : m'.s.stackWide = m.s.stackWide := by
  rw [X86State.stackWide, h.seg]
  rfl

theorem of_memFrame (h : MemFrame m m') : SameStack m m' := ⟨h.seg, by rw [h.d]⟩

end SameStack

variable {m m' : Machine D}

theorem stackPush_moves {w32 : Bool} {v : BitVec 32} (h : stackPush (opSize w32) v m = .ok () m') :
    Performs (opSize w32) [⟨.word v, part m.s.stackWide (m.s.r espI - wordOf w32)⟩] m m' ∧
      m'.s.ptrs = m.s.ptrs.push w32 m.s.stackWide ∧ SameStack m m' := by
  obtain ⟨m₁, hrun, hframe, rfl⟩ := stackPush_returns h
  refine ⟨.step m.s.r hrun (.done m₁ _), ?_, ⟨hframe.seg, (SameStack.of_memFrame hframe).w32⟩⟩
  have hebp : (m₁.s.setE espI (withPart m.s.stackWide (m.s.r espI)
      (m.s.r espI - .ofNat 32 (opSize w32)))).r ebpI = m.s.r ebpI := by
    rw [r_setE_ne _ _ (by decide), hframe.r]
  exact congrArg₂ Ptrs.mk (r_setE_same ..) hebp

private theorem toSlot_ptrs (s : X86State) (w32 : Bool) :
    let s1 := s.setSized w32 ebpI (s.sized w32 ebpI - .ofNat 32 (opSize w32))
    (s1.setSized w32 espI (s1.sized w32 ebpI)).ptrs = s.ptrs.toSlot w32 := by
  intro s1
  have hebp : s1.r ebpI = withPart w32 (s.r ebpI) (part w32 (s.r ebpI) - wordOf w32) := by
    rw [r_setSized_same, sized_eq_part]
    rfl
  have hesp : s1.r espI = s.r espI := r_setSized_ne _ _ _ (by decide)
  have hebp' : (s1.setSized w32 espI (s1.sized w32 ebpI)).r ebpI = s1.r ebpI :=
    r_setSized_ne _ _ _ (by decide)
  have hesp' : (s1.setSized w32 espI (s1.sized w32 ebpI)).r espI =
      withPart w32 (s.r espI) (part w32 (s1.r ebpI)) := by
    rw [r_setSized_same, hesp, sized_eq_part]
  rw [X86State.ptrs, hebp', hesp', hebp]
  rfl

theorem enterDisplay_moves (w32 : Bool) (k : Nat) (h : enterDisplay w32 k m = .ok () m') :
    Performs (opSize w32) (displayMoves w32 m.s.stackWide k m.s.ptrs) m m' ∧
      m'.s.ptrs = displayEnd w32 m.s.stackWide k m.s.ptrs ∧ SameStack m m' := by
  induction k generalizing m with
  | zero =>
    cases h
    exact ⟨.done _ _, rfl, rfl, rfl⟩
  | succ k ih =>
    let s1 := m.s.setSized w32 ebpI (m.s.sized w32 ebpI - .ofNat 32 (opSize w32))
    let s2 := s1.setSized w32 espI (s1.sized w32 ebpI)
    have hq : s2.ptrs = m.s.ptrs.toSlot w32 := toSlot_ptrs m.s w32
    have hseg : s2.seg = m.s.seg := (seg_setSized ..).trans (seg_setSized ..)
    have hwide : s2.stackWide = m.s.stackWide := by rw [X86State.stackWide, hseg]; rfl
    have hregs : m.setS s2 = m.withRegs s2.r := by
      cases w32 <;> rfl
    obtain ⟨_, m₁, huse, h⟩ :=
      bind_eq_ok (show ((segUse .ss (s2.sized w32 espI) (opSize w32) false :
      X86M D Unit) >>= _) (m.setS s2) = _ from h)
    obtain ⟨v, m2, hrd, h⟩ := bind_eq_ok h
    obtain ⟨_, m3, hpush, h⟩ := bind_eq_ok h
    have hframe : MemFrame (m.setS s2) m2 := (MemFrame.segUse.of_ok huse).trans
      (MemFrame.rdStack.of_ok hrd)
    have hptrs2 : m2.s.ptrs = m.s.ptrs.toSlot w32 := by
      rw [← hq, X86State.ptrs, hframe.r]
      rfl
    have hwide2 : m2.s.stackWide = m.s.stackWide := hframe.stackWide.trans hwide
    -- the read and the push are the two halves of one move
    obtain ⟨m2', hstore, -, hm3⟩ := stackPush_returns hpush
    obtain ⟨-, hptrs3, hsame3⟩ := stackPush_moves hpush
    have hslot : (Source.slot (part w32 (m.s.ptrs.toSlot w32).esp)).read (opSize w32) (m.setS s2) =
        .ok v m2 := by
      rw [← hq]
      show (Source.slot (part w32 (s2.r espI))).read (opSize w32) (m.setS s2) = _
      rw [← sized_eq_part]
      exact (bind_of_ok huse _).trans hrd
    have hdest : pushOff m2.s (opSize w32) =
        part m.s.stackWide ((m.s.ptrs.toSlot w32).esp - wordOf w32) := by
      rw [pushOff_eq, hwide2, ← hptrs2]
      rfl
    have hrun : (Move.mk (.slot (part w32 (m.s.ptrs.toSlot w32).esp))
        (part m.s.stackWide ((m.s.ptrs.toSlot w32).esp - wordOf w32))).run (opSize w32)
          (m.withRegs s2.r) = .ok () m2' := by
      rw [← hregs, ← hdest]
      exact (bind_of_ok hslot _).trans hstore
    have hsame : SameStack m m3 :=
      (⟨hseg, rfl⟩ : SameStack m (m.setS s2)).trans ((SameStack.of_memFrame hframe).trans hsame3)
    obtain ⟨hrest, hend, hsame'⟩ := ih h
    rw [hptrs3, hptrs2, hwide2, hsame.stackWide] at hrest hend
    refine ⟨.step s2.r hrun ?_, hend, hsame.trans hsame'⟩
    rw [hm3] at hrest
    exact .of_withRegs hrest

theorem pushW_moves {v : BitVec 32} (h : pushW v m = .ok () m') :
    Performs (opSize m.d.w32) [⟨.word v, part m.s.stackWide (m.s.r espI - wordOf m.d.w32)⟩] m m' ∧
      m'.s.ptrs = m.s.ptrs.push m.d.w32 m.s.stackWide ∧ SameStack m m' :=
  stackPush_moves h

private theorem enter_pushes {level : Nat} {v frame : BitVec 32} {m₁ m2 : Machine D}
    (hpush : pushW v m = .ok () m₁) (hv : v = part m.d.w32 m.s.ptrs.ebp)
    (hframe : frame = frameOf m.d.w32 m.s.stackWide m.s.ptrs)
    (h : enterLink m.d.w32 level frame m₁ = .ok () m2) :
    Performs (opSize m.d.w32) (enterMoves m.d.w32 m.s.stackWide level m.s.ptrs) m m2 ∧
      m2.s.ptrs = enterPushed m.d.w32 m.s.stackWide level m.s.ptrs ∧ SameStack m m2 := by
  obtain ⟨hfirst, hptrs, hsame⟩ := pushW_moves hpush
  rw [hv] at hfirst
  by_cases hlevel : level = 0
  · subst hlevel
    cases h
    exact ⟨hfirst, hptrs, hsame⟩
  rw [enterLink, if_pos (Nat.pos_of_ne_zero hlevel)] at h
  obtain ⟨_, m3, hdisplay, h⟩ := bind_eq_ok h
  obtain ⟨hmoves, hend, hsame3⟩ := enterDisplay_moves _ _ hdisplay
  obtain ⟨hlast, hptrs2, hsame2⟩ := pushW_moves h
  have hall := hsame.trans hsame3
  rw [hsame.stackWide, hptrs] at hmoves hend
  rw [hall.w32, hall.stackWide, hframe] at hlast
  rw [hall.w32, hall.stackWide, hend] at hptrs2
  have hesp : m3.s.r espI = (displayEnd m.d.w32 m.s.stackWide (level - 1)
      (m.s.ptrs.push m.d.w32 m.s.stackWide)).esp := congrArg Ptrs.esp hend
  rw [hesp] at hlast
  rw [enterMoves, enterPushed, if_neg hlevel, if_neg hlevel]
  exact ⟨hfirst.append (hmoves.append hlast), hptrs2, hall.trans hsame2⟩

theorem enter_performs {alloc : BitVec 16} {level : Nat} (h : enter alloc level m = .ok () m') :
    Performs (opSize m.d.w32) (enterMoves m.d.w32 m.s.stackWide level m.s.ptrs) m m' ∧
      m'.s.ptrs = enterPtrs m.d.w32 m.s.stackWide alloc level m.s.ptrs ∧ SameStack m m' := by
  obtain ⟨_, m₁, hpush, h⟩ := bind_eq_ok (show ((pushW (m.s.sized m.d.w32 ebpI)) >>= _)
    m = _ from h)
  obtain ⟨_, m2, hpushes, h⟩ := bind_eq_ok
    (show ((enterLink m.d.w32 level (m₁.s.sized m.d.w32 espI)) >>= _) m₁ = _ from h)
  have hframe : m₁.s.sized m.d.w32 espI = frameOf m.d.w32 m.s.stackWide m.s.ptrs := by
    rw [sized_eq_part, frameOf, ← (pushW_moves hpush).2.1]
    rfl
  obtain ⟨hmoves, hptrs, hsame⟩ := enter_pushes hpush (sized_eq_part ..) hframe hpushes
  cases h
  have hesp : m2.s.r espI = (enterPushed m.d.w32 m.s.stackWide level m.s.ptrs).esp :=
    congrArg Ptrs.esp hptrs
  have hebp : m2.s.r ebpI = (enterPushed m.d.w32 m.s.stackWide level m.s.ptrs).ebp :=
    congrArg Ptrs.ebp hptrs
  let s1 := m2.s.setSized m.d.w32 ebpI (m₁.s.sized m.d.w32 espI)
  let s2 := s1.setSized m.d.w32 espI (s1.sized m.d.w32 espI - alloc.setWidth 32)
  have hregs : m2.setS s2 = m2.withRegs s2.r := by
    have hs1 : s1 = { m2.s with r := s1.r } := setSized_regs ..
    have hs2 : s2 = { s1 with r := s2.r } := setSized_regs ..
    rw [Machine.withRegs, hs2, hs1]
  have hseg : s2.seg = m2.s.seg := (seg_setSized ..).trans (seg_setSized ..)
  have hesp1 : s1.r espI = m2.s.r espI := r_setSized_ne _ _ _ (by decide)
  refine ⟨?_, ?_, hsame.trans ⟨hseg, rfl⟩⟩
  · have hdone := hmoves.append (.done m2 s2.r)
    rw [List.append_nil, ← hregs] at hdone
    exact hdone
  · have hesp2 : s2.r espI = withPart m.d.w32 (m2.s.r espI)
        (part m.d.w32 (m2.s.r espI) - alloc.setWidth 32) := by
      rw [r_setSized_same, sized_eq_part, hesp1]
    have hebp2 : s2.r ebpI = withPart m.d.w32 (m2.s.r ebpI)
        (frameOf m.d.w32 m.s.stackWide m.s.ptrs) := by
      rw [r_setSized_ne _ _ _ (by decide), r_setSized_same, hframe]
    show Ptrs.mk (s2.r espI) (s2.r ebpI) = _
    rw [hesp2, hebp2, hesp, hebp]
    rfl

theorem leave_pops (h : leave m = .ok () m') :
    ∃ r v m₁, stackPop (opSize m.d.w32) (m.withRegs r) = .ok v m₁ ∧
      peekOff (m.withRegs r).s 0 = leaveOff m.d.w32 m.s.stackWide m.s.ptrs ∧
      m'.s.ptrs = ⟨leaveEsp m.d.w32 m.s.stackWide m.s.ptrs, withPart m.d.w32 (m.s.r ebpI) v⟩ := by
  let s1 := m.s.setSized m.d.w32 espI (m.s.sized m.d.w32 ebpI)
  have hregs : m.setS s1 = m.withRegs s1.r := congrArg m.setS (setSized_regs ..)
  have hesp1 : s1.r espI = leaveFrom m.d.w32 m.s.ptrs := by
    rw [r_setSized_same, sized_eq_part]
    rfl
  have hebp1 : s1.r ebpI = m.s.r ebpI := r_setSized_ne _ _ _ (by decide)
  have hwide1 : s1.stackWide = m.s.stackWide := by
    rw [X86State.stackWide, seg_setSized]
    rfl
  obtain ⟨v, m2, hpop, h⟩ := bind_eq_ok (show ((stackPop (opSize m.d.w32)) >>= _)
    (m.setS s1) = _ from h)
  obtain ⟨m3, -, hframe, hm2⟩ := stackPop_returns hpop
  refine ⟨s1.r, v, m2, ?_, ?_, ?_⟩
  · rw [← hregs]
    exact hpop
  · rw [← hregs, leaveOff, ← hesp1, ← hwide1]
    show part s1.stackWide (s1.r espI + 0#32) = _
    rw [BitVec.add_zero]
  · have hesp2 : m2.s.r espI = leaveEsp m.d.w32 m.s.stackWide m.s.ptrs := by
      rw [hm2, leaveEsp, ← hesp1, ← hwide1]
      exact r_setE_same ..
    have hebp2 : m2.s.r ebpI = m.s.r ebpI := by
      rw [hm2, ← hebp1]
      exact (r_setE_ne _ _ (by decide)).trans (congrFun hframe.r ebpI)
    cases h
    show Ptrs.mk ((m2.s.setSized m.d.w32 ebpI v).r espI) ((m2.s.setSized m.d.w32 ebpI v).r ebpI) = _
    rw [r_setSized_ne _ _ _ (by decide), r_setSized_same, hesp2, hebp2]

/-! ### The frame of the manual -/

section Manual

variable (w32 b : Bool)

/-- The display as the manual copies it: read below the old frame pointer, pushed below the new
one. -/
def shownDisplay : Nat → BitVec 32 → BitVec 32 → List Move
  | 0, _, _ => []
  | k + 1, sp, fp =>
    ⟨.slot (part b (fp - wordOf w32)), part b (sp - wordOf w32)⟩ ::
      shownDisplay k (sp - wordOf w32) (fp - wordOf w32)

def below (k : Nat) (p : Ptrs) : BitVec 32 := p.esp - BitVec.ofNat 32 (opSize w32 * k)

def shownMoves (level : Nat) (p : Ptrs) : List Move :=
  ⟨.word (part w32 p.ebp), part b (below w32 1 p)⟩ ::
    if level = 0 then []
    else shownDisplay w32 b (level - 1) (below w32 1 p) p.ebp ++
      [⟨.word (frameOf w32 b p), part b (below w32 (level + 1) p)⟩]

/-- The frame of the manual: what is stored and where, both pointers afterwards, and that LEAVE
pops the word at the frame and ends with the entry stack pointer. -/
structure FrameBuilt (alloc : BitVec 16) (level : Nat) (p : Ptrs) : Prop where
  moves : enterMoves w32 b level p = shownMoves w32 b level p
  ebp : part w32 (enterPtrs w32 b alloc level p).ebp = frameOf w32 b p
  esp : part b (enterPtrs w32 b alloc level p).esp =
    part b (below w32 (level + 1) p - alloc.setWidth 32)
  pops : leaveOff w32 b (enterPtrs w32 b alloc level p) = part b (below w32 1 p)
  restored : part b (leaveEsp w32 b (enterPtrs w32 b alloc level p)) = part b p.esp

/-- The old frame pointer and the entry stack pointer agree, at the narrower of the two widths. -/
def PtrsMeet (p : Ptrs) : Prop := part (w32 && b) p.ebp = part (w32 && b) p.esp

def SlotsSeen (k : Nat) (fp : BitVec 32) : Prop :=
  w32 = b ∨ opSize w32 * k ≤ fp.toNat ∧ fp.toNat < 65536 + opSize w32

/-- What ENTER and LEAVE need of their input. A frame with copied display entries needs the two
pointers to meet, since the loop pushes below the slot it has just read; a 16-bit ENTER on a
32-bit stack moves SP alone and needs room in its low half. -/
structure FrameFits (alloc : BitVec 16) (level : Nat) (p : Ptrs) : Prop where
  display : level ≤ 1 ∨ PtrsMeet w32 b p ∧ SlotsSeen w32 b (level - 1) p.ebp
  room : w32 = false → b = true → 2 * level + alloc.toNat ≤ (p.esp - 2#32).toNat % 65536

instance (k : Nat) (fp : BitVec 32) : Decidable (SlotsSeen w32 b k fp) := by
  unfold SlotsSeen
  infer_instance

end Manual

/-! ### When the display is the manual's -/

section Display

variable {w32 b : Bool}

theorem part_part (v : BitVec 32) : part b (part b v) = part b v := by
  cases b
  · apply eq_of_toNat_eq
    rw [toNat_part_false, toNat_part_false]
    omega
  · rfl

theorem part_withPart (old v : BitVec 32) : part b (withPart b old v) = part b v := by
  cases b
  · apply eq_of_toNat_eq
    rw [toNat_part_false, toNat_part_false, toNat_withPart_false]
    omega
  · rfl

variable {u v fp sp : BitVec 32} {p : Ptrs}

theorem part_sub_iff {k : BitVec 32} : part b (u - k) = part b (v - k) ↔ part b u = part b v := by
  cases b
  · simp only [← toNat_inj, toNat_part_false, toNat_sub]
    omega
  · simp only [← toNat_inj, part_true, toNat_sub]
    omega

theorem part_sub (h : part b u = part b v) (k : BitVec 32) :
    part b (u - k) = part b (v - k) := part_sub_iff.mpr h

theorem part_sub_part (v k : BitVec 32) : part b (part b v - k) = part b (v - k) :=
  part_sub (part_part v) k

theorem toSlot_esp (hfp : part w32 p.ebp = part w32 fp) :
    part w32 (p.toSlot w32).esp = part w32 (fp - wordOf w32) := by
  rw [Ptrs.toSlot, part_withPart, part_part, part_withPart, part_sub_part]
  exact part_sub hfp _

theorem toSlot_ebp (hfp : part w32 p.ebp = part w32 fp) :
    part w32 (p.toSlot w32).ebp = part w32 (fp - wordOf w32) := by
  rw [Ptrs.toSlot, part_withPart, part_sub_part]
  exact part_sub hfp _

private theorem slot_eq_iff (v : BitVec 32) :
    part w32 v = part b v ↔ w32 = b ∨ v.toNat < 65536 := by
  cases w32 <;> cases b
  · simp
  · rw [← toNat_inj, toNat_part_false, part_true]
    simp only [Bool.false_eq_true, false_or]
    omega
  · rw [← toNat_inj, toNat_part_false, part_true]
    simp only [Bool.true_eq_false, false_or]
    omega
  · simp

/-- The push after a display read lands where the manual's does exactly when the slot just read
is where the stack pointer was. -/
private theorem dest_eq_iff (hsp : part b p.esp = part b sp) (hfp : part w32 p.ebp = part w32 fp) :
    part b ((p.toSlot w32).esp - wordOf w32) = part b (sp - wordOf w32) ↔
      part (w32 && b) (fp - wordOf w32) = part (w32 && b) sp := by
  have hslot := toSlot_esp hfp
  rw [part_sub_iff]
  cases w32 <;> cases b
  · rw [hslot]
    rfl
  · have hlow : (p.toSlot false).esp.toNat % 65536 = (fp - wordOf false).toNat % 65536 := by
      rw [← toNat_part_false, ← toNat_part_false, hslot]
    have hhigh : (p.toSlot false).esp.toNat / 65536 = sp.toNat / 65536 := by
      rw [← show p.esp = sp from hsp, Ptrs.toSlot, toNat_withPart_false]
      omega
    show (p.toSlot false).esp = sp ↔ part false _ = part false sp
    simp only [← toNat_inj, toNat_part_false]
    omega
  · rw [show (p.toSlot true).esp = fp - wordOf true from hslot]
    rfl
  · rw [show (p.toSlot true).esp = fp - wordOf true from hslot]
    rfl

private theorem toNat_sub_word (w32 : Bool) (fp : BitVec 32) : (fp - wordOf w32).toNat =
      if opSize w32 ≤ fp.toNat then fp.toNat - opSize w32
        else fp.toNat + (2 ^ 32 - opSize w32) := by
  have hword : (wordOf w32).toNat = opSize w32 := by cases w32 <;> rfl
  rw [toNat_sub]
  split <;> omega

private theorem slotsSeen_succ {k : Nat} :
    SlotsSeen w32 b (k + 1) fp ↔ (w32 = b ∨ (fp - wordOf w32).toNat < 65536) ∧
      (k = 0 ∨ SlotsSeen w32 b k (fp - wordOf w32)) := by
  have hsize : opSize w32 = 2 ∨ opSize w32 = 4 := by cases w32 <;> decide
  have hsub := toNat_sub_word w32 fp
  unfold SlotsSeen
  by_cases hw : w32 = b
  · simp [hw]
  · simp only [hw, false_or, hsub]
    rcases hsize with hsize | hsize <;> rw [hsize] at * <;> split <;> omega

private theorem sub_words (sp : BitVec 32) (k : Nat) :
    sp - wordOf w32 - .ofNat 32 (opSize w32 * k) = sp - .ofNat 32 (opSize w32 * (k + 1)) := by
  rw [sub_sub, wordOf, ← ofNat_add, Nat.mul_add, Nat.mul_one, Nat.add_comm]

section

variable (k : Nat) (hsp : part b p.esp = part b sp) (hfp : part w32 p.ebp = part w32 fp)

include hsp hfp

/-- The display is the manual's exactly when the pointers meet and the slots are seen alike:
one step compares one move and hands the pointers on. -/
theorem displayMoves_eq_iff :
    displayMoves w32 b k p = shownDisplay w32 b k sp fp ↔
      k = 0 ∨ part (w32 && b) (fp - wordOf w32) = part (w32 && b) sp ∧ SlotsSeen w32 b k fp := by
  induction k generalizing p sp fp with
  | zero => simp [displayMoves, shownDisplay]
  | succ k ih =>
    have hhead := dest_eq_iff hsp hfp
    rw [displayMoves, shownDisplay, List.cons.injEq, Move.mk.injEq, Source.slot.injEq,
      toSlot_esp hfp, slot_eq_iff, hhead, slotsSeen_succ]
    simp only [Nat.succ_ne_zero, false_or]
    constructor
    · rintro ⟨⟨hslot, hmeet⟩, htail⟩
      have hsp' : part b ((p.toSlot w32).push w32 b).esp = part b (sp - wordOf w32) := by
        rw [Ptrs.push, part_withPart]
        exact hhead.mpr hmeet
      have htail' := (ih hsp' (toSlot_ebp hfp)).mp htail
      exact ⟨hmeet, hslot, htail'.imp_right And.right⟩
    · rintro ⟨hmeet, hslot, hrest⟩
      have hsp' : part b ((p.toSlot w32).push w32 b).esp = part b (sp - wordOf w32) := by
        rw [Ptrs.push, part_withPart]
        exact hhead.mpr hmeet
      refine ⟨⟨hslot, hmeet⟩, (ih hsp' (toSlot_ebp hfp)).mpr (hrest.imp_right fun h => ⟨?_, h⟩)⟩
      exact part_sub hmeet _

theorem displayEnd_esp (hmeet : k = 0 ∨ part (w32 && b) (fp - wordOf w32) = part (w32 && b) sp) :
    part b (displayEnd w32 b k p).esp = part b (sp - .ofNat 32 (opSize w32 * k)) := by
  induction k generalizing p sp fp with
  | zero => rw [displayEnd, hsp, Nat.mul_zero, BitVec.sub_zero]
  | succ k ih =>
    have hmeet := hmeet.resolve_left (Nat.succ_ne_zero k)
    have hsp' : part b ((p.toSlot w32).push w32 b).esp = part b (sp - wordOf w32) := by
      rw [Ptrs.push, part_withPart]
      exact (dest_eq_iff hsp hfp).mpr hmeet
    rw [displayEnd, ih hsp' (toSlot_ebp hfp) (.inr (part_sub hmeet _)), sub_words]

end

end Display

/-! ### When the frame is the manual's -/

section Frames

variable {w32 b : Bool} {alloc : BitVec 16} {level : Nat} {p : Ptrs}

theorem below_one (p : Ptrs) : below w32 1 p = p.esp - wordOf w32 := by
  rw [below, Nat.mul_one]
  rfl

private theorem push_esp (p : Ptrs) : part b (p.push w32 b).esp = part b (below w32 1 p) := by
  rw [Ptrs.push, part_withPart, below_one]

private theorem below_sub_words (hlevel : 0 < level) :
    below w32 1 p - .ofNat 32 (opSize w32 * (level - 1)) - wordOf w32 =
      below w32 (level + 1) p := by
  rw [below_one, sub_words, sub_right_comm, sub_words, Nat.sub_add_cancel hlevel]
  rfl

private theorem meet_iff : part (w32 && b) (p.ebp - wordOf w32) = part (w32 && b) (below w32 1 p) ↔
    PtrsMeet w32 b p := by
  rw [below_one, part_sub_iff]
  rfl

theorem enterPushed_esp (h : level ≤ 1 ∨ PtrsMeet w32 b p) :
    part b (enterPushed w32 b level p).esp = part b (below w32 (level + 1) p) := by
  unfold enterPushed
  by_cases hlevel : level = 0
  · rw [if_pos hlevel, push_esp, hlevel]
  · have hmeet := h.imp (fun h => (by omega : level - 1 = 0)) meet_iff.mpr
    have hend := part_sub (displayEnd_esp (level - 1) (push_esp p) rfl hmeet) (wordOf w32)
    rw [if_neg hlevel, Ptrs.push, part_withPart, hend, below_sub_words (by omega)]

theorem enterMoves_eq_iff : enterMoves w32 b level p = shownMoves w32 b level p ↔
    level ≤ 1 ∨ PtrsMeet w32 b p ∧ SlotsSeen w32 b (level - 1) p.ebp := by
  have hdisplay : displayMoves w32 b (level - 1) (p.push w32 b) =
      shownDisplay w32 b (level - 1) (below w32 1 p) p.ebp ↔ _ :=
    displayMoves_eq_iff (level - 1) (push_esp p) rfl
  rw [meet_iff] at hdisplay
  rw [enterMoves, shownMoves, ← below_one p, List.cons.injEq, eq_self_iff_true, true_and]
  by_cases hlevel : level = 0
  · simp [hlevel]
  rw [if_neg hlevel, if_neg hlevel]
  constructor
  · intro h
    rcases hdisplay.mp (List.append_inj' h rfl).1 with hk | hrest
    · exact .inl (by omega)
    · exact .inr hrest
  · intro h
    have hmoves := hdisplay.mpr (h.imp_left (by omega))
    have hlast := enterPushed_esp (h.imp_right And.left)
    rw [enterPushed, if_neg hlevel, Ptrs.push, part_withPart] at hlast
    rw [hmoves, hlast]

theorem enterPtrs_ebp : part w32 (enterPtrs w32 b alloc level p).ebp = frameOf w32 b p := by
  rw [enterPtrs, part_withPart, frameOf, part_part]

theorem leaveEsp_restored {q : Ptrs} (h : leaveOff w32 b q = part b (below w32 1 p)) :
    part b (leaveEsp w32 b q) = part b p.esp := by
  rw [leaveEsp, part_withPart, ← part_sub_iff, add_sub_cancel_right, ← below_one]
  exact h

/-- The stack pointer of ENTER and the pop of LEAVE, unless a 16-bit operand meets a 32-bit
stack. -/
private theorem pointers_follow (hsize : w32 = true ∨ b = false)
    (hq : part b (enterPushed w32 b level p).esp = part b (below w32 (level + 1) p)) :
    part b (enterPtrs w32 b alloc level p).esp =
        part b (below w32 (level + 1) p - alloc.setWidth 32) ∧
      leaveOff w32 b (enterPtrs w32 b alloc level p) = part b (below w32 1 p) := by
  have hframe : part w32 (enterPtrs w32 b alloc level p).ebp = frameOf w32 b p := enterPtrs_ebp
  rw [leaveOff, leaveFrom, hframe]
  rcases hsize with rfl | rfl
  · exact ⟨part_sub hq _, push_esp p⟩
  · cases w32
    · refine ⟨?_, ?_⟩
      · rw [enterPtrs, part_withPart, part_sub_part]
        exact part_sub hq _
      · rw [part_withPart, frameOf, part_part, push_esp]
    · exact ⟨part_sub hq _, push_esp p⟩

/-- A 16-bit ENTER on a 32-bit stack moves SP alone: the pointers are right exactly when no
subtraction borrows from the upper half. -/
private theorem narrow_pointers_iff (alloc : BitVec 16) {g e : BitVec 32} (hlevel : level < 32)
    (he : e = g - BitVec.ofNat 32 (2 * level)) :
    withPart false e (part false e - alloc.setWidth 32) = e - alloc.setWidth 32 ∧
        withPart false (withPart false e (part false e - alloc.setWidth 32)) (part false g) = g ↔
      2 * level + alloc.toNat ≤ g.toNat % 65536 := by
  have halloc : (alloc.setWidth 32).toNat = alloc.toNat := by
    rw [toNat_setWidth]
    omega
  have henat : e.toNat = (2 ^ 32 - 2 * level + g.toNat) % 2 ^ 32 := by
    rw [he, toNat_sub, toNat_ofNat]
    omega
  simp only [← toNat_inj, toNat_withPart_false, toNat_part_false, toNat_sub, halloc]
  omega

/-- The frame of every ENTER, and its release by LEAVE, is the manual's exactly on the inputs
that `FrameFits` describes. -/
theorem frameBuilt_iff (hlevel : level < 32) :
    FrameBuilt w32 b alloc level p ↔ FrameFits w32 b alloc level p := by
  -- a 16-bit operand on a 32-bit stack, once the stores are the manual's
  have hnarrow : w32 = false → b = true → enterMoves w32 b level p = shownMoves w32 b level p →
      ((part b (enterPtrs w32 b alloc level p).esp =
            part b (below w32 (level + 1) p - alloc.setWidth 32) ∧
          leaveOff w32 b (enterPtrs w32 b alloc level p) = part b (below w32 1 p)) ↔
        2 * level + alloc.toNat ≤ (p.esp - 2#32).toNat % 65536) := by
    rintro rfl rfl hmoves
    have hpushed : (enterPushed false true level p).esp = below false (level + 1) p :=
      enterPushed_esp ((enterMoves_eq_iff.mp hmoves).imp_right And.left)
    have he : (enterPushed false true level p).esp = (p.esp - 2#32) - .ofNat 32 (2 * level) := by
      have hsum : opSize false * (level + 1) = 2 + 2 * level := by
        show 2 * (level + 1) = _
        omega
      rw [hpushed, below, hsum, ofNat_add, sub_sub]
    have hframe : part false (enterPtrs false true alloc level p).ebp = part false (p.esp - 2#32) :=
      enterPtrs_ebp
    have hiff := narrow_pointers_iff alloc hlevel he
    rw [leaveOff, leaveFrom, hframe, ← hpushed]
    exact hiff
  constructor
  · intro h
    exact ⟨enterMoves_eq_iff.mp h.moves, fun hw hb => (hnarrow hw hb h.moves).mp ⟨h.esp, h.pops⟩⟩
  · intro h
    have hmoves := enterMoves_eq_iff.mpr h.display
    have hptrs : part b (enterPtrs w32 b alloc level p).esp =
          part b (below w32 (level + 1) p - alloc.setWidth 32) ∧
        leaveOff w32 b (enterPtrs w32 b alloc level p) = part b (below w32 1 p) := by
      by_cases hsize : w32 = true ∨ b = false
      · exact pointers_follow hsize (enterPushed_esp (h.display.imp_right And.left))
      · have hw : w32 = false := by simpa using fun hw => hsize (.inl hw)
        have hb : b = true := by simpa using fun hb => hsize (.inr hb)
        exact (hnarrow hw hb hmoves).mpr (h.room hw hb)
    exact ⟨hmoves, enterPtrs_ebp, hptrs.1, hptrs.2, leaveEsp_restored hptrs.2⟩

private theorem shownDisplay_below {mv : Move} (k : Nat) {sp fp : BitVec 32}
    (h : mv ∈ shownDisplay w32 b k sp fp) :
    ∃ j, 1 ≤ j ∧ j ≤ k ∧ mv.dest = part b (sp - .ofNat 32 (opSize w32 * j)) := by
  induction k generalizing sp fp with
  | zero => cases h
  | succ k ih =>
    rcases List.mem_cons.mp h with rfl | h
    · exact ⟨1, by omega, by omega, by rw [Nat.mul_one]; rfl⟩
    · obtain ⟨j, hj, hjk, hdest⟩ := ih h
      exact ⟨j + 1, by omega, by omega, by rw [hdest, sub_words]⟩

theorem shownMoves_below {mv : Move} (h : mv ∈ shownMoves w32 b level p) :
    ∃ k, 1 ≤ k ∧ k ≤ level + 1 ∧ mv.dest = part b (below w32 k p) := by
  rcases List.mem_cons.mp h with rfl | h
  · exact ⟨1, by omega, by omega, rfl⟩
  split at h
  · cases h
  rcases List.mem_append.mp h with h | h
  · obtain ⟨j, hj, hjk, hdest⟩ := shownDisplay_below _ h
    refine ⟨j + 1, by omega, by omega, ?_⟩
    rw [hdest, below_one, sub_words, below]
  · rw [List.mem_singleton.mp h]
    exact ⟨level + 1, by omega, by omega, rfl⟩

end Frames

/-- The frames of ENTER and LEAVE, for every level, allocation, operand size and stack. A
completed ENTER performs the moves `enterMoves` lists and leaves the pointers `enterPtrs` gives;
a LEAVE from there pops at `leaveOff` and leaves `leaveEsp`. They are the manual's frame, all of
it below the entry stack pointer, exactly on the inputs `FrameFits` describes. -/
theorem enter_leave_frames_iff {alloc : BitVec 16} {level : Nat} (hlevel : level < 32)
    {m m₁ : Machine D} (h : enter alloc level m = .ok () m₁) :
    (Performs (opSize m.d.w32) (enterMoves m.d.w32 m.s.stackWide level m.s.ptrs) m m₁ ∧
      m₁.s.ptrs = enterPtrs m.d.w32 m.s.stackWide alloc level m.s.ptrs) ∧
    (∀ m₂ m₃ : Machine D, SameStack m₁ m₂ → m₂.s.ptrs = m₁.s.ptrs → leave m₂ = .ok () m₃ →
      ∃ r v m', stackPop (opSize m.d.w32) (m₂.withRegs r) = .ok v m' ∧
        peekOff (m₂.withRegs r).s 0 = leaveOff m.d.w32 m.s.stackWide m₁.s.ptrs ∧
        m₃.s.ptrs = ⟨leaveEsp m.d.w32 m.s.stackWide m₁.s.ptrs,
          withPart m.d.w32 m₁.s.ptrs.ebp v⟩) ∧
    (FrameBuilt m.d.w32 m.s.stackWide alloc level m.s.ptrs ↔
      FrameFits m.d.w32 m.s.stackWide alloc level m.s.ptrs) ∧
    ∀ mv ∈ shownMoves m.d.w32 m.s.stackWide level m.s.ptrs, ∃ k, 1 ≤ k ∧ k ≤ level + 1 ∧
      mv.dest = part m.s.stackWide (below m.d.w32 k m.s.ptrs) := by
  obtain ⟨hmoves, hptrs, hsame⟩ := enter_performs h
  refine ⟨⟨hmoves, hptrs⟩, ?_, frameBuilt_iff hlevel, fun mv hmv => shownMoves_below hmv⟩
  intro m₂ m₃ hsame₂ hptrs₂ hleave
  have hpops := leave_pops hleave
  have hebp : m₂.s.r ebpI = m₁.s.ptrs.ebp := congrArg Ptrs.ebp hptrs₂
  rw [hptrs₂, (hsame.trans hsame₂).w32, (hsame.trans hsame₂).stackWide, hebp] at hpops
  exact hpops

/-- A machine in flat protected mode with the given pointers; memory reads as zeros. -/
def frameMachine (p : Ptrs) : Machine Unit where
  s := { x86InitMultiboot with r := fun i => if i = espI then p.esp else p.ebp }
  d := Dec.start true
  eip := 0
  recPc := 0
  w := answeringWorld fun _ => 0
  io := ⟨[], none⟩
  ioWf := BusWf.empty
  ports := openPorts 0
  gMemSlow := false
  portReads := []

/-- ENTER 16,1 with ESP = 0x1000 and EBP = 0x2000 saves 0x2000 at 0xffc and the frame at 0xff8,
and leaves room for 16 bytes below. -/
theorem enter_sixteen_one :
    (match enter 16 1 (frameMachine ⟨0x1000, 0x2000⟩) with
      | .ok _ m => decide (m.s.ptrs = ⟨0xfe8, 0xffc⟩)
      | _ => false) = true ∧
    FrameBuilt true true 16 1 ⟨0x1000, 0x2000⟩ := by
  have hok : (enter 16 1 (frameMachine ⟨0x1000, 0x2000⟩)).isOk = true := by decide +kernel
  obtain ⟨_, m, hm⟩ := Outcome.exists_of_isOk hok
  refine ⟨by decide +kernel,
    (enter_leave_frames_iff (by decide) hm).2.2.1.mpr ⟨.inl (by decide), ?_⟩⟩
  intro hw
  cases hw

/-- ENTER 0,2 with ESP = 0x1000 and EBP = 0x2000 copies its display entry to 0x1ff8, inside the
old frame, and ends with ESP = 0x1ff4 instead of 0xff4. -/
theorem enter_two_levels :
    enterMoves true true 2 ⟨0x1000, 0x2000⟩ =
      [⟨.word 0x2000, 0xffc⟩, ⟨.slot 0x1ffc, 0x1ff8⟩, ⟨.word 0xffc, 0x1ff4⟩] ∧
    shownMoves true true 2 ⟨0x1000, 0x2000⟩ =
      [⟨.word 0x2000, 0xffc⟩, ⟨.slot 0x1ffc, 0xff8⟩, ⟨.word 0xffc, 0xff4⟩] ∧
    (match enter 0 2 (frameMachine ⟨0x1000, 0x2000⟩) with
      | .ok _ m => decide (m.s.ptrs = ⟨0x1ff4, 0xffc⟩)
      | _ => false) = true := by
  refine ⟨by decide, by decide, by decide +kernel⟩

end Cemu.X86
