import Cemu.X86.Stack

/-!
# x86: loading segment registers

The descriptor tables of `exec.c`: what an entry says, the checks in front of each kind of load,
and the commit, which fills the descriptor cache and marks the entry accessed.
-/

namespace Cemu.X86

open RaiseM

variable {D : Type}

/-! ### Descriptors -/

/-- A descriptor as a segment register caches it. -/
structure SegView where
  base : BitVec 64
  limit : BitVec 32
  ar : BitVec 8
  dbit : Bool
  deriving DecidableEq, Repr

def descView (desc : BitVec 64) : SegView where
  base := desc >>> 16 &&& 0xffffff ||| (desc >>> 56 &&& 0xff) <<< 24
  limit :=
    let lim : BitVec 32 := (desc &&& 0xffff).setWidth 32 ||| (desc >>> 32 &&& 0xf0000).setWidth 32
    if desc.getLsbD 55 then lim <<< 12 ||| 0xfff else lim
  ar := (desc >>> 40).setWidth 8
  dbit := desc.getLsbD 54

def dplOf (ar : BitVec 8) : BitVec 8 := ar >>> 5 &&& 3

def rplOf (sel : BitVec 16) : BitVec 8 := sel.setWidth 8 &&& 3

def isNull (sel : BitVec 16) : Bool := decide (sel &&& 0xfffc = 0)

def selCode (sel : BitVec 16) : BitVec 32 := sel.setWidth 32 &&& ~~~3

def tableBase (s : X86State) (sel : BitVec 16) : BitVec 64 :=
  if sel.getLsbD 2 then s.ldtrBase else s.gdtr

def tableLimit (s : X86State) (sel : BitVec 16) : BitVec 32 :=
  if sel.getLsbD 2 then s.ldtrLimit else s.gdtrLimit.setWidth 32

/-- The descriptor does not lie within the table limit. -/
def pastTable (limit : BitVec 32) (sel : BitVec 16) : Bool :=
  decide (limit < (sel >>> 3).setWidth 32 * 8 + 7)

def descAddr (s : X86State) (sel : BitVec 16) : BitVec 64 :=
  tableBase s sel + (sel >>> 3).setWidth 64 * 8

def descParse (sel : BitVec 16) : X86M D SegView := do
  let s ← getS
  let desc ← kbusLoad (descAddr s sel) 8
  pure (descView desc)

/-- What a selector means without protection: `sel * 16`, 64 KiB. -/
def segSynth (s : X86State) (sel : BitVec 16) : SegView where
  base := sel.setWidth 64 <<< 4
  limit := 0xffff
  ar := if s.vm then 0xf3 else 0x93
  dbit := false

def SegView.null : SegView := ⟨0, 0, 0, false⟩

def SegView.toReg (v : SegView) (sel : BitVec 16) : SegReg := ⟨sel, v.base, v.limit, v.ar, v.dbit⟩

def X86State.setSeg (s : X86State) (seg : Seg) (g : SegReg) : X86State :=
  { s with seg := Function.update s.seg seg g }

def marksAccessed (s : X86State) (sel : BitVec 16) (v : SegView) : Bool :=
  s.pe && !s.vm && !isNull sel && !v.ar.getLsbD 0

/-- Loads the register and sets the accessed bit in the table. -/
def segCommit (seg : Seg) (sel : BitVec 16) (v : SegView) : X86M D Unit := do
  modS fun s => s.setSeg seg (v.toReg sel)
  let s ← getS
  if marksAccessed s sel v then kbusStore (descAddr s sel + 5) 1 ((v.ar ||| 1).setWidth 64)
  else pure ()

/-! ### The loads -/

/-- Real mode and virtual-8086 mode load without a descriptor. -/
def loadsUnchecked (s : X86State) : Bool := !s.pe || s.vm

def loadData (seg : Seg) (sel : BitVec 16) : X86M D Unit := do
  let s ← getS
  if loadsUnchecked s then segCommit seg sel (segSynth s sel)
  else if isNull sel then segCommit seg sel .null
  else
    faultWhen (pastTable (tableLimit s sel) sel) (gpFault (selCode sel))
    let v ← descParse sel
    -- system and execute-only descriptors don't load
    faultWhen (!v.ar.getLsbD 4 || (v.ar.getLsbD 3 && !v.ar.getLsbD 1)) (gpFault (selCode sel))
    faultWhen (decide (dplOf v.ar < s.cpl) || decide (dplOf v.ar < rplOf sel))
      (gpFault (selCode sel))
    faultWhen (!v.ar.getLsbD 7) (npFault (selCode sel))
    segCommit seg sel v

def loadSs (sel : BitVec 16) : X86M D Unit := do
  let s ← getS
  if loadsUnchecked s then segCommit .ss sel (segSynth s sel)
  else
    faultWhen (isNull sel) (gpFault 0)
    faultWhen (pastTable (tableLimit s sel) sel) (ssFault (selCode sel))
    let v ← descParse sel
    faultWhen (decide (v.ar &&& 0x1a ≠ 0x12)) (ssFault (selCode sel))
    faultWhen (decide (dplOf v.ar ≠ s.cpl) || decide (rplOf sel ≠ s.cpl)) (gpFault (selCode sel))
    faultWhen (!v.ar.getLsbD 7) (ssFault (selCode sel))
    segCommit .ss sel v

def popData (seg : Seg) : X86M D Unit := do
  let sel ← popW
  loadData seg (sel.setWidth 16)

def popSs : X86M D Unit := do
  let sel ← popW
  loadSs (sel.setWidth 16)
  modS fun s => { s with intrInhibit := true }

/-- A conforming segment runs at the level of its caller. -/
def SegView.atLevel (v : SegView) (pl : BitVec 8) : SegView :=
  if v.ar.getLsbD 2 then { v with ar := v.ar &&& ~~~0x60#8 ||| pl <<< 5 } else v

def loadCs (sel : BitVec 16) : X86M D Unit := do
  let s ← getS
  if loadsUnchecked s then segCommit .cs sel (segSynth s sel)
  else
    faultWhen (isNull sel) (gpFault 0)
    faultWhen (pastTable (tableLimit s sel) sel) (gpFault (selCode sel))
    let v ← descParse sel
    faultWhen (decide (v.ar &&& 0x18 ≠ 0x18)) (gpFault (selCode sel))
    faultWhen (if v.ar.getLsbD 2 then decide (s.cpl < dplOf v.ar)
      else decide (dplOf v.ar ≠ s.cpl) || decide (s.cpl < rplOf sel)) (gpFault (selCode sel))
    faultWhen (!v.ar.getLsbD 7) (npFault (selCode sel))
    segCommit .cs sel (v.atLevel s.cpl)

def retCsCheck (sel : BitVec 16) (newpl : BitVec 8) : X86M D SegView := do
  let s ← getS
  faultWhen (isNull sel) (gpFault 0)
  faultWhen (pastTable (tableLimit s sel) sel) (gpFault (selCode sel))
  let cv ← descParse sel
  faultWhen (decide (cv.ar &&& 0x18 ≠ 0x18)) (gpFault (selCode sel))
  faultWhen (if cv.ar.getLsbD 2 then decide (newpl < dplOf cv.ar)
    else decide (dplOf cv.ar ≠ newpl)) (gpFault (selCode sel))
  faultWhen (!cv.ar.getLsbD 7) (npFault (selCode sel))
  pure cv

def retSsCheck (sel : BitVec 16) (newpl : BitVec 8) : X86M D SegView := do
  let s ← getS
  faultWhen (decide (rplOf sel ≠ newpl)) (gpFault (selCode sel))
  faultWhen (isNull sel) (gpFault 0)
  faultWhen (pastTable (tableLimit s sel) sel) (gpFault (selCode sel))
  let sv ← descParse sel
  faultWhen (decide (sv.ar &&& 0x1a ≠ 0x12)) (gpFault (selCode sel))
  faultWhen (decide (dplOf sv.ar ≠ newpl)) (gpFault (selCode sel))
  faultWhen (!sv.ar.getLsbD 7) (ssFault (selCode sel))
  pure sv

def loadLdtr (sel : BitVec 16) (taskSwitch : Bool) : X86M D Unit := do
  let s ← getS
  let structural : X86M D Unit :=
    if taskSwitch then tsFault (selCode sel) else gpFault (selCode sel)
  if isNull sel then modS fun s => { s with ldtr := sel, ldtrBase := 0, ldtrLimit := 0 }
  else
    faultWhen (sel.getLsbD 2) structural
    faultWhen (pastTable (s.gdtrLimit.setWidth 32) sel) structural
    let v ← descParse sel
    faultWhen (decide (v.ar &&& 0x1f ≠ 0x02)) structural
    faultWhen (!v.ar.getLsbD 7) (npFault (selCode sel))
    modS fun s => { s with ldtr := sel, ldtrBase := v.base, ldtrLimit := v.limit }

/-! ### What the loads leave -/

namespace X86State

@[simp] theorem seg_setSeg_same (s : X86State) (seg : Seg) (g : SegReg) :
    (s.setSeg seg g).seg seg = g := Function.update_self ..

theorem seg_setSeg_ne (s : X86State) {seg seg' : Seg} (g : SegReg) (hne : seg' ≠ seg) :
    (s.setSeg seg g).seg seg' = s.seg seg' := Function.update_of_ne hne ..

theorem cpl_eq (s : X86State) : s.cpl = dplOf (s.seg .cs).ar := rfl

end X86State

variable {m m' : Machine D} {c : Bool}

theorem faultWhen_ok {fault : X86M D Unit} (hraise : ∀ m a m', fault m ≠ .ok a m')
    (h : faultWhen c fault m = .ok () m') : c = false ∧ m' = m := by
  cases c with
  | true => exact absurd h (hraise m () m')
  | false =>
    cases h
    exact ⟨rfl, rfl⟩

variable {tval : BitVec 64} {cause : Nat}

theorem raiseVec_ne_ok {α : Type} (m : Machine D) (a : α)
    (m' : Machine D) : (raiseVec cause tval : X86M D α) m ≠ .ok a m' := by
  intro h
  cases h

/-- Both machines agree on `f` of the processor state. -/
def StateKept {α : Type} (f : X86State → α) (m m' : Machine D) : Prop := f m'.s = f m.s

namespace StateKept

variable {α : Type} {f : X86State → α}

theorem framing (hf : ∀ s t, f (s.withCaches t) = f s) : Framing (D := D) (StateKept f) where
  trans h h' := h'.trans h
  ofMem h := by rw [StateKept, h.s, hf]

theorem modS {g : X86State → X86State} (hg : ∀ s, f (g s) = f s) :
    Quiet (StateKept f) (modS g : X86M D Unit) := fun m => hg m.s

theorem modD {g : Dec → Dec} : Quiet (StateKept f) (modD g : X86M D Unit) := fun _ => rfl

end StateKept

namespace MemFrame
variable {sel : BitVec 16}

theorem kbusLoad {lin : BitVec 64} {size : Nat} :
    Quiet MemFrame (kbusLoad lin size : X86M D (BitVec 64)) := linLoad

theorem kbusStore {lin : BitVec 64} {size : Nat} {v : BitVec 64} :
    Quiet MemFrame (kbusStore lin size v : X86M D Unit) := linStore

theorem descParse : Quiet MemFrame (descParse sel : X86M D SegView) :=
  bind getS fun _ => bind kbusLoad fun _ => pure _

theorem faultVec :
    Quiet MemFrame (X86.faultWhen c (X86.raiseVec cause tval) : X86M D Unit) :=
  ite raiseVec (pure ())

theorem retCsCheck {newpl : BitVec 8} : Quiet MemFrame (retCsCheck sel newpl : X86M D SegView) :=
  bind getS fun _ => bind faultVec fun _ => bind faultVec fun _ => bind descParse fun _ =>
    bind faultVec fun _ => bind faultVec fun _ => bind faultVec fun _ => pure _

theorem retSsCheck {newpl : BitVec 8} : Quiet MemFrame (retSsCheck sel newpl : X86M D SegView) :=
  bind getS fun _ => bind faultVec fun _ => bind faultVec fun _ => bind faultVec fun _ =>
    bind descParse fun _ => bind faultVec fun _ => bind faultVec fun _ => bind faultVec fun _ =>
    pure _

end MemFrame

instance : Framing (D := D) (StateKept (·.r)) := StateKept.framing fun _ _ => rfl
instance : Framing (D := D) (StateKept (·.seg)) := StateKept.framing fun _ _ => rfl
instance : Framing (D := D) (StateKept (·.cr0)) := StateKept.framing fun _ _ => rfl

/-! The loads of a segment register do what its commit does. -/

namespace Framing

variable {R : Machine D → Machine D → Prop} [Framing R] {seg : Seg} {sel : BitVec 16}

theorem segCommit {v : SegView} (hset : Quiet R (modS fun s => s.setSeg seg (v.toReg sel))) :
    Quiet R (segCommit seg sel v) :=
  bind hset fun _ => quiet (MemFrame.bind .getS fun _ =>
    MemFrame.ite MemFrame.kbusStore (MemFrame.pure ()))

theorem faultVec :
    Quiet R (X86.faultWhen c (X86.raiseVec cause tval)) := quiet MemFrame.faultVec

theorem loadData (hset : ∀ v : SegView, Quiet R (modS fun s => s.setSeg seg (v.toReg sel))) :
    Quiet R (loadData seg sel) :=
  bind (quiet .getS) fun _ => ite (segCommit (hset _)) (ite (segCommit (hset _))
    (bind faultVec fun _ => bind (quiet MemFrame.descParse) fun _ => bind faultVec fun _ =>
      bind faultVec fun _ => bind faultVec fun _ => segCommit (hset _)))

theorem loadSs (hset : ∀ v : SegView, Quiet R (modS fun s => s.setSeg .ss (v.toReg sel))) :
    Quiet R (loadSs sel) :=
  bind (quiet .getS) fun _ => ite (segCommit (hset _)) (bind faultVec fun _ =>
    bind faultVec fun _ => bind (quiet MemFrame.descParse) fun _ => bind faultVec fun _ =>
    bind faultVec fun _ => bind faultVec fun _ => segCommit (hset _))

theorem loadCs (hset : ∀ v : SegView, Quiet R (modS fun s => s.setSeg .cs (v.toReg sel))) :
    Quiet R (loadCs sel) :=
  bind (quiet .getS) fun _ => ite (segCommit (hset _)) (bind faultVec fun _ =>
    bind faultVec fun _ => bind (quiet MemFrame.descParse) fun _ => bind faultVec fun _ =>
    bind faultVec fun _ => bind faultVec fun _ => segCommit (hset _))

end Framing

theorem segCommit_ok {seg : Seg} {sel : BitVec 16} {v : SegView}
    (h : segCommit seg sel v m = .ok () m') :
    MemFrame (m.setS (m.s.setSeg seg (v.toReg sel))) m' := by
  have hrest : Quiet MemFrame (do
      let s ← getS
      if marksAccessed s sel v then kbusStore (descAddr s sel + 5) 1 ((v.ar ||| 1).setWidth 64)
      else pure () : X86M D Unit) :=
    MemFrame.bind .getS fun _ => MemFrame.ite MemFrame.kbusStore (MemFrame.pure ())
  exact hrest.of_ok h

theorem retCsCheck_ok {sel : BitVec 16} {newpl : BitVec 8} {cv : SegView}
    (h : retCsCheck sel newpl m = .ok cv m') :
    cv.ar.getLsbD 2 = false → dplOf cv.ar = newpl := by
  intro hconf
  obtain ⟨_, m1, -, h⟩ := bind_eq_ok (show ((faultWhen (isNull sel) (gpFault 0)) >>= _)
    m = _ from h)
  obtain ⟨_, m2, -, h⟩ := bind_eq_ok h
  obtain ⟨v, m3, -, h⟩ := bind_eq_ok h
  obtain ⟨_, m4, -, h⟩ := bind_eq_ok h
  obtain ⟨_, m5, hlevel, h⟩ := bind_eq_ok h
  obtain ⟨_, m6, -, h⟩ := bind_eq_ok h
  cases h
  have hlevel := (faultWhen_ok raiseVec_ne_ok hlevel).1
  rw [hconf, if_neg Bool.false_ne_true, decide_eq_false_iff_not, not_not] at hlevel
  exact hlevel

end Cemu.X86
