import Cemu.X86.TaskSwitch

/-!
# x86: far transfers

`pm_far` with its call gates, `pm_ret` and `pm_iret`, and the instructions around them. A return
peeks its whole frame and checks it before it commits anything; an outward one then switches to
the stack it found in the frame.
-/

namespace Cemu.X86

open RaiseM

variable {D : Type}

/-! ### Far CALL and JMP -/

structure NewStack where
  esp : BitVec 32
  ss : BitVec 16
  sv : SegView
  deriving DecidableEq, Repr

def tssStack (newpl : BitVec 8) : X86M D NewStack := do
  let s ← getS
  let n : BitVec 64 := newpl.setWidth 64
  faultWhen (!s.trAr.getLsbD 7 || !isTss s.trAr) (tsFault 0)
  let esp ← tssWord s.trBase (!s.trAr.getLsbD 3) (2 + 4 * n) (4 + 8 * n)
  let ss ← krd16 (s.trBase + tssField (!s.trAr.getLsbD 3) (4 + 4 * n) (8 + 8 * n))
  faultWhen (isNull ss) (tsFault 0)
  faultWhen (pastTable (tableLimit s ss) ss) (tsFault (selCode ss))
  let sv ← descParse ss
  faultWhen (decide (sv.ar &&& 0x1a ≠ 0x12)) (tsFault (selCode ss))
  faultWhen (decide (dplOf sv.ar ≠ newpl) || decide (rplOf ss ≠ newpl)) (tsFault (selCode ss))
  faultWhen (!sv.ar.getLsbD 7) (tsFault (selCode ss))
  pure ⟨esp, ss, sv⟩

structure Gate where
  gate16 : Bool
  dpl : BitVec 8
  present : Bool
  sel : BitVec 16
  off : BitVec 32
  count : Nat
  deriving DecidableEq, Repr

def gateOf (desc : BitVec 64) : Gate where
  gate16 := decide (desc >>> 40 &&& 0xf = 4)
  dpl := (desc >>> 45).setWidth 8 &&& 3
  present := desc.getLsbD 47
  sel := (desc >>> 16).setWidth 16
  off := (desc &&& 0xffff).setWidth 32 ||| (desc >>> 48 &&& 0xffff).setWidth 32 <<< 16
  count := (desc >>> 32 &&& 0x1f).toNat

def gateParams (w : Nat) : Nat → BitVec 32 → X86M D (List (BitVec 32))
  | 0, _ => pure []
  | k + 1, at_ => do
    let v ← stackPeek w at_
    let rest ← gateParams w k (at_ + BitVec.ofNat 32 w)
    pure (v :: rest)

def kpushAll (w : Nat) : List (BitVec 32) → X86M D Unit
  | [] => pure ()
  | v :: rest => do
    kstackPush w v
    kpushAll w rest

/-- Where a gate leads: its code segment, the level it runs at and whether the stack switches. -/
structure GateTarget where
  cv : SegView
  newpl : BitVec 8
  switched : Bool

def gateTarget (g : Gate) (isCall : Bool) : X86M D GateTarget := do
  let s ← getS
  faultWhen (isNull g.sel) (gpFault 0)
  faultWhen (pastTable (tableLimit s g.sel) g.sel) (gpFault (selCode g.sel))
  let cv ← descParse g.sel
  faultWhen (decide (cv.ar &&& 0x18 ≠ 0x18)) (gpFault (selCode g.sel))
  faultWhen (decide (s.cpl < dplOf cv.ar)) (gpFault (selCode g.sel))
  let switched := !cv.ar.getLsbD 2 && decide (dplOf cv.ar < s.cpl)
  faultWhen (switched && !isCall) (gpFault (selCode g.sel))
  pure ⟨cv, if switched then dplOf cv.ar else s.cpl, switched⟩

/-- The gate's frame on the inner stack: the caller's SS:ESP, its parameters, and the return
address. -/
def gateSwitch (w : Nat) (stack : NewStack) (params : List (BitVec 32)) (retCs : BitVec 16)
    (retEip : BitVec 32) : X86M D Unit := do
  let s ← getS
  modS fun s => s.setE espI stack.esp
  segCommit .ss stack.ss stack.sv
  kpushAll w ([(s.seg .ss).sel.setWidth 32, s.r espI] ++ params.reverse ++
    [retCs.setWidth 32, retEip])

/-- The frame of a gate: on the inner stack when it switches, and none for a JMP. -/
def gateFrame (g : Gate) (t : GateTarget) (isCall : Bool) (retCs : BitVec 16)
    (retEip : BitVec 32) : X86M D Unit :=
  let w := if g.gate16 then 2 else 4
  if t.switched then do
    -- a switch without a call has faulted before
    let stack ← tssStack t.newpl
    let params ← gateParams w g.count 0
    gateSwitch w stack params retCs retEip
  else doWhen isCall (kpushAll w [retCs.setWidth 32, retEip])

def callGate (sel : BitVec 16) (desc : BitVec 64) (isCall : Bool) (retEip : BitVec 32)
    (retCs : BitVec 16) : X86M D Unit := do
  let g := gateOf desc
  let s ← getS
  faultWhen (decide (g.dpl < s.cpl) || decide (g.dpl < rplOf sel)) (gpFault (selCode sel))
  faultWhen (!g.present) (npFault (selCode sel))
  let t ← gateTarget g isCall
  gateFrame g t isCall retCs retEip
  segCommit .cs (g.sel &&& ~~~3 ||| t.newpl.setWidth 16) (t.cv.atLevel t.newpl)
  setEip (if g.gate16 then g.off &&& 0xffff else g.off)

def pushReturn (retCs : BitVec 16) (retEip : BitVec 32) : X86M D Unit := do
  pushW (retCs.setWidth 32)
  pushW retEip

def farDirect (sel : BitVec 16) (off : BitVec 32) (isCall : Bool) (retEip : BitVec 32)
    (retCs : BitVec 16) : X86M D Unit := do
  loadCs sel
  doWhen isCall (pushReturn retCs retEip)
  setEip off

def pmFar (sel : BitVec 16) (off : BitVec 32) (isCall : Bool) (retEip : BitVec 32) :
    X86M D Unit := do
  let s ← getS
  let retCs := (s.seg .cs).sel
  if loadsUnchecked s then farDirect sel off isCall retEip retCs
  else
    faultWhen (isNull sel) (gpFault 0)
    faultWhen (pastTable (tableLimit s sel) sel) (gpFault (selCode sel))
    let desc ← kbusLoad (descAddr s sel) 8
    if desc.getLsbD 44 then farDirect sel off isCall retEip retCs
    else
      let ty := desc >>> 40 &&& 0xf
      let dpl : BitVec 8 := (desc >>> 45).setWidth 8 &&& 3
      let source : TaskSource := if isCall then .call else .jmp
      if ty = 4 ∨ ty = 0xc then callGate sel desc isCall retEip retCs
      else
        faultWhen (sel.getLsbD 2) (gpFault (selCode sel))
        faultWhen (decide (dpl < s.cpl) || decide (dpl < rplOf sel)) (gpFault (selCode sel))
        faultWhen (!desc.getLsbD 47) (npFault (selCode sel))
        if ty = 5 then doTaskSwitch ((desc >>> 16).setWidth 16) source retEip none
        else if ty = 9 ∨ ty = 0xb ∨ ty = 1 ∨ ty = 3 then doTaskSwitch sel source retEip none
        else gpFault (selCode sel)

/-- The far pointer of the modrm operand: offset and selector are one operand for the check. -/
def farPointer : X86M D (BitVec 16 × BitVec 32) := do
  let d ← getD
  memOperand (opSize d.w32 + 2) false
  let off ← rdStack (opSize d.w32) d.mlin
  let sel ← rd16 (d.mlin + BitVec.ofNat 64 (opSize d.w32))
  pure (sel, off)

/-- Far CALL and JMP through memory (FF /3 and /5). -/
def farMem (isCall : Bool) : X86M D Unit := do
  let m ← RaiseM.get
  if !m.d.isMem then ud
  else
    let p ← farPointer
    pmFar p.1 p.2 isCall (m.recPc + m.d.nxt)

/-! ### Far RET -/

structure RetTarget where
  cv : SegView
  outer : Option NewStack
  deriving DecidableEq, Repr

/-- The checks of a return to `sel`; `saved` is where an outward one finds SS:ESP. -/
def retTarget (w : Nat) (sel : BitVec 16) (saved : BitVec 32) : X86M D RetTarget := do
  let s ← getS
  let newpl := rplOf sel
  faultWhen (decide (newpl < s.cpl)) (gpFault (selCode sel))
  if s.cpl < newpl then do
    let esp ← stackPeek w saved
    let ss ← stackPeek w (saved + BitVec.ofNat 32 w)
    let cv ← retCsCheck sel newpl
    let sv ← retSsCheck (ss.setWidth 16) newpl
    pure ⟨cv, some ⟨esp, ss.setWidth 16, sv⟩⟩
  else do
    let cv ← retCsCheck sel newpl
    pure ⟨cv, none⟩

structure RetAddr where
  eip : BitVec 32
  sel : BitVec 16
  deriving DecidableEq, Repr

def retAddr (w : Nat) : X86M D RetAddr := do
  let eip ← stackPeek w 0
  let sel ← stackPeek w (BitVec.ofNat 32 w)
  pure ⟨eip, sel.setWidth 16⟩

/-- The switch of an outward `pm_ret`, with the release of the parameters from the caller's
stack. -/
def retSwitch (n : BitVec 32) : Option NewStack → X86M D Unit
  | some o => do
    modS fun s => s.setE espI o.esp
    segCommit .ss o.ss o.sv
    modS fun s => s.setE espI (s.r espI + n)
  | none => pure ()

def retCommit (n : BitVec 32) (w : Nat) (a : RetAddr) (t : RetTarget) : X86M D Unit := do
  segCommit .cs a.sel (t.cv.atLevel (rplOf a.sel))
  modS fun s => s.setE espI (popEsp s (BitVec.ofNat 32 (2 * w) + n))
  retSwitch n t.outer
  setEip a.eip

def pmRet (n : BitVec 32) : X86M D Unit := do
  let d ← getD
  let w := opSize d.w32
  let a ← retAddr w
  let t ← retTarget w a.sel (BitVec.ofNat 32 (2 * w) + n)
  retCommit n w a t

def retfImm (n : BitVec 16) : X86M D Unit := do
  let s ← getS
  if s.pe && !s.vm then pmRet (n.setWidth 32)
  else
    let eip ← popW
    setEip eip
    let sel ← popW
    loadCs (sel.setWidth 16)
    releaseParams n

def retf : X86M D Unit := do
  let s ← getS
  if s.pe && !s.vm then pmRet 0
  else
    let eip ← popW
    setEip eip
    let sel ← popW
    loadCs (sel.setWidth 16)

/-! ### IRET -/

def X86State.loadFlags (s : X86State) (mask clear flv : BitVec 32) : X86State :=
  { s with fl := s.fl &&& ~~~(mask ||| clear) ||| flv &&& mask ||| 2 }

structure IretFrame where
  eip : BitVec 32
  sel : BitVec 16
  flv : BitVec 32
  deriving DecidableEq, Repr

def iretFrame (w32 : Bool) : X86M D IretFrame := do
  let w := opSize w32
  let eip ← stackPeek w 0
  let sel ← stackPeek w (BitVec.ofNat 32 w)
  let flv ← stackPeek w (2 * BitVec.ofNat 32 w)
  pure ⟨eip, sel.setWidth 16, if w32 then flv else flv &&& 0xffff⟩

section

variable (s : X86State) (vme : Bool) (flv : BitVec 32)

def X86State.loadVif : X86State :=
  if vme then ((s.setFlag 19 (flv.getLsbD 9)).setFlag 20 (flv.getLsbD 20)).setFlag 9 true else s

theorem X86State.r_loadVif : (s.loadVif vme flv).r = s.r := by
  unfold X86State.loadVif
  split <;> rfl

theorem X86State.seg_loadVif : (s.loadVif vme flv).seg = s.seg := by
  unfold X86State.loadVif
  split <;> rfl

end

theorem X86State.fl_loadVif {s t : X86State} (h : s.fl = t.fl) (vme : Bool) (flv : BitVec 32) :
    (s.loadVif vme flv).fl = (t.loadVif vme flv).fl := by
  cases vme with
  | true => exact congrArg (fun fl => (({ s with fl := fl }).loadVif true flv).fl) h
  | false => exact h

def iretVm86 : X86M D Unit := do
  let d ← getD
  let s ← getS
  let vme := has s.cr4 kCr4Vme
  faultWhen (!vme && decide (s.iopl ≠ 3)) (gpFault 0)
  let f ← iretFrame d.w32
  let cv := segSynth s f.sel
  faultWhen (decide (cv.limit < f.eip)) (gpFault 0)
  segCommit .cs f.sel cv
  modD fun d => { d with rfLoad := true }
  modS fun s => (s.loadFlags (if d.w32 then 0x14fd7 else 0x4fd7) 0 f.flv).loadVif vme f.flv
  modS fun s => s.setE espI (popEsp s (BitVec.ofNat 32 (opSize d.w32) * 3))
  setEip f.eip

def iretTask : X86M D Unit := do
  let s ← getS
  faultWhen (!s.trAr.getLsbD 7 || !isTss s.trAr) (tsFault 0)
  let back ← krd16 s.trBase
  faultWhen (isNull back) (tsFault 0)
  let next ← nextPc
  doTaskSwitch back .iret next none

def commitSynth : List (Seg × BitVec 16) → X86M D Unit
  | [] => pure ()
  | (seg, sel) :: rest => do
    let s ← getS
    segCommit seg sel (segSynth s sel)
    commitSynth rest

def iretToVm86 (w : Nat) (f : IretFrame) : X86M D Unit := do
  let s ← getS
  faultWhen (decide (s.cpl ≠ 0)) (gpFault 0)
  let at_ (k : Nat) : BitVec 32 := BitVec.ofNat 32 k * BitVec.ofNat 32 w
  let esp ← stackPeek w (at_ 3)
  let ss ← stackPeek w (at_ 4)
  let es ← stackPeek w (at_ 5)
  let ds ← stackPeek w (at_ 6)
  let fs ← stackPeek w (at_ 7)
  let gs ← stackPeek w (at_ 8)
  modD fun d => { d with rfLoad := true }
  modS fun s => { s with fl := f.flv ||| 2 }
  commitSynth [(.cs, f.sel), (.ss, ss.setWidth 16), (.es, es.setWidth 16), (.ds, ds.setWidth 16),
    (.fs, fs.setWidth 16), (.gs, gs.setWidth 16)]
  modS fun s => s.setE espI esp
  setEip (f.eip &&& 0xffff)

def iretMask (s : X86State) (outer : Bool) : BitVec 32 :=
  if outer || decide (s.cpl = 0) then 0x17fd7 ||| if has s.cr0 kCr0Am then 0x40000 else 0
  else 0xfd7

def iretSwitch (w : Nat) : Option NewStack → X86M D Unit
  | some o => do
    modS fun s => s.setE espI o.esp
    segCommit .ss o.ss o.sv
  | none => modS fun s => s.setE espI (popEsp s (BitVec.ofNat 32 w * 3))

def iretCommit (s : X86State) (w : Nat) (f : IretFrame) (t : RetTarget) : X86M D Unit := do
  modD fun d => { d with rfLoad := true }
  modS fun s' => s'.loadFlags (iretMask s t.outer.isSome) 0x30000 f.flv
  segCommit .cs f.sel (t.cv.atLevel (rplOf f.sel))
  iretSwitch w t.outer
  setEip f.eip

def iretProtected (w : Nat) (f : IretFrame) : X86M D Unit := do
  let s ← getS
  let t ← retTarget w f.sel (3 * BitVec.ofNat 32 w)
  iretCommit s w f t

def pmIret : X86M D Unit := do
  let d ← getD
  let s ← getS
  if s.vm then iretVm86
  else if s.nt then iretTask
  else
    let f ← iretFrame d.w32
    if f.flv.getLsbD 17 then iretToVm86 (opSize d.w32) f
    else iretProtected (opSize d.w32) f

def iretReal : X86M D Unit := do
  let d ← getD
  let eip ← popW
  let sel ← popW
  let flv ← popW
  let s ← getS
  segCommit .cs (sel.setWidth 16) (segSynth s (sel.setWidth 16))
  setEip eip
  modD fun d => { d with rfLoad := true }
  modS fun s => { s with
    fl := if d.w32 then flv &&& ~~~0x20000 ||| 2
      else s.fl &&& 0xffff0000 ||| (flv &&& 0xffff ||| 2) }

def iretAny : X86M D Unit := do
  let s ← getS
  if s.pe then pmIret else iretReal

def iret : X86M D Unit := do
  iretAny
  modS fun s => { s with nmiBlocked := false }

end Cemu.X86
