import Cemu.X86.Segments

/-!
# x86: task switches

`do_task_switch`: the outgoing task is saved in the shape of its own TSS, the busy bits move, and
the incoming task is loaded in the shape of the new one. Every access to a TSS is the processor's
own.
-/

namespace Cemu.X86

open RaiseM

variable {D : Type}

def krd32 (lin : BitVec 64) : X86M D (BitVec 32) := do
  let v ← kbusLoad lin 4
  pure (v.setWidth 32)

def kwr16 (lin : BitVec 64) (v : BitVec 16) : X86M D Unit := kbusStore lin 2 (v.setWidth 64)
def kwr32 (lin : BitVec 64) (v : BitVec 32) : X86M D Unit := kbusStore lin 4 (v.setWidth 64)

def kwrStack (size : Nat) (lin : BitVec 64) (v : BitVec 32) : X86M D Unit :=
  if size = 4 then kwr32 lin v else kwr16 lin (v.setWidth 16)

def kstackPush (size : Nat) (v : BitVec 32) : X86M D Unit := do
  let s ← getS
  let off := pushOff s size
  segUse .ss off size true
  watchData (linOf s .ss off) size true
  kwrStack size (linOf s .ss off) v
  modS fun s => s.setE espI (pushEsp s off)

inductive TaskSource where
  | jmp
  | call
  | iret
  deriving DecidableEq, Repr

def isTss (ar : BitVec 8) : Bool :=
  let ty := ar &&& 0xf
  decide (ty = 1) || decide (ty = 3) || decide (ty = 9) || decide (ty = 0xb)

/-- The offset of field `narrow` in the 16-bit TSS and of `wide` in the 32-bit one. -/
def tssField (tss16 : Bool) (narrow wide : BitVec 64) : BitVec 64 := if tss16 then narrow else wide

def taskTarget (sel : BitVec 16) (source : TaskSource) : X86M D SegView := do
  let s ← getS
  faultWhen (isNull sel) (gpFault 0)
  faultWhen (sel.getLsbD 2) (gpFault (selCode sel))
  faultWhen (pastTable (s.gdtrLimit.setWidth 32) sel) (gpFault (selCode sel))
  let v ← descParse sel
  faultWhen (v.ar.getLsbD 4 || !isTss v.ar) (gpFault (selCode sel))
  faultWhen (decide (source = .iret) && !v.ar.getLsbD 1) (tsFault (selCode sel))
  faultWhen (decide (source ≠ .iret) && v.ar.getLsbD 1) (gpFault (selCode sel))
  faultWhen (!v.ar.getLsbD 7) (npFault (selCode sel))
  faultWhen (decide (v.limit < if v.ar.getLsbD 3 then 0x67 else 0x2b)) (npFault (selCode sel))
  pure v

def storeFields (store : BitVec 64 → BitVec 32 → X86M D Unit) (stride : BitVec 64) :
    BitVec 64 → List (BitVec 32) → X86M D Unit
  | _, [] => pure ()
  | at_, v :: rest => do
    store at_ v
    storeFields store stride (at_ + stride) rest

def allRegs : List Reg := [eaxI, ecxI, edxI, ebxI, espI, ebpI, esiI, ediI]

def tssSegs (tss16 : Bool) : List Seg :=
  if tss16 then [.es, .cs, .ss, .ds] else [.es, .cs, .ss, .ds, .fs, .gs]

def taskSave (source : TaskSource) (nextEip : BitVec 32) : X86M D Unit := do
  let s ← getS
  let out16 := !s.trAr.getLsbD 3
  let savedFl := if source = .iret then s.fl &&& ~~~0x4000 else s.fl
  let store (at_ : BitVec 64) (v : BitVec 32) : X86M D Unit :=
    if out16 then kwr16 at_ (v.setWidth 16) else kwr32 at_ v
  store (s.trBase + tssField out16 0x0e 0x20) nextEip
  store (s.trBase + tssField out16 0x10 0x24) savedFl
  storeFields store (tssField out16 2 4) (s.trBase + tssField out16 0x12 0x28) (allRegs.map s.r)
  storeFields (fun at_ v => kwr16 at_ (v.setWidth 16)) (tssField out16 2 4)
    (s.trBase + tssField out16 0x22 0x48)
    ((tssSegs out16).map fun g => (s.seg g).sel.setWidth 32)

def doWhen (c : Bool) (act : X86M D Unit) : X86M D Unit := if c then act else pure ()

def taskTrap (v : SegView) : X86M D Unit :=
  if v.ar.getLsbD 3 then do
    let t ← krd8 v.base
    modS fun s => { s with btPending := t.getLsbD 0 }
  else modS fun s => { s with btPending := false }

def taskLink (sel : BitVec 16) (source : TaskSource) (v : SegView) : X86M D Unit := do
  let s ← getS
  doWhen (decide (source ≠ .call))
    (kbusStore (s.gdtr + (s.tr >>> 3).setWidth 64 * 8 + 5) 1 ((s.trAr &&& ~~~2#8).setWidth 64))
  doWhen (decide (source ≠ .iret))
    (kbusStore (s.gdtr + (sel >>> 3).setWidth 64 * 8 + 5) 1 ((v.ar ||| 2).setWidth 64))
  taskTrap v
  doWhen (decide (source = .call)) (kwr16 v.base s.tr)
  modS fun s => { s with tr := sel, trBase := v.base, trLimit := v.limit, trAr := v.ar ||| 2 }

def tlbFlushNonGlobal (s : X86State) : X86State :=
  if !has s.cr4 kCr4Pge then tlbFlushAll s
  else { s with
    tlb := fun i => if has (s.tlb i).flags kTlbGlobal then s.tlb i else { s.tlb i with tag := 0 }
    fetchValid := false }

def taskCr3 (base : BitVec 64) (tss16 : Bool) : X86M D Unit :=
  if tss16 then pure () else do
    let cr3 ← krd32 (base + 0x1c)
    modS fun s => tlbFlushNonGlobal { s with cr3 := cr3 }

def tssWord (base : BitVec 64) (tss16 : Bool) (narrow wide : BitVec 64) : X86M D (BitVec 32) :=
  if tss16 then do
    let v ← krd16 (base + narrow)
    pure (v.setWidth 32)
  else krd32 (base + wide)

def taskFlags (source : TaskSource) (base : BitVec 64) (tss16 : Bool) : X86M D Unit := do
  taskCr3 base tss16
  let ldt ← krd16 (base + tssField tss16 0x2a 0x60)
  loadLdtr ldt true
  let nf ← tssWord base tss16 0x10 0x24
  modD fun d => { d with rfLoad := true }
  modS fun s => { s with fl := s.fl &&& ~~~0x37fd7 ||| nf &&& 0x27fd7 ||| 2 }
  doWhen (decide (source = .call)) (modS fun s => s.setFlag 14 true)

def taskCsCheck (sel : BitVec 16) : X86M D SegView := do
  let s ← getS
  faultWhen (isNull sel) (tsFault 0)
  faultWhen (pastTable (tableLimit s sel) sel) (tsFault (selCode sel))
  let cv ← descParse sel
  faultWhen (decide (cv.ar &&& 0x18 ≠ 0x18)) (tsFault (selCode sel))
  faultWhen (if cv.ar.getLsbD 2 then decide (rplOf sel < dplOf cv.ar)
    else decide (dplOf cv.ar ≠ rplOf sel)) (tsFault (selCode sel))
  faultWhen (!cv.ar.getLsbD 7) (npFault (selCode sel))
  pure (cv.atLevel (rplOf sel))

/-- The code segment of the incoming task: a VM86 one is made from its selector. -/
def taskCs (sel : BitVec 16) : X86M D Unit := do
  let s ← getS
  if s.vm then segCommit .cs sel (segSynth s sel)
  else
    let cv ← taskCsCheck sel
    segCommit .cs sel cv

def taskRegs (tss16 : Bool) : BitVec 64 → List Reg → X86M D Unit
  | _, [] => pure ()
  | at_, i :: rest => do
    let v ← tssWord at_ tss16 0 0
    modS fun s => s.setSized (!tss16) i v
    taskRegs tss16 (at_ + tssField tss16 2 4) rest

def tssWideSel (tss16 : Bool) (at_ : BitVec 64) : X86M D (BitVec 16) :=
  if tss16 then pure 0 else krd16 at_

/-- The data and stack segments of the incoming task; a 16-bit image has no FS and GS. -/
def taskSegs (base : BitVec 64) (tss16 : Bool) : X86M D Unit := do
  let es ← krd16 (base + tssField tss16 0x22 0x48)
  loadData .es es
  let ss ← krd16 (base + tssField tss16 0x26 0x50)
  loadSs ss
  let ds ← krd16 (base + tssField tss16 0x28 0x54)
  loadData .ds ds
  let fs ← tssWideSel tss16 (base + 0x58)
  loadData .fs fs
  let gs ← tssWideSel tss16 (base + 0x5c)
  loadData .gs gs

def pushCode : Option (BitVec 32) → X86M D Unit
  | some code => kstackPush 4 code
  | none => pure ()

def doTaskSwitch (sel : BitVec 16) (source : TaskSource) (nextEip : BitVec 32)
    (ec : Option (BitVec 32)) : X86M D Unit := do
  let v ← taskTarget sel source
  let tss16 := !v.ar.getLsbD 3
  taskSave source nextEip
  taskLink sel source v
  taskFlags source v.base tss16
  let newCs ← krd16 (v.base + tssField tss16 0x24 0x4c)
  taskCs newCs
  taskRegs tss16 (v.base + tssField tss16 0x12 0x28) allRegs
  taskSegs v.base tss16
  modS fun s => { s with cr0 := s.cr0 ||| 0x8 }
  pushCode ec
  let eip ← tssWord v.base tss16 0x0e 0x20
  setEip eip

end Cemu.X86
