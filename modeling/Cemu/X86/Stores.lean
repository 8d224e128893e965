import Cemu.X86.Fpu

/-!
# x86: stores of several parts

The instructions whose memory operand is wider than one `lin_store`: CMPXCHG8B writes two double
words, an 80-bit FSTP a quad word and a word, the x87 images go out byte by byte, and PUSHA pushes
eight registers. All of them start from a decoded modrm.
-/

namespace Cemu.X86

variable {D : Type}

def cmpxchg8bStore (nv : BitVec 64) : X86M D Unit := do
  let d ← getD
  wr32 d.mlin (nv.setWidth 32)
  wr32 (d.mlin + 4) ((nv >>> 32).setWidth 32)

def cmpxchg8bOp : X86M D Unit := do
  let d ← getD
  if d.reg ≠ 1 ∨ ¬d.isMem then ud
  else
    memOperand 8 false
    let lo ← rd32 d.mlin
    let hi ← rd32 (d.mlin + 4)
    let s ← getS
    if hi ++ lo = s.r edxI ++ s.r eaxI then
      modS fun s => s.setFlag 6 true
      memOperand 8 true
      cmpxchg8bStore (s.r ecxI ++ s.r ebxI)
    else modS fun s => ((s.setFlag 6 false).setE eaxI lo).setE edxI hi

def fxsave : X86M D Unit := do
  let d ← getD
  let s ← getS
  if !has s.cr4 kCr4Osfxsr then ud
  else if !d.isMem then ud
  else if has d.mlin 15 then gpFault 0
  else
    memOperand 512 true
    wrBytes d.mlin (fpuFxsave s.fpu)

def x87StoreEnv (wide : Bool) : X86M D Unit := do
  memOperand (if wide then 28 else 14) true
  let d ← getD
  let s ← getS
  wrBytes d.mlin (fpuStoreEnv s.fpu wide)

def x87StoreState (wide : Bool) : X86M D Unit := do
  memOperand (if wide then 108 else 94) true
  let d ← getD
  let s ← getS
  wrBytes d.mlin (fpuStoreState s.fpu wide)
  modS fun s => { s with fpu := s.fpu.finit }

/-- The store of FSTP m80. -/
def wrF80 (v : ExtFloat80) : X86M D Unit := do
  memOperand 10 true
  let d ← getD
  wr64 d.mlin v.signif
  wr16 (d.mlin + 8) v.signExp

def pushAll (size : Nat) : List (BitVec 32) → X86M D Unit
  | [] => pure ()
  | v :: rest => do
    stackPush size v
    pushAll size rest

def pushaValues (s : X86State) : List (BitVec 32) :=
  [eaxI, ecxI, edxI, ebxI, espI, ebpI, esiI, ediI].map s.r

def pusha : X86M D Unit := do
  let s ← getS
  let d ← getD
  pushAll (opSize d.w32) (pushaValues s)

end Cemu.X86
