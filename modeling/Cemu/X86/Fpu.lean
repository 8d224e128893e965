import Cemu.X86.Arith

/-!
# x86: the x87 registers and their memory images

The register stack of `fpu.c` with its tags, and the images that FNSTENV, FNSAVE and FXSAVE store.
-/

namespace Cemu.X86

open List

def kFpuTagEmpty : BitVec 16 := 3

namespace X86Fpu

variable (f : X86Fpu)

def top : BitVec 3 := (f.sw >>> 11).setWidth 3

def tag (p : BitVec 3) : BitVec 16 := f.tw >>> (2 * p.toNat) &&& 3

def finit : X86Fpu :=
  { f with cw := 0x037f, sw := 0, tw := 0xffff, fip := 0, fdp := 0, fcs := 0, fds := 0, fop := 0,
           pendingMf := false }

end X86Fpu

/-! ### Images -/

def leBytes {w : Nat} (v : BitVec w) (n : Nat) : List (BitVec 8) :=
  (range n).map fun k => (v >>> (8 * k)).setWidth 8

def put16 (v : BitVec 16) : List (BitVec 8) := leBytes v 2
def put32 (v : BitVec 32) : List (BitVec 8) := leBytes v 4

def zeros (n : Nat) : List (BitVec 8) := replicate n 0

/-- The bytes of FNSTENV. -/
def fpuStoreEnv (f : X86Fpu) (wide : Bool) : List (BitVec 8) :=
  if wide then
    put32 (0xffff0000 ||| f.cw.setWidth 32) ++ put32 (0xffff0000 ||| f.sw.setWidth 32) ++
      put32 (0xffff0000 ||| f.tw.setWidth 32) ++ put32 f.fip ++ put16 f.fcs ++ put16 f.fop ++
      put32 f.fdp ++ put16 f.fds ++ zeros 2
  else
    put16 f.cw ++ put16 f.sw ++ put16 f.tw ++ put16 (f.fip.setWidth 16) ++ put16 f.fcs ++
      put16 (f.fdp.setWidth 16) ++ put16 f.fds

def putF80 (v : ExtFloat80) : List (BitVec 8) := leBytes v.signif 8 ++ put16 v.signExp

def stackOrder (f : X86Fpu) : List ExtFloat80 :=
  (range 8).map fun i => f.st (f.top + BitVec.ofNat 3 i)

def fpuStoreState (f : X86Fpu) (wide : Bool) : List (BitVec 8) :=
  fpuStoreEnv f wide ++ (stackOrder f).flatMap putF80

def abridgedTags (f : X86Fpu) : BitVec 16 :=
  (range 8).foldl (fun b i =>
    if f.tag (BitVec.ofNat 3 i) ≠ kFpuTagEmpty then b ||| 1#16 <<< i else b) 0

def fpuFxsave (f : X86Fpu) : List (BitVec 8) :=
  put16 f.cw ++ put16 f.sw ++ put16 (abridgedTags f) ++ put16 f.fop ++ put32 f.fip ++
    put16 f.fcs ++ zeros 2 ++ put32 f.fdp ++ put16 f.fds ++ zeros 2 ++ put32 f.mxcsr ++
    put32 f.mxcsrMask ++ (stackOrder f).flatMap (fun v => putF80 v ++ zeros 6) ++
    (range 8).flatMap (fun i => leBytes (f.xmm (BitVec.ofNat 3 i)) 16) ++ zeros 224

section Lengths

end Lengths

end Cemu.X86
