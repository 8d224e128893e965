import Cemu.Lib.RaiseM
import Cemu.X86.MemMap

/-!
# x86: the processor state

What `cpu/isa/x86` works on: `x86_state`, the decoder context `dec` that the prefixes and the
modrm byte fill, the memory behind the bus and the port space. Fixed-width fields are words of
the source's width, a C array is a function of its index, and a C `int` that only holds a truth
value is a `Bool`. Fields that no modelled function reads are left out.
-/

namespace Cemu.X86

open BitVec

/-! ### Constants of x86.h -/

inductive Seg where
  | es
  | cs
  | ss
  | ds
  | fs
  | gs
  deriving DecidableEq, Repr

/-- A general register by its modrm number: eax, ecx, edx, ebx, esp, ebp, esi, edi. -/
abbrev Reg := BitVec 3

def eaxI : Reg := 0
def ecxI : Reg := 1
def edxI : Reg := 2
def ebxI : Reg := 3
def espI : Reg := 4
def ebpI : Reg := 5
def esiI : Reg := 6
def ediI : Reg := 7

def vecDe : Nat := 0
def vecUd : Nat := 6
def vecTs : Nat := 10
def vecNp : Nat := 11
def vecSs : Nat := 12
def vecGp : Nat := 13
def vecPf : Nat := 14
def vecAc : Nat := 17

def kCr0Pe : BitVec 32 := 1
def kCr0Wp : BitVec 32 := 1#32 <<< 16
def kCr0Am : BitVec 32 := 1#32 <<< 18
def kCr4Vme : BitVec 32 := 0x1
def kCr4Pvi : BitVec 32 := 0x2
def kCr4Pse : BitVec 32 := 0x10
def kCr4Pae : BitVec 32 := 0x20
def kCr4Pge : BitVec 32 := 0x80
def kCr4Osfxsr : BitVec 32 := 0x200

def kEferNxe : BitVec 64 := 1#64 <<< 11

def kDr7AnyEnable : BitVec 32 := 0xff

/-! ### The register file -/

/-- One column of `sreg`, `base`, `limit`, `ar` and `dbit`: the selector and its descriptor
cache. -/
structure SegReg where
  sel : BitVec 16
  base : BitVec 64
  limit : BitVec 32
  ar : BitVec 8
  dbit : Bool
  deriving DecidableEq, Repr

structure ExtFloat80 where
  signif : BitVec 64
  signExp : BitVec 16
  deriving DecidableEq, Repr

/-- `x86_fpu`: the stack in physical order, the environment and the SSE registers. -/
structure X86Fpu where
  st : BitVec 3 → ExtFloat80
  cw : BitVec 16
  sw : BitVec 16
  tw : BitVec 16
  fip : BitVec 32
  fcs : BitVec 16
  fop : BitVec 16
  fdp : BitVec 32
  fds : BitVec 16
  mxcsr : BitVec 32
  mxcsrMask : BitVec 32
  xmm : BitVec 3 → BitVec 128
  pendingMf : Bool

structure TlbEntry where
  tag : BitVec 32
  flags : BitVec 32
  linBase : BitVec 32
  pageShift : Nat
  pbase : BitVec 64
  /-- The page in host memory; the entry then has `kTlbHost` in its flags. -/
  host : Option HostPtr
  deriving DecidableEq, Repr

def TlbEntry.zero : TlbEntry := ⟨0, 0, 0, 0, 0, none⟩

structure X86State where
  r : Reg → BitVec 32
  seg : Seg → SegReg
  /-- The word of `eflags`. -/
  fl : BitVec 32
  cr0 : BitVec 32
  cr2 : BitVec 32
  cr3 : BitVec 32
  cr4 : BitVec 32
  efer : BitVec 64
  fpu : X86Fpu
  tlb : BitVec 32 → TlbEntry
  tlbGen : BitVec 32
  fetchPage : BitVec 32
  fetchHost : HostPtr
  fetchValid : Bool
  trBase : BitVec 64
  trLimit : BitVec 32
  trAr : BitVec 8
  dr : BitVec 3 → BitVec 32
  a20 : Bool
  gdtr : BitVec 64 := 0
  gdtrLimit : BitVec 16 := 0
  /-- LDTR: selector, base and limit of the cached descriptor. -/
  ldtr : BitVec 16 := 0
  ldtrBase : BitVec 64 := 0
  ldtrLimit : BitVec 32 := 0
  /-- The selector in TR. -/
  tr : BitVec 16 := 0
  btPending : Bool := false
  nmiBlocked : Bool := false
  intrInhibit : Bool := false

namespace X86State

section

variable (s : X86State)

def cf : Bool := s.fl.getLsbD 0
def pf : Bool := s.fl.getLsbD 2
def af : Bool := s.fl.getLsbD 4
def zf : Bool := s.fl.getLsbD 6
def sf : Bool := s.fl.getLsbD 7
def ifl : Bool := s.fl.getLsbD 9
def df : Bool := s.fl.getLsbD 10
def of : Bool := s.fl.getLsbD 11
def iopl : BitVec 2 := (s.fl >>> 12).setWidth 2
def nt : Bool := s.fl.getLsbD 14
def vm : Bool := s.fl.getLsbD 17
def ac : Bool := s.fl.getLsbD 18

def setFlag (i : Nat) (b : Bool) : X86State :=
  { s with fl := s.fl &&& ~~~(1#32 <<< i) ||| if b then 1#32 <<< i else 0 }

def pe : Bool := s.cr0.getLsbD 0

def pg : Bool := s.cr0.getLsbD 31

def x (i : Reg) : BitVec 16 := (s.r i).setWidth 16

def l (i : Reg) : BitVec 8 := (s.r i).setWidth 8

def h (i : Reg) : BitVec 8 := (s.r i >>> 8).setWidth 8

def setE (i : Reg) (v : BitVec 32) : X86State :=
  { s with r := Function.update s.r i v }

def setX (i : Reg) (v : BitVec 16) : X86State :=
  s.setE i (s.r i &&& 0xffff0000 ||| v.setWidth 32)

def setL (i : Reg) (v : BitVec 8) : X86State :=
  s.setE i (s.r i &&& 0xffffff00 ||| v.setWidth 32)

def setH (i : Reg) (v : BitVec 8) : X86State :=
  s.setE i (s.r i &&& 0xffff00ff#32 ||| v.setWidth 32 <<< 8)

/-- The byte register of an encoding: 4 to 7 are the high halves of the first four cells. -/
def byteReg (i : Reg) : BitVec 8 := if i < 4 then s.l i else s.h (i - 4)

def setByteReg (i : Reg) (v : BitVec 8) : X86State :=
  if i < 4 then s.setL i v else s.setH (i - 4) v

end

section Views

variable (s : X86State) {i j : Reg}

@[simp] theorem r_setE_same (v : BitVec 32) : (s.setE i v).r i = v := Function.update_self ..

theorem r_setE_ne (v : BitVec 32) (hne : j ≠ i) : (s.setE i v).r j = s.r j :=
  Function.update_of_ne hne ..

private theorem setWidth_merge {n : Nat} {w keep : BitVec 32} (hn : n ≤ 32)
    (hkeep : ∀ k < n, keep.getLsbD k = false) (v : BitVec n) :
    (w &&& keep ||| v.setWidth 32).setWidth n = v := by
  apply eq_of_getLsbD_eq
  intro k hk
  simp only [getLsbD_setWidth, getLsbD_or, getLsbD_and, hkeep k hk,
    Bool.and_false, Bool.false_or, hk, decide_true, Bool.true_and]
  rw [decide_eq_true (by omega), Bool.true_and]

@[simp] theorem x_setX_same (v : BitVec 16) : (s.setX i v).x i = v := by
  rw [x, setX, r_setE_same]
  exact setWidth_merge (by decide) (by decide) v

theorem x_setX_ne (v : BitVec 16) (hne : j ≠ i) : (s.setX i v).x j = s.x j := by
  rw [x, setX, r_setE_ne _ _ hne, x]

@[simp] theorem l_setL_same (v : BitVec 8) : (s.setL i v).l i = v := by
  rw [l, setL, r_setE_same]
  exact setWidth_merge (by decide) (by decide) v

@[simp] theorem l_setH_same (v : BitVec 8) : (s.setH i v).l i = s.l i := by
  rw [l, setH, r_setE_same, l]
  apply eq_of_getLsbD_eq
  intro k hk
  have hkeep : ∀ k < 8, (0xffff00ff#32).getLsbD k = true := by decide
  simp only [getLsbD_setWidth, getLsbD_or, getLsbD_and, getLsbD_shiftLeft,
    hkeep k hk, hk, decide_true, Bool.not_true, Bool.and_false, Bool.false_and, Bool.or_false,
    Bool.and_true]

@[simp] theorem h_setH_same (v : BitVec 8) : (s.setH i v).h i = v := by
  rw [h, setH, r_setE_same]
  apply eq_of_getLsbD_eq
  intro k hk
  have hkeep : ∀ k < 8, (0xffff00ff#32).getLsbD (8 + k) = false := by decide
  simp only [getLsbD_setWidth, getLsbD_ushiftRight, getLsbD_or,
    getLsbD_and, getLsbD_shiftLeft, hkeep k hk, hk, decide_true, Bool.true_and,
    Bool.and_false, Bool.false_or, Nat.add_sub_cancel_left]
  rw [decide_eq_true (by omega), decide_eq_false (by omega),
    decide_eq_true (by omega), Bool.not_false, Bool.true_and, Bool.true_and, Bool.true_and]

end Views

def cpl (s : X86State) : BitVec 8 := (s.seg .cs).ar >>> 5 &&& 3

end X86State

/-! ### The decoder context -/

inductive Rep where
  | none
  | repe
  | repne
  deriving DecidableEq, Repr

structure Dec where
  enc : BitVec 8
  w32 : Bool
  a32 : Bool
  /-- The segment override; `none` is the source's -1. -/
  seg : Option Seg
  rep : Rep
  nxt : BitVec 32
  mod : BitVec 2
  reg : Reg
  rm : Reg
  isMem : Bool
  mseg : Seg
  mlin : BitVec 64
  moff : BitVec 32
  mEspBase : Bool
  watchHit : BitVec 32
  eipSet : Bool
  /-- The instruction loaded RF itself. -/
  rfLoad : Bool := false
  deriving DecidableEq, Repr

/-! ### The port space -/

structure PortSide (D : Type) where
  w : World D
  io : Bus
  ioWf : BusWf io
  a20Line : Bool

/-- The callbacks of a port device. A read answers from the devices and leaves memory alone. -/
structure PortOps (D : Type) where
  read : Nat → BitVec 64 → Nat → DevState D → BitVec 64 × DevState D
  write : Nat → BitVec 64 → Nat → BitVec 64 → PortSide D → PortSide D

structure PortRead where
  port : BitVec 16
  size : Nat
  deriving DecidableEq, Repr

structure Machine (D : Type) where
  s : X86State
  d : Dec
  /-- `cpu->pc`, an offset within CS. -/
  eip : BitVec 32
  /-- `fr->rec.pc`, the start of the instruction. -/
  recPc : BitVec 32
  w : World D
  /-- `cpu->io`. -/
  io : Bus
  ioWf : BusWf io
  ports : Ops → PortOps D
  /-- Debugging observes every memory access, and no access may be answered from a cache. -/
  gMemSlow : Bool
  /-- The read cycles the port bus has seen, the latest first. -/
  portReads : List PortRead

structure TrapRec where
  cause : Nat
  tval : BitVec 64
  deriving DecidableEq, Repr

abbrev X86M (D : Type) := RaiseM TrapRec (Machine D)

variable {D : Type}

def raiseVec {α : Type} (cause : Nat) (tval : BitVec 64) : X86M D α :=
  RaiseM.raise ⟨cause, tval⟩

section

variable {α : Type} (code : BitVec 32)

def gpFault : X86M D α := raiseVec vecGp (code.setWidth 64)
def npFault : X86M D α := raiseVec vecNp (code.setWidth 64)
def tsFault : X86M D α := raiseVec vecTs (code.setWidth 64)
def ssFault : X86M D α := raiseVec vecSs (code.setWidth 64)

end

def raiseAtEip {α : Type} (cause : Nat) : X86M D α := fun m =>
  .raise ⟨cause, m.eip.setWidth 64⟩ m

def ud {α : Type} : X86M D α := raiseAtEip vecUd
def de {α : Type} : X86M D α := raiseAtEip vecDe

namespace Machine

def setS (m : Machine D) (s : X86State) : Machine D := { m with s := s }
def setD (m : Machine D) (d : Dec) : Machine D := { m with d := d }
def setWorld (m : Machine D) (w : World D) : Machine D := { m with w := w }

end Machine

def modS (f : X86State → X86State) : X86M D Unit := RaiseM.modify fun m => m.setS (f m.s)

def modD (f : Dec → Dec) : X86M D Unit := RaiseM.modify fun m => m.setD (f m.d)

def getS : X86M D X86State := fun m => .ok m.s m
def getD : X86M D Dec := fun m => .ok m.d m

/-! ### Reset -/

def fpuInit : X86Fpu where
  st := fun _ => ⟨0, 0⟩
  cw := 0x037f
  sw := 0
  tw := 0xffff
  fip := 0
  fcs := 0
  fop := 0
  fdp := 0
  fds := 0
  mxcsr := 0x1f80
  mxcsrMask := 0xffff
  xmm := fun _ => 0
  pendingMf := false

def x86InitMultiboot : X86State where
  r := fun i => if i = eaxI then 0x2badb002 else if i = ebxI then 0x7000
    else if i = espI then 0x6f00 else 0
  seg := fun i => if i = .cs then ⟨8, 0, 0xffffffff, 0x9b, true⟩
    else ⟨0x10, 0, 0xffffffff, 0x93, true⟩
  fl := 0x202
  cr0 := kCr0Pe
  cr2 := 0
  cr3 := 0
  cr4 := 0
  efer := 0
  fpu := fpuInit
  tlb := fun _ => .zero
  tlbGen := 0
  fetchPage := 0
  fetchHost := ⟨0, 0⟩
  fetchValid := false
  trBase := 0
  trLimit := 0
  trAr := 0
  dr := fun i => if i = 6 then 0xffff0ff0 else if i = 7 then 0x400 else 0
  a20 := true

def Dec.start (w32 : Bool) : Dec where
  enc := 0
  w32 := w32
  a32 := w32
  seg := none
  rep := .none
  nxt := 0
  mod := 0
  reg := 0
  rm := 0
  isMem := false
  mseg := .ds
  mlin := 0
  moff := 0
  mEspBase := false
  watchHit := 0
  eipSet := false

def smallBus : Bus := (x86MemMap kMinRamSize false).getD Bus.empty

theorem smallBus_wf : BusWf smallBus := by
  have hmap : x86MemMap kMinRamSize false = runBusOps .empty (x86MemOps kMinRamSize false) :=
    if_neg (by decide)
  rw [smallBus, hmap]
  cases h : runBusOps .empty (x86MemOps kMinRamSize false) with
  | none => exact .empty
  | some bus => exact .run h

def openPorts (v : BitVec 64) : Ops → PortOps Unit := fun _ =>
  ⟨fun _ _ _ ds => (v, ds), fun _ _ _ _ side => side⟩

/-- The smallest board around a processor state, with the given bytes in its memory. -/
def Machine.small (s : X86State) (d : Dec) (mem : ByteMem) : Machine Unit where
  s := s
  d := d
  eip := 0
  recPc := 0
  w := World.ramOnly smallBus smallBus_wf 0 mem
  io := ⟨[⟨0, 0x10000, .device 0, 0, false, none⟩], none⟩
  ioWf := BusWf.run (show runBusOps Bus.empty [.add 0 0x10000 (.device 0) 0] = _ by decide)
  ports := openPorts 0
  gMemSlow := false
  portReads := []

end Cemu.X86
