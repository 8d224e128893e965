import Cemu.Riscv64.State

/-!
# riscv64: the trigger module

`trigger.c`: the match of one mcontrol6 trigger, the check made before each access, and
the write policies of `tdata1` and `tdata3`.
-/

namespace Cemu.Rv64

def kMc6Load : BitVec 64 := 1#64 <<< 0
def kMc6Store : BitVec 64 := 1#64 <<< 1
def kMc6Execute : BitVec 64 := 1#64 <<< 2
def kMc6U : BitVec 64 := 1#64 <<< 3
def kMc6S : BitVec 64 := 1#64 <<< 4
def kMc6M : BitVec 64 := 1#64 <<< 6
def kMc6Chain : BitVec 64 := 1#64 <<< 11
def kMc6Dmode : BitVec 64 := 1#64 <<< 59

def kMc6MatchEq : BitVec 64 := 0
def kMc6MatchGe : BitVec 64 := 2
def kMc6MatchLt : BitVec 64 := 3

def kTd3MhMask : BitVec 64 := 0x7#64 <<< 48 ||| 0x1fff#64 <<< 51

inductive TrigOp where
  | execute
  | store
  | load
  deriving DecidableEq, Repr

def TrigOp.bit : TrigOp → BitVec 64
  | execute => kMc6Execute
  | store => kMc6Store
  | load => kMc6Load

private def byte32 (v : BitVec 32) (b : Nat) : BitVec 32 := (v >>> (8 * b)) &&& 0xff

/-- The `tdata3` qualification: `sselect` 1 compares `scontext` byte-wise, 2 compares the ASID. -/
def td3Match (s : RiscvState) (t3 : BitVec 64) : Bool :=
  let ssel := t3 &&& 3
  if ssel = 1 then
    let sval : BitVec 32 := (t3 >>> 2).setWidth 32
    let smask : BitVec 32 := (t3 >>> 36 &&& 0xf).setWidth 32
    let ctx : BitVec 32 := s.scontext.setWidth 32
    (List.range 4).all fun b =>
      decide (smask >>> b &&& 1 ≠ 0) || decide (byte32 ctx b = byte32 sval b)
  else if ssel = 2 then decide (s.satp >>> 44 &&& 0xffff = t3 >>> 2 &&& 0xffff)
  else decide (ssel = 0)

def mc6Match (s : RiscvState) (t1 t2 t3 : BitVec 64) (op : TrigOp) (addr : BitVec 64) : Bool :=
  let want := if s.priv = kPrivMachine then kMc6M
    else if s.priv = kPrivSupervisor then kMc6S else kMc6U
  if t1 &&& op.bit = 0 then false
  else if t1 &&& want = 0 then false
  else if !td3Match s t3 then false
  else
    let mode := t1 >>> 7 &&& 0xf
    if mode = kMc6MatchEq then decide (addr = t2)
    else if mode = kMc6MatchGe then decide (t2 ≤ addr)
    else decide (addr < t2)

/-- A breakpoint into a level with interrupts off would refire on its own handler. -/
def trigReentryOk (s : RiscvState) : Bool :=
  let bpDeleg := s.medeleg >>> kExBreakpoint.toNat &&& 1
  if s.priv = kPrivMachine ∧ s.mstatus &&& kMstatusMie = 0 then false
  else if s.priv = kPrivSupervisor ∧ bpDeleg ≠ 0 ∧ s.mstatus &&& kMstatusSie = 0 then false
  else true

def firedTrigger (s : RiscvState) (op : TrigOp) (addr : BitVec 64) : Option (BitVec 64) :=
  if !trigReentryOk s then none
  else
    let hit0 := mc6Match s (s.tdata1 0) (s.tdata2 0) (s.tdata3 0) op addr
    let hit1 := mc6Match s (s.tdata1 1) (s.tdata2 1) (s.tdata3 1) op addr
    let chain0 := decide (s.tdata1 0 >>> 11 &&& 1 ≠ 0)
    if hit0 && !chain0 then some (s.tdata1 0)
    else if (hit0 || !chain0) && hit1 && decide (s.tdata1 1 >>> 11 &&& 1 = 0) then
      some (s.tdata1 1)
    else none

variable {D : Type}

def fire (t1 addr : BitVec 64) : RvM D Unit :=
  if t1 >>> 12 &&& 0xf = 1 then RaiseM.fatal else raiseTrap kExBreakpoint addr

def riscvTriggerCheck (op : TrigOp) (addr : BitVec 64) : RvM D Unit := do
  let m ← RaiseM.get
  match firedTrigger m.rs op addr with
  | some t1 => fire t1 addr
  | none => pure ()

def tdata1Value (idx : Nat) (cur val : BitVec 64) : BitVec 64 :=
  let mode := val >>> 7 &&& 0xf
  let action := val >>> 12 &&& 0xf
  kTrigTypeMcontrol6 ||| (cur &&& val &&& kMc6Dmode) |||
    (if mode = kMc6MatchEq ∨ mode = kMc6MatchGe ∨ mode = kMc6MatchLt then mode <<< 7 else 0) |||
    (if action ≤ 1 then action <<< 12 else 0) |||
    -- the last trigger has no successor to chain to
    (if idx < kTrigCount - 1 ∨ val &&& kMc6Chain = 0 then val &&& kMc6Chain else 0) |||
    (val &&& (kMc6Load ||| kMc6Store ||| kMc6Execute ||| kMc6U ||| kMc6S ||| kMc6M))

def riscvTriggerWriteTdata1 (s : RiscvState) (val : BitVec 64) : RiscvState :=
  let idx := s.tselect.toNat
  { s with tdata1 := Function.update s.tdata1 idx (tdata1Value idx (s.tdata1 idx) val) }

def riscvTriggerWriteTdata3 (s : RiscvState) (val : BitVec 64) : RiscvState :=
  { s with tdata3 := Function.update s.tdata3 s.tselect.toNat (val &&& ~~~kTd3MhMask) }

end Cemu.Rv64
