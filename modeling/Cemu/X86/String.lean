import Cemu.X86.Frame

/-!
# x86: prefixes, string instructions and LOOP

The counted instructions: the prefix stream of `do_step`, one iteration of `string_op`, and the
branches that count in (E)CX. A REP that wants another iteration sets `d.nxt` to 0, so that the
step re-executes the instruction.
-/

namespace Cemu.X86

open RaiseM

variable {D : Type}

/-! ### Prefixes -/

inductive Prefix where
  | opSize
  | addrSize
  | seg (i : Seg)
  | lock
  | repne
  | repe
  deriving DecidableEq, Repr

def prefixOf (b : BitVec 8) : Option Prefix :=
  if b = 0x66 then some .opSize
  else if b = 0x67 then some .addrSize
  else if b = 0x26 then some (.seg .es)
  else if b = 0x2e then some (.seg .cs)
  else if b = 0x36 then some (.seg .ss)
  else if b = 0x3e then some (.seg .ds)
  else if b = 0x64 then some (.seg .fs)
  else if b = 0x65 then some (.seg .gs)
  else if b = 0xf0 then some .lock
  else if b = 0xf2 then some .repne
  else if b = 0xf3 then some .repe
  else none

/-- The size prefixes select the opposite of the code segment's default, however often they
occur. -/
def Dec.applyPrefix (dflt : Bool) (d : Dec) : Prefix → Dec
  | .opSize => { d with w32 := !dflt }
  | .addrSize => { d with a32 := !dflt }
  | .seg i => { d with seg := some i }
  | .lock => d
  | .repne => { d with rep := .repne }
  | .repe => { d with rep := .repe }

def X86State.dflt (s : X86State) : Bool := s.pe && (s.seg .cs).dbit

/-- `do_step` behind its default size: prefix bytes up to the opcode, which `run` executes. The
loop of the source has no bound of its own. -/
def doStep (run : BitVec 8 → X86M D Unit) (dflt : Bool) : Nat → X86M D Unit
  | 0 => RaiseM.fatal
  | fuel + 1 => do
    let b ← fetch8
    match prefixOf b with
    | some p =>
      modD fun d => d.applyPrefix dflt p
      doStep run dflt fuel
    | none => run b

def Dec.prefixed (dflt : Bool) (ps : List Prefix) : Dec :=
  { ps.foldl (Dec.applyPrefix dflt) (Dec.start dflt) with nxt := BitVec.ofNat 32 (ps.length + 1) }

/-! ### String instructions -/

inductive StrOp where
  | movs
  | cmps
  | stos
  | lods
  | ins
  | outs
  | scas
  deriving DecidableEq, Repr

def strOpOf (op : BitVec 8) : Option (StrOp × Bool) :=
  let wide := op.getLsbD 0
  if op = 0xa4 ∨ op = 0xa5 then some (.movs, wide)
  else if op = 0xa6 ∨ op = 0xa7 then some (.cmps, wide)
  else if op = 0xaa ∨ op = 0xab then some (.stos, wide)
  else if op = 0xac ∨ op = 0xad then some (.lods, wide)
  else if op = 0xae ∨ op = 0xaf then some (.scas, wide)
  else if op = 0x6c ∨ op = 0x6d then some (.ins, wide)
  else if op = 0x6e ∨ op = 0x6f then some (.outs, wide)
  else none

namespace StrOp

def usesSi : StrOp → Bool
  | movs | cmps | lods | outs => true
  | stos | ins | scas => false

def usesDi : StrOp → Bool
  | movs | cmps | stos | scas | ins => true
  | lods | outs => false

def writesDi : StrOp → Bool
  | movs | stos | ins => true
  | cmps | lods | outs | scas => false

def compares : StrOp → Bool
  | cmps | scas => true
  | movs | stos | lods | ins | outs => false

end StrOp

namespace X86State

section

variable (s : X86State) (wide : Bool)

def sized (i : Reg) : BitVec 32 :=
  if wide then s.r i else (s.x i).setWidth 32

def setSized (i : Reg) (v : BitVec 32) : X86State :=
  if wide then s.setE i v else s.setX i (v.setWidth 16)

theorem fl_setSized (i : Reg) (v : BitVec 32) : (s.setSized wide i v).fl = s.fl := by
  cases wide <;> rfl

theorem r_setSized_ne {i j : Reg} (v : BitVec 32) (hne : j ≠ i) :
    (s.setSized wide i v).r j = s.r j := by
  cases wide with
  | false => exact r_setE_ne s _ hne
  | true => exact r_setE_ne s v hne

end

end X86State

def rdSized (size : Nat) (lin : BitVec 64) : X86M D (BitVec 32) := do
  if size = 1 then
    let v ← rd8 lin
    pure (v.setWidth 32)
  else if size = 2 then
    let v ← rd16 lin
    pure (v.setWidth 32)
  else rd32 lin

def wrSized (size : Nat) (lin : BitVec 64) (v : BitVec 32) : X86M D Unit :=
  if size = 1 then wr8 lin (v.setWidth 8)
  else if size = 2 then wr16 lin (v.setWidth 16)
  else wr32 lin v

def X86State.acc (s : X86State) (size : Nat) : BitVec 32 :=
  if size = 1 then (s.l eaxI).setWidth 32
  else if size = 2 then (s.x eaxI).setWidth 32
  else s.r eaxI

def X86State.setAcc (s : X86State) (size : Nat) (v : BitVec 32) : X86State :=
  if size = 1 then s.setL eaxI (v.setWidth 8)
  else if size = 2 then s.setX eaxI (v.setWidth 16)
  else s.setE eaxI v

def compareFlags (a b : BitVec 32) (size : Nat) : X86M D Unit :=
  modS fun s => flagsSub s a b ((a - b) &&& vmask size) size 0

def strBody (op : StrOp) (size : Nat) (slin dlin : BitVec 64) : X86M D Unit :=
  match op with
  | .movs => do
    watchData slin size false
    watchData dlin size true
    let v ← rdSized size slin
    wrSized size dlin v
  | .cmps => do
    watchData slin size false
    watchData dlin size false
    let a ← rdSized size slin
    let b ← rdSized size dlin
    compareFlags a b size
  | .stos => do
    watchData dlin size true
    let s ← getS
    wrSized size dlin (s.acc size)
  | .lods => do
    watchData slin size false
    let v ← rdSized size slin
    modS fun s => s.setAcc size v
  | .ins => do
    watchData dlin size true
    let s ← getS
    let v ← ioIn (s.x edxI) size
    wrSized size dlin v
  | .outs => do
    watchData slin size false
    let v ← rdSized size slin
    let s ← getS
    ioOut (s.x edxI) size v
  | .scas => do
    watchData dlin size false
    let s ← getS
    let b ← rdSized size dlin
    compareFlags (s.acc size) b size

def strSize (d : Dec) (wide : Bool) : Nat := if wide then opSize d.w32 else 1

def strIdle (d : Dec) (s : X86State) : Prop := d.rep ≠ .none ∧ s.sized d.w32 ecxI = 0

instance (d : Dec) (s : X86State) : Decidable (strIdle d s) := inferInstanceAs (Decidable (_ ∧ _))

def strChecks (op : StrOp) (sseg : Seg) (sio dio : BitVec 32) (size : Nat) : X86M D Unit := do
  if op.usesSi then segUse sseg sio size false
  if op.usesDi then segUse .es dio size op.writesDi

def strStep (s : X86State) (size : Nat) : BitVec 32 :=
  if s.df then -BitVec.ofNat 32 size else BitVec.ofNat 32 size

def strAdvance (op : StrOp) (a32 : Bool) (sio dio step : BitVec 32) (s : X86State) : X86State :=
  let s := if op.usesSi then s.setSized a32 esiI (sio + step) else s
  if op.usesDi then s.setSized a32 ediI (dio + step) else s

/-- The end of a repeated iteration: the counter, and whether the instruction runs again. -/
def strRepeat (op : StrOp) : X86M D Unit := do
  let d ← getD
  let s ← getS
  let cnt := s.sized d.w32 ecxI - 1
  modS fun s => s.setSized d.w32 ecxI cnt
  if cnt = 0 then pure ()
  else if op.compares && s.zf != decide (d.rep = .repe) then pure ()
  else modD fun d => { d with nxt := 0 }

def stringOp (op : StrOp) (wide : Bool) : X86M D Unit := do
  let d ← getD
  let s ← getS
  if strIdle d s then pure ()
  else
    let size := strSize d wide
    let sio := s.sized d.a32 esiI
    let dio := s.sized d.a32 ediI
    let sseg := d.seg.getD .ds
    strChecks op sseg sio dio size
    strBody op size (linOf s sseg sio) (linOf s .es dio)
    modS fun t => strAdvance op d.a32 sio dio (strStep s size) t
    if d.rep = .none then pure () else strRepeat op

/-! ### An iteration taken apart -/

def strNext (op : StrOp) (m : Machine D) : Machine D :=
  let cnt := m.s.sized m.d.w32 ecxI - 1
  let counted := m.setS (m.s.setSized m.d.w32 ecxI cnt)
  if cnt = 0 then counted
  else if op.compares && m.s.zf != decide (m.d.rep = .repe) then counted
  else counted.setD { m.d with nxt := 0 }

theorem strNext_s (op : StrOp) (m : Machine D) :
    (strNext op m).s = m.s.setSized m.d.w32 ecxI (m.s.sized m.d.w32 ecxI - 1) := by
  unfold strNext
  dsimp only
  split
  · rfl
  · split <;> rfl

theorem strRepeat_apply (op : StrOp) (m : Machine D) : strRepeat op m = .ok () (strNext op m) := by
  show (if m.s.sized m.d.w32 ecxI - 1 = 0 then pure ()
    else if op.compares && m.s.zf != decide (m.d.rep = .repe) then pure ()
    else modD fun d => { d with nxt := 0 })
      (m.setS (m.s.setSized m.d.w32 ecxI (m.s.sized m.d.w32 ecxI - 1))) = _
  unfold strNext
  dsimp only
  split
  · rfl
  · split
    · rfl
    · rfl

def strEnd (op : StrOp) (wide : Bool) (d : Dec) (s : X86State) (m : Machine D) : Machine D :=
  let moved := m.setS (strAdvance op d.a32 (s.sized d.a32 esiI) (s.sized d.a32 ediI)
    (strStep s (strSize d wide)) m.s)
  if d.rep = .none then moved else strNext op moved

theorem stringOp_apply (op : StrOp) (wide : Bool) (m : Machine D) :
    stringOp op wide m = if strIdle m.d m.s then .ok () m
      else (strChecks op (m.d.seg.getD .ds) (m.s.sized m.d.a32 esiI) (m.s.sized m.d.a32 ediI)
          (strSize m.d wide) >>= fun _ =>
        strBody op (strSize m.d wide) (linOf m.s (m.d.seg.getD .ds) (m.s.sized m.d.a32 esiI))
          (linOf m.s .es (m.s.sized m.d.a32 ediI)) >>= fun _ =>
        .modify (strEnd op wide m.d m.s)) m := by
  have hend : (modS (fun t => strAdvance op m.d.a32 (m.s.sized m.d.a32 esiI)
      (m.s.sized m.d.a32 ediI) (strStep m.s (strSize m.d wide)) t) >>= fun _ =>
        if m.d.rep = .none then pure () else strRepeat op : X86M D Unit) =
      .modify (strEnd op wide m.d m.s) := by
    funext t
    rw [modify_apply, strEnd]
    split
    · rfl
    · exact strRepeat_apply op _
  rw [← hend]
  show (if strIdle m.d m.s then pure () else _ : X86M D Unit) m = _
  split
  · rfl
  · rfl

/-! ### Counted branches -/

def cond (s : X86State) (c : BitVec 4) : Bool :=
  let r := match (c >>> 1).toNat with
    | 0 => s.of
    | 1 => s.cf
    | 2 => s.zf
    | 3 => s.cf || s.zf
    | 4 => s.sf
    | 5 => s.pf
    | 6 => s.sf != s.of
    | _ => s.zf || s.sf != s.of
  r ^^ c.getLsbD 0

inductive LoopOp where
  | loopne
  | loope
  | loop
  deriving DecidableEq, Repr

def LoopOp.holds (op : LoopOp) (s : X86State) : Bool :=
  match op with
  | .loopne => cond s 5
  | .loope => cond s 4
  | .loop => true

def loopOp (op : LoopOp) : X86M D Unit := do
  let rel ← fetch8
  let d ← getD
  let s ← getS
  -- a 16-bit counter of 0 is promoted before the subtraction, so the test sees -1
  let cnt := s.sized d.w32 ecxI - 1
  modS fun s => s.setSized d.w32 ecxI cnt
  if decide (cnt ≠ 0) && op.holds s then modD fun d => { d with nxt := d.nxt + rel.signExtend 32 }
  else pure ()

def jcxz : X86M D Unit := do
  let rel ← fetch8
  let d ← getD
  let s ← getS
  if s.sized d.a32 ecxI = 0 then modD fun d => { d with nxt := d.nxt + rel.signExtend 32 }
  else pure ()

end Cemu.X86
