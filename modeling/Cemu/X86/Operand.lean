import Cemu.X86.Paging

/-!
# x86: operands

What an instruction reads and writes: the segment checks, the watchpoints, the instruction
stream, the modrm decode, the register and memory operands, the stack and the ports.
-/

namespace Cemu.X86

variable {D : Type}

/-! ### Debug registers -/

section

variable (s : X86State)

def drEnabled (i : Nat) : Bool := has (s.dr 7 >>> (2 * i)) 3
def drRw (i : Nat) : BitVec 32 := s.dr 7 >>> (16 + 4 * i) &&& 3
def drLenCode (i : Nat) : BitVec 32 := s.dr 7 >>> (18 + 4 * i) &&& 3

def drLenBytes (i : Nat) : BitVec 64 := 1#64 <<< (drLenCode s i).toNat

def watches (lin : BitVec 64) (size : Nat) (write : Bool) (i : Nat) : Bool :=
  let lo : BitVec 64 := (s.dr (BitVec.ofNat 3 i)).setWidth 64
  -- R/W 01 matches writes only and 11 any data access
  drEnabled s i && (drRw s i == 3 || (drRw s i == 1 && write)) &&
    decide (lin < lo + drLenBytes s i) && decide (lo < lin + BitVec.ofNat 64 size)

def watchesPort (port : BitVec 16) (i : Nat) : Bool :=
  let len : BitVec 32 := if drLenCode s i = 0 then 1 else if drLenCode s i = 2 then 4 else 0
  let at_ := s.dr (BitVec.ofNat 3 i)
  drEnabled s i && drRw s i == 2 && decide (len ≠ 0) && decide (at_ ≤ port.setWidth 32) &&
    decide (port.setWidth 32 < at_ + len)

/-- The bits of the breakpoints that match, none while DR7 enables no breakpoint. -/
def watchBits (hit : Nat → Bool) : BitVec 32 :=
  if has (s.dr 7) kDr7AnyEnable then
    (List.range 4).foldl (fun b i => if hit i then b ||| 1#32 <<< i else b) 0
  else 0

end

def watchData (lin : BitVec 64) (size : Nat) (write : Bool) : X86M D Unit := fun m =>
  .ok () (m.setD { m.d with
    watchHit := m.d.watchHit ||| watchBits m.s (watches m.s lin size write) })

def ioBpHit (port : BitVec 16) : X86M D Unit := fun m =>
  .ok () (m.setD { m.d with
    watchHit := m.d.watchHit ||| watchBits m.s (watchesPort m.s port) })

/-! ### Segment checks -/

def typeRefused (ar : BitVec 8) (write : Bool) : Bool :=
  if write then decide (ar &&& 0x1a ≠ 0x12) else decide (ar &&& 0x1a = 0x18)

/-- The offset lies outside the limit; an expand-down segment is bounded from below. -/
def limitRefused (g : SegReg) (off : BitVec 32) (size : Nat) : Bool :=
  if g.ar &&& 0x1c = 0x14 then
    let upper := if g.dbit then 0xffffffff else 0xffff
    decide (off ≤ g.limit) || decide (upper < off.toNat + size - 1)
  else decide (g.limit < off) || decide (g.limit.toNat < off.toNat + size - 1)

def segFault {α : Type} (seg : Seg) (code : BitVec 32) : X86M D α :=
  if seg = .ss then ssFault code else gpFault code

def segUse (seg : Seg) (off : BitVec 32) (size : Nat) (write : Bool) : X86M D Unit := do
  let s ← getS
  if !s.pe then pure ()
  else if (s.seg seg).ar = 0 then gpFault 0
  else if typeRefused (s.seg seg).ar write then segFault seg 0
  else if limitRefused (s.seg seg) off size then segFault seg 0
  else pure ()

def linOf (s : X86State) (seg : Seg) (off : BitVec 32) : BitVec 64 :=
  (s.seg seg).base + off.setWidth 64

/-! ### The instruction stream -/

def fetchPlace (lin : BitVec 64) (user : Bool) : X86M D (Option HostPtr × BitVec 64) := do
  let m ← RaiseM.get
  if !m.s.pg then
    let paddr := a20Gate m.s lin
    pure (busRamPage m.w.bus (paddr &&& ~~~0xfff), paddr)
  else
    let e ← tlbEntry lin false true user
    pure (e.host, e.pbase + pageOff lin)

def fetchMiss (lin : BitVec 64) (user : Bool) : X86M D (BitVec 8) := do
  let place ← fetchPlace lin user
  match place.1 with
  | some host =>
    modS fun s => { s with fetchPage := vpnOf lin, fetchHost := host, fetchValid := true }
    let m ← RaiseM.get
    pure ((m.w.hostLoad (host.add (pageOff lin)) 1).setWidth 8)
  | none =>
    modS fun s => { s with fetchValid := false }
    let v ← physLoad place.2 1
    pure (v.setWidth 8)

def fetchByte (lin : BitVec 64) (user : Bool) : X86M D (BitVec 8) := do
  let m ← RaiseM.get
  if m.gMemSlow then
    let v ← linLoad lin 1 user true
    pure (v.setWidth 8)
  else if m.s.fetchValid && decide (m.s.fetchPage = vpnOf lin) then
    pure ((m.w.hostLoad (m.s.fetchHost.add (pageOff lin)) 1).setWidth 8)
  else fetchMiss lin user

def fetch8 : X86M D (BitVec 8) := do
  let m ← RaiseM.get
  let off := m.eip + m.d.nxt
  if m.s.pe && decide ((m.s.seg .cs).limit < off) then gpFault 0
  else
    let v ← fetchByte (linOf m.s .cs off) m.s.user
    modD fun d => { d with nxt := d.nxt + 1 }
    pure v

def fetch16 : X86M D (BitVec 16) := do
  let lo ← fetch8
  let hi ← fetch8
  pure (lo.setWidth 16 ||| hi.setWidth 16 <<< 8)

def fetch32 : X86M D (BitVec 32) := do
  let lo ← fetch16
  let hi ← fetch16
  pure (lo.setWidth 32 ||| hi.setWidth 32 <<< 16)

/-! ### modrm and SIB -/

def modDisp (mod : BitVec 2) (wide : X86M D (BitVec 32)) : X86M D (BitVec 32) := do
  if mod = 1 then
    let v ← fetch8
    pure (v.signExtend 32)
  else if mod = 2 then wide
  else pure 0

def fetchDisp16 : X86M D (BitVec 32) := do
  let v ← fetch16
  pure (v.setWidth 32)

def base16 (rm : Reg) : Reg :=
  if rm = 0 ∨ rm = 1 ∨ rm = 7 then ebxI
  else if rm = 4 then esiI
  else if rm = 5 then ediI
  else ebpI

def index16 (rm : Reg) : Option Reg :=
  if rm = 0 ∨ rm = 2 then some esiI
  else if rm = 1 ∨ rm = 3 then some ediI
  else none

def modrm16 (mod : BitVec 2) (rm : Reg) : X86M D (BitVec 32 × Bool) := do
  let s ← getS
  let sum := (s.x (base16 rm)).setWidth 32 +
    match index16 rm with
    | some i => (s.x i).setWidth 32
    | none => 0
  let off ← if mod = 0 ∧ rm = 6 then fetchDisp16 else do
    let disp ← modDisp mod fetchDisp16
    pure (sum + disp)
  pure (off &&& 0xffff, decide (rm = 2 ∨ rm = 3 ∨ (rm = 6 ∧ mod ≠ 0)))

/-- The offset of a SIB form, whether it defaults to SS, and whether its base is ESP. -/
def modrmSib (mod : BitVec 2) : X86M D (BitVec 32 × Bool × Bool) := do
  let sib ← fetch8
  let idx : Reg := (sib >>> 3).setWidth 3
  let base : Reg := sib.setWidth 3
  let noBase := decide (base = 5) && decide (mod = 0)
  let off ← if noBase then fetch32 else do
    let s ← getS
    pure (s.r base)
  let s ← getS
  let off := if idx = 4 then off else off + s.r idx <<< (sib >>> 6).toNat
  let disp ← modDisp mod fetch32
  pure (off + disp, !noBase && decide (base = 4 ∨ base = 5), decide (base = 4))

def modrm32 (mod : BitVec 2) (rm : Reg) : X86M D (BitVec 32 × Bool) := do
  if rm = 5 ∧ mod = 0 then
    let off ← fetch32
    pure (off, false)
  else
    let s ← getS
    let disp ← modDisp mod fetch32
    pure (s.r rm + disp, decide (rm = 5))

def modrm : X86M D Unit := do
  let enc ← fetch8
  let mod : BitVec 2 := (enc >>> 6).setWidth 2
  let rm : Reg := enc.setWidth 3
  modD fun d => { d with enc := enc, mod := mod, reg := (enc >>> 3).setWidth 3, rm := rm }
  if mod = 3 then modD fun d => { d with isMem := false }
  else
    let d ← getD
    let place : BitVec 32 × Bool × Bool ←
      if !d.a32 then do
        let p ← modrm16 mod rm
        pure (p.1, p.2, false)
      else if rm = 4 then modrmSib mod
      else do
        let p ← modrm32 mod rm
        pure (p.1, p.2, false)
    let seg := d.seg.getD (if place.2.1 then .ss else .ds)
    let s ← getS
    modD fun d => { d with
      isMem := true, mEspBase := place.2.2, mseg := seg, moff := place.1
      mlin := linOf s seg place.1 }

/-! ### Register and memory operands -/

def memOperand (size : Nat) (write : Bool) : X86M D Unit := do
  let d ← getD
  segUse d.mseg d.moff size write
  watchData d.mlin size write

def rm8 : X86M D (BitVec 8) := do
  let d ← getD
  if d.isMem then
    memOperand 1 false
    rd8 d.mlin
  else
    let s ← getS
    pure (s.byteReg d.rm)

def setRm8 (v : BitVec 8) : X86M D Unit := do
  let d ← getD
  if d.isMem then
    memOperand 1 true
    wr8 d.mlin v
  else modS fun s => s.setByteReg d.rm v

def rm16 : X86M D (BitVec 16) := do
  let d ← getD
  if d.isMem then
    memOperand 2 false
    rd16 d.mlin
  else
    let s ← getS
    pure (s.x d.rm)

def setRm16 (v : BitVec 16) : X86M D Unit := do
  let d ← getD
  if d.isMem then
    memOperand 2 true
    wr16 d.mlin v
  else modS fun s => s.setX d.rm v

def rm32 : X86M D (BitVec 32) := do
  let d ← getD
  if d.isMem then
    memOperand 4 false
    rd32 d.mlin
  else
    let s ← getS
    pure (s.r d.rm)

def setRm32 (v : BitVec 32) : X86M D Unit := do
  let d ← getD
  if d.isMem then
    memOperand 4 true
    wr32 d.mlin v
  else modS fun s => s.setE d.rm v

/-! ### The stack -/

def pushOff (s : X86State) (size : Nat) : BitVec 32 :=
  let off := s.r espI - BitVec.ofNat 32 size
  if (s.seg .ss).dbit then off else off &&& 0xffff

def pushEsp (s : X86State) (off : BitVec 32) : BitVec 32 :=
  if (s.seg .ss).dbit then off else s.r espI &&& 0xffff0000 ||| off

def wrStack (size : Nat) (lin : BitVec 64) (v : BitVec 32) : X86M D Unit :=
  if size = 4 then wr32 lin v else wr16 lin (v.setWidth 16)

def stackPush (size : Nat) (v : BitVec 32) : X86M D Unit := do
  let s ← getS
  let off := pushOff s size
  segUse .ss off size true
  watchData (linOf s .ss off) size true
  wrStack size (linOf s .ss off) v
  modS fun s => s.setE espI (pushEsp s off)

/-! ### Ports -/

def ioBitmap (base : BitVec 64) (limit iobase : BitVec 32) : List (BitVec 32) → X86M D Bool
  | [] => pure true
  | p :: rest =>
    let off := iobase + p >>> 3
    if limit < off then pure false
    else do
      let b ← krd8 (base + off.setWidth 64)
      if b.getLsbD (p &&& 7).toNat then pure false else ioBitmap base limit iobase rest

def trIsTss (s : X86State) : Bool :=
  s.trAr.getLsbD 7 && (s.trAr &&& 0xf == 9 || s.trAr &&& 0xf == 0xb)

def ioAllowed (port : BitVec 16) (size : Nat) : X86M D Bool := do
  let s ← getS
  if !s.pe then pure true
  else if !s.vm && decide (s.cpl.toNat ≤ s.iopl.toNat) then pure true
  else if !trIsTss s then pure false
  else
    let iobase ← krd16 (s.trBase + 0x66)
    ioBitmap s.trBase s.trLimit (iobase.setWidth 32)
      ((List.range size).map fun i => port.setWidth 32 + BitVec.ofNat 32 i)

def portFind (m : Machine D) (port : BitVec 16) (size : Nat) : Option BusRegion × Machine D :=
  let hit := findRegion m.io (port.setWidth 64) (BitVec.ofNat 64 size)
  (hit.1.map Prod.snd, { m with io := hit.2, ioWf := m.ioWf.find _ _ })

def portRead (port : BitVec 16) (size : Nat) : X86M D (BitVec 32) := fun m =>
  match portFind m port size with
  | (none, _) => .fatal
  | (some r, m) =>
    let answer := (m.ports r.ops).read r.dev (port.setWidth 64) size m.w.ds
    .ok (answer.1.setWidth 32) { m with
      w := { m.w with ds := answer.2 }
      portReads := ⟨port, size⟩ :: m.portReads }

def ioIn (port : BitVec 16) (size : Nat) : X86M D (BitVec 32) := do
  let allowed ← ioAllowed port size
  if allowed then
    let v ← portRead port size
    ioBpHit port
    pure v
  else gpFault 0

def x86SetA20Line (s : X86State) (on : Bool) : X86State :=
  if s.a20 = on then s else tlbFlushAll { s with a20 := on }

def portWrite (port : BitVec 16) (size : Nat) (v : BitVec 32) : X86M D Unit := fun m =>
  match portFind m port size with
  | (none, _) => .fatal
  | (some r, m) =>
    let side := (m.ports r.ops).write r.dev (port.setWidth 64) size (v.setWidth 64)
      ⟨m.w, m.io, m.ioWf, m.s.a20⟩
    .ok () { m with
      s := x86SetA20Line m.s side.a20Line, w := side.w, io := side.io, ioWf := side.ioWf }

def ioOut (port : BitVec 16) (size : Nat) (v : BitVec 32) : X86M D Unit := do
  let allowed ← ioAllowed port size
  if allowed then
    portWrite port size v
    ioBpHit port
  else gpFault 0

end Cemu.X86
