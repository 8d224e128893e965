import Cemu.Lib.Numerals

/-!
# The 16550 UART

`device/char/uart16550.c` with its interrupt sink set: `line` is the level last given to `set_irq`.
The receiver FIFO is the list of its bytes, oldest first. An operation that looks at the clock
carries the time; what leaves through SOUT is left out.
-/

namespace Cemu.Uart

def kIerErbfi : BitVec 8 := 0x01
def kIerEtbei : BitVec 8 := 0x02
def kIerElsi : BitVec 8 := 0x04
def kIerEdssi : BitVec 8 := 0x08
def kIerMask : BitVec 8 := 0x0f

def kIirMsi : BitVec 8 := 0x00
def kIirThri : BitVec 8 := 0x02
def kIirRdi : BitVec 8 := 0x04
def kIirLsri : BitVec 8 := 0x06
def kIirCti : BitVec 8 := 0x0c
def kIirNoInt : BitVec 8 := 0x01
def kIirFifoBits : BitVec 8 := 0xc0

def kFcrEnable : BitVec 8 := 0x01
def kFcrClearRx : BitVec 8 := 0x02
def kLcrSbc : BitVec 8 := 0x40
def kLcrDlab : BitVec 8 := 0x80

def kLsrDr : BitVec 8 := 0x01
def kLsrOe : BitVec 8 := 0x02
def kLsrBi : BitVec 8 := 0x10
def kLsrThre : BitVec 8 := 0x20
def kLsrTemt : BitVec 8 := 0x40
def kLsrErr : BitVec 8 := 0x1e

def kMcrLoop : BitVec 8 := 0x10
def kMsrDelta : BitVec 8 := 0x0f

def kRxFifoSize : Nat := 16

structure Uart16550 where
  ier : BitVec 8
  iir : BitVec 8
  lcr : BitVec 8
  mcr : BitVec 8
  msr : BitVec 8
  scr : BitVec 8
  fcr : BitVec 8
  lsr : BitVec 8
  divider : BitVec 16
  rx : List (BitVec 8)
  rxTrigger : Nat
  rxTimeoutArmed : Bool
  rxTimeoutAt : Nat
  rxTimeoutIp : Bool
  thrIp : Bool
  line : Bool

def has (r bit : BitVec 8) : Bool := r &&& bit != 0

def triggerLevel (val : BitVec 8) : Nat :=
  match (val >>> 6).toNat with
  | 0 => 1
  | 1 => 4
  | 2 => 8
  | _ => 14

variable (u : Uart16550)

def charTimeUs : Nat :=
  10 * (if u.divider = 0 then 1 else u.divider.toNat) * 1000000 / 115200

def refreshLsr : Uart16550 :=
  { u with
    lsr := (u.lsr &&& kLsrErr) ||| (if u.rx ≠ [] then kLsrDr else 0) ||| kLsrThre ||| kLsrTemt }

/-- The source `UpdateIrq` finds, in its order. -/
def source : BitVec 8 :=
  if has u.ier kIerElsi && has u.lsr kLsrErr then kIirLsri
  else if has u.ier kIerErbfi && has u.lsr kLsrDr &&
      (!has u.fcr kFcrEnable || decide (u.rxTrigger ≤ u.rx.length)) then kIirRdi
  else if has u.ier kIerErbfi && u.rxTimeoutIp then kIirCti
  else if has u.ier kIerEtbei && u.thrIp then kIirThri
  else if has u.ier kIerEdssi && has u.msr kMsrDelta then kIirMsi
  else kIirNoInt

def updateIrq : Uart16550 :=
  { u with
    iir := source u ||| (if has u.fcr kFcrEnable then kIirFifoBits else 0)
    line := source u != kIirNoInt }

/-- The modem inputs: each output drives its input in loopback, and a changed input latches its
delta bit. -/
def modemInputs (mcr msr : BitVec 8) : BitVec 8 :=
  let pin (out input : BitVec 8) : BitVec 8 := if has mcr kMcrLoop && has mcr out then input else 0
  let inputs := pin 0x01 0x20 ||| pin 0x02 0x10 ||| pin 0x04 0x40 ||| pin 0x08 0x80
  let delta (input bit : BitVec 8) : BitVec 8 := if has (inputs ^^^ msr) input then bit else 0
  inputs ||| delta 0x10 0x01 ||| delta 0x20 0x02 ||| delta 0x40 0x04 ||| delta 0x80 0x08

def updateMsr : Uart16550 :=
  updateIrq { u with msr := modemInputs u.mcr u.msr ||| (u.msr &&& kMsrDelta) }

def acceptRx (ch : BitVec 8) : Uart16550 :=
  refreshLsr (if kRxFifoSize ≤ u.rx.length then { u with lsr := u.lsr ||| kLsrOe }
    else { u with rx := u.rx ++ [ch] })

def armTimeout (now : Nat) : Uart16550 :=
  { u with
    rxTimeoutArmed := has u.fcr kFcrEnable || u.rxTimeoutArmed
    rxTimeoutAt := if has u.fcr kFcrEnable then now + charTimeUs u * 4 else u.rxTimeoutAt }

def pushRx (now : Nat) (ch : BitVec 8) : Uart16550 :=
  updateIrq (armTimeout (acceptRx u ch) now)

def uart16550Init : Uart16550 :=
  updateIrq (updateMsr (refreshLsr
    ⟨0, 0, 0, 0, 0, 0, 0, 0, 0, [], 1, false, 0, false, true, false⟩))

def readRbr : BitVec 8 × Uart16550 :=
  (u.rx.headD 0,
    updateIrq
      (refreshLsr { u with rx := u.rx.tail, rxTimeoutIp := false, rxTimeoutArmed := false }))

def uart16550Read (off : Fin 8) : BitVec 8 × Uart16550 :=
  match off with
  | 0 => if has u.lcr kLcrDlab then (u.divider.setWidth 8, u) else readRbr u
  | 1 => (if has u.lcr kLcrDlab then (u.divider >>> 8).setWidth 8 else u.ier, u)
  | 2 => (u.iir, updateIrq { u with thrIp := false })
  | 3 => (u.lcr, u)
  | 4 => (u.mcr, u)
  | 5 => (u.lsr, updateIrq { u with lsr := u.lsr &&& ~~~kLsrErr })
  | 6 => (u.msr, updateIrq { u with msr := u.msr &&& ~~~kMsrDelta })
  | 7 => (u.scr, u)

def writeFcr (val : BitVec 8) : Uart16550 :=
  let u := { u with fcr := val }
  let u := if has val kFcrClearRx then
    { u with rx := [], rxTimeoutArmed := false, rxTimeoutIp := false, lsr := u.lsr &&& ~~~kLsrErr }
    else u
  updateIrq (refreshLsr { u with rxTrigger := triggerLevel val })

def uart16550Write (now : Nat) (off : Fin 8) (val : BitVec 8) : Uart16550 :=
  match off with
  | 0 =>
    let u := if has u.lcr kLcrDlab then
        { u with divider := (u.divider &&& 0xff00) ||| val.setWidth 16 }
      else if has u.mcr kMcrLoop then pushRx u now val else u
    updateIrq { u with thrIp := true }
  | 1 =>
    if has u.lcr kLcrDlab then
      { u with divider := (u.divider &&& 0x00ff) ||| (val.setWidth 16 <<< 8) }
    else updateIrq { u with ier := val &&& kIerMask }
  | 2 => writeFcr u val
  | 3 =>
    let lsr := if has val kLcrSbc then u.lsr ||| kLsrBi else u.lsr &&& ~~~kLsrBi
    updateIrq (refreshLsr { u with lcr := val, lsr := lsr })
  | 4 => updateMsr { u with mcr := val }
  | 5 => u
  | 6 => u
  | 7 => { u with scr := val }

def uart16550Receive (now : Nat) (ch : BitVec 8) : Uart16550 :=
  if has u.mcr kMcrLoop then u else pushRx u now ch

def uart16550Poll (now : Nat) : Uart16550 :=
  if !u.rxTimeoutArmed || decide (now < u.rxTimeoutAt) then u
  else
    let u := { u with rxTimeoutArmed := false }
    if u.rx ≠ [] then updateIrq { u with rxTimeoutIp := true } else u

inductive UartOp where
  | read (off : Fin 8)
  | write (now : Nat) (off : Fin 8) (val : BitVec 8)
  | receive (now : Nat) (ch : BitVec 8)
  | poll (now : Nat)
  deriving DecidableEq

def step : UartOp → Uart16550
  | .read off => (uart16550Read u off).2
  | .write now off val => uart16550Write u now off val
  | .receive now ch => uart16550Receive u now ch
  | .poll now => uart16550Poll u now

def runOps (ops : List UartOp) : Uart16550 := ops.foldl step u

variable {u : Uart16550}

/-! ### The THR-empty interrupt -/

theorem pushRx_thrIp (now : Nat) (ch : BitVec 8) : (pushRx u now ch).thrIp = u.thrIp := by
  show (acceptRx u ch).thrIp = _
  unfold acceptRx
  split <;> rfl

/-- What an operation does to the pending THR-empty interrupt. -/
def thrEffect (pending : Bool) : UartOp → Bool
  | .read 2 => false
  | .write _ 0 _ => true
  | _ => pending

theorem step_thrIp (op : UartOp) : (step u op).thrIp = thrEffect u.thrIp op := by
  cases op with
  | read off =>
    show (uart16550Read u off).2.thrIp = _
    unfold uart16550Read
    split
    · split <;> rfl
    all_goals rfl
  | write now off val =>
    show (uart16550Write u now off val).thrIp = _
    unfold uart16550Write
    split
    · rfl
    · split <;> rfl
    · unfold writeFcr
      split <;> rfl
    all_goals rfl
  | receive now ch =>
    show (uart16550Receive u now ch).thrIp = _
    unfold uart16550Receive
    split
    · rfl
    · exact pushRx_thrIp now ch
  | poll now =>
    show (uart16550Poll u now).thrIp = _
    unfold uart16550Poll
    split
    · rfl
    · dsimp only
      split <;> rfl

/-- The THR-empty interrupt is pending out of reset. Every IIR read retires it, whatever source it
reports, and nothing else does; a THR write makes it pending, and nothing outside offset 0 does. -/
theorem thrEmpty_retired_iff (u : Uart16550) (op : UartOp) :
    uart16550Init.thrIp = true ∧
      (u.thrIp = true → ((step u op).thrIp = false ↔ op = .read 2)) ∧
      (∀ now val, op = .write now 0 val → has u.lcr kLcrDlab = false → (step u op).thrIp = true) ∧
      (u.thrIp = false → (step u op).thrIp = true → ∃ now val, op = .write now 0 val) := by
  rw [step_thrIp]
  unfold thrEffect
  refine ⟨rfl, ?_, ?_, ?_⟩
  · split <;> simp_all
  · rintro now val rfl -
    rfl
  · split <;> simp_all

/-- With ERBFI and ETBEI set, a THR write and then a received byte. -/
def overlapped : Uart16550 :=
  runOps uart16550Init [.write 0 1 0x03, .write 0 0 0x41, .receive 0 0x42]

theorem thrEmpty_retired_overlapped : (step overlapped (.read 2)).thrIp = false :=
  ((thrEmpty_retired_iff overlapped (.read 2)).2.1 (by decide)).mpr rfl

/-- The IIR read that reports the received byte retires the THR-empty interrupt, and writing ETBEI
again while the transmitter is empty does not bring it back. -/
theorem thrEmpty_lost : overlapped.thrIp = true ∧ (uart16550Read overlapped 2).1 = kIirRdi ∧
      (step overlapped (.read 2)).thrIp = false ∧
      has (runOps overlapped [.read 2, .write 0 1 0x02]).lsr kLsrThre = true ∧
      (runOps overlapped [.read 2, .write 0 1 0x02]).thrIp = false := by
  decide

end Cemu.Uart
