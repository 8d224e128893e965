import Mathlib.Data.BitVec
import Mathlib.Logic.Function.Basic

/-!
# The register file of the real-time clock

`CmosReadReg` and `CmosWriteReg` of `device/misc/cmos.c` with the calendar and the interrupt line
behind them. The deadlines of `CmosPoll` are left out: no access to a register reads them. No
`unsigned` difference of the calendar wraps, so its numbers are those of `Int`.
-/

namespace Cemu.Cmos

open BitVec

def kRegSeconds : BitVec 7 := 0x00
def kRegSecondsAlarm : BitVec 7 := 0x01
def kRegMinutes : BitVec 7 := 0x02
def kRegMinutesAlarm : BitVec 7 := 0x03
def kRegHours : BitVec 7 := 0x04
def kRegHoursAlarm : BitVec 7 := 0x05
def kRegDayOfWeek : BitVec 7 := 0x06
def kRegDayOfMonth : BitVec 7 := 0x07
def kRegMonth : BitVec 7 := 0x08
def kRegYear : BitVec 7 := 0x09
def kRegStatusA : BitVec 7 := 0x0a
def kRegStatusB : BitVec 7 := 0x0b
def kRegStatusC : BitVec 7 := 0x0c
def kRegStatusD : BitVec 7 := 0x0d
def kRegMemExtmemLow : BitVec 7 := 0x30
def kRegMemExtmemHigh : BitVec 7 := 0x31
def kRegCentury : BitVec 7 := 0x32
def kRegMemExtmem2Low : BitVec 7 := 0x34
def kRegMemExtmem2High : BitVec 7 := 0x35

def kStatusAUip : BitVec 8 := 0x80
def kStatusBUie : BitVec 8 := 0x10
def kStatusCIrqf : BitVec 8 := 0x80
def kStatusDVrt : BitVec 8 := 0x80

/-- `CmosState` behind the data port. `irq` is the level of the line to the interrupt controller. -/
structure CmosState where
  regs : BitVec 7 → BitVec 8
  ramSize : BitVec 64
  biasSec : Int
  irq : Bool

/-- The two clocks of the host at an access, in microseconds. -/
structure Host where
  timeRealtime : Int
  timerNow : Int

namespace CmosState

variable (st : CmosState)

def set (reg : BitVec 7) (val : BitVec 8) : CmosState :=
  { st with regs := Function.update st.regs reg val }

-- Status B: SET is bit 7, PIE, AIE and UIE are bits 6, 5 and 4, binary is bit 2, 24 hours is bit 1.
def statusB (i : Nat) : Bool := (st.regs kRegStatusB).getLsbD i

end CmosState

/-! ### The calendar -/

def daysFromCivil (y m d : Int) : Int :=
  let y := if m ≤ 2 then y - 1 else y
  let era := (if 0 ≤ y then y else y - 399).tdiv 400
  let yoe := y - era * 400
  let doy := (153 * (if 2 < m then m - 2 else m + 9) + 2) / 5 + d - 1
  let doe := yoe * 365 + yoe / 4 - yoe / 100 + doy
  era * 146097 + doe - 719468

/-- The year, the month and the day. -/
def civilFromDays (z : Int) : Int × Int × Int :=
  let z := z + 719468
  let era := (if 0 ≤ z then z else z - 146096).tdiv 146097
  let doe := z - era * 146097
  let yoe := (doe - doe / 1460 + doe / 36524 - doe / 146096) / 365
  let doy := doe - (365 * yoe + yoe / 4 - yoe / 100)
  let mp := (5 * doy + 2) / 153
  let mm := mp + if mp < 10 then 3 else -9
  (yoe + era * 400 + if mm ≤ 2 then 1 else 0, mm, doy - (153 * mp + 2) / 5 + 1)

def toBcd (v : Int) : BitVec 8 := BitVec.ofInt 8 (v.tdiv 10 * 16) ||| BitVec.ofInt 8 (v.tmod 10)

def fromBcd (v : BitVec 8) : Int := (v >>> 4).toNat * 10 + (v &&& 0xf).toNat

/-! ### The clock -/

section

variable (host : Host) (st : CmosState)

def cmosEpoch : Int := host.timeRealtime.tdiv 1000000 + st.biasSec

def cmosShadowEpoch : Int :=
  let field (v : BitVec 8) : Int := if st.statusB 2 then v.toNat else fromBcd v
  let hour := st.regs kRegHours
  let h := field (hour &&& 0x7f) + if !st.statusB 1 && hour.getLsbD 7 then 12 else 0
  let y := field (st.regs kRegYear) + 100 * field (st.regs kRegCentury)
  let days := daysFromCivil (1900 + y) (field (st.regs kRegMonth)) (field (st.regs kRegDayOfMonth))
  days * 86400 + h * 3600 + field (st.regs kRegMinutes) * 60 + field (st.regs kRegSeconds)

def cmosReadTime (reg : BitVec 7) : BitVec 8 :=
  let secs := cmosEpoch host st
  -- SET holds the clock still
  if st.statusB 7 then st.regs reg
  else
    let behind := secs.tmod 86400 < 0
    let rem := secs.tmod 86400 + if behind then 86400 else 0
    let days := secs.tdiv 86400 - if behind then 1 else 0
    let civil := civilFromDays days
    let encode (v : Int) : BitVec 8 := if st.statusB 2 then BitVec.ofInt 8 v else toBcd v
    if reg = kRegSeconds then encode (rem.tmod 60)
    else if reg = kRegMinutes then encode ((rem.tdiv 60).tmod 60)
    else if reg = kRegHours then
      let v := rem.tdiv 3600
      if st.statusB 1 then encode v
      else
        encode (if v.tmod 12 = 0 then 12 else v.tmod 12) ||| if 12 ≤ v then 0x80 else 0
    else if reg = kRegDayOfWeek then encode ((days + 4).tmod 7 + 1)
    else if reg = kRegDayOfMonth then encode civil.2.2
    else if reg = kRegMonth then encode civil.2.1
    else encode (civil.1.tmod 100)

def cmosWriteTime (reg : BitVec 7) (val : BitVec 8) : CmosState :=
  let st := st.set reg val
  { st with biasSec := cmosShadowEpoch st - host.timerNow.tdiv 1000000 }

/-! ### Registers -/

def cmosSyncIrq : CmosState :=
  let flags := st.regs kRegStatusC
  let level := flags.getLsbD 6 && st.statusB 6 || flags.getLsbD 5 && st.statusB 5 ||
    flags.getLsbD 4 && st.statusB 4
  { st.set kRegStatusC (if level then flags ||| kStatusCIrqf else flags &&& ~~~kStatusCIrqf) with
    irq := level }

def isTimeReg (reg : BitVec 7) : Bool :=
  reg ≤ kRegYear && reg ≠ kRegSecondsAlarm && reg ≠ kRegMinutesAlarm && reg ≠ kRegHoursAlarm

/-- The memory above `base` in units of `unit` bytes. -/
def memoryAbove (base unit : Nat) : Nat :=
  if base < st.ramSize.toNat then (st.ramSize.toNat - base) / unit else 0

def cmosReadReg (reg : BitVec 7) : BitVec 8 × CmosState :=
  if isTimeReg reg then (cmosReadTime host st reg, st)
  else if reg = kRegStatusA then (st.regs reg &&& ~~~kStatusAUip, st)
  else if reg = kRegStatusC then (st.regs reg, cmosSyncIrq (st.set reg 0))
  else if reg = kRegStatusD then (st.regs reg ||| kStatusDVrt, st)
  else if reg = kRegMemExtmemLow ∨ reg = kRegMemExtmemHigh then
    (BitVec.ofNat 8 (memoryAbove st (2 ^ 20) 1024 >>> (8 * (reg - kRegMemExtmemLow).toNat)), st)
  else if reg = kRegMemExtmem2Low ∨ reg = kRegMemExtmem2High then
    (BitVec.ofNat 8 (memoryAbove st (2 ^ 24) 65536 >>> (8 * (reg - kRegMemExtmem2Low).toNat)), st)
  else (st.regs reg, st)

def cmosWriteReg (reg : BitVec 7) (val : BitVec 8) : CmosState :=
  if isTimeReg reg then cmosWriteTime host st reg val
  else if reg = kRegStatusC then st
  else if reg = kRegStatusB then
    cmosSyncIrq (st.set reg (if val.getLsbD 7 then val &&& ~~~kStatusBUie else val))
  else st.set reg val

end

end Cemu.Cmos
