import Cemu.Lib.FloatBits
import Cemu.Riscv64.Alu

/-!
# riscv64: the F and D operations

`fp.c` over an arbitrary host. Bit patterns are classified and compared here as the format says;
what the host computes (float and double arithmetic, and the `long double` values used to
detect inexact results) is a parameter. The S and D copies of one operation are one definition
over an `FpUnit`, which holds what the copies differ in.
-/

namespace Cemu.Rv64

open FloatBits

def kFflagNX : BitVec 8 := 1#8 <<< 0
def kFflagUF : BitVec 8 := 1#8 <<< 1
def kFflagOF : BitVec 8 := 1#8 <<< 2
def kFflagDZ : BitVec 8 := 1#8 <<< 3
def kFflagNV : BitVec 8 := 1#8 <<< 4

def kRmRtz : BitVec 8 := 1
def kRmRdn : BitVec 8 := 2
def kRmRup : BitVec 8 := 3
def kRmRmm : BitVec 8 := 4

def kBoxMask : BitVec 64 := 0xffffffff00000000
def kQnan64 : BitVec 64 := 0x7ff8000000000000
def kQnan32 : BitVec 32 := 0x7fc00000

def box32 (v : BitVec 32) : BitVec 64 := kBoxMask ||| v.setWidth 64

def isBoxed (v : BitVec 64) : Bool := decide (v >>> 32 = 0xffffffff)

def float32 (v : BitVec 64) : BitVec 32 := v.setWidth 32

/-! ### The host -/

/-- The host's arithmetic on one format of width `w`, and its conversions to and from
`long double`. -/
structure HostFormat (L : Type) (w : Nat) where
  bin : FpBin → BitVec w → BitVec w → BitVec w
  sqrt : BitVec w → BitVec w
  fma : BitVec w → BitVec w → BitVec w → BitVec w
  nextafter : BitVec w → BitVec w → BitVec w
  widen : BitVec w → L
  narrow : L → BitVec w

/-- The host's floating point; `L` is `long double`. The arithmetic is arbitrary. Conversions
between the formats take a NaN to a NaN. -/
structure HostFloat (L : Type) where
  single : HostFormat L 32
  double : HostFormat L 64
  bin : FpBin → L → L → L
  sqrtl : L → L
  fabsl : L → L
  lt : L → L → Bool
  eq : L → L → Bool
  isnan : L → Bool
  isinf : L → Bool
  truncl : L → L
  floorl : L → L
  ceill : L → L
  roundl : L → L
  nearbyintl : L → L
  ofInt : Int → L
  toInt : L → Int
  minNormalD : L
  isnan_widen : ∀ a, isNan 23 a = true → isnan (single.widen a) = true
  isNan_narrow : ∀ e, isnan e = true → isNan 52 (double.narrow e) = true

structure FpUnit (L : Type) (w : Nat) where
  frac : Nat
  host : HostFormat L w
  qnan : BitVec w
  /-- The result in its register: boxed for S. -/
  put : BitVec w → BitVec 64
  /-- The test for an infinite exact value: S goes through `double`. -/
  isInfExact : L → Bool
  minNormal : L
  posInf : BitVec w
  negInf : BitVec w
  posMax : BitVec w
  negMax : BitVec w

variable {L : Type} {w : Nat}

def HostFloat.unitS (h : HostFloat L) : FpUnit L 32 where
  frac := 23
  host := h.single
  qnan := kQnan32
  put := box32
  isInfExact e := isInf 52 (h.double.narrow e)
  minNormal := h.single.widen 0x00800000
  posInf := 0x7f800000
  negInf := 0xff800000
  posMax := 0x7f7fffff
  negMax := 0xff7fffff

def HostFloat.unitD (h : HostFloat L) : FpUnit L 64 where
  frac := 52
  host := h.double
  qnan := kQnan64
  put := id
  isInfExact := h.isinf
  minNormal := h.minNormalD
  posInf := 0x7ff0000000000000
  negInf := 0xfff0000000000000
  posMax := 0x7fefffffffffffff
  negMax := 0xffefffffffffffff

/-! ### Rounding -/

variable (h : HostFloat L) (u : FpUnit L w)

/-- `RoundSAdjust` and `RoundDAdjust`: the nearest result moved where the rounding mode wants it. -/
def roundAdjust (r : BitVec w) (e : L) (rm : BitVec 8) : BitVec w × BitVec 8 :=
  let x := u.host.widen r
  if h.eq x e then (r, 0)
  else
    let next (toward : BitVec w) := u.host.nextafter r toward
    let positive := lt u.frac 0 r
    let negative := lt u.frac r 0
    let r :=
      if rm = kRmRup then if h.lt x e then next u.posInf else r
      else if rm = kRmRdn then if h.lt e x then next u.negInf else r
      else if rm = kRmRtz then
        if (positive && h.lt e x) || (negative && h.lt x e) then
          next (if positive then u.negInf else u.posInf)
        else r
      else if rm = kRmRmm then
        let toward := next (u.host.narrow e)
        let far (v : BitVec w) := h.fabsl (h.bin .sub e (u.host.widen v))
        if h.eq (far toward) (far r) && h.lt (h.fabsl x) (h.fabsl (u.host.widen toward)) then toward
        else r
      else r
    (r, kFflagNX)

def overflowResult (negative : Bool) (rm : BitVec 8) : BitVec w :=
  let inf := if negative then u.negInf else u.posInf
  let max := if negative then u.negMax else u.posMax
  if rm = kRmRtz then max
  else if rm = kRmRup then if negative then max else inf
  else if rm = kRmRdn then if negative then inf else max
  else inf

def finish (r : BitVec w) (e : L) (rm : BitVec 8) : FpOut :=
  if isNan u.frac r then ⟨u.put u.qnan, kFflagNV⟩
  else if isInf u.frac r && !u.isInfExact e then
    ⟨u.put (overflowResult u (lt u.frac r 0) rm), kFflagOF ||| kFflagNX⟩
  else
    let tiny := !h.eq e (h.ofInt 0) && h.lt (h.fabsl e) u.minNormal
    let uf := if tiny && !h.eq (u.host.widen r) e then kFflagUF ||| kFflagNX else 0
    let (r, nx) := roundAdjust h u r e rm
    ⟨u.put r, uf ||| nx⟩

def FpOut.raising (flags : BitVec 8) (out : FpOut) : FpOut := ⟨out.val, flags ||| out.flags⟩

def nvIf (c : Bool) : BitVec 8 := if c then kFflagNV else 0

/-! ### Arithmetic -/

def fpBinary (a b : BitVec w) (kind : FpBin) (rm : BitVec 8) : FpOut :=
  let nv := nvIf (isSnan u.frac a || isSnan u.frac b)
  let r := u.host.bin kind a b
  if kind = .div ∧ isZero u.frac b ∧ !isSpecial u.frac a ∧
      !isZero u.frac a then
    ⟨u.put r, nv ||| kFflagDZ⟩
  else (finish h u r (h.bin kind (u.host.widen a) (u.host.widen b)) rm).raising nv

def fpSqrt (a : BitVec w) (rm : BitVec 8) : FpOut :=
  let nv := nvIf (isSnan u.frac a)
  if lt u.frac a 0 then ⟨u.put u.qnan, nv ||| kFflagNV⟩
  else (finish h u (u.host.sqrt a) (h.sqrtl (u.host.widen a)) rm).raising nv

def fpFma (a b c : BitVec w) (rm : BitVec 8) : FpOut :=
  let nv := nvIf (isSnan u.frac a || isSnan u.frac b ||
    isSnan u.frac c)
  let e := h.bin .add (h.bin .mul (u.host.widen a) (u.host.widen b)) (u.host.widen c)
  (finish h u (u.host.fma a b c) e rm).raising nv

def unboxedResult : FpOut := ⟨box32 kQnan32, kFflagNV⟩

def riscvFpBinaryS (ra rb : BitVec 64) (kind : FpBin) (rm : BitVec 8) : FpOut :=
  if !isBoxed ra || !isBoxed rb then unboxedResult
  else fpBinary h h.unitS (float32 ra) (float32 rb) kind rm

def riscvFpSqrtS (ra : BitVec 64) (rm : BitVec 8) : FpOut :=
  if !isBoxed ra then unboxedResult else fpSqrt h h.unitS (float32 ra) rm

def riscvFpFmaS (ra rb rc : BitVec 64) (rm : BitVec 8) : FpOut :=
  if !isBoxed ra || !isBoxed rb || !isBoxed rc then unboxedResult
  else fpFma h h.unitS (float32 ra) (float32 rb) (float32 rc) rm

/-! ### Selection, comparison, classes, signs -/

def minMaxValue (a b : BitVec w) (isMax : Bool) : BitVec w :=
  let nanA := isNan u.frac a
  let nanB := isNan u.frac b
  if nanA && !nanB then b
  else if !nanA && nanB then a
  else if nanA && nanB then u.qnan
  else if isZero u.frac a && isZero u.frac b then
    if isMax then 0 else BitVec.intMin w
  else if isMax then if lt u.frac b a then a else b
  else if lt u.frac a b then a else b

def riscvFpMinMaxS (ra rb : BitVec 64) (isMax : Bool) : FpOut :=
  let a := if isBoxed ra then float32 ra else kQnan32
  let b := if isBoxed rb then float32 rb else kQnan32
  let nv := nvIf (isSnan 23 (float32 ra) || isSnan 23 (float32 rb))
  ⟨box32 (minMaxValue h.unitS a b isMax), nv⟩

def riscvFpMinMaxD (ra rb : BitVec 64) (isMax : Bool) : FpOut :=
  ⟨minMaxValue h.unitD ra rb isMax, nvIf (isSnan 52 ra || isSnan 52 rb)⟩

def fpCmp (frac : Nat) (a b : BitVec w) (kind : FpCmp) : FpOut :=
  if isNan frac a || isNan frac b then
    ⟨0, nvIf (decide (kind ≠ .eq) || isSnan frac a || isSnan frac b)⟩
  else
    match kind with
    | .eq => ⟨ofBool (eq frac a b), 0⟩
    | .lt => ⟨ofBool (lt frac a b), 0⟩
    | .le => ⟨ofBool (le frac a b), 0⟩

def riscvFpCmpS (ra rb : BitVec 64) (kind : FpCmp) : FpOut :=
  if !isBoxed ra || !isBoxed rb then ⟨0, kFflagNV⟩
  else fpCmp 23 (float32 ra) (float32 rb) kind

def classify (frac : Nat) (v : BitVec w) : Nat :=
  if isSpecial frac v then
    if fracField frac v = 0 then if v.msb then 0 else 7
    else if v.getLsbD (frac - 1) then 9 else 8
  else if expField frac v = 0 then
    if fracField frac v = 0 then if v.msb then 3 else 4
    else if v.msb then 2 else 5
  else if v.msb then 1 else 6

def riscvFpClassS (ra : BitVec 64) : BitVec 64 := 1#64 <<< classify 23 (float32 ra)

def riscvFpClassD (ra : BitVec 64) : BitVec 64 := 1#64 <<< classify 52 ra

/-- The sign a sign-injection gives: of the second operand, its opposite, or their product. -/
def sgnjSign (sa sb : Bool) (kind : BitVec 3) : Bool :=
  if kind = 0 then sb else if kind = 1 then !sb else sa ^^ sb

def withSign (a : BitVec w) (s : Bool) : BitVec w :=
  (a &&& ~~~BitVec.intMin w) ||| (if s then BitVec.intMin w else 0)

def riscvFpSgnjS (ra rb : BitVec 64) (kind : BitVec 3) : BitVec 64 :=
  let a := if isBoxed ra then float32 ra else kQnan32
  let sb := isBoxed rb && (float32 rb).msb
  box32 (withSign a (sgnjSign a.msb sb kind))

def riscvFpSgnjD (ra rb : BitVec 64) (kind : BitVec 3) : BitVec 64 :=
  withSign ra (sgnjSign ra.msb rb.msb kind)

/-! ### Conversions -/

def intMaxOf (toSigned w64 : Bool) : Int :=
  if toSigned then if w64 then 2 ^ 63 - 1 else 2 ^ 31 - 1
  else if w64 then 2 ^ 64 - 1 else 2 ^ 32 - 1

def intMinOf (toSigned w64 : Bool) : Int :=
  if toSigned then if w64 then -2 ^ 63 else -2 ^ 31 else 0

def f2iExact (e : L) (toSigned w64 : Bool) : Option L :=
  if h.lt (h.ofInt (intMaxOf toSigned w64)) e then none
  else if h.lt e (h.ofInt (intMinOf toSigned w64)) then
    -- values in (-1, 0) round to zero and are valid for unsigned targets
    if !toSigned && h.lt (h.ofInt (-1)) e then some (h.ofInt 0) else none
  else some e

def f2iMax (toSigned w64 : Bool) : BitVec 64 :=
  if toSigned then if w64 then 0x7fffffffffffffff else 0x7fffffff else 0xffffffffffffffff

def f2iMin (toSigned w64 : Bool) : BitVec 64 :=
  if toSigned then if w64 then 0x8000000000000000 else 0xffffffff80000000 else 0

def roundToInt (e : L) (rm : BitVec 8) : L :=
  if rm = kRmRtz then h.truncl e
  else if rm = kRmRdn then h.floorl e
  else if rm = kRmRup then h.ceill e
  else if rm = kRmRmm then h.roundl e
  else h.nearbyintl e

def f2iResult (e : L) (toSigned w64 : Bool) (rm : BitVec 8) : FpOut :=
  if h.isnan e then ⟨f2iMax toSigned w64, kFflagNV⟩
  else
    let cand := roundToInt h e rm
    match f2iExact h cand toSigned w64 with
    | none =>
      ⟨if h.lt cand (h.ofInt 0) then f2iMin toSigned w64 else f2iMax toSigned w64, kFflagNV⟩
    | some clamped =>
      let v := h.toInt clamped
      -- both 32-bit results are sign-extended into rd
      ⟨if w64 then BitVec.ofInt 64 v else (BitVec.ofInt 32 v).signExtend 64,
        if h.eq clamped e then 0 else kFflagNX⟩

def riscvFpF2IS (ra : BitVec 64) (toSigned w64 : Bool) (rm : BitVec 8) : FpOut :=
  if !isBoxed ra then
    ⟨if toSigned then 0x8000000000000000 else 0xffffffffffffffff, kFflagNV⟩
  else f2iResult h (h.single.widen (float32 ra)) toSigned w64 rm

def riscvFpF2ID (ra : BitVec 64) (toSigned w64 : Bool) (rm : BitVec 8) : FpOut :=
  f2iResult h (h.double.widen ra) toSigned w64 rm

def intOperand (val : BitVec 64) (valSigned w64 : Bool) : Int :=
  if valSigned then if w64 then val.toInt else (val.setWidth 32).toInt
  else if w64 then val.toNat else (val.setWidth 32).toNat

def fpI2F (val : BitVec 64) (valSigned w64 : Bool) (rm : BitVec 8) : FpOut :=
  let e := h.ofInt (intOperand val valSigned w64)
  finish h u (u.host.narrow e) e rm

def riscvFpCvtSD (ra : BitVec 64) (rm : BitVec 8) : FpOut :=
  let e := h.double.widen ra
  finish h h.unitS (h.single.narrow e) e rm

def riscvFpCvtDS (ra : BitVec 64) (rm : BitVec 8) : FpOut :=
  if !isBoxed ra then ⟨kQnan64, kFflagNV⟩
  else
    let e := h.single.widen (float32 ra)
    finish h h.unitD (h.double.narrow e) e rm

def FpBackend.ofHost : FpBackend where
  riscvFpBinary dbl a b kind rm :=
    if dbl then fpBinary h h.unitD a b kind rm else riscvFpBinaryS h a b kind rm
  riscvFpSqrt dbl a rm := if dbl then fpSqrt h h.unitD a rm else riscvFpSqrtS h a rm
  riscvFpFma dbl a b c rm := if dbl then fpFma h h.unitD a b c rm else riscvFpFmaS h a b c rm
  riscvFpMinMax dbl a b isMax :=
    if dbl then riscvFpMinMaxD h a b isMax else riscvFpMinMaxS h a b isMax
  riscvFpCmp dbl a b kind := if dbl then fpCmp 52 a b kind else riscvFpCmpS a b kind
  riscvFpClass dbl a := if dbl then riscvFpClassD a else riscvFpClassS a
  riscvFpSgnj dbl a b kind := if dbl then riscvFpSgnjD a b kind else riscvFpSgnjS a b kind
  riscvFpF2I dbl a toSigned w64 rm :=
    if dbl then riscvFpF2ID h a toSigned w64 rm else riscvFpF2IS h a toSigned w64 rm
  riscvFpI2F dbl v fromSigned w64 rm :=
    if dbl then fpI2F h h.unitD v fromSigned w64 rm else fpI2F h h.unitS v fromSigned w64 rm
  riscvFpCvtSD a rm := Rv64.riscvFpCvtSD h a rm
  riscvFpCvtDS a rm := Rv64.riscvFpCvtDS h a rm

end Cemu.Rv64
