import Cemu.Lib.Numerals

/-!
# Binary interchange formats

Words read as floating-point data: a sign, an exponent field and `frac` fraction bits. The
tests a program makes on such data without computing with it.
-/

namespace Cemu.FloatBits

variable {w : Nat} (frac : Nat)

section

variable (v : BitVec w)

def expField : BitVec (w - 1 - frac) := v.extractLsb' frac (w - 1 - frac)

def fracField : BitVec frac := v.extractLsb' 0 frac

def isSpecial : Bool := decide (expField frac v = BitVec.allOnes _)

def isNan : Bool := isSpecial frac v && decide (fracField frac v ≠ 0)

def isSnan : Bool := isNan frac v && !v.getLsbD (frac - 1)

def isInf : Bool := isSpecial frac v && decide (fracField frac v = 0)

def isZero : Bool := decide (expField frac v = 0 ∧ fracField frac v = 0)

/-- The position of a datum that is no NaN in the numerical order; both zeros share one. -/
def order : Int :=
  let magnitude : Int := (v.toNat % 2 ^ (w - 1) : Nat)
  if v.msb then -magnitude else magnitude

end

def eq (a b : BitVec w) : Bool :=
  !isNan frac a && !isNan frac b && decide (order a = order b)

def lt (a b : BitVec w) : Bool :=
  !isNan frac a && !isNan frac b && decide (order a < order b)

def le (a b : BitVec w) : Bool :=
  !isNan frac a && !isNan frac b && decide (order a ≤ order b)

end Cemu.FloatBits
