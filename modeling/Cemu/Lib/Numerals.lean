import Mathlib.Data.BitVec
import Mathlib.Data.List.GetD
import Mathlib.Logic.Relation
import Mathlib.Tactic.IntervalCases
import Mathlib.Tactic.Positivity

/-! # Numerals of `Fin n`: one named `NeZero` for each size of a register file -/

namespace Cemu

instance neZeroThree : NeZero 3 := ⟨by decide⟩

instance neZeroFour : NeZero 4 := ⟨by decide⟩

instance neZeroEight : NeZero 8 := ⟨by decide⟩

instance neZeroSixteen : NeZero 16 := ⟨by decide⟩

end Cemu
