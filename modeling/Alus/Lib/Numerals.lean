import Mathlib.Algebra.GroupWithZero.Nat
import Mathlib.Data.Nat.Init

/-!
# Numerals

A numeral from two on is read through a proof that it is at least two, and a numeral below a bound
through a proof that the bound is not zero. The ones in use have that proof as an instance of their
own, so that the same numeral is the same term wherever it stands.
-/

namespace Alus.Lib

instance atLeastTwo_2 : Nat.AtLeastTwo 2 := inferInstance
instance atLeastTwo_3 : Nat.AtLeastTwo 3 := inferInstance
instance atLeastTwo_4 : Nat.AtLeastTwo 4 := inferInstance
instance atLeastTwo_5 : Nat.AtLeastTwo 5 := inferInstance
instance atLeastTwo_10 : Nat.AtLeastTwo 10 := inferInstance
instance atLeastTwo_60 : Nat.AtLeastTwo 60 := inferInstance
instance atLeastTwo_90 : Nat.AtLeastTwo 90 := inferInstance
instance atLeastTwo_180 : Nat.AtLeastTwo 180 := inferInstance
instance atLeastTwo_360 : Nat.AtLeastTwo 360 := inferInstance
instance atLeastTwo_1000 : Nat.AtLeastTwo 1000 := inferInstance
instance atLeastTwo_3600 : Nat.AtLeastTwo 3600 := inferInstance
instance atLeastTwo_86400 : Nat.AtLeastTwo 86400 := inferInstance
instance atLeastTwo_99999 : Nat.AtLeastTwo 99999 := inferInstance
instance atLeastTwo_1000000 : Nat.AtLeastTwo 1000000 := inferInstance
instance atLeastTwo_299792458 : Nat.AtLeastTwo 299792458 := inferInstance
instance atLeastTwo_1000000000 : Nat.AtLeastTwo 1000000000 := inferInstance

instance neZero_3 : NeZero 3 := inferInstance

end Alus.Lib
