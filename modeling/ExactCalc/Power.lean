/-!
Powers with natural exponents. A power is always the one that comes with the type of its base, also
where a library with more general powers is at hand.
-/

namespace ExactCalc

attribute [instance (2000), default_instance (20000)] instPowNat

theorem natCast_two_pow (n : Nat) : ((2 ^ n : Nat) : Int) = 2 ^ n :=
  Int.natCast_pow 2 n

theorem lt_two_pow_of_le {n width count : Nat} (h : n < 2 ^ width) (hle : width ≤ count) :
    n < 2 ^ count :=
  Nat.lt_of_lt_of_le h (Nat.pow_le_pow_right (by decide) hle)

end ExactCalc
