import ExactCalc.Fault

/-!
Words: bit vectors of a positive width, held as the natural number that their bits spell. Every
number has a word of each width, its residue modulo `2 ^ width`; numbers that fit are kept as they
are, so a wide word costs no more than its value does.
-/

namespace ExactCalc

structure Word where
  width : Nat
  value : Nat
  width_pos : 0 < width
  value_lt : value < 2 ^ width
  deriving Repr

namespace Word

/-- The greatest width that a word made from other words or read from a text can have. -/
def maxWidth : Nat := 2 ^ 32 - 1

@[ext] theorem ext {a b : Word} (hwidth : a.width = b.width) (hvalue : a.value = b.value) :
    a = b := by
  cases a
  cases b
  simp_all

instance : DecidableEq Word := fun a b =>
  decidable_of_iff (a.width = b.width ∧ a.value = b.value)
    ⟨fun h => ext h.1 h.2, fun h => h ▸ ⟨rfl, rfl⟩⟩

/-- The lowest bits of a number. The power of two is formed only for a number that needs it. -/
def lowBits (width n : Nat) : Nat :=
  if n.log2 < width then n else n % 2 ^ width

theorem lowBits_eq_mod (width n : Nat) : lowBits width n = n % 2 ^ width := by
  simp only [lowBits]
  split
  · next h =>
    by_cases hn : n = 0
    · simp [hn]
    · exact (Nat.mod_eq_of_lt ((Nat.log2_lt hn).1 h)).symm
  · rfl

theorem lowBits_lt (width n : Nat) : lowBits width n < 2 ^ width := by
  rw [lowBits_eq_mod]
  exact Nat.mod_lt _ (Nat.two_pow_pos width)

def truncate (width : Nat) (hwidth : 0 < width) (n : Nat) : Word :=
  ⟨width, lowBits width n, hwidth, lowBits_lt width n⟩

def lowBitsInt (width : Nat) : Int → Nat
  | .ofNat n => lowBits width n
  | .negSucc n =>
      let magnitude := lowBits width (n + 1)
      if magnitude = 0 then 0 else 2 ^ width - magnitude

theorem lowBitsInt_lt (width : Nat) (i : Int) : lowBitsInt width i < 2 ^ width := by
  have hpos := Nat.two_pow_pos width
  cases i with
  | ofNat n => exact lowBits_lt width n
  | negSucc n =>
      simp only [lowBitsInt]
      split
      · exact hpos
      · omega

def wrap (width : Nat) (hwidth : 0 < width) (i : Int) : Word :=
  ⟨width, lowBitsInt width i, hwidth, lowBitsInt_lt width i⟩

def ofInt (width : Nat) (i : Int) : Except Fault Word :=
  if h : 0 < width then .ok (wrap width h i) else .error .emptyWidth

def ofNat (width : Nat) (n : Nat) : Except Fault Word :=
  if h : 0 < width then .ok (truncate width h n) else .error .emptyWidth

def zero (width : Nat) : Except Fault Word := ofNat width 0

def one (width : Nat) : Except Fault Word := ofNat width 1

def allOnes (width : Nat) : Except Fault Word := ofNat width (2 ^ width - 1)

def signBit (width : Nat) : Except Fault Word := ofNat width (2 ^ (width - 1))

def isZero (a : Word) : Bool := a.value == 0

/-- The bit at an index, the lowest at zero. There are no ones above the width. -/
def bit (a : Word) (index : Nat) : Bool :=
  index < a.width && a.value.testBit index

def isNegative (a : Word) : Bool :=
  a.value.testBit (a.width - 1)

/-- The reading in two's complement. -/
def toInt (a : Word) : Int :=
  if a.isNegative then (a.value : Int) - 2 ^ a.width else a.value

def reading (a : Word) (signed : Bool) : Int :=
  if signed then a.toInt else a.value

def withValue (a : Word) (n : Nat) : Word :=
  truncate a.width a.width_pos n

def withInt (a : Word) (i : Int) : Word :=
  wrap a.width a.width_pos i

/-- Two operands, refused when their widths differ. -/
def matching (a b : Word) : Except Fault Unit :=
  if a.width = b.width then .ok () else .error (.widthMismatch a.width b.width)

@[simp] theorem width_truncate (width : Nat) (hwidth : 0 < width) (n : Nat) :
    (truncate width hwidth n).width = width := rfl

@[simp] theorem value_truncate (width : Nat) (hwidth : 0 < width) (n : Nat) :
    (truncate width hwidth n).value = n % 2 ^ width :=
  lowBits_eq_mod width n

@[simp] theorem width_wrap (width : Nat) (hwidth : 0 < width) (i : Int) :
    (wrap width hwidth i).width = width := rfl

/-- Wrapping is reduction modulo `2 ^ width`, for integers of either sign. -/
theorem value_wrap (width : Nat) (hwidth : 0 < width) (i : Int) :
    ((wrap width hwidth i).value : Int) = i % 2 ^ width := by
  have hpow : (2 : Int) ^ width = ((2 ^ width : Nat) : Int) := by simp
  have hpos := Nat.two_pow_pos width
  cases i with
  | ofNat n =>
      simp only [wrap, lowBitsInt, lowBits_eq_mod, Int.ofNat_eq_natCast, hpow]
      rw [Int.natCast_emod]
  | negSucc n =>
      simp only [wrap, lowBitsInt, lowBits_eq_mod, hpow]
      generalize 2 ^ width = modulus at hpos
      have hmod := Nat.mod_lt (n + 1) hpos
      have hdiv : (modulus : Int) * ((n + 1) / modulus : Nat) + ((n + 1) % modulus : Nat) =
          (n + 1 : Nat) := by
        rw [← Int.natCast_mul, ← Int.natCast_add, Nat.div_add_mod]
      generalize (n + 1) % modulus = rest at hmod hdiv
      generalize (n + 1) / modulus = whole at hdiv
      split
      · have hsplit : Int.negSucc n = 0 + (modulus : Int) * -(whole : Int) := by
          rw [Int.mul_neg]
          omega
        rw [hsplit, Int.add_mul_emod_self_left]
        simp
      · have hsplit : Int.negSucc n =
            ((modulus - rest : Nat) : Int) + (modulus : Int) * -((whole : Int) + 1) := by
          rw [Int.mul_neg, Int.mul_add]
          omega
        rw [hsplit, Int.add_mul_emod_self_left]
        exact (Int.emod_eq_of_lt (by omega) (by omega)).symm

end Word

end ExactCalc
