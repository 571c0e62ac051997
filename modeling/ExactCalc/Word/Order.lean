import ExactCalc.Word.Arith

/-!
Comparison of words of one width, by their signed or their unsigned readings.
-/

namespace ExactCalc.Word

def order (a b : Word) (signed : Bool) : Except Fault Ordering := do
  matching a b
  return compare (a.reading signed) (b.reading signed)

/-- The order of the unsigned readings, undefined between different widths. -/
def order? (a b : Word) : Option Ordering :=
  (order a b false).toOption

def lt (a b : Word) (signed : Bool) : Except Fault Bool :=
  (order a b signed).map (·.isLT)

def le (a b : Word) (signed : Bool) : Except Fault Bool :=
  (order a b signed).map (·.isLE)

def gt (a b : Word) (signed : Bool) : Except Fault Bool :=
  (order a b signed).map (·.isGT)

def ge (a b : Word) (signed : Bool) : Except Fault Bool :=
  (order a b signed).map (·.isGE)

def least (a b : Word) (signed : Bool) : Except Fault Word :=
  (order a b signed).map fun ordering => if ordering.isLE then a else b

def greatest (a b : Word) (signed : Bool) : Except Fault Word :=
  (order a b signed).map fun ordering => if ordering.isGE then a else b

end ExactCalc.Word
