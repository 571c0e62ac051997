import ExactCalc.Word.Basic

/-!
Words as integers of a bounded type, by either reading.
-/

namespace ExactCalc.Word

/-- The signed or unsigned reading, refused when the target type does not hold it. -/
def toInteger (a : Word) (signed : Bool) (target : IntegerType) : Except Fault Int :=
  if target.holds (a.reading signed) then .ok (a.reading signed)
  else .error (.wordTooLarge a.width (a.reading signed) target)

end ExactCalc.Word
