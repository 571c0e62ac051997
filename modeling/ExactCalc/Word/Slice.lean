import ExactCalc.Word.Basic

/-!
Words of other widths made from words: slices, extensions, resizing, concatenation and repetition.
No width may exceed `maxWidth`.
-/

namespace ExactCalc.Word

def widened (width extra : Nat) : Except Fault Nat :=
  if width + extra ≤ maxWidth then .ok (width + extra)
  else .error (.widthSumTooLarge width extra)

/-- The bits from `low` to `high`, both included. -/
def extract (a : Word) (high low : Nat) : Except Fault Word :=
  if a.width ≤ high then .error (.highBitOutOfRange high a.width)
  else if high < low then .error (.lowBitAboveHigh low high)
  else .ok (truncate (high - low + 1) (Nat.succ_pos _) (a.value >>> low))

def extend (a : Word) (extra : Nat) : Except Fault Word := do
  ofNat (← widened a.width extra) a.value

def signExtend (a : Word) (extra : Nat) : Except Fault Word := do
  ofInt (← widened a.width extra) a.toInt

def resize (a : Word) (width : Nat) : Except Fault Word :=
  ofNat width a.value

def signResize (a : Word) (width : Nat) : Except Fault Word :=
  if width ≤ a.width then ofNat width a.value else ofInt width a.toInt

def concat (high low : Word) : Except Fault Word := do
  ofNat (← widened high.width low.width) (high.value <<< low.width ||| low.value)

/-- The bits of a number of the given width, written `count` times in a row. -/
def repeated (width value count : Nat) : Nat :=
  count.repeat (fun bits => bits <<< width ||| value) 0

def replicate (a : Word) (count : Nat) : Except Fault Word :=
  if count = 0 then .error .noRepeats
  else if a.width * count ≤ maxWidth then ofNat (a.width * count) (repeated a.width a.value count)
  else .error (.widthProductTooLarge a.width count)

end ExactCalc.Word
