import ExactCalc.Text.Hidden
import ExactCalc.Text.Numeral

/-!
Texts between quotes, with everything that would not show written as an escape.
-/

namespace ExactCalc.Text

def codePointEscape (c : Char) : List Char :=
  ['\\', 'u', '\x7b'] ++ Numeral.lowerHex c.toNat ++ ['\x7d']

/-- A character as it stands between quotes: quotes and backslashes are escaped, apostrophes are
not. -/
def inspectChar (c : Char) : List Char :=
  match c with
  | '\x00' => ['\\', '0']
  | '\t' => ['\\', 't']
  | '\r' => ['\\', 'r']
  | '\n' => ['\\', 'n']
  | '"' => ['\\', '"']
  | '\\' => ['\\', '\\']
  | c => if isHidden c then codePointEscape c else [c]

def inspect (text : String) : String :=
  String.ofList ('"' :: text.toList.flatMap inspectChar ++ ['"'])

end ExactCalc.Text
