import ExactCalc.Word.Basic

/-!
Words as byte sequences of either byte order. A word has as many bytes as its width takes, and is
read from at most that many.
-/

namespace ExactCalc

inductive ByteOrder where
  | littleEndian
  | bigEndian
  deriving DecidableEq, Repr

instance : Inhabited ByteOrder := ⟨.littleEndian⟩

namespace Word

def byteCount (width : Nat) : Nat := (width + 7) / 8

/-- The lowest `count` bytes of a number, the lowest first. -/
def bytesOf : Nat → Nat → List UInt8
  | 0, _ => []
  | count + 1, n => UInt8.ofNat n :: bytesOf count (n / 256)

def ofBytesLowFirst (bytes : List UInt8) : Nat :=
  bytes.foldr (fun byte n => byte.toNat + 256 * n) 0

def toBytes (a : Word) (order : ByteOrder) : List UInt8 :=
  let bytes := bytesOf (byteCount a.width) a.value
  match order with
  | .littleEndian => bytes
  | .bigEndian => bytes.reverse

def ofBytes (bytes : List UInt8) (width : Nat) (order : ByteOrder) : Except Fault Word :=
  if width = 0 then
    .error .emptyWidth
  else if byteCount width < bytes.length then
    .error (.tooManyBytes bytes.length (byteCount width) width)
  else
    match order with
    | .littleEndian => ofNat width (ofBytesLowFirst bytes)
    | .bigEndian => ofNat width (ofBytesLowFirst bytes.reverse)

@[simp] theorem length_bytesOf (count n : Nat) : (bytesOf count n).length = count := by
  induction count generalizing n with
  | zero => rfl
  | succ count ih => simp [bytesOf, ih]

theorem ofBytesLowFirst_bytesOf (count n : Nat) :
    ofBytesLowFirst (bytesOf count n) = n % 256 ^ count := by
  induction count generalizing n with
  | zero => simp [bytesOf, ofBytesLowFirst, Nat.mod_one]
  | succ count ih =>
      have hstep : ofBytesLowFirst (bytesOf (count + 1) n) =
          n % 256 + 256 * ofBytesLowFirst (bytesOf count (n / 256)) := by
        simp [bytesOf, ofBytesLowFirst]
      rw [hstep, ih, Nat.pow_succ', Nat.mod_mul]

end Word

end ExactCalc
