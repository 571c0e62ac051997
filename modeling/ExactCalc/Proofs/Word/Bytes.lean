import ExactCalc.Proofs.Word.Residue
import ExactCalc.Word.Bytes
import Mathlib.Algebra.Order.Floor.Div
import Mathlib.Data.List.Induction
import Mathlib.Data.List.ModifyLast
import Mathlib.GroupTheory.GroupAction.Ring

/-!
The bytes of a word. There are as many as the width takes, in either order, and they are read as
the word again. A sequence that is not too long comes back with zeros at its most significant end
and without the bits of the most significant byte that lie above the width. Both directions are
shown for the order with the lowest byte first; the other order mirrors the sequence.
-/

namespace ExactCalc.Word

variable {width : Nat} {bytes : List UInt8}

/-- A byte sequence with the lowest byte first, turned into an order or back. -/
def inOrder (order : ByteOrder) (lowFirst : List UInt8) : List UInt8 :=
  match order with
  | .littleEndian => lowFirst
  | .bigEndian => lowFirst.reverse

/-- As many bytes as a width takes, with zeros at the most significant end. -/
def filled (width : Nat) (order : ByteOrder) (bytes : List UInt8) : List UInt8 :=
  let zeros := List.replicate (width ⌈/⌉ 8 - bytes.length) 0
  match order with
  | .littleEndian => bytes ++ zeros
  | .bigEndian => zeros ++ bytes

def clearedByte (width : Nat) (top : UInt8) : UInt8 :=
  UInt8.ofNat (top.toNat % 2 ^ (width - 8 * (width ⌈/⌉ 8 - 1)))

/-- The bytes with the most significant one cleared above the width. -/
def cleared (width : Nat) (order : ByteOrder) (bytes : List UInt8) : List UInt8 :=
  match order with
  | .littleEndian => bytes.modifyLast (clearedByte width)
  | .bigEndian => bytes.modifyHead (clearedByte width)

/-- A bit of the most significant byte is kept if its position in the whole sequence is below the
width. -/
theorem testBit_clearedByte (width : Nat) (top : UInt8) (i : Nat) :
    (clearedByte width top).toNat.testBit i =
      (decide (8 * (width ⌈/⌉ 8 - 1) + i < width) && top.toNat.testBit i) := by
  have hbyte : top.toNat % 2 ^ (width - 8 * (width ⌈/⌉ 8 - 1)) < 2 ^ 8 :=
    (Nat.mod_le _ _).trans_lt top.toNat_lt
  have hplace : i < width - 8 * (width ⌈/⌉ 8 - 1) ↔ 8 * (width ⌈/⌉ 8 - 1) + i < width := by omega
  rw [clearedByte, UInt8.toNat_ofNat', Nat.mod_eq_of_lt hbyte, Nat.testBit_mod_two_pow,
    decide_eq_decide.2 hplace]

/-! ### Orders -/

@[simp] theorem inOrder_inOrder (order : ByteOrder) (bytes : List UInt8) :
    inOrder order (inOrder order bytes) = bytes := by
  cases order
  · rfl
  · exact List.reverse_reverse bytes

@[simp] theorem length_inOrder (order : ByteOrder) (bytes : List UInt8) :
    (inOrder order bytes).length = bytes.length := by
  cases order
  · rfl
  · exact List.length_reverse

theorem reverse_modifyLast (f : UInt8 → UInt8) (bytes : List UInt8) :
    (bytes.modifyLast f).reverse = bytes.reverse.modifyHead f := by
  induction bytes using List.reverseRecOn with
  | nil => rfl
  | append_singleton bytes top _ =>
      rw [List.modifyLast_concat, List.reverse_append, List.reverse_append]
      rfl

theorem inOrder_modifyLast (order : ByteOrder) (bytes : List UInt8) :
    inOrder order (bytes.modifyLast (clearedByte width)) =
      cleared width order (inOrder order bytes) := by
  cases order
  · rfl
  · exact reverse_modifyLast _ bytes

theorem inOrder_append_zeros (order : ByteOrder) (bytes : List UInt8) :
    inOrder order (inOrder order bytes ++ List.replicate (width ⌈/⌉ 8 - bytes.length) 0) =
      filled width order bytes := by
  cases order
  · rfl
  · rw [inOrder, inOrder, List.reverse_append, List.reverse_reverse, List.reverse_replicate]
    rfl

/-! ### The lowest byte first -/

theorem bytesOf_zero (count : Nat) : bytesOf count 0 = List.replicate count 0 := by
  induction count with
  | zero => rfl
  | succ count ih =>
      rw [bytesOf, Nat.zero_div, ih]
      rfl

/-- Bytes are the bytes of their number, with zeros where there are none. -/
theorem bytesOf_ofBytesLowFirst {count : Nat} (h : bytes.length ≤ count) :
    bytesOf count (ofBytesLowFirst bytes) =
      bytes ++ List.replicate (count - bytes.length) 0 := by
  induction bytes generalizing count with
  | nil => exact bytesOf_zero count
  | cons byte bytes ih =>
      obtain ⟨count, rfl⟩ := Nat.exists_eq_succ_of_ne_zero (Nat.ne_zero_of_lt h)
      have hnumber : ofBytesLowFirst (byte :: bytes) =
          byte.toNat + 256 * ofBytesLowFirst bytes := rfl
      have hbyte := byte.toNat_lt
      have hlow : UInt8.ofNat (byte.toNat + 256 * ofBytesLowFirst bytes) = byte := by
        apply UInt8.toNat_inj.1
        rw [UInt8.toNat_ofNat']
        omega
      have hrest : (byte.toNat + 256 * ofBytesLowFirst bytes) / 256 = ofBytesLowFirst bytes := by
        omega
      rw [bytesOf, hnumber, hlow, hrest, ih (Nat.le_of_succ_le_succ h), List.length_cons,
        Nat.succ_sub_succ, List.cons_append]

/-- Cutting a number off above `8 * count + bits` cuts its highest byte off above `bits`. -/
theorem bytesOf_mod_two_pow {bits : Nat} (hbits : bits ≤ 8) (count n : Nat) :
    bytesOf (count + 1) (n % 2 ^ (8 * count + bits)) =
      (bytesOf (count + 1) n).modifyLast fun top => UInt8.ofNat (top.toNat % 2 ^ bits) := by
  induction count generalizing n with
  | zero =>
      have hdvd : 2 ^ bits ∣ 2 ^ 8 := Nat.pow_dvd_pow 2 hbits
      have htop : (UInt8.ofNat n).toNat % 2 ^ bits = n % 2 ^ bits := by
        rw [UInt8.toNat_ofNat', Nat.mod_mod_of_dvd n hdvd]
      show [UInt8.ofNat (n % 2 ^ (8 * 0 + bits))] =
        [UInt8.ofNat ((UInt8.ofNat n).toNat % 2 ^ bits)]
      rw [htop, Nat.mul_zero, Nat.zero_add]
  | succ count ih =>
      have hpow : 2 ^ (8 * (count + 1) + bits) = 256 * 2 ^ (8 * count + bits) := by
        rw [Nat.mul_succ, Nat.add_right_comm, Nat.pow_add, Nat.mul_comm]
      have hlow : UInt8.ofNat (n % (256 * 2 ^ (8 * count + bits))) = UInt8.ofNat n := by
        apply UInt8.toNat_inj.1
        rw [UInt8.toNat_ofNat', UInt8.toNat_ofNat', Nat.mod_mod_of_dvd n (Nat.dvd_mul_right _ _)]
      have hrest : bytesOf (count + 1) (n / 256) ≠ [] := by
        rw [bytesOf]
        exact List.cons_ne_nil _ _
      rw [bytesOf, hpow, hlow, Nat.mod_mul_right_div_self, ih, bytesOf]
      exact (List.modifyLast_append_of_right_ne_nil _ [UInt8.ofNat n] _ hrest).symm

/-! ### Words -/

theorem byteCount_eq_ceilDiv (width : Nat) : byteCount width = width ⌈/⌉ 8 :=
  (Nat.ceilDiv_eq_add_pred_div width 8).symm

theorem toBytes_eq (a : Word) (order : ByteOrder) :
    a.toBytes order = inOrder order (bytesOf (byteCount a.width) a.value) := by
  cases order <;> rfl

theorem ofBytes_of_fits (hwidth : 0 < width) (hlength : bytes.length ≤ byteCount width)
    (order : ByteOrder) :
    ofBytes bytes width order =
      .ok (wrap width hwidth (ofBytesLowFirst (inOrder order bytes) : Nat)) := by
  have hok (n : Nat) : ofNat width n = .ok (wrap width hwidth n) := by
    rw [← truncate_eq_wrap]
    exact dif_pos hwidth
  rw [ofBytes.eq_def, if_neg hwidth.ne', if_neg (Nat.not_lt.2 hlength)]
  cases order <;> exact hok _

theorem ofBytes_eq_error_iff {order : ByteOrder} :
    (∃ fault, ofBytes bytes width order = .error fault) ↔
      width = 0 ∨ byteCount width < bytes.length := by
  constructor
  · rintro ⟨fault, h⟩
    by_contra hfits
    rw [not_or, Nat.not_lt] at hfits
    rw [ofBytes_of_fits (Nat.pos_of_ne_zero hfits.1) hfits.2] at h
    contradiction
  · intro h
    rw [ofBytes.eq_def]
    split
    · exact ⟨_, rfl⟩
    · next hwidth =>
      rw [if_pos (h.resolve_left hwidth)]
      exact ⟨_, rfl⟩

theorem length_toBytes (a : Word) (order : ByteOrder) :
    (a.toBytes order).length = byteCount a.width := by
  rw [toBytes_eq, length_inOrder, length_bytesOf]

/-- The bytes of a word are read as the word. -/
theorem ofBytes_toBytes (a : Word) (order : ByteOrder) :
    ofBytes (a.toBytes order) a.width order = .ok a := by
  have hlt : a.value < 256 ^ byteCount a.width := by
    have hle : a.width ≤ 8 * byteCount a.width := by
      rw [byteCount]
      omega
    have hpow := lt_two_pow_of_le a.value_lt hle
    rwa [Nat.pow_mul] at hpow
  rw [ofBytes_of_fits a.width_pos (length_toBytes a order).le, toBytes_eq, inOrder_inOrder,
    ofBytesLowFirst_bytesOf, Nat.mod_eq_of_lt hlt, wrap_value]

/-- What is read is printed with zeros in the missing bytes and without bits above the width. -/
theorem toBytes_ofBytes (hwidth : 0 < width) (hlength : bytes.length ≤ byteCount width)
    (order : ByteOrder) :
    (wrap width hwidth (ofBytesLowFirst (inOrder order bytes) : Nat)).toBytes order =
      cleared width order (filled width order bytes) := by
  have hlast : byteCount width = byteCount width - 1 + 1 := by
    rw [byteCount]
    omega
  have hplaces : width = 8 * (byteCount width - 1) + (width - 8 * (byteCount width - 1)) := by
    rw [byteCount]
    omega
  have hbits : width - 8 * (byteCount width - 1) ≤ 8 := by
    rw [byteCount]
    omega
  have hbytes (n : Nat) : bytesOf (byteCount width) (n % 2 ^ width) =
      (bytesOf (byteCount width) n).modifyLast (clearedByte width) := by
    have hcut := bytesOf_mod_two_pow hbits (byteCount width - 1) n
    rw [← hlast, ← hplaces] at hcut
    rw [hcut, byteCount_eq_ceilDiv]
    rfl
  rw [← length_inOrder order] at hlength
  rw [← truncate_eq_wrap, toBytes_eq, value_truncate, width_truncate, hbytes, inOrder_modifyLast,
    bytesOf_ofBytesLowFirst hlength, length_inOrder, byteCount_eq_ceilDiv, inOrder_append_zeros]

/-- A word comes back from its bytes, and a word that is read has the bytes that it was read from,
with zeros in the missing places and without bits above the width. -/
theorem bytes_read_back :
    (∀ (a : Word) (order : ByteOrder),
      (a.toBytes order).length = a.width ⌈/⌉ 8 ∧
      a.toBytes .bigEndian = (a.toBytes .littleEndian).reverse ∧
      ofBytes (a.toBytes order) a.width order = .ok a) ∧
    (∀ (bytes : List UInt8) (width : Nat) (order : ByteOrder),
      ((∃ fault, ofBytes bytes width order = .error fault) ↔
        width = 0 ∨ width ⌈/⌉ 8 < bytes.length) ∧
      ∀ a, ofBytes bytes width order = .ok a →
        a.width = width ∧ a.toBytes order = cleared width order (filled width order bytes)) ∧
    ∀ (width : Nat) (top : UInt8) (i : Nat), (clearedByte width top).toNat.testBit i =
      (decide (8 * (width ⌈/⌉ 8 - 1) + i < width) && top.toNat.testBit i) := by
  refine ⟨fun a order => ⟨?_, rfl, ofBytes_toBytes a order⟩,
    fun bytes width order => ⟨?_, ?_⟩, testBit_clearedByte⟩
  · rw [← byteCount_eq_ceilDiv]
    exact length_toBytes a order
  · rw [← byteCount_eq_ceilDiv]
    exact ofBytes_eq_error_iff
  · intro a ha
    have hfits : ¬(width = 0 ∨ byteCount width < bytes.length) := by
      intro h
      obtain ⟨fault, hfault⟩ := ofBytes_eq_error_iff.2 h
      rw [ha] at hfault
      contradiction
    rw [not_or, Nat.not_lt] at hfits
    have hwidth := Nat.pos_of_ne_zero hfits.1
    rw [ofBytes_of_fits hwidth hfits.2] at ha
    obtain rfl := Except.ok.inj ha
    exact ⟨rfl, toBytes_ofBytes hwidth hfits.2 order⟩

/-- Two bytes at twelve bits: the upper half of the first one is cleared. -/
theorem bytes_read_back_of_twelve_bits :
    let a := wrap 12 (by decide) 0xBCD
    ofBytes [0xAB, 0xCD] 12 .bigEndian = .ok a ∧ a.width = 12 ∧
      a.toBytes .bigEndian = cleared 12 .bigEndian (filled 12 .bigEndian [0xAB, 0xCD]) ∧
      cleared 12 .bigEndian (filled 12 .bigEndian [0xAB, 0xCD]) = [0x0B, 0xCD] := by
  intro a
  have hread : ofBytes [0xAB, 0xCD] 12 .bigEndian = .ok a := rfl
  obtain ⟨hwidth, hbytes⟩ := (bytes_read_back.2.1 [0xAB, 0xCD] 12 .bigEndian).2 a hread
  exact ⟨hread, hwidth, hbytes, by decide⟩

end ExactCalc.Word
