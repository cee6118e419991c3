import Mathlib

/-!
# Numerals

The number that digits stand for, the leading one first, and the bytes of ASCII text,
which are always valid UTF-8.
-/

namespace BigtableClient.ProofSupport.Numerals

variable {base value bound : Nat} {digits : List Nat}

/-- The number that is read when these digits follow. -/
def extend (base value : Nat) (digits : List Nat) : Nat :=
  digits.foldl (fun value digit => value * base + digit) value

theorem extend_cons (base value digit : Nat) (digits : List Nat) :
    extend base value (digit :: digits) = extend base (value * base + digit) digits := rfl

theorem le_extend (hbase : 0 < base) (value : Nat) (digits : List Nat) :
    value ≤ extend base value digits := by
  induction digits generalizing value with
  | nil => exact Nat.le_refl _
  | cons digit digits ih =>
      rw [extend_cons]
      calc value ≤ value * base := Nat.le_mul_of_pos_right value hbase
        _ ≤ value * base + digit := Nat.le_add_right _ _
        _ ≤ extend base (value * base + digit) digits := ih _

theorem extend_append_singleton (base value digit : Nat) (digits : List Nat) :
    extend base value (digits ++ [digit]) = extend base value digits * base + digit :=
  List.foldl_concat _ _ _ _

theorem extend_reverse (base : Nat) (digits : List Nat) :
    extend base 0 digits.reverse = Nat.ofDigits base digits := by
  induction digits with
  | nil => rfl
  | cons digit digits ih =>
      rw [List.reverse_cons, extend_append_singleton, ih, Nat.ofDigits_cons]
      ring

/-- The digits of a number, the leading one first, and one digit for 0. -/
def leadingFirst (base value : Nat) : List Nat :=
  if value = 0 then [0] else (Nat.digits base value).reverse

theorem extend_leadingFirst (base value : Nat) :
    extend base 0 (leadingFirst base value) = value := by
  unfold leadingFirst
  split_ifs with hzero
  · rw [extend_cons, hzero, Nat.zero_mul]
    rfl
  · rw [extend_reverse, Nat.ofDigits_digits]

theorem leadingFirst_ne_nil (base value : Nat) : leadingFirst base value ≠ [] := by
  unfold leadingFirst
  split_ifs with hzero
  · exact List.cons_ne_nil _ _
  · rw [ne_eq, List.reverse_eq_nil_iff]
    exact Nat.digits_ne_nil_iff_ne_zero.2 hzero

theorem lt_of_mem_leadingFirst (hbase : 1 < base) {digit : Nat}
    (h : digit ∈ leadingFirst base value) : digit < base := by
  unfold leadingFirst at h
  split_ifs at h with hzero
  · rw [List.mem_singleton.1 h]
    exact Nat.zero_lt_of_lt hbase
  · exact Nat.digits_lt_base hbase (List.mem_reverse.1 h)

/-! ## ASCII -/

theorem isValidUTF8_singleton {byte : UInt8} (h : byte.toNat < 128) :
    ByteArray.IsValidUTF8 [byte].toByteArray := by
  have hvalid : byte.toNat.isValidChar := Or.inl (by omega)
  have hval : (Char.ofNat byte.toNat).val.toNat = byte.toNat := by
    rw [Char.ofNat, dif_pos hvalid]
    rfl
  have hsize : (Char.ofNat byte.toNat).utf8Size = 1 := by
    rw [Char.utf8Size, if_pos]
    rw [UInt32.le_iff_toNat_le, hval]
    exact Nat.le_of_lt_succ h
  have hencode : String.utf8EncodeChar (Char.ofNat byte.toNat) = [byte] := by
    rw [String.utf8EncodeChar_eq_singleton hsize]
    congr 1
    apply UInt8.toNat_inj.1
    rw [UInt32.toNat_toUInt8, hval]
    omega
  rw [← hencode]
  exact Char.isValidUTF8_toByteArray_utf8EncodeChar

theorem isValidUTF8_of_ascii {bytes : List UInt8} (h : ∀ byte ∈ bytes, byte.toNat < 128) :
    ByteArray.IsValidUTF8 bytes.toByteArray := by
  induction bytes with
  | nil => exact ByteArray.isValidUTF8_empty
  | cons byte bytes ih =>
      rw [← List.singleton_append, List.toByteArray_append]
      apply ByteArray.IsValidUTF8.append
      · exact isValidUTF8_singleton (h byte List.mem_cons_self)
      · exact ih fun other hother => h other (List.mem_cons_of_mem _ hother)

end BigtableClient.ProofSupport.Numerals
