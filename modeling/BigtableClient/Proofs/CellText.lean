import BigtableClient.CellValue
import BigtableClient.ProofSupport.Numerals

/-!
# Text in cells

The decoders of cells read exactly what is written for a value.  The checked loop over
the digits of an integer stops early, but never wrongly: numbers in text form are read
exactly when they are in the range of the type, and nothing else is read.
-/

namespace BigtableClient

open ProofSupport.Numerals

/-- A number in text form: an optional sign and its digits, the leading one first. -/
structure Numeral where
  sign : Option Bool
  digits : List Nat
  digits_ne_nil : digits ≠ []
  digits_lt : ∀ digit ∈ digits, digit < 10

namespace Numeral

def digitByte (digit : Nat) : UInt8 := UInt8.ofNat (48 + digit)

def signText : Option Bool → Bytes
  | none => []
  | some true => [43]
  | some false => [45]

def text (numeral : Numeral) : Bytes := signText numeral.sign ++ numeral.digits.map digitByte

def isPositive (numeral : Numeral) : Bool := numeral.sign ≠ some false

def withSign (positive : Bool) (size : Nat) : Int := if positive then size else -size

def value (numeral : Numeral) : Int := withSign numeral.isPositive (extend 10 0 numeral.digits)

def ofInt (value : Int) : Numeral where
  sign := if value < 0 then some false else none
  digits := leadingFirst 10 value.natAbs
  digits_ne_nil := leadingFirst_ne_nil 10 value.natAbs
  digits_lt _ := lt_of_mem_leadingFirst (by decide)

theorem value_ofInt (value : Int) : (ofInt value).value = value := by
  have hsize : extend 10 0 (ofInt value).digits = value.natAbs :=
    extend_leadingFirst 10 value.natAbs
  unfold Numeral.value withSign isPositive
  rw [hsize, ofInt]
  by_cases hneg : value < 0
  · have habs : -(value.natAbs : Int) = value := by omega
    simpa [hneg] using habs
  · have habs : (value.natAbs : Int) = value := by omega
    simpa [hneg] using habs

theorem toNat_digitByte {digit : Nat} (h : digit < 10) : (digitByte digit).toNat = 48 + digit := by
  rw [digitByte, UInt8.toNat_ofNat']
  omega

end Numeral

namespace IntType

open Numeral (digitByte withSign)

variable {type : IntType} {positive : Bool} {size bound : Nat} {bytes : Bytes} {n : Int}

theorem toDigit_eq_some {byte : UInt8} {digit : Nat} :
    toDigit byte = some digit ↔ digit < 10 ∧ byte = digitByte digit := by
  rw [toDigit, Option.ite_none_right_eq_some]
  constructor
  · rintro ⟨⟨hlow, hhigh⟩, hdigit⟩
    obtain rfl := Option.some.inj hdigit
    have hlt : byte.toNat - 48 < 10 := by omega
    refine ⟨hlt, UInt8.toNat_inj.1 ?_⟩
    rw [Numeral.toNat_digitByte hlt]
    omega
  · rintro ⟨hlt, rfl⟩
    rw [Numeral.toNat_digitByte hlt]
    exact ⟨⟨by omega, by omega⟩, by rw [Nat.add_sub_cancel_left]⟩

theorem inRange_zero (type : IntType) : type.InRange 0 := by
  have hpow : ∀ k : Nat, (0 : Int) < 2 ^ k := fun k => by positivity
  have hhalf := hpow (type.bits - 1)
  have hfull := hpow type.bits
  unfold InRange minValue maxValue
  split_ifs
  · omega
  · omega

/-- A number between zero and one in range is in range. -/
theorem inRange_mono (hle : size ≤ bound) (h : type.InRange (withSign positive bound)) :
    type.InRange (withSign positive size) := by
  obtain ⟨hmin, hmax⟩ := type.inRange_zero
  obtain ⟨hlow, hhigh⟩ := h
  unfold withSign at *
  split_ifs at *
  · exact ⟨by omega, by omega⟩
  · exact ⟨by omega, by omega⟩

def overflow (positive : Bool) : IntErrorKind := if positive then .posOverflow else .negOverflow

theorem withSign_mul (positive : Bool) (size : Nat) :
    withSign positive size * 10 = withSign positive (size * 10) := by
  unfold withSign
  split_ifs
  · omega
  · omega

theorem withSign_add (positive : Bool) (size digit : Nat) :
    (if positive then withSign positive size + digit else withSign positive size - digit) =
      withSign positive (size + digit) := by
  unfold withSign
  split_ifs
  · omega
  · omega

/-- The digit loop over digits stops as soon as the number is too large, and that is when the whole
number is. -/
theorem parseDigits_numeral (digits : List Nat) (hdigits : ∀ digit ∈ digits, digit < 10)
    (hsize : type.InRange (withSign positive size)) :
    type.parseDigits positive (withSign positive size) (digits.map digitByte) =
      if type.InRange (withSign positive (extend 10 size digits)) then
        .ok (withSign positive (extend 10 size digits))
      else .error (overflow positive) := by
  induction digits generalizing size with
  | nil =>
      rw [List.map_nil, parseDigits]
      exact (if_pos hsize).symm
  | cons digit digits ih =>
      have hdigit : toDigit (digitByte digit) = some digit :=
        toDigit_eq_some.2 ⟨hdigits digit List.mem_cons_self, rfl⟩
      have hle : size * 10 + digit ≤ extend 10 size (digit :: digits) := by
        rw [extend_cons]
        exact le_extend (by decide) _ _
      rw [List.map_cons, parseDigits, hdigit]
      dsimp only
      rw [withSign_mul, checked]
      by_cases hshift : type.InRange (withSign positive (size * 10))
      · rw [if_pos hshift]
        dsimp only
        rw [withSign_add, checked]
        by_cases hadd : type.InRange (withSign positive (size * 10 + digit))
        · rw [if_pos hadd]
          exact ih (fun other hother => hdigits other (List.mem_cons_of_mem _ hother)) hadd
        · rw [if_neg hadd, if_neg fun hin => hadd (inRange_mono hle hin)]
          rfl
      · rw [if_neg hshift, if_neg fun hin =>
          hshift (inRange_mono ((Nat.le_add_right _ _).trans hle) hin)]
        rfl

theorem exists_digits_of_parseDigits {value : Int}
    (h : type.parseDigits positive value bytes = .ok n) :
    ∃ digits : List Nat, (∀ digit ∈ digits, digit < 10) ∧ bytes = digits.map digitByte := by
  induction bytes generalizing value with
  | nil => exact ⟨[], nofun, rfl⟩
  | cons byte rest ih =>
      rw [parseDigits] at h
      split at h
      · cases h
      · next digit hdigit =>
          obtain ⟨hlt, rfl⟩ := toDigit_eq_some.1 hdigit
          split at h
          · cases h
          · split at h
            · cases h
            · obtain ⟨digits, hdigits, rfl⟩ := ih h
              refine ⟨digit :: digits, ?_, rfl⟩
              intro other hother
              rcases List.mem_cons.1 hother with rfl | hrest
              · exact hlt
              · exact hdigits other hrest

/-- A type without negative numbers knows no minus sign. -/
def Knows (type : IntType) (numeral : Numeral) : Prop := numeral.sign = some false → type.signed

theorem digitByte_ne {digit : Nat} (hdigit : digit < 10) {byte : UInt8} (hbyte : byte.toNat < 48) :
    digitByte digit ≠ byte := by
  rintro rfl
  rw [Numeral.toNat_digitByte hdigit] at hbyte
  omega

/-- A number in text form is read when it is in range, and is too large or too small otherwise. -/
theorem fromStr_numeral {text : String} {numeral : Numeral} (hknows : type.Knows numeral)
    (htext : asBytes text = numeral.text) :
    type.fromStr text =
      if type.InRange numeral.value then .ok numeral.value
      else .error (overflow numeral.isPositive) := by
  obtain ⟨sign, digits, hne, hlt⟩ := numeral
  have hloop : ∀ positive, type.parseDigits positive 0 (digits.map digitByte) =
      if type.InRange (withSign positive (extend 10 0 digits)) then
        .ok (withSign positive (extend 10 0 digits))
      else .error (overflow positive) := by
    intro positive
    have hzero : withSign positive 0 = 0 := by cases positive <;> rfl
    have hstart : type.InRange (withSign positive 0) := by
      rw [hzero]
      exact type.inRange_zero
    have hnumeral := parseDigits_numeral digits hlt hstart
    rwa [hzero] at hnumeral
  obtain ⟨digit, rest, rfl⟩ := List.exists_cons_of_ne_nil hne
  have hdigit := hlt digit List.mem_cons_self
  have hplus : digitByte digit ≠ 43 := digitByte_ne hdigit (by decide)
  have hminus : digitByte digit ≠ 45 := digitByte_ne hdigit (by decide)
  unfold fromStr
  rw [htext]
  cases sign with
  | none =>
      have hstart : Numeral.text ⟨none, digit :: rest, hne, hlt⟩ =
          digitByte digit :: rest.map digitByte := rfl
      rw [hstart]
      split
      · next heq => cases heq
      · next heq => exact absurd (List.cons.inj heq).1 hplus
      · next heq => exact absurd (List.cons.inj heq).1 hminus
      · next heq => exact absurd (List.cons.inj heq).1 hplus
      · next heq => exact absurd (List.cons.inj heq).1 hminus
      · exact hloop true
  | some positive =>
      cases positive with
      | true => exact hloop true
      | false =>
          have hminus : (if type.signed = true then
              type.parseDigits false 0 ((digit :: rest).map digitByte)
            else type.parseDigits true 0 (45 :: (digit :: rest).map digitByte)) =
              type.parseDigits false 0 ((digit :: rest).map digitByte) := if_pos (hknows rfl)
          exact hminus.trans (hloop false)

/-- Only a number in text form is read. -/
theorem exists_numeral_of_fromStr {text : String} (h : type.fromStr text = .ok n) :
    ∃ numeral : Numeral, type.Knows numeral ∧ asBytes text = numeral.text := by
  unfold fromStr at h
  split at h
  · cases h
  · cases h
  · cases h
  · next digits hlone htext =>
      obtain ⟨digits, hdigits, rfl⟩ := exists_digits_of_parseDigits h
      have hne : digits ≠ [] := by
        rintro rfl
        exact hlone rfl
      exact ⟨⟨some true, digits, hne, hdigits⟩, nofun, htext⟩
  · next digits hlone htext =>
      split_ifs at h with hsigned
      · obtain ⟨digits, hdigits, rfl⟩ := exists_digits_of_parseDigits h
        have hne : digits ≠ [] := by
          rintro rfl
          exact hlone rfl
        exact ⟨⟨some false, digits, hne, hdigits⟩, fun _ => hsigned, htext⟩
      · cases h
  · next digits hempty _ _ _ _ =>
      obtain ⟨digits, hdigits, hbytes⟩ := exists_digits_of_parseDigits h
      have hne : digits ≠ [] := by
        rintro rfl
        exact hempty hbytes
      exact ⟨⟨none, digits, hne, hdigits⟩, nofun, hbytes⟩

end IntType

/-! ## Text in cells -/

theorem fromUtf8_eq_some {value : Bytes} {text : String} :
    fromUtf8 value = some text ↔ value = asBytes text := by
  unfold fromUtf8 String.fromUTF8?
  constructor
  · intro h
    split_ifs at h with hvalid
    obtain rfl := Option.some.inj h
    show value = value.toByteArray.data.toList
    rw [List.data_toByteArray]
  · rintro rfl
    have hbytes : (asBytes text).toByteArray = text.toByteArray := by
      apply ByteArray.ext
      rw [List.data_toByteArray, asBytes, Array.toArray_toList]
    have hvalid : (asBytes text).toByteArray.IsValidUTF8 := hbytes ▸ text.isValidUTF8
    rw [dif_pos hvalid]
    exact congrArg some (String.toByteArray_inj.1 hbytes)

theorem mapError_eq_ok {ε ε' α : Type} {x : Except ε α} {f : ε → ε'} {a : α} :
    x.mapError f = .ok a ↔ x = .ok a := by
  cases x with
  | error error => exact ⟨nofun, nofun⟩
  | ok value =>
      constructor
      · intro h
        exact congrArg Except.ok (Except.ok.inj h)
      · intro h
        exact congrArg Except.ok (Except.ok.inj h)

section TextValue

variable {α : Type} {utf8Error : Utf8ErrorText} {target : String}
  {fromStr : String → Except String α} {value : Bytes} {a : α}

theorem implTextValue_asBytes (text : String) :
    implTextValue utf8Error target fromStr (asBytes text) =
      (fromStr text).mapError fun source => { target := target, source := source } := by
  rw [implTextValue, fromUtf8_eq_some.2 rfl]

theorem implTextValue_eq_ok :
    implTextValue utf8Error target fromStr value = .ok a ↔
      ∃ text, value = asBytes text ∧ fromStr text = .ok a := by
  constructor
  · intro h
    cases htext : fromUtf8 value with
    | none =>
        rw [implTextValue, htext] at h
        cases h
    | some text =>
        obtain rfl := fromUtf8_eq_some.1 htext
        rw [implTextValue_asBytes, mapError_eq_ok] at h
        exact ⟨text, rfl, h⟩
  · rintro ⟨text, rfl, h⟩
    rw [implTextValue_asBytes, mapError_eq_ok]
    exact h

theorem target_of_implTextValue {error : ValueDecodeError}
    (h : implTextValue utf8Error target fromStr value = .error error) : error.target = target := by
  unfold implTextValue at h
  split at h
  · obtain rfl := Except.error.inj h
    rfl
  · next text _ =>
      cases hparse : fromStr text with
      | error source =>
          rw [hparse] at h
          obtain rfl := Except.error.inj h
          rfl
      | ok a =>
          rw [hparse] at h
          cases h

end TextValue

/-! ## Strings and truth values in cells -/

/-- A value is read from what is written for it and from nothing else. -/
structure ReadsWritten {α : Type} (decode : ValueDecoder α) (target : String)
    (written : α → Bytes) : Prop where
  ok : ∀ value a, decode value = .ok a ↔ value = written a
  target : ∀ value error, decode value = .error error → error.target = target

theorem readsWritten_string (utf8Error : Utf8ErrorText) :
    ReadsWritten (stringFromCellValue utf8Error) "alloc::string::String" asBytes where
  ok value text := by
    rw [← fromUtf8_eq_some, stringFromCellValue]
    cases fromUtf8 value with
    | none => simp
    | some other => simp
  target value error h := by
    unfold stringFromCellValue at h
    split at h
    · obtain rfl := Except.error.inj h
      rfl
    · cases h

theorem readsWritten_bool (utf8Error : Utf8ErrorText) :
    ReadsWritten (boolFromCellValue utf8Error) "bool" fun b => asBytes (toString b) where
  ok value b := by
    have hparse : ∀ text, boolFromStr text = .ok b ↔ text = toString b := by
      intro text
      have htrue : toString true = "true" := rfl
      have hfalse : toString false = "false" := rfl
      unfold boolFromStr
      split_ifs with hyes hno
      · cases b <;> simp [hyes, htrue, hfalse]
      · cases b <;> simp [hno, htrue, hfalse]
      · cases b <;> simp [hyes, hno, htrue, hfalse]
    rw [boolFromCellValue, implTextValue_eq_ok]
    simp [hparse]
  target _ _ h := target_of_implTextValue h

/-! ## Integers in cells -/

theorem Numeral.text_ascii (numeral : Numeral) : ∀ byte ∈ numeral.text, byte.toNat < 128 := by
  intro byte hbyte
  rcases List.mem_append.1 hbyte with hsign | hdigits
  · rcases hnumeral : numeral.sign with _ | positive
    · rw [hnumeral] at hsign
      cases hsign
    · rw [hnumeral] at hsign
      cases positive with
      | true => rw [List.mem_singleton.1 hsign]; decide
      | false => rw [List.mem_singleton.1 hsign]; decide
  · obtain ⟨digit, hdigit, rfl⟩ := List.mem_map.1 hdigits
    have hlt := numeral.digits_lt digit hdigit
    rw [toNat_digitByte hlt]
    omega

theorem Numeral.exists_text (numeral : Numeral) : ∃ text : String, asBytes text = numeral.text := by
  have hvalid := isValidUTF8_of_ascii numeral.text_ascii
  refine ⟨String.fromUTF8 _ hvalid, ?_⟩
  have hsome : fromUtf8 numeral.text = some (String.fromUTF8 _ hvalid) := dif_pos hvalid
  exact (fromUtf8_eq_some.1 hsome).symm

namespace IntType

variable {type : IntType}

structure ReadsIntegers (utf8Error : Utf8ErrorText) (type : IntType) : Prop where
  /-- a number in text form is read if it is in range -/
  numeral : ∀ numeral : Numeral, type.Knows numeral →
    type.fromCellValue utf8Error numeral.text =
      if type.InRange numeral.value then .ok numeral.value
      else .error ⟨type.name, (overflow numeral.isPositive).description⟩
  /-- nothing else is read -/
  only : ∀ value n, type.fromCellValue utf8Error value = .ok n →
    ∃ numeral : Numeral, type.Knows numeral ∧ value = numeral.text ∧ numeral.value = n ∧
      type.InRange n
  /-- what `to_string` writes is read back -/
  roundTrip : ∀ n, type.InRange n →
    type.fromCellValue utf8Error (Numeral.ofInt n).text = .ok n
  target : ∀ value error, type.fromCellValue utf8Error value = .error error →
    error.target = type.name

theorem fromCellValue_numeral (utf8Error : Utf8ErrorText) {numeral : Numeral}
    (hknows : type.Knows numeral) :
    type.fromCellValue utf8Error numeral.text =
      if type.InRange numeral.value then .ok numeral.value
      else .error ⟨type.name, (overflow numeral.isPositive).description⟩ := by
  obtain ⟨text, htext⟩ := numeral.exists_text
  rw [← htext, fromCellValue, implTextValue_asBytes, fromStr_numeral hknows htext]
  split_ifs
  · rfl
  · rfl

theorem knows_ofInt {n : Int} (h : type.InRange n) : type.Knows (.ofInt n) := by
  intro hsign
  have hneg : n < 0 := by
    by_contra hnot
    rw [Numeral.ofInt, if_neg hnot] at hsign
    cases hsign
  by_contra hsigned
  have hmin := h.1
  rw [minValue, if_neg hsigned] at hmin
  omega

theorem readsIntegers (utf8Error : Utf8ErrorText) (type : IntType) :
    type.ReadsIntegers utf8Error where
  numeral _ hknows := fromCellValue_numeral utf8Error hknows
  only value n h := by
    obtain ⟨text, rfl, hparse⟩ := implTextValue_eq_ok.1 h
    obtain ⟨numeral, hknows, htext⟩ := exists_numeral_of_fromStr (mapError_eq_ok.1 hparse)
    rw [htext, fromCellValue_numeral utf8Error hknows] at h
    split_ifs at h with hrange
    obtain rfl := Except.ok.inj h
    exact ⟨numeral, hknows, htext, rfl, hrange⟩
  roundTrip n hrange := by
    rw [fromCellValue_numeral utf8Error (knows_ofInt hrange), Numeral.value_ofInt, if_pos hrange]
  target _ _ h := target_of_implTextValue h

/-- Leading zeros do not make a number too large, and the first digit that does ends the matter. -/
example : u8.fromCellValue (fun _ => "") [43, 48, 48, 50, 53, 53] = .ok 255 ∧
    u8.fromCellValue (fun _ => "") [51, 48, 48, 120] =
      .error ⟨"u8", "number too large to fit in target type"⟩ := by
  decide +kernel

end IntType

/-- Bytes are read as they are, strings and truth values from their own text alone, and every
integer type reads exactly the decimal numbers in its range, with any leading zeros and a sign that
it knows. -/
theorem reads_cell_values (utf8Error : Utf8ErrorText) :
    (∀ target, ReadsWritten bytesFromCellValue target id) ∧
      ReadsWritten (stringFromCellValue utf8Error) "alloc::string::String" asBytes ∧
      ReadsWritten (boolFromCellValue utf8Error) "bool" (fun b => asBytes (toString b)) ∧
      ∀ type : IntType, type.ReadsIntegers utf8Error := by
  refine ⟨fun target => ⟨fun value bytes => ?_, nofun⟩, readsWritten_string utf8Error,
    readsWritten_bool utf8Error, IntType.readsIntegers utf8Error⟩
  exact ⟨Except.ok.inj, congrArg Except.ok⟩

end BigtableClient
