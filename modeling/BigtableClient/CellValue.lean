import BigtableClient.Typed

/-!
# Values in text form

`FromCellValue` of the types that come with the client: raw bytes, strings, and the
types that are read from their text.  The text has to be UTF-8, and the parsers of
the standard library do the rest.
-/

namespace BigtableClient

/-- `std::str::from_utf8` -/
def fromUtf8 (value : Bytes) : Option String := String.fromUTF8? value.toByteArray

def asBytes (text : String) : Bytes := text.toByteArray.data.toList

/-- The text of the `Utf8Error` for some bytes. -/
abbrev Utf8ErrorText := Bytes → String

/-! ## Integers -/

inductive IntErrorKind where
  | empty
  | invalidDigit
  | posOverflow
  | negOverflow
  deriving DecidableEq, Repr

/-- `ParseIntError` as text -/
def IntErrorKind.description : IntErrorKind → String
  | .empty => "cannot parse integer from empty string"
  | .invalidDigit => "invalid digit found in string"
  | .posOverflow => "number too large to fit in target type"
  | .negOverflow => "number too small to fit in target type"

structure IntType where
  name : String
  signed : Bool
  bits : Nat
  deriving DecidableEq, Repr

namespace IntType

def i8 : IntType := ⟨"i8", true, 8⟩
def i16 : IntType := ⟨"i16", true, 16⟩
def i32 : IntType := ⟨"i32", true, 32⟩
def i64 : IntType := ⟨"i64", true, 64⟩
def i128 : IntType := ⟨"i128", true, 128⟩
/-- on a 64-bit target -/
def isize : IntType := ⟨"isize", true, 64⟩
def u8 : IntType := ⟨"u8", false, 8⟩
def u16 : IntType := ⟨"u16", false, 16⟩
def u32 : IntType := ⟨"u32", false, 32⟩
def u64 : IntType := ⟨"u64", false, 64⟩
def u128 : IntType := ⟨"u128", false, 128⟩
/-- on a 64-bit target -/
def usize : IntType := ⟨"usize", false, 64⟩

def minValue (type : IntType) : Int := if type.signed then -2 ^ (type.bits - 1) else 0

def maxValue (type : IntType) : Int :=
  if type.signed then 2 ^ (type.bits - 1) - 1 else 2 ^ type.bits - 1

def InRange (type : IntType) (value : Int) : Prop := type.minValue ≤ value ∧ value ≤ type.maxValue

instance (type : IntType) (value : Int) : Decidable (type.InRange value) :=
  inferInstanceAs (Decidable (_ ∧ _))

def checked (type : IntType) (value : Int) : Option Int :=
  if type.InRange value then some value else none

/-- `to_digit` of a byte -/
def toDigit (byte : UInt8) : Option Nat :=
  if 48 ≤ byte.toNat ∧ byte.toNat ≤ 57 then some (byte.toNat - 48) else none

/-- The digit loop of `from_str`, which adds the digits of a positive number and subtracts those
of a negative one. -/
def parseDigits (type : IntType) (positive : Bool) (value : Int) :
    Bytes → Except IntErrorKind Int
  | [] => .ok value
  | byte :: rest =>
      let overflow : IntErrorKind := if positive then .posOverflow else .negOverflow
      match toDigit byte with
      | none => .error .invalidDigit
      | some digit =>
          match type.checked (value * 10) with
          | none => .error overflow
          | some shifted =>
              match type.checked (if positive then shifted + digit else shifted - digit) with
              | none => .error overflow
              | some value => type.parseDigits positive value rest

def fromStr (type : IntType) (text : String) : Except IntErrorKind Int :=
  match asBytes text with
  | [] => .error .empty
  | [43] => .error .invalidDigit
  | [45] => .error .invalidDigit
  | 43 :: digits => type.parseDigits true 0 digits
  | 45 :: digits =>
      if type.signed then type.parseDigits false 0 digits
      else type.parseDigits true 0 (45 :: digits)
  | digits => type.parseDigits true 0 digits

end IntType

/-! ## Decoders -/

def implTextValue {α : Type} (utf8Error : Utf8ErrorText) (target : String)
    (fromStr : String → Except String α) : ValueDecoder α := fun value =>
  match fromUtf8 value with
  | none => .error { target := target, source := utf8Error value }
  | some text => (fromStr text).mapError fun source => { target := target, source := source }

def IntType.fromCellValue (utf8Error : Utf8ErrorText) (type : IntType) : ValueDecoder Int :=
  implTextValue utf8Error type.name fun text =>
    (type.fromStr text).mapError IntErrorKind.description

def boolFromStr (text : String) : Except String Bool :=
  if text = "true" then .ok true
  else if text = "false" then .ok false
  else .error "provided string was not `true` or `false`"

def boolFromCellValue (utf8Error : Utf8ErrorText) : ValueDecoder Bool :=
  implTextValue utf8Error "bool" boolFromStr

def stringFromCellValue (utf8Error : Utf8ErrorText) : ValueDecoder String := fun value =>
  match fromUtf8 value with
  | none => .error { target := "alloc::string::String", source := utf8Error value }
  | some text => .ok text

/-- `FromCellValue` of `Bytes` and of `Vec<u8>` -/
def bytesFromCellValue : ValueDecoder Bytes := fun value => .ok value

end BigtableClient
