import BigtableClient.Derive
import BigtableClient.Typed

/-!
# Running generated mappers

The generated `from_row` calls the row decoder with the trait impls and the functions
that are in scope.  An impl or a function that is missing is an error of the compiler,
so it shows when the code is resolved and not when a row is mapped.
-/

namespace BigtableClient

/-- The trait impls and the functions that generated code can name, over one type of values. -/
structure Scope (α : Type) where
  fromCellValue : RustType → Option (ValueDecoder α)
  fromJsonValue : RustType → Option (ValueDecoder α)
  default : RustType → Option α
  function : ModPath → Option (DecodeFn α)

inductive FieldValue (α : Type) where
  | value (found : α)
  | option (found : Option α)
  deriving DecidableEq, Repr

variable {α : Type}

def Scope.Satisfies (scope : Scope α) (predicate : Predicate) : Prop :=
  match predicate.bound with
  | .fromCellValue => (scope.fromCellValue predicate.type).isSome
  | .fromJsonValue => (scope.fromJsonValue predicate.type).isSome
  | .default => (scope.default predicate.type).isSome
  | .other _ => True

/-- `unwrap_or_default`, which is generated on an option only. -/
def FieldValue.unwrapOr (default : α) : FieldValue α → FieldValue α
  | .option found => .value (found.getD default)
  | .value found => .value found

/-- The function that an expression of the generated code is. -/
def DecodeExpr.resolve (search : BinarySearch) (scope : Scope α) :
    DecodeExpr → Option (RowDecoder → Except MapError (FieldValue α))
  | .rowKey (.plain target) =>
      (scope.fromCellValue target).map fun decode decoder =>
        (decoder.rowKey decode).map .value
  | .rowKey (.json target) =>
      (scope.fromJsonValue target).map fun decode decoder =>
        (decoder.rowKeyJson decode).map .value
  | .rowKey (.with_ path) =>
      (scope.function path).map fun function decoder =>
        (decoder.rowKeyWith function).map .value
  | .required (.plain target) family qualifier =>
      (scope.fromCellValue target).map fun decode decoder =>
        (decoder.required search decode family qualifier).map .value
  | .required (.json target) family qualifier =>
      (scope.fromJsonValue target).map fun decode decoder =>
        (decoder.requiredJson search decode family qualifier).map .value
  | .required (.with_ path) family qualifier =>
      (scope.function path).map fun function decoder =>
        (decoder.requiredWith search family qualifier function).map .value
  | .optional (.plain target) family qualifier =>
      (scope.fromCellValue target).map fun decode decoder =>
        (decoder.optional search decode family qualifier).map .option
  | .optional (.json target) family qualifier =>
      (scope.fromJsonValue target).map fun decode decoder =>
        (decoder.optionalJson search decode family qualifier).map .option
  | .optional (.with_ path) family qualifier =>
      (scope.function path).map fun function decoder =>
        (decoder.optionalWith search family qualifier function).map .option
  | .unwrapOrDefault expr target => do
      let decode ← expr.resolve search scope
      let default ← scope.default target
      some fun decoder => (decode decoder).map (FieldValue.unwrapOr default)

abbrev Record (α : Type) := List (String × FieldValue α)

def Initializer.resolve (search : BinarySearch) (scope : Scope α) (initializer : Initializer) :
    Option (RowDecoder → Except MapError (String × FieldValue α)) :=
  (initializer.decode.resolve search scope).map fun decode decoder =>
    (decode decoder).map fun value => (initializer.ident, value)

/-- The generated `from_row`, when the scope has all it names. -/
def FromRowImpl.resolve (search : BinarySearch) (scope : Scope α) (code : FromRowImpl) :
    Option (FromRow (Record α)) :=
  (code.initializers.mapM (Initializer.resolve search scope)).map fun fields row =>
    fields.mapM fun decode => decode { row := row }

end BigtableClient
