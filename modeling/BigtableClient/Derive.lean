import BigtableClient.Bytes

/-!
# The derive macro

`#[derive(FromRow)]` reads the `bigtable` attributes of a struct and its fields and
generates a `from_row`.  Here are the parsed input, the two attribute readers and the
expansion; the generated code is a list of initializers and the predicates of its where
clause.  Parsing the tokens of an attribute is left to `syn`, which is a parameter.
-/

namespace BigtableClient

/-! ## Types and paths -/

mutual

/-- A Rust type.  The macro only looks into paths. -/
inductive RustType where
  | path (segments : List PathSegment)
  | other (tokens : String)

inductive PathSegment where
  | mk (ident : String) (arguments : PathArguments)

inductive PathArguments where
  | none
  | angleBracketed (args : List GenericArgument)
  | parenthesized (tokens : String)

inductive GenericArgument where
  | type (type : RustType)
  | other (tokens : String)

end

/-- The type in an `Option<_>`, whatever path it is named by. -/
def optionInner : RustType → Option RustType
  | .path segments =>
      match segments.getLast? with
      | some (.mk ident (.angleBracketed [.type inner])) =>
          if ident = "Option" then some inner else none
      | _ => none
  | .other _ => none

/-- A path without arguments, as attributes have them. -/
structure ModPath where
  leadingColon : Bool
  segments : List String
  deriving DecidableEq, Repr

def ModPath.isIdent (path : ModPath) (name : String) : Bool :=
  ¬ path.leadingColon ∧ path.segments = [name]

/-! ## Attributes -/

abbrev Span := Nat

inductive Lit where
  | str (value : String)
  | byteStr (value : Bytes)
  deriving DecidableEq, Repr

structure Expr where
  /-- absent for any other expression -/
  lit : Option Lit
  span : Span
  deriving DecidableEq, Repr

inductive MetaTail where
  | nothing
  /-- `= expr` -/
  | value (expr : Expr)
  /-- `(..)` -/
  | list
  deriving DecidableEq, Repr

/-- An item of `#[bigtable(..)]`. -/
structure Meta where
  path : ModPath
  span : Span
  tail : MetaTail
  deriving DecidableEq, Repr

structure Attribute where
  path : ModPath
  span : Span
  /-- the items of the list behind the path, unless it has none -/
  args : Option (List Meta)
  deriving DecidableEq, Repr

inductive SynError where
  /-- an error of the macro, and those combined with it -/
  | new (span : Span) (message : String) (combined : List (Span × String))
  /-- an error that `syn` raised where it could not parse the tokens -/
  | parser (span : Span)
  deriving DecidableEq, Repr

/-- What `syn` parses for the macro.  What reads an item says what it left behind. -/
structure Syn where
  /-- `Attribute::parse_nested_meta` -/
  parseNestedMeta {σ : Type} (logic : σ → Meta → Except SynError (σ × MetaTail)) (config : σ)
    (attr : Attribute) : Except SynError σ
  /-- `meta.value()?.parse::<LitStr>()` -/
  parseLitStr (item : Meta) : Except SynError (String × MetaTail)
  /-- `meta.value()?.parse::<Expr>()` -/
  parseExpr (item : Meta) : Except SynError (Expr × MetaTail)
  /-- `LitStr::parse_with(Path::parse_mod_style)` -/
  parseModStyle (text : String) : Except SynError ModPath

def isBigtable (attr : Attribute) : Bool :=
  attr.path.isIdent "bigtable"

def utf8 (text : String) : Bytes :=
  text.toUTF8.data.toList

/-- `Qualifier::parse` -/
def Expr.parseQualifier (expr : Expr) : Except SynError Bytes :=
  match expr.lit with
  | some (.str value) => .ok (utf8 value)
  | some (.byteStr value) => .ok value
  | none => .error (.new expr.span "qualifier must be a string or byte string literal" [])

def duplicate {α : Type} (span : Span) (name : String) : Except SynError α :=
  .error (.new span ("duplicate bigtable attribute '" ++ name ++ "'") [])

def setOnce {α : Type} (slot : Option α) (value : α) (span : Span) (name : String) :
    Except SynError (Option α) :=
  if slot.isSome then duplicate span name else .ok (some value)

def setFlag (slot : Bool) (span : Span) (name : String) : Except SynError Bool :=
  if slot then duplicate span name else .ok true

/-! ## Configurations -/

structure StructConfig where
  family : Option String
  deriving DecidableEq, Repr

namespace StructConfig

def default : StructConfig where
  family := none

def readItem (syn : Syn) (config : StructConfig) (item : Meta) :
    Except SynError (StructConfig × MetaTail) := do
  if item.path.isIdent "family" then
    let (value, rest) ← syn.parseLitStr item
    let family ← setOnce config.family value item.span "family"
    return ({ config with family := family }, rest)
  else
    .error (.new item.span "unsupported struct-level bigtable attribute" [])

def parse (syn : Syn) (attributes : List Attribute) : Except SynError StructConfig :=
  (attributes.filter isBigtable).foldlM (syn.parseNestedMeta (readItem syn)) default

end StructConfig

structure FieldConfig where
  rowKey : Bool
  family : Option String
  qualifier : Option Bytes
  json : Bool
  with_ : Option ModPath
  default : Bool
  deriving DecidableEq, Repr

structure Field where
  /-- with the `r#` of a raw identifier -/
  ident : String
  type : RustType
  attrs : List Attribute
  span : Span

namespace FieldConfig

def empty : FieldConfig where
  rowKey := false
  family := none
  qualifier := none
  json := false
  with_ := none
  default := false

def readItem (syn : Syn) (config : FieldConfig) (item : Meta) :
    Except SynError (FieldConfig × MetaTail) := do
  if item.path.isIdent "row_key" then
    let rowKey ← setFlag config.rowKey item.span "row_key"
    return ({ config with rowKey := rowKey }, item.tail)
  else if item.path.isIdent "family" then
    let (value, rest) ← syn.parseLitStr item
    let family ← setOnce config.family value item.span "family"
    return ({ config with family := family }, rest)
  else if item.path.isIdent "qualifier" then
    let (expression, rest) ← syn.parseExpr item
    let value ← expression.parseQualifier
    let qualifier ← setOnce config.qualifier value item.span "qualifier"
    return ({ config with qualifier := qualifier }, rest)
  else if item.path.isIdent "json" then
    let json ← setFlag config.json item.span "json"
    return ({ config with json := json }, item.tail)
  else if item.path.isIdent "with" then
    let (text, rest) ← syn.parseLitStr item
    let path ← syn.parseModStyle text
    let with_ ← setOnce config.with_ path item.span "with"
    return ({ config with with_ := with_ }, rest)
  else if item.path.isIdent "default" then
    let default ← setFlag config.default item.span "default"
    return ({ config with default := default }, item.tail)
  else
    .error (.new item.span "unsupported field-level bigtable attribute" [])

def parse (syn : Syn) (field : Field) : Except SynError FieldConfig := do
  let config ← (field.attrs.filter isBigtable).foldlM (syn.parseNestedMeta (readItem syn)) empty
  if config.json ∧ config.with_.isSome then
    .error (.new field.span
      "a field cannot use both #[bigtable(json)] and #[bigtable(with = \"...\")]" [])
  else
    return config

end FieldConfig

/-! ## The generated code -/

inductive Bound where
  | fromCellValue
  | fromJsonValue
  | default
  /-- one that the struct has in its own where clause -/
  | other (tokens : String)
  deriving DecidableEq, Repr

structure Predicate where
  type : RustType
  bound : Bound

/-- Which of the three kinds of decoders, and for which type. -/
inductive Coding where
  | plain (target : RustType)
  | json (target : RustType)
  | with_ (path : ModPath)

inductive DecodeExpr where
  /-- `decoder.row_key`, `row_key_json` and `row_key_with` -/
  | rowKey (coding : Coding)
  /-- `decoder.required`, `required_json` and `required_with` -/
  | required (coding : Coding) (family : String) (qualifier : Bytes)
  /-- `decoder.optional`, `optional_json` and `optional_with` -/
  | optional (coding : Coding) (family : String) (qualifier : Bytes)
  /-- `.unwrap_or_default()`, on a target of this type -/
  | unwrapOrDefault (expr : DecodeExpr) (target : RustType)

structure Initializer where
  ident : String
  decode : DecodeExpr

/-- `impl FromRow`: the initializers of `from_row` and the where clause. -/
structure FromRowImpl where
  initializers : List Initializer
  predicates : List Predicate

/-! ## Expansion -/

inductive Fields where
  | named (fields : List Field)
  | unnamed (span : Span)
  | unit (span : Span)

inductive Data where
  | struct (fields : Fields)
  | enum (span : Span)
  | union (span : Span)

structure DeriveInput where
  attrs : List Attribute
  data : Data
  /-- the where clause of the struct -/
  predicates : List Predicate

def FieldConfig.coding (config : FieldConfig) (target : RustType) : Coding :=
  if config.json then
    .json target
  else
    match config.with_ with
    | some path => .with_ path
    | none => .plain target

def addDecoderBound (predicates : List Predicate) (target : RustType) (config : FieldConfig) :
    List Predicate :=
  if config.with_.isSome then
    predicates
  else
    predicates ++ [⟨target, if config.json then .fromJsonValue else .fromCellValue⟩]

def rowKeyDecoder (config : FieldConfig) (target : RustType) : DecodeExpr :=
  .rowKey (config.coding target)

def validateRowKeyConfig (field : Field) (config : FieldConfig) (inner : Option RustType) :
    Except SynError Unit :=
  if config.family.isSome ∨ config.qualifier.isSome then
    .error (.new field.span "a row key field cannot select a family or qualifier" [])
  else if inner.isSome then
    .error (.new field.span "a row key field cannot be Option" [])
  else if config.default then
    .error (.new field.span "a row key field cannot use #[bigtable(default)]" [])
  else
    .ok ()

def fieldInitializer (field : Field) (config : FieldConfig) (structConfig : StructConfig)
    (predicates : List Predicate) : Except SynError (Initializer × List Predicate) := do
  let inner := optionInner field.type
  if config.rowKey then
    validateRowKeyConfig field config inner
    return (⟨field.ident, rowKeyDecoder config field.type⟩,
      addDecoderBound predicates field.type config)
  else
    match config.family.or structConfig.family with
    | none =>
        .error (.new field.span
          "column fields need #[bigtable(family = \"...\")] on the struct or field" [])
    | some family =>
        let qualifier := config.qualifier.getD (utf8 field.ident)
        if inner.isSome ∧ config.default then
          .error (.new field.span
            "Option fields are already sparse and cannot also use #[bigtable(default)]" [])
        else
          let target := inner.getD field.type
          let predicates := addDecoderBound predicates target config
          let predicates :=
            if config.default then predicates ++ [⟨target, .default⟩] else predicates
          let coding := config.coding target
          let decode : DecodeExpr :=
            if inner.isSome ∨ config.default then
              .optional coding family qualifier
            else
              .required coding family qualifier
          let decode := if config.default then .unwrapOrDefault decode target else decode
          return (⟨field.ident, decode⟩, predicates)

/-- Where the loop over the fields stands. -/
structure Expansion where
  initializers : List Initializer
  predicates : List Predicate
  rowKeyField : Option Span

def noteRowKey (config : FieldConfig) (field : Field) (rowKeyField : Option Span) :
    Except SynError (Option Span) :=
  if config.rowKey then
    match rowKeyField with
    | some first =>
        .error (.new field.span "only one field can use #[bigtable(row_key)]"
          [(first, "first row key field is here")])
    | none => .ok (some field.span)
  else
    .ok rowKeyField

def Expansion.addField (syn : Syn) (structConfig : StructConfig) (expansion : Expansion)
    (field : Field) : Except SynError Expansion := do
  let config ← FieldConfig.parse syn field
  let rowKeyField ← noteRowKey config field expansion.rowKeyField
  let (initializer, predicates) ←
    fieldInitializer field config structConfig expansion.predicates
  return { initializers := expansion.initializers ++ [initializer]
           predicates := predicates
           rowKeyField := rowKeyField }

def Data.namedFields : Data → Except SynError (List Field)
  | .struct (.named fields) => .ok fields
  | .struct (.unnamed span) =>
      .error (.new span "FromRow can only be derived for a struct with named fields" [])
  | .struct (.unit span) =>
      .error (.new span "FromRow can only be derived for a struct with named fields" [])
  | .enum span => .error (.new span "FromRow cannot be derived for an enum" [])
  | .union span => .error (.new span "FromRow cannot be derived for a union" [])

def expandFromRow (syn : Syn) (input : DeriveInput) : Except SynError FromRowImpl := do
  let structConfig ← StructConfig.parse syn input.attrs
  let fields ← input.data.namedFields
  let expansion ← fields.foldlM (Expansion.addField syn structConfig)
    { initializers := [], predicates := input.predicates, rowKeyField := none }
  return { initializers := expansion.initializers, predicates := expansion.predicates }

end BigtableClient
