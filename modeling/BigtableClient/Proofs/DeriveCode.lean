import BigtableClient.Mapper
import BigtableClient.Proofs.DeriveGrammar

/-!
# The code that the derive macro generates

What a field declares is a column or the row key, how it is decoded, and what happens
when there is no value.  The macro accepts a struct exactly when each of its fields declares
something, and the code it generates is that of the declarations, one by one.
-/

namespace BigtableClient

open ProofSupport.Fallible
open ProofSupport.OnceOnly

/-! ## Declarations -/

inductive Presence where
  /-- it is an error -/
  | required
  /-- the field is `None` -/
  | sparse
  /-- the field has the default of its type -/
  | defaulted
  deriving DecidableEq, Repr

inductive FieldPlace where
  | rowKey
  | column (family : String) (qualifier : Bytes) (presence : Presence)
  deriving DecidableEq, Repr

/-- What a field declares. -/
structure FieldSpec where
  ident : String
  place : FieldPlace
  /-- the type that is decoded -/
  target : RustType
  coding : Coding

def FieldSpec.IsKey (spec : FieldSpec) : Prop :=
  spec.place = .rowKey

instance (spec : FieldSpec) : Decidable spec.IsKey :=
  inferInstanceAs (Decidable (spec.place = .rowKey))

/-- How the items of a field say that its type is decoded. -/
inductive Codes (items : List FieldItem) (target : RustType) : Coding → Prop
  | plain (hjson : .json ∉ items) (hwith : ∀ path, .with_ path ∉ items) :
      Codes items target (.plain target)
  | json (hjson : .json ∈ items) (hwith : ∀ path, .with_ path ∉ items) :
      Codes items target (.json target)
  | with_ {path : ModPath} (hjson : .json ∉ items) (hwith : .with_ path ∈ items) :
      Codes items target (.with_ path)

/-- The family of a column: the one of the field, or else the one of the struct. -/
def SelectsFamily (family : Option String) (items : List FieldItem) (name : String) : Prop :=
  .family name ∈ items ∨ (∀ other, .family other ∉ items) ∧ family = some name

/-- The qualifier of a column: what the field says, or else its name. -/
def SelectsQualifier (ident : String) (items : List FieldItem) (qualifier : Bytes) : Prop :=
  .qualifier qualifier ∈ items ∨ (∀ other, .qualifier other ∉ items) ∧ qualifier = utf8 ident

/-- Whether a column may be absent, by the type of the field, and the type that is decoded. -/
inductive Expects (items : List FieldItem) (type : RustType) : Presence → RustType → Prop
  | required (hplain : optionInner type = none) (hdefault : .default ∉ items) :
      Expects items type .required type
  | sparse {inner : RustType} (hinner : optionInner type = some inner)
      (hdefault : .default ∉ items) : Expects items type .sparse inner
  | defaulted (hplain : optionInner type = none) (hdefault : .default ∈ items) :
      Expects items type .defaulted type

inductive Field.Declares (family : Option String) (field : Field) (items : List FieldItem) :
    FieldSpec → Prop
  | rowKey {coding : Coding} (hkey : .rowKey ∈ items) (hfamily : ∀ name, .family name ∉ items)
      (hqualifier : ∀ bytes, .qualifier bytes ∉ items) (hplain : optionInner field.type = none)
      (hdefault : .default ∉ items) (hcodes : Codes items field.type coding) :
      Declares family field items ⟨field.ident, .rowKey, field.type, coding⟩
  | column {name : String} {qualifier : Bytes} {presence : Presence} {target : RustType}
      {coding : Coding} (hkey : .rowKey ∉ items) (hfamily : SelectsFamily family items name)
      (hqualifier : SelectsQualifier field.ident items qualifier)
      (hexpects : Expects items field.type presence target) (hcodes : Codes items target coding) :
      Declares family field items
        ⟨field.ident, .column name qualifier presence, target, coding⟩

def Field.Declared (syn : Syn) (family : Option String) (field : Field) (spec : FieldSpec) :
    Prop :=
  ∃ items, field.Says syn items ∧ field.Declares family items spec

/-- What the fields of a struct declare, of which at most one is the row key. -/
structure DeriveInput.Declares (syn : Syn) (input : DeriveInput) (specs : List FieldSpec) :
    Prop where
  fields : ∃ fields family, input.data = .struct (.named fields) ∧
    DeriveInput.SaysFamily input.attrs family ∧
    List.Forall₂ (Field.Declared syn family) fields specs
  oneKey : specs.Pairwise fun one other => ¬ (one.IsKey ∧ other.IsKey)

/-! ## Code of a declaration -/

def Coding.bounds : Coding → List Predicate
  | .plain target => [⟨target, .fromCellValue⟩]
  | .json target => [⟨target, .fromJsonValue⟩]
  | .with_ _ => []

def FieldSpec.decode (spec : FieldSpec) : DecodeExpr :=
  match spec.place with
  | .rowKey => .rowKey spec.coding
  | .column family qualifier .required => .required spec.coding family qualifier
  | .column family qualifier .sparse => .optional spec.coding family qualifier
  | .column family qualifier .defaulted =>
      .unwrapOrDefault (.optional spec.coding family qualifier) spec.target

def FieldSpec.initializer (spec : FieldSpec) : Initializer where
  ident := spec.ident
  decode := spec.decode

def FieldSpec.bounds (spec : FieldSpec) : List Predicate :=
  match spec.place with
  | .column _ _ .defaulted => spec.coding.bounds ++ [⟨spec.target, .default⟩]
  | _ => spec.coding.bounds

/-! ## One field -/

namespace FieldConfig

variable {config : FieldConfig} {items : List FieldItem} {target : RustType} {coding : Coding}

theorem codes_iff (h : config.Reflects items)
    (hdecoder : .json ∈ items → ∀ path, .with_ path ∉ items) :
    Codes items target coding ↔ coding = config.coding target := by
  unfold FieldConfig.coding
  cases hjson : config.json with
  | true =>
      have hmem : .json ∈ items := h.json.1 hjson
      constructor
      · intro hcodes
        cases hcodes with
        | plain hnone => exact absurd hmem hnone
        | json => rfl
        | with_ hnone => exact absurd hmem hnone
      · rintro rfl
        exact .json hmem (hdecoder hmem)
  | false =>
      have hnone : .json ∉ items := h.json.not.1 (by simp [hjson])
      cases hwith : config.with_ with
      | none =>
          have hno : ∀ path, .with_ path ∉ items :=
            fun path => (h.with_ path).not.1 (by simp [hwith])
          constructor
          · intro hcodes
            cases hcodes with
            | plain => rfl
            | json hmem => exact absurd hmem hnone
            | with_ _ hmem => exact absurd hmem (hno _)
          · rintro rfl
            exact .plain hnone hno
      | some path =>
          have hmem := (h.with_ path).1 hwith
          constructor
          · intro hcodes
            cases hcodes with
            | plain _ hno => exact absurd hmem (hno path)
            | json hjsonMem => exact absurd hjsonMem hnone
            | with_ _ hother =>
                have hsame := (h.with_ _).2 hother
                rw [hwith] at hsame
                obtain rfl := Option.some.inj hsame
                rfl
          · rintro rfl
            exact .with_ hnone hmem

theorem addDecoderBound_eq (predicates : List Predicate) (target : RustType)
    (config : FieldConfig) (hboth : ¬ (config.json ∧ config.with_.isSome)) :
    addDecoderBound predicates target config = predicates ++ (config.coding target).bounds := by
  unfold addDecoderBound FieldConfig.coding
  cases hjson : config.json <;> cases hwith : config.with_ <;> simp_all [Coding.bounds]

theorem selectsFamily_iff (h : config.Reflects items) {family : Option String} {name : String} :
    SelectsFamily family items name ↔ config.family.or family = some name := by
  unfold SelectsFamily
  cases hfamily : config.family with
  | none =>
      have hno : ∀ other, .family other ∉ items :=
        fun other => (h.family other).not.1 (by simp [hfamily])
      simp [hno]
  | some own =>
      have hmem := (h.family own).1 hfamily
      rw [Option.some_or, ← h.family, hfamily]
      constructor
      · rintro (hsame | ⟨hno, -⟩)
        · exact hsame
        · exact absurd hmem (hno own)
      · exact Or.inl

theorem selectsQualifier_iff (h : config.Reflects items) {ident : String} {qualifier : Bytes} :
    SelectsQualifier ident items qualifier ↔ qualifier = config.qualifier.getD (utf8 ident) := by
  unfold SelectsQualifier
  simp only [← h.qualifier]
  cases config.qualifier with
  | none => simp
  | some own => simp [eq_comm]

def presence (config : FieldConfig) (inner : Option RustType) : Presence :=
  if config.default then
    .defaulted
  else if inner.isSome then
    .sparse
  else
    .required

theorem expects_iff (h : config.Reflects items) {type : RustType} {presence : Presence} :
    Expects items type presence target ↔
      ¬ ((optionInner type).isSome ∧ config.default = true) ∧
        presence = config.presence (optionInner type) ∧
        target = (optionInner type).getD type := by
  unfold FieldConfig.presence
  cases hdefault : config.default with
  | true =>
      have hmem := h.default.1 hdefault
      constructor
      · intro hexpects
        cases hexpects with
        | required _ hnone => exact absurd hmem hnone
        | sparse _ hnone => exact absurd hmem hnone
        | defaulted hplain => simp [hplain]
      · rintro ⟨hplain, rfl, rfl⟩
        have hinner : optionInner type = none := by simpa using hplain
        rw [hinner]
        exact .defaulted hinner hmem
  | false =>
      have hnone : .default ∉ items := h.default.not.1 (by simp [hdefault])
      constructor
      · intro hexpects
        cases hexpects with
        | required hplain => simp [hplain]
        | sparse hinner => simp [hinner]
        | defaulted _ hmem => exact absurd hmem hnone
      · rintro ⟨-, rfl, rfl⟩
        cases hinner : optionInner type with
        | none => exact .required hinner hnone
        | some inner => exact .sparse hinner hnone

end FieldConfig

theorem validateRowKeyConfig_eq_ok {field : Field} {config : FieldConfig}
    {inner : Option RustType} :
    validateRowKeyConfig field config inner = .ok () ↔
      config.family = none ∧ config.qualifier = none ∧ inner = none ∧ config.default = false := by
  unfold validateRowKeyConfig
  split_ifs with hselects hinner hdefault
  · refine iff_of_false (by simp) ?_
    rintro ⟨hfamily, hqualifier, -⟩
    simp [hfamily, hqualifier] at hselects
  · refine iff_of_false (by simp) ?_
    rintro ⟨-, -, rfl, -⟩
    cases hinner
  · simp [hdefault]
  · simp_all

section Field

variable {field : Field} {config : FieldConfig} {items : List FieldItem} {family : Option String}
  {spec : FieldSpec}

theorem declares_iff_of_rowKey (h : config.Reflects items)
    (hdecoder : .json ∈ items → ∀ path, .with_ path ∉ items) (hkey : config.rowKey = true) :
    field.Declares family items spec ↔
      validateRowKeyConfig field config (optionInner field.type) = .ok () ∧
        spec = ⟨field.ident, .rowKey, field.type, config.coding field.type⟩ := by
  rw [validateRowKeyConfig_eq_ok]
  constructor
  · intro hdeclares
    cases hdeclares with
    | rowKey _ hfamily hqualifier hplain hdefault hcodes =>
        obtain rfl := (FieldConfig.codes_iff h hdecoder).1 hcodes
        refine ⟨⟨?_, ?_, hplain, ?_⟩, rfl⟩
        · exact Option.eq_none_iff_forall_ne_some.2 fun name => (h.family name).not.2 (hfamily name)
        · exact Option.eq_none_iff_forall_ne_some.2
            fun bytes => (h.qualifier bytes).not.2 (hqualifier bytes)
        · exact Bool.eq_false_iff.2 (h.default.not.2 hdefault)
    | column hno => exact absurd (h.rowKey.1 hkey) hno
  · rintro ⟨⟨hfamily, hqualifier, hplain, hdefault⟩, rfl⟩
    exact .rowKey (h.rowKey.1 hkey) (fun name => (h.family name).not.1 (by simp [hfamily]))
      (fun bytes => (h.qualifier bytes).not.1 (by simp [hqualifier])) hplain
      (h.default.not.1 (by simp [hdefault])) ((FieldConfig.codes_iff h hdecoder).2 rfl)

theorem declares_iff_of_column (h : config.Reflects items)
    (hdecoder : .json ∈ items → ∀ path, .with_ path ∉ items) (hkey : config.rowKey = false) :
    field.Declares family items spec ↔
      ∃ name, config.family.or family = some name ∧
        ¬ ((optionInner field.type).isSome ∧ config.default = true) ∧
        spec = ⟨field.ident,
          .column name (config.qualifier.getD (utf8 field.ident))
            (config.presence (optionInner field.type)),
          (optionInner field.type).getD field.type,
          config.coding ((optionInner field.type).getD field.type)⟩ := by
  have hno : .rowKey ∉ items := h.rowKey.not.1 (by simp [hkey])
  constructor
  · intro hdeclares
    cases hdeclares with
    | rowKey hmem => exact absurd hmem hno
    | column _ hfamily hqualifier hexpects hcodes =>
        obtain rfl := (FieldConfig.codes_iff h hdecoder).1 hcodes
        obtain rfl := (FieldConfig.selectsQualifier_iff h).1 hqualifier
        obtain ⟨hallowed, rfl, rfl⟩ := (FieldConfig.expects_iff h).1 hexpects
        exact ⟨_, (FieldConfig.selectsFamily_iff h).1 hfamily, hallowed, rfl⟩
  · rintro ⟨name, hfamily, hallowed, rfl⟩
    exact .column hno ((FieldConfig.selectsFamily_iff h).2 hfamily)
      ((FieldConfig.selectsQualifier_iff h).2 rfl)
      ((FieldConfig.expects_iff h).2 ⟨hallowed, rfl, rfl⟩)
      ((FieldConfig.codes_iff h hdecoder).2 rfl)

/-- The code of a column is the same whichever way its presence is told. -/
theorem column_code {inner : Option RustType} (h : ¬ (inner.isSome ∧ config.default = true))
    (ident : String) (name : String) (qualifier : Bytes) (target : RustType) (coding : Coding)
    (predicates : List Predicate) :
    let spec : FieldSpec :=
      ⟨ident, .column name qualifier (config.presence inner), target, coding⟩
    let decode : DecodeExpr :=
      if inner.isSome ∨ config.default then
        .optional coding name qualifier
      else
        .required coding name qualifier
    ((⟨ident, if config.default then .unwrapOrDefault decode target else decode⟩ : Initializer),
        if config.default then predicates ++ coding.bounds ++ [⟨target, .default⟩]
          else predicates ++ coding.bounds) =
      (spec.initializer, predicates ++ spec.bounds) := by
  unfold FieldSpec.initializer FieldSpec.decode FieldSpec.bounds FieldConfig.presence
  cases hdefault : config.default with
  | true => simp
  | false => cases inner <;> simp

/-- The initializer and the bounds of a field are those of what it declares. -/
theorem fieldInitializer_eq_ok {structConfig : StructConfig} {predicates : List Predicate}
    {result : Initializer × List Predicate} (h : config.Reflects items)
    (hdecoder : .json ∈ items → ∀ path, .with_ path ∉ items) :
    fieldInitializer field config structConfig predicates = .ok result ↔
      ∃ spec, field.Declares structConfig.family items spec ∧
        result = (spec.initializer, predicates ++ spec.bounds) := by
  have hboth : ¬ (config.json ∧ config.with_.isSome) := by
    rintro ⟨hjson, hwith⟩
    obtain ⟨path, hpath⟩ := Option.isSome_iff_exists.1 hwith
    exact hdecoder (h.json.1 hjson) path ((h.with_ path).1 hpath)
  unfold fieldInitializer
  simp only [FieldConfig.addDecoderBound_eq _ _ _ hboth]
  cases hkey : config.rowKey with
  | true =>
      simp only [if_true, bind_eq_ok, declares_iff_of_rowKey h hdecoder hkey]
      constructor
      · rintro ⟨⟨⟩, hvalid, hresult⟩
        exact ⟨_, ⟨hvalid, rfl⟩, (Except.ok.inj hresult).symm⟩
      · rintro ⟨spec, ⟨hvalid, rfl⟩, rfl⟩
        exact ⟨(), hvalid, rfl⟩
  | false =>
      simp only [Bool.false_eq_true, if_false, declares_iff_of_column h hdecoder hkey]
      cases hfamily : config.family.or structConfig.family with
      | none => simp
      | some name =>
          by_cases hallowed : (optionInner field.type).isSome ∧ config.default = true
          · simp [hallowed]
          · simp only [if_neg hallowed]
            have hcode := column_code hallowed field.ident name
              (config.qualifier.getD (utf8 field.ident)) ((optionInner field.type).getD field.type)
              (config.coding ((optionInner field.type).getD field.type)) predicates
            constructor
            · intro hresult
              exact ⟨_, ⟨name, rfl, hallowed, rfl⟩, (Except.ok.inj hresult).symm.trans hcode⟩
            · rintro ⟨spec, ⟨other, hother, -, rfl⟩, rfl⟩
              obtain rfl := Option.some.inj hother
              exact congrArg Except.ok hcode

end Field

/-! ## The loop over the fields -/

namespace Expansion

/-- The only slot of the loop, for the row key.  A field comes with its place in the source. -/
def slots : Slots Expansion (Span × FieldSpec) Unit where
  slot field := if field.2.IsKey then some () else none
  Filled expansion _ := expansion.rowKeyField ≠ none
  fill expansion field :=
    { initializers := expansion.initializers ++ [field.2.initializer]
      predicates := expansion.predicates ++ field.2.bounds
      rowKeyField := if field.2.IsKey then some field.1 else expansion.rowKeyField }

variable {syn : Syn} {expansion : Expansion} {spec : FieldSpec}
  {declared : List (Span × FieldSpec)}

theorem lawful_slots : slots.Lawful := by
  intro expansion field slot
  by_cases hkey : field.2.IsKey <;> simp [slots, hkey]

theorem fits_iff {field : Span × FieldSpec} :
    slots.Fits expansion field ↔ field.2.IsKey → expansion.rowKeyField = none := by
  by_cases hkey : field.2.IsKey <;> simp [Slots.Fits, slots, hkey]

/-- At the start there is room for fields of which at most one is the row key. -/
theorem free_iff (hnone : expansion.rowKeyField = none) :
    slots.Free expansion declared ↔
      (declared.map Prod.snd).Pairwise fun one other => ¬ (one.IsKey ∧ other.IsKey) := by
  unfold Slots.Free
  rw [and_iff_left (fun field _ => fits_iff.2 fun _ => hnone), List.Nodup,
    List.pairwise_filterMap, List.pairwise_map]
  simp [slots]

theorem fillAll_eq (expansion : Expansion) (declared : List (Span × FieldSpec)) :
    (slots.fillAll expansion declared).initializers =
        expansion.initializers ++ (declared.map Prod.snd).map FieldSpec.initializer ∧
      (slots.fillAll expansion declared).predicates =
        expansion.predicates ++ (declared.map Prod.snd).flatMap FieldSpec.bounds := by
  induction declared generalizing expansion with
  | nil => simp
  | cons field declared ih =>
      rw [Slots.fillAll_cons, (ih _).1, (ih _).2]
      simp [slots]

theorem isKey_iff_of_declares {family : Option String} {field : Field} {items : List FieldItem}
    (h : field.Declares family items spec) : spec.IsKey ↔ .rowKey ∈ items := by
  cases h with
  | rowKey hkey => exact iff_of_true rfl hkey
  | column hkey => exact iff_of_false (by simp [FieldSpec.IsKey]) hkey

theorem noteRowKey_eq_ok {config : FieldConfig} {field : Field} {rowKeyField next : Option Span} :
    noteRowKey config field rowKeyField = .ok next ↔
      (config.rowKey = true → rowKeyField = none) ∧
        next = if config.rowKey then some field.span else rowKeyField := by
  unfold noteRowKey
  cases config.rowKey <;> cases rowKeyField <;> simp [eq_comm]

/-- A field adds what it declares, unless it is a second row key. -/
theorem readsWith_addField (hsyn : syn.Lawful) (structConfig : StructConfig) :
    slots.ReadsWith (addField syn structConfig)
      (fun field declared => declared.1 = field.span ∧
        field.Declared syn structConfig.family declared.2) := by
  intro expansion field next
  unfold addField
  simp only [bind_eq_ok, fits_iff, FieldConfig.parse_eq_ok hsyn, noteRowKey_eq_ok]
  constructor
  · rintro ⟨config, ⟨items, hmeant, rfl⟩, rowKeyField, ⟨hfits, rfl⟩, result, hresult, hnext⟩
    have hreflects := FieldConfig.reflects_fillAll hmeant.once
    obtain ⟨spec, hdeclares, rfl⟩ := (fieldInitializer_eq_ok hreflects hmeant.decoder).1 hresult
    obtain rfl := Except.ok.inj hnext
    have hkey := (isKey_iff_of_declares hdeclares).trans hreflects.rowKey.symm
    refine ⟨(field.span, spec), ⟨rfl, items, hmeant, hdeclares⟩,
      fun hspec => hfits (hkey.1 hspec), ?_⟩
    simp [slots, hkey]
  · rintro ⟨⟨span, spec⟩, ⟨rfl, items, hmeant, hdeclares⟩, hfits, rfl⟩
    have hreflects := FieldConfig.reflects_fillAll hmeant.once
    have hkey := (isKey_iff_of_declares hdeclares).trans hreflects.rowKey.symm
    refine ⟨_, ⟨items, hmeant, rfl⟩, _, ⟨fun hconfig => hfits (hkey.2 hconfig), rfl⟩, _,
      (fieldInitializer_eq_ok hreflects hmeant.decoder).2 ⟨spec, hdeclares, rfl⟩, ?_⟩
    simp [slots, hkey, pure, Except.pure]

theorem forall₂_span {family : Option String} {fields : List Field} {specs : List FieldSpec}
    (h : List.Forall₂ (Field.Declared syn family) fields specs) :
    List.Forall₂ (fun field declared => declared.1 = field.span ∧
      field.Declared syn family declared.2) fields ((fields.map Field.span).zip specs) := by
  induction h with
  | nil => exact .nil
  | cons hfield hrest ih => exact .cons ⟨rfl, hfield⟩ ih

end Expansion

theorem namedFields_eq_ok {data : Data} {fields : List Field} :
    data.namedFields = .ok fields ↔ data = .struct (.named fields) := by
  unfold Data.namedFields
  split <;> simp

def FromRowImpl.ofSpecs (predicates : List Predicate) (specs : List FieldSpec) : FromRowImpl where
  initializers := specs.map FieldSpec.initializer
  predicates := predicates ++ specs.flatMap FieldSpec.bounds

theorem expandFromRow_eq_ok {syn : Syn} (hsyn : syn.Lawful) {input : DeriveInput}
    {code : FromRowImpl} :
    expandFromRow syn input = .ok code ↔
      ∃ specs, input.Declares syn specs ∧ code = .ofSpecs input.predicates specs := by
  unfold expandFromRow
  simp only [bind_eq_ok, StructConfig.parse_eq_ok hsyn, namedFields_eq_ok,
    Slots.foldlM_eq_ok Expansion.lawful_slots (Expansion.readsWith_addField hsyn _)]
  constructor
  · rintro ⟨structConfig, hfamily, fields, hdata, expansion, ⟨declared, hall, hfree, rfl⟩, hcode⟩
    obtain rfl := Except.ok.inj hcode
    have hspecs : List.Forall₂ (Field.Declared syn structConfig.family) fields
        (declared.map Prod.snd) :=
      List.forall₂_map_right_iff.2 (hall.imp fun field entry h => h.2)
    refine ⟨declared.map Prod.snd,
      ⟨⟨fields, _, hdata, hfamily, hspecs⟩, (Expansion.free_iff rfl).1 hfree⟩, ?_⟩
    unfold FromRowImpl.ofSpecs
    rw [(Expansion.fillAll_eq _ declared).1, (Expansion.fillAll_eq _ declared).2]
    rfl
  · rintro ⟨specs, ⟨⟨fields, family, hdata, hfamily, hspecs⟩, honeKey⟩, rfl⟩
    have hsnd : ((fields.map Field.span).zip specs).map Prod.snd = specs :=
      List.map_snd_zip (by rw [List.length_map, hspecs.length_eq])
    refine ⟨⟨family⟩, hfamily, fields, hdata, _, ⟨_, Expansion.forall₂_span hspecs,
      (Expansion.free_iff rfl).2 (by rwa [hsnd]), rfl⟩, ?_⟩
    unfold FromRowImpl.ofSpecs
    rw [(Expansion.fillAll_eq _ _).1, (Expansion.fillAll_eq _ _).2, hsnd]
    rfl

/-- The macro accepts exactly the structs whose fields declare something each, at most one of
them the row key, and generates the code of these declarations. -/
theorem DeriveInput.expands_iff_declares {syn : Syn} (hsyn : syn.Lawful) (input : DeriveInput) :
    ((∃ code, expandFromRow syn input = .ok code) ↔ ∃ specs, input.Declares syn specs) ∧
      ∀ specs, input.Declares syn specs →
        expandFromRow syn input = .ok (.ofSpecs input.predicates specs) := by
  have haccepts : ∀ specs, input.Declares syn specs →
      expandFromRow syn input = .ok (.ofSpecs input.predicates specs) :=
    fun specs hspecs => (expandFromRow_eq_ok hsyn).2 ⟨specs, hspecs, rfl⟩
  refine ⟨⟨?_, ?_⟩, haccepts⟩
  · rintro ⟨code, hcode⟩
    obtain ⟨specs, hspecs, -⟩ := (expandFromRow_eq_ok hsyn).1 hcode
    exact ⟨specs, hspecs⟩
  · rintro ⟨specs, hspecs⟩
    exact ⟨_, haccepts specs hspecs⟩

/-! ## A struct

`struct Profile { #[bigtable(row_key)] key: String, #[bigtable(family = "profile",
qualifier = "n")] name: String, #[bigtable(family = "metrics", default)] visits: u64 }` -/

def flagItem (name : String) : Meta :=
  ⟨.ident name, 0, .nothing⟩

def textItem (name value : String) : Meta :=
  ⟨.ident name, 0, .value ⟨some (.str value), 0⟩⟩

def bigtableAttr (items : List Meta) : Attribute :=
  ⟨.ident "bigtable", 0, some items⟩

def plainType (name : String) : RustType :=
  .path [.mk name .none]

def profileStruct (nameAttrs : List Attribute) : DeriveInput where
  attrs := []
  data := .struct (.named [
    ⟨"key", plainType "String", [bigtableAttr [flagItem "row_key"]], 1⟩,
    ⟨"name", plainType "String", nameAttrs, 2⟩,
    ⟨"visits", plainType "u64",
      [bigtableAttr [textItem "family" "metrics", flagItem "default"]], 3⟩])
  predicates := []

/-- Reads attributes as `syn` does, and takes every string for one segment of a path. -/
def sampleSyn : Syn where
  parseNestedMeta logic config attr :=
    match attr.args with
    | none => .error (.parser attr.span)
    | some items => items.foldlM (readWhole logic) config
  parseLitStr item :=
    match item.tail with
    | .value ⟨some (.str text), _⟩ => .ok (text, .nothing)
    | _ => .error (.parser item.span)
  parseExpr item :=
    match item.tail with
    | .value expr => .ok (expr, .nothing)
    | _ => .error (.parser item.span)
  parseModStyle text := .ok (.ident text)

theorem lawful_sampleSyn : sampleSyn.Lawful where
  nestedMeta logic config next attr := by
    show (match attr.args with | none => _ | some items => _) = _ ↔ _
    cases attr.args with
    | none => simp
    | some items => simp
  litStr item text := by
    show (match item.tail with | .value ⟨some (.str text), _⟩ => _ | _ => _) = _ ↔ _
    split
    · next found place htail => simp [htail]
    · next hother =>
        simp only [reduceCtorEq, false_iff, not_exists]
        exact hother text
  expr item expr := by
    show (match item.tail with | .value expr => _ | _ => _) = _ ↔ _
    split
    · next found htail => simp [htail]
    · next hother =>
        simp only [reduceCtorEq, false_iff]
        exact hother expr

theorem expand_profileStruct : ∃ code, expandFromRow sampleSyn (profileStruct
    [bigtableAttr [textItem "family" "profile", textItem "qualifier" "n"]]) = .ok code :=
  ⟨_, rfl⟩

theorem DeriveInput.expands_iff_declares_profileStruct :
    ∃ specs : List FieldSpec, specs.length = 3 ∧
      expandFromRow sampleSyn (profileStruct [bigtableAttr [textItem "family" "profile",
        textItem "qualifier" "n"]]) = .ok (.ofSpecs [] specs) := by
  obtain ⟨hexpands, hcode⟩ := DeriveInput.expands_iff_declares lawful_sampleSyn (profileStruct
    [bigtableAttr [textItem "family" "profile", textItem "qualifier" "n"]])
  obtain ⟨specs, hspecs⟩ := hexpands.1 expand_profileStruct
  obtain ⟨fields, family, hdata, -, hall⟩ := hspecs.fields
  obtain rfl := Fields.named.inj (Data.struct.inj hdata)
  exact ⟨specs, hall.length_eq.symm, hcode specs hspecs⟩

end BigtableClient
