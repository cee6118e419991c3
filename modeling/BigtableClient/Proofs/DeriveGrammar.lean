import BigtableClient.Derive
import BigtableClient.ProofSupport.OnceOnly

/-!
# What the derive macro accepts

The grammar of the attributes, stated without the readers: what each item says, that
no item is said twice, and which items go together.  The macro expands exactly the
inputs of this grammar, if `syn` reads items as its documentation says.
-/

namespace BigtableClient

open ProofSupport.Fallible
open ProofSupport.OnceOnly

/-! ## Items -/

inductive FieldItem where
  | rowKey
  | family (name : String)
  | qualifier (bytes : Bytes)
  | json
  | with_ (path : ModPath)
  | default
  deriving DecidableEq, Repr

inductive FieldSlot where
  | rowKey
  | family
  | qualifier
  | json
  | with_
  | default
  deriving DecidableEq, Repr

def FieldItem.slot : FieldItem → FieldSlot
  | .rowKey => .rowKey
  | .family _ => .family
  | .qualifier _ => .qualifier
  | .json => .json
  | .with_ _ => .with_
  | .default => .default

def ModPath.ident (name : String) : ModPath where
  leadingColon := false
  segments := [name]

/-- The items that a field can have. -/
inductive Meta.Says (syn : Syn) : Meta → FieldItem → Prop
  | rowKey (span : Span) : Says syn ⟨.ident "row_key", span, .nothing⟩ .rowKey
  | family (span place : Span) (name : String) :
      Says syn ⟨.ident "family", span, .value ⟨some (.str name), place⟩⟩ (.family name)
  | qualifier (span place : Span) (text : String) :
      Says syn ⟨.ident "qualifier", span, .value ⟨some (.str text), place⟩⟩
        (.qualifier (utf8 text))
  | rawQualifier (span place : Span) (bytes : Bytes) :
      Says syn ⟨.ident "qualifier", span, .value ⟨some (.byteStr bytes), place⟩⟩
        (.qualifier bytes)
  | json (span : Span) : Says syn ⟨.ident "json", span, .nothing⟩ .json
  | with_ (span place : Span) {text : String} {path : ModPath}
      (hpath : syn.parseModStyle text = .ok path) :
      Says syn ⟨.ident "with", span, .value ⟨some (.str text), place⟩⟩ (.with_ path)
  | default (span : Span) : Says syn ⟨.ident "default", span, .nothing⟩ .default

inductive Meta.SaysFamily : Meta → String → Prop
  | family (span place : Span) (name : String) :
      SaysFamily ⟨.ident "family", span, .value ⟨some (.str name), place⟩⟩ name

/-- The items of all `bigtable` attributes, which must have lists behind them. -/
def bigtableItems (attrs : List Attribute) : Option (List Meta) :=
  ((attrs.filter isBigtable).mapM Attribute.args).map List.flatten

theorem isIdent_iff {path : ModPath} {name : String} :
    path.isIdent name = true ↔ path = .ident name := by
  obtain ⟨leadingColon, segments⟩ := path
  simp [ModPath.isIdent, ModPath.ident]

/-! ## Reading attributes -/

/-- One item, and nothing may be left behind it. -/
def readWhole {σ : Type} (logic : σ → Meta → Except SynError (σ × MetaTail)) (config : σ)
    (item : Meta) : Except SynError σ := do
  let (config, rest) ← logic config item
  if rest = .nothing then .ok config else .error (.parser item.span)

/-- What `syn` documents: a list of items is read one by one, a string literal and an expression
are what stands behind the equals sign. -/
structure Syn.Lawful (syn : Syn) : Prop where
  nestedMeta {σ : Type} (logic : σ → Meta → Except SynError (σ × MetaTail)) (config next : σ)
    (attr : Attribute) : syn.parseNestedMeta logic config attr = .ok next ↔
      ∃ items, attr.args = some items ∧ items.foldlM (readWhole logic) config = .ok next
  litStr (item : Meta) (text : String) : syn.parseLitStr item = .ok (text, .nothing) ↔
    ∃ place, item.tail = .value ⟨some (.str text), place⟩
  expr (item : Meta) (expr : Expr) : syn.parseExpr item = .ok (expr, .nothing) ↔
    item.tail = .value expr

section Attributes

variable {σ : Type} {logic : σ → Meta → Except SynError (σ × MetaTail)} {config next : σ}
  {syn : Syn} {attrs : List Attribute}

theorem readWhole_eq_ok {item : Meta} :
    readWhole logic config item = .ok next ↔ logic config item = .ok (next, .nothing) := by
  unfold readWhole
  rw [bind_eq_ok]
  constructor
  · rintro ⟨⟨config', rest⟩, hlogic, hrest⟩
    simp only at hrest
    split_ifs at hrest with hnothing
    obtain rfl := Except.ok.inj hrest
    rw [hlogic, hnothing]
  · intro h
    exact ⟨_, h, if_pos rfl⟩

theorem bigtableItems_eq_some {items : List Meta} :
    bigtableItems attrs = some items ↔
      ∃ lists, List.Forall₂ (fun attr list => attr.args = some list) (attrs.filter isBigtable)
        lists ∧ lists.flatten = items := by
  unfold bigtableItems
  rw [Option.map_eq_some_iff]
  simp only [mapM_eq_some]

/-- All attributes are read like one long attribute. -/
theorem foldlM_parseNestedMeta_eq_ok (hsyn : syn.Lawful) :
    (attrs.filter isBigtable).foldlM (syn.parseNestedMeta logic) config = .ok next ↔
      ∃ items, bigtableItems attrs = some items ∧
        items.foldlM (readWhole logic) config = .ok next := by
  simp only [bigtableItems_eq_some]
  induction attrs.filter isBigtable generalizing config with
  | nil => simp
  | cons attr attrs ih =>
      rw [List.foldlM_cons, bind_eq_ok]
      constructor
      · rintro ⟨config', hattr, hrest⟩
        obtain ⟨first, hargs, hfirst⟩ := (hsyn.nestedMeta _ _ _ _).1 hattr
        obtain ⟨items, ⟨lists, hlists, rfl⟩, hread⟩ := ih.1 hrest
        refine ⟨first ++ lists.flatten, ⟨first :: lists, .cons hargs hlists, rfl⟩, ?_⟩
        rw [List.foldlM_append, hfirst]
        exact hread
      · rintro ⟨items, ⟨lists, hlists, rfl⟩, hread⟩
        cases hlists with
        | cons hargs hlists =>
            rw [List.flatten_cons, List.foldlM_append, bind_eq_ok] at hread
            obtain ⟨config', hfirst, hrest⟩ := hread
            exact ⟨config', (hsyn.nestedMeta _ _ _ _).2 ⟨_, hargs, hfirst⟩,
              ih.2 ⟨_, ⟨_, hlists, rfl⟩, hrest⟩⟩

end Attributes

/-! ## Slots of a configuration -/

section Setting

variable {σ : Type} {next : σ} {tail : MetaTail} {span : Span} {name : String}

theorem setFlag_eq_ok {flag : Bool} {update : Bool → σ} :
    (setFlag flag span name >>= fun flag => pure (update flag, tail)) = .ok (next, .nothing) ↔
      flag = false ∧ tail = .nothing ∧ next = update true := by
  unfold setFlag duplicate
  cases flag
  · simp [pure, Except.pure, and_comm, eq_comm]
  · simp

theorem setOnce_eq_ok {α : Type} {slot : Option α} {value : α} {update : Option α → σ} :
    (setOnce slot value span name >>= fun slot => pure (update slot, tail)) = .ok (next, .nothing) ↔
      slot = none ∧ tail = .nothing ∧ next = update (some value) := by
  unfold setOnce duplicate
  cases slot
  · simp [pure, Except.pure, and_comm, eq_comm]
  · simp

end Setting

theorem parseQualifier_eq_ok {expr : Expr} {bytes : Bytes} :
    expr.parseQualifier = .ok bytes ↔
      (∃ text, expr.lit = some (.str text) ∧ bytes = utf8 text) ∨
        expr.lit = some (.byteStr bytes) := by
  unfold Expr.parseQualifier
  split
  · next value hlit => simp [hlit, eq_comm]
  · next value hlit => simp [hlit, eq_comm]
  · next hlit => simp [hlit]

namespace FieldConfig

variable {syn : Syn}

def slots : Slots FieldConfig FieldItem FieldSlot where
  slot item := some item.slot
  Filled config slot :=
    match slot with
    | .rowKey => config.rowKey = true
    | .family => config.family ≠ none
    | .qualifier => config.qualifier ≠ none
    | .json => config.json = true
    | .with_ => config.with_ ≠ none
    | .default => config.default = true
  fill config item :=
    match item with
    | .rowKey => { config with rowKey := true }
    | .family name => { config with family := some name }
    | .qualifier bytes => { config with qualifier := some bytes }
    | .json => { config with json := true }
    | .with_ path => { config with with_ := some path }
    | .default => { config with default := true }

theorem lawful_slots : slots.Lawful := by
  intro config item slot
  cases item <;> cases slot <;> simp [slots, FieldItem.slot]

theorem fits_iff {config : FieldConfig} {item : FieldItem} :
    slots.Fits config item ↔ ¬ slots.Filled config item.slot := by
  simp [Slots.Fits, slots]

/-- A field is read item by item, each once. -/
theorem readsWith_readItem (hsyn : syn.Lawful) :
    slots.ReadsWith (readWhole (readItem syn)) (Meta.Says syn) := by
  intro config item next
  simp only [readWhole_eq_ok, fits_iff]
  obtain ⟨path, span, tail⟩ := item
  constructor
  · intro h
    unfold readItem at h
    simp only [isIdent_iff] at h
    split_ifs at h with hkey hfamily hqualifier hjson hwith hdefault
    · obtain ⟨hfree, rfl, rfl⟩ := setFlag_eq_ok.1 h
      obtain rfl := hkey
      exact ⟨.rowKey, .rowKey span, Bool.eq_false_iff.1 hfree, rfl⟩
    · obtain ⟨⟨name, rest⟩, hname, hset⟩ := bind_eq_ok.1 h
      obtain ⟨hfree, hrest, rfl⟩ := setOnce_eq_ok.1 hset
      obtain rfl : rest = .nothing := hrest
      obtain rfl := hfamily
      obtain ⟨place, rfl⟩ : ∃ place, tail = _ := (hsyn.litStr _ _).1 hname
      exact ⟨.family name, .family span place name, not_not_intro hfree, rfl⟩
    · obtain ⟨⟨expr, rest⟩, hexpr, hvalue⟩ := bind_eq_ok.1 h
      obtain ⟨bytes, hbytes, hset⟩ := bind_eq_ok.1 hvalue
      obtain ⟨hfree, hrest, rfl⟩ := setOnce_eq_ok.1 hset
      obtain rfl : rest = .nothing := hrest
      obtain rfl := hqualifier
      obtain rfl : tail = _ := (hsyn.expr _ _).1 hexpr
      obtain ⟨lit, place⟩ := expr
      rcases parseQualifier_eq_ok.1 hbytes with ⟨text, hlit, rfl⟩ | hlit
      · obtain rfl : lit = _ := hlit
        exact ⟨_, .qualifier span place text, not_not_intro hfree, rfl⟩
      · obtain rfl : lit = _ := hlit
        exact ⟨_, .rawQualifier span place bytes, not_not_intro hfree, rfl⟩
    · obtain ⟨hfree, rfl, rfl⟩ := setFlag_eq_ok.1 h
      obtain rfl := hjson
      exact ⟨.json, .json span, Bool.eq_false_iff.1 hfree, rfl⟩
    · obtain ⟨⟨text, rest⟩, htext, hvalue⟩ := bind_eq_ok.1 h
      obtain ⟨path, hpath, hset⟩ := bind_eq_ok.1 hvalue
      obtain ⟨hfree, hrest, rfl⟩ := setOnce_eq_ok.1 hset
      obtain rfl : rest = .nothing := hrest
      obtain rfl := hwith
      obtain ⟨place, rfl⟩ : ∃ place, tail = _ := (hsyn.litStr _ _).1 htext
      exact ⟨.with_ path, .with_ span place hpath, not_not_intro hfree, rfl⟩
    · obtain ⟨hfree, rfl, rfl⟩ := setFlag_eq_ok.1 h
      obtain rfl := hdefault
      exact ⟨.default, .default span, Bool.eq_false_iff.1 hfree, rfl⟩
  · rintro ⟨item, hmeant, hfree, rfl⟩
    cases hmeant with
    | rowKey => exact setFlag_eq_ok.2 ⟨Bool.eq_false_iff.2 hfree, rfl, rfl⟩
    | family span place name =>
        exact bind_eq_ok.2 ⟨(name, .nothing), (hsyn.litStr _ _).2 ⟨place, rfl⟩,
          setOnce_eq_ok.2 ⟨not_not.1 hfree, rfl, rfl⟩⟩
    | qualifier span place text =>
        exact bind_eq_ok.2 ⟨(⟨some (.str text), place⟩, .nothing), (hsyn.expr _ _).2 rfl,
          bind_eq_ok.2 ⟨utf8 text, rfl, setOnce_eq_ok.2 ⟨not_not.1 hfree, rfl, rfl⟩⟩⟩
    | rawQualifier span place bytes =>
        exact bind_eq_ok.2 ⟨(⟨some (.byteStr bytes), place⟩, .nothing), (hsyn.expr _ _).2 rfl,
          bind_eq_ok.2 ⟨bytes, rfl, setOnce_eq_ok.2 ⟨not_not.1 hfree, rfl, rfl⟩⟩⟩
    | json => exact setFlag_eq_ok.2 ⟨Bool.eq_false_iff.2 hfree, rfl, rfl⟩
    | with_ span place hpath =>
        exact bind_eq_ok.2 ⟨(_, .nothing), (hsyn.litStr _ _).2 ⟨place, rfl⟩,
          bind_eq_ok.2 ⟨_, hpath, setOnce_eq_ok.2 ⟨not_not.1 hfree, rfl, rfl⟩⟩⟩
    | default => exact setFlag_eq_ok.2 ⟨Bool.eq_false_iff.2 hfree, rfl, rfl⟩

end FieldConfig

/-! ## Reading configurations -/

/-- The attributes of a field have these items, each once, and it is not both `json` and
`with`. -/
structure Field.Says (syn : Syn) (field : Field) (items : List FieldItem) : Prop where
  read : ∃ metas, bigtableItems field.attrs = some metas ∧
    List.Forall₂ (Meta.Says syn) metas items
  once : (items.map FieldItem.slot).Nodup
  decoder : .json ∈ items → ∀ path, .with_ path ∉ items

structure FieldConfig.Reflects (config : FieldConfig) (items : List FieldItem) : Prop where
  rowKey : config.rowKey = true ↔ .rowKey ∈ items
  family : ∀ name, config.family = some name ↔ .family name ∈ items
  qualifier : ∀ bytes, config.qualifier = some bytes ↔ .qualifier bytes ∈ items
  json : config.json = true ↔ .json ∈ items
  with_ : ∀ path, config.with_ = some path ↔ .with_ path ∈ items
  default : config.default = true ↔ .default ∈ items

namespace FieldConfig

variable {syn : Syn} {items : List FieldItem}

theorem free_empty : slots.Free empty items ↔ (items.map FieldItem.slot).Nodup := by
  have hslots : slots.slot = some ∘ FieldItem.slot := rfl
  have hfits : ∀ item ∈ items, slots.Fits empty item := by
    intro item hitem
    rw [fits_iff]
    cases item <;> simp [slots, FieldItem.slot, empty]
  unfold Slots.Free
  rw [hslots, List.filterMap_eq_map]
  exact and_iff_left hfits

/-- What just one item brings about holds at the end exactly when the field has that item. -/
theorem holds_iff (hnodup : (items.map FieldItem.slot).Nodup) (P : FieldConfig → Prop)
    (item : FieldItem) (hempty : ¬ P empty)
    (hfill : ∀ config other, ¬ slots.Filled config other.slot →
      (P (slots.fill config other) ↔ P config ∨ other = item)) :
    P (slots.fillAll empty items) ↔ item ∈ items := by
  have hholds := Slots.holds_fillAll lawful_slots P (· = item)
    (fun config other hfits => hfill config other (fits_iff.1 hfits)) (free_empty.2 hnodup)
  rw [hholds]
  simp [hempty]

theorem reflects_fillAll (hnodup : (items.map FieldItem.slot).Nodup) :
    (slots.fillAll empty items).Reflects items := by
  constructor
  case rowKey =>
    apply holds_iff hnodup (fun config => config.rowKey = true) .rowKey (by simp [empty])
    intro config other hfree
    cases other <;> simp [slots]
  case family =>
    intro name
    apply holds_iff hnodup (fun config => config.family = some name) _ (by simp [empty])
    intro config other hfree
    cases other <;> simp_all [slots, FieldItem.slot]
  case qualifier =>
    intro bytes
    apply holds_iff hnodup (fun config => config.qualifier = some bytes) _ (by simp [empty])
    intro config other hfree
    cases other <;> simp_all [slots, FieldItem.slot]
  case json =>
    apply holds_iff hnodup (fun config => config.json = true) .json (by simp [empty])
    intro config other hfree
    cases other <;> simp [slots]
  case with_ =>
    intro path
    apply holds_iff hnodup (fun config => config.with_ = some path) _ (by simp [empty])
    intro config other hfree
    cases other <;> simp_all [slots, FieldItem.slot]
  case default =>
    apply holds_iff hnodup (fun config => config.default = true) .default (by simp [empty])
    intro config other hfree
    cases other <;> simp [slots]

theorem parse_eq_ok (hsyn : syn.Lawful) {field : Field} {config : FieldConfig} :
    FieldConfig.parse syn field = .ok config ↔
      ∃ items, field.Says syn items ∧ config = slots.fillAll empty items := by
  unfold FieldConfig.parse
  rw [bind_eq_ok]
  simp only [foldlM_parseNestedMeta_eq_ok hsyn,
    Slots.foldlM_eq_ok lawful_slots (readsWith_readItem hsyn), free_empty]
  constructor
  · rintro ⟨read, ⟨metas, hmetas, items, hmeant, hnodup, rfl⟩, hcheck⟩
    have hreflects := reflects_fillAll hnodup
    split_ifs at hcheck with hboth
    obtain rfl := Except.ok.inj hcheck
    refine ⟨items, ⟨⟨metas, hmetas, hmeant⟩, hnodup, fun hjson path hwith => hboth ?_⟩, rfl⟩
    refine ⟨hreflects.json.2 hjson, ?_⟩
    rw [(hreflects.with_ path).2 hwith]
    rfl
  · rintro ⟨items, ⟨⟨metas, hmetas, hmeant⟩, hnodup, hdecoder⟩, rfl⟩
    have hreflects := reflects_fillAll hnodup
    refine ⟨_, ⟨metas, hmetas, items, hmeant, hnodup, rfl⟩, if_neg ?_⟩
    rintro ⟨hjson, hwith⟩
    obtain ⟨path, hpath⟩ := Option.isSome_iff_exists.1 hwith
    exact hdecoder (hreflects.json.1 hjson) path ((hreflects.with_ path).1 hpath)

end FieldConfig

/-! ## The struct -/

/-- The attributes of a struct name this family, or none. -/
def DeriveInput.SaysFamily (attrs : List Attribute) (family : Option String) : Prop :=
  ∃ metas, bigtableItems attrs = some metas ∧ List.Forall₂ Meta.SaysFamily metas family.toList

namespace StructConfig

variable {syn : Syn}

def slots : Slots StructConfig String Unit where
  slot _ := some ()
  Filled config _ := config.family ≠ none
  fill config name := { config with family := some name }

theorem lawful_slots : slots.Lawful := by
  intro config name slot
  simp [slots]

theorem readsWith_readItem (hsyn : syn.Lawful) :
    slots.ReadsWith (readWhole (readItem syn)) Meta.SaysFamily := by
  intro config item next
  have hfits : ∀ name, slots.Fits config name ↔ config.family = none := by
    simp [Slots.Fits, slots]
  simp only [readWhole_eq_ok, hfits]
  obtain ⟨path, span, tail⟩ := item
  constructor
  · intro h
    unfold readItem at h
    simp only [isIdent_iff] at h
    split_ifs at h with hfamily
    obtain ⟨⟨name, rest⟩, hname, hset⟩ := bind_eq_ok.1 h
    obtain ⟨hfree, hrest, rfl⟩ := setOnce_eq_ok.1 hset
    obtain rfl : rest = .nothing := hrest
    obtain rfl := hfamily
    obtain ⟨place, rfl⟩ : ∃ place, tail = _ := (hsyn.litStr _ _).1 hname
    exact ⟨name, .family span place name, hfree, rfl⟩
  · rintro ⟨name, hmeant, hfree, rfl⟩
    cases hmeant with
    | family span place =>
        exact bind_eq_ok.2 ⟨(name, .nothing), (hsyn.litStr _ _).2 ⟨place, rfl⟩,
          setOnce_eq_ok.2 ⟨hfree, rfl, rfl⟩⟩

theorem parse_eq_ok (hsyn : syn.Lawful) {attrs : List Attribute} {config : StructConfig} :
    StructConfig.parse syn attrs = .ok config ↔ DeriveInput.SaysFamily attrs config.family := by
  unfold StructConfig.parse DeriveInput.SaysFamily
  simp only [foldlM_parseNestedMeta_eq_ok hsyn,
    Slots.foldlM_eq_ok lawful_slots (readsWith_readItem hsyn)]
  constructor
  · rintro ⟨metas, hmetas, names, hmeant, ⟨hnodup, -⟩, rfl⟩
    refine ⟨metas, hmetas, ?_⟩
    cases names with
    | nil => exact hmeant
    | cons name names =>
        cases names with
        | nil => exact hmeant
        | cons other names => simp [slots] at hnodup
  · rintro ⟨metas, hmetas, hmeant⟩
    obtain ⟨family⟩ := config
    refine ⟨metas, hmetas, family.toList, hmeant, ?_, ?_⟩
    · cases family <;> simp [Slots.Free, Slots.Fits, slots, default]
    · cases family <;> rfl

end StructConfig

end BigtableClient
