import BigtableClient.Proofs.DeriveCode

/-!
# Attributes can be regrouped

What the derive macro generates does not depend on how the items of a struct or a field
are spread over attributes, or in which order they come.
-/

namespace BigtableClient

def MetaTail.text : MetaTail → MetaTail
  | .value expr => .value { expr with span := 0 }
  | tail => tail

/-- An item without its places in the source. -/
def Meta.text (item : Meta) : ModPath × MetaTail :=
  (item.path, item.tail.text)

/-- The attributes have the same items, in some order and some grouping. -/
def SameItems (attrs attrs' : List Attribute) : Prop :=
  ∃ metas metas', bigtableItems attrs = some metas ∧ bigtableItems attrs' = some metas' ∧
    (metas.map Meta.text).Perm (metas'.map Meta.text)

structure Field.Regroups (field field' : Field) : Prop where
  ident : field'.ident = field.ident
  type : field'.type = field.type
  attrs : SameItems field.attrs field'.attrs

structure DeriveInput.Regroups (input input' : DeriveInput) : Prop where
  attrs : SameItems input.attrs input'.attrs
  data : ∃ fields fields', input.data = .struct (.named fields) ∧
    input'.data = .struct (.named fields') ∧ List.Forall₂ Field.Regroups fields fields'
  predicates : input'.predicates = input.predicates

/-- Items of the same text can be read alike, in whatever order they are. -/
theorem exists_perm_of_says {ι : Type} {Says : Meta → ι → Prop} {metas metas' : List Meta}
    {items : List ι} (hmeant : List.Forall₂ Says metas items)
    (hperm : (metas.map Meta.text).Perm (metas'.map Meta.text))
    (htext : ∀ item item' said, item.text = item'.text → Says item said → Says item' said) :
    ∃ items', items.Perm items' ∧ List.Forall₂ Says metas' items' := by
  let reads (text : ModPath × MetaTail) (said : ι) : Prop :=
    ∃ item, item.text = text ∧ Says item said
  have htexts : List.Forall₂ reads (metas.map Meta.text) items :=
    List.forall₂_map_left_iff.2 (hmeant.imp fun item said h => ⟨item, rfl, h⟩)
  obtain ⟨items', hitems', hsame⟩ := List.perm_comp_forall₂ hperm.symm htexts
  refine ⟨items', hsame.symm, (List.forall₂_map_left_iff.1 hitems').imp fun item' said h => ?_⟩
  obtain ⟨item, htext', hsaid⟩ := h
  exact htext item item' said htext' hsaid

theorem MetaTail.eq_nothing_of_text {tail : MetaTail} (h : MetaTail.text .nothing = tail.text) :
    tail = .nothing := by
  cases tail with
  | nothing => rfl
  | value expr => cases h
  | list => cases h

theorem MetaTail.eq_value_of_text {tail : MetaTail} {lit : Option Lit} {span : Span}
    (h : MetaTail.text (.value ⟨lit, span⟩) = tail.text) :
    ∃ place, tail = .value ⟨lit, place⟩ := by
  cases tail with
  | nothing => cases h
  | value expr =>
      obtain ⟨found, place⟩ := expr
      obtain ⟨rfl, -⟩ := Expr.mk.inj (MetaTail.value.inj h)
      exact ⟨place, rfl⟩
  | list => cases h

theorem Meta.Says.of_text {syn : Syn} {item item' : Meta} {said : FieldItem}
    (htext : item.text = item'.text) (h : item.Says syn said) :
    item'.Says syn said := by
  obtain ⟨path, span, tail⟩ := item'
  cases h <;> obtain ⟨rfl, htail⟩ := Prod.mk.inj htext
  case rowKey =>
    obtain rfl := MetaTail.eq_nothing_of_text htail
    exact .rowKey span
  case family =>
    obtain ⟨place, rfl⟩ := MetaTail.eq_value_of_text htail
    exact .family span place _
  case qualifier =>
    obtain ⟨place, rfl⟩ := MetaTail.eq_value_of_text htail
    exact .qualifier span place _
  case rawQualifier =>
    obtain ⟨place, rfl⟩ := MetaTail.eq_value_of_text htail
    exact .rawQualifier span place _
  case json =>
    obtain rfl := MetaTail.eq_nothing_of_text htail
    exact .json span
  case with_ hpath =>
    obtain ⟨place, rfl⟩ := MetaTail.eq_value_of_text htail
    exact .with_ span place hpath
  case default =>
    obtain rfl := MetaTail.eq_nothing_of_text htail
    exact .default span

theorem Meta.SaysFamily.of_text {item item' : Meta} {name : String}
    (htext : item.text = item'.text) (h : item.SaysFamily name) : item'.SaysFamily name := by
  obtain ⟨path, span, tail⟩ := item'
  cases h
  obtain ⟨rfl, htail⟩ := Prod.mk.inj htext
  obtain ⟨place, rfl⟩ := MetaTail.eq_value_of_text htail
  exact .family span place name

/-! ## Declarations of regrouped items -/

section Regrouped

variable {items items' : List FieldItem} {target : RustType} {coding : Coding}

theorem Codes.of_mem (hmem : ∀ item, item ∈ items ↔ item ∈ items')
    (h : Codes items target coding) : Codes items' target coding := by
  cases h with
  | plain hjson hwith =>
      exact .plain (fun h => hjson ((hmem _).2 h)) fun path h => hwith path ((hmem _).2 h)
  | json hjson hwith => exact .json ((hmem _).1 hjson) fun path h => hwith path ((hmem _).2 h)
  | with_ hjson hwith => exact .with_ (fun h => hjson ((hmem _).2 h)) ((hmem _).1 hwith)

theorem Expects.of_mem (hmem : ∀ item, item ∈ items ↔ item ∈ items') {type : RustType}
    {presence : Presence} (h : Expects items type presence target) :
    Expects items' type presence target := by
  cases h with
  | required hplain hdefault => exact .required hplain fun h => hdefault ((hmem _).2 h)
  | sparse hinner hdefault => exact .sparse hinner fun h => hdefault ((hmem _).2 h)
  | defaulted hplain hdefault => exact .defaulted hplain ((hmem _).1 hdefault)

theorem Field.Declares.of_mem (hmem : ∀ item, item ∈ items ↔ item ∈ items') {field field' : Field}
    (hident : field'.ident = field.ident) (htype : field'.type = field.type)
    {family : Option String} {spec : FieldSpec} (h : field.Declares family items spec) :
    field'.Declares family items' spec := by
  obtain ⟨ident, type, attrs, span⟩ := field
  obtain ⟨ident', type', attrs', span'⟩ := field'
  obtain rfl : ident' = ident := hident
  obtain rfl : type' = type := htype
  cases h with
  | rowKey hkey hfamily hqualifier hplain hdefault hcodes =>
      exact .rowKey ((hmem _).1 hkey) (fun name h => hfamily name ((hmem _).2 h))
        (fun bytes h => hqualifier bytes ((hmem _).2 h)) hplain
        (fun h => hdefault ((hmem _).2 h)) (hcodes.of_mem hmem)
  | column hkey hfamily hqualifier hexpects hcodes =>
      refine .column (fun h => hkey ((hmem _).2 h)) ?_ ?_ (hexpects.of_mem hmem)
        (hcodes.of_mem hmem)
      · unfold SelectsFamily at hfamily ⊢
        simpa only [← hmem] using hfamily
      · unfold SelectsQualifier at hqualifier ⊢
        simpa only [← hmem] using hqualifier

end Regrouped

theorem Field.Declared.regroup {syn : Syn} {family : Option String}
    {field field' : Field} {spec : FieldSpec} (hsame : field.Regroups field')
    (h : field.Declared syn family spec) :
    field'.Declared syn family spec := by
  obtain ⟨items, ⟨⟨metas, hmetas, hmeant⟩, honce, hdecoder⟩, hdeclares⟩ := h
  obtain ⟨hident, htype, metas', metas'', hmetas', hmetas'', hperm⟩ := hsame
  obtain rfl : metas' = metas := Option.some.inj (hmetas'.symm.trans hmetas)
  obtain ⟨items', hitems, hmeant'⟩ :=
    exists_perm_of_says hmeant hperm fun _ _ _ => Meta.Says.of_text
  have hmem : ∀ item, item ∈ items ↔ item ∈ items' := fun item => hitems.mem_iff
  refine ⟨items', ⟨⟨metas'', hmetas'', hmeant'⟩, (hitems.map _).nodup_iff.1 honce, ?_⟩,
    hdeclares.of_mem hmem hident htype⟩
  simpa only [← hmem] using hdecoder

theorem DeriveInput.SaysFamily.regroup {attrs attrs' : List Attribute} {family : Option String}
    (hsame : SameItems attrs attrs') (h : DeriveInput.SaysFamily attrs family) :
    DeriveInput.SaysFamily attrs' family := by
  obtain ⟨metas, hmetas, hmeant⟩ := h
  obtain ⟨metas', metas'', hmetas', hmetas'', hperm⟩ := hsame
  obtain rfl : metas' = metas := Option.some.inj (hmetas'.symm.trans hmetas)
  obtain ⟨names, hnames, hmeant'⟩ :=
    exists_perm_of_says hmeant hperm fun _ _ _ => Meta.SaysFamily.of_text
  refine ⟨metas'', hmetas'', ?_⟩
  -- a list of at most one name has no other order
  cases family with
  | none =>
      obtain rfl := List.nil_perm.1 hnames
      exact hmeant'
  | some name =>
      obtain rfl := List.singleton_perm.1 hnames
      exact hmeant'

theorem DeriveInput.Declares.regroup {syn : Syn} {input input' : DeriveInput}
    {specs : List FieldSpec} (hsame : input.Regroups input')
    (h : input.Declares syn specs) : input'.Declares syn specs := by
  obtain ⟨⟨fields, family, hdata, hfamily, hspecs⟩, honeKey⟩ := h
  obtain ⟨hattrs, ⟨named, fields', hnamed, hdata', hfields⟩, -⟩ := hsame
  obtain rfl : named = fields := by
    rw [hnamed] at hdata
    exact Fields.named.inj (Data.struct.inj hdata)
  refine ⟨⟨fields', family, hdata', hfamily.regroup hattrs, ?_⟩, honeKey⟩
  clear honeKey hdata hnamed hdata'
  induction hfields generalizing specs with
  | nil => exact hspecs
  | cons hfield hrest ih =>
      cases hspecs with
      | cons hspec hspecs => exact .cons (hspec.regroup hfield) (ih hspecs)

/-- The generated code stays the same when the items of the attributes of a struct and of its
fields are merged into one attribute, split over several, or put into another order. -/
theorem DeriveInput.expand_regrouped {syn : Syn} (hsyn : syn.Lawful)
    {input input' : DeriveInput} {code : FromRowImpl} (hsame : input.Regroups input')
    (hexpand : expandFromRow syn input = .ok code) :
    expandFromRow syn input' = .ok code := by
  obtain ⟨specs, hspecs, rfl⟩ := (expandFromRow_eq_ok hsyn).1 hexpand
  exact (expandFromRow_eq_ok hsyn).2 ⟨specs, hspecs.regroup hsame, by rw [hsame.predicates]⟩

theorem DeriveInput.expand_regrouped_profileStruct :
    expandFromRow sampleSyn (profileStruct
        [bigtableAttr [textItem "qualifier" "n"], bigtableAttr [textItem "family" "profile"]]) =
      expandFromRow sampleSyn (profileStruct
        [bigtableAttr [textItem "family" "profile", textItem "qualifier" "n"]]) := by
  obtain ⟨code, hcode⟩ := expand_profileStruct
  have hname : SameItems [bigtableAttr [textItem "family" "profile", textItem "qualifier" "n"]]
      [bigtableAttr [textItem "qualifier" "n"], bigtableAttr [textItem "family" "profile"]] :=
    ⟨_, _, rfl, rfl, List.Perm.swap _ _ _⟩
  have hsame : ∀ attr, SameItems [bigtableAttr attr] [bigtableAttr attr] :=
    fun attr => ⟨_, _, rfl, rfl, List.Perm.refl _⟩
  have hregroups : (profileStruct
      [bigtableAttr [textItem "family" "profile", textItem "qualifier" "n"]]).Regroups
        (profileStruct [bigtableAttr [textItem "qualifier" "n"],
          bigtableAttr [textItem "family" "profile"]]) := by
    refine ⟨⟨_, _, rfl, rfl, List.Perm.refl _⟩, ⟨_, _, rfl, rfl, ?_⟩, rfl⟩
    exact .cons ⟨rfl, rfl, hsame _⟩ (.cons ⟨rfl, rfl, hname⟩ (.cons ⟨rfl, rfl, hsame _⟩ .nil))
  rw [hcode]
  exact DeriveInput.expand_regrouped lawful_sampleSyn hregroups hcode

end BigtableClient
