import BigtableClient.Proofs.DeriveCode
import BigtableClient.Proofs.Lookup

/-!
# What a generated mapper does

The where clause of a generated mapper names exactly the impls that its code needs.  On
a row that was received the mapper computes what the fields declare, from the first cell
received for each column; where a field cannot have its value, the first such field
decides the error.
-/

namespace BigtableClient

open ProofSupport.Fallible

variable {α : Type} {search : BinarySearch} {scope : Scope α}

/-! ## Resolving -/

def Coding.decoder (scope : Scope α) : Coding → Option (ValueDecoder α)
  | .plain target => scope.fromCellValue target
  | .json target => scope.fromJsonValue target
  | .with_ path => (scope.function path).map DecodeFn.wrapped

def Coding.functions : Coding → List ModPath
  | .with_ path => [path]
  | _ => []

namespace DecodeExpr

theorem resolve_rowKey (coding : Coding) :
    (DecodeExpr.rowKey coding).resolve search scope =
      (coding.decoder scope).map fun decode decoder => (decoder.decodeKey decode).map .value := by
  cases coding with
  | plain target => rfl
  | json target => rfl
  | with_ path =>
      unfold resolve Coding.decoder
      rw [Option.map_map]
      rfl

theorem resolve_required (coding : Coding) (family : String) (qualifier : Bytes) :
    (DecodeExpr.required coding family qualifier).resolve search scope =
      (coding.decoder scope).map fun decode decoder =>
        (decoder.decodeRequired search decode family qualifier).map .value := by
  cases coding with
  | plain target => rfl
  | json target => rfl
  | with_ path =>
      unfold resolve Coding.decoder
      rw [Option.map_map]
      rfl

theorem resolve_optional (coding : Coding) (family : String) (qualifier : Bytes) :
    (DecodeExpr.optional coding family qualifier).resolve search scope =
      (coding.decoder scope).map fun decode decoder =>
        (decoder.decodeOptional search decode family qualifier).map .option := by
  cases coding with
  | plain target => rfl
  | json target => rfl
  | with_ path =>
      unfold resolve Coding.decoder
      rw [Option.map_map]
      rfl

end DecodeExpr

/-! ## The where clause -/

def DecodeExpr.functions : DecodeExpr → List ModPath
  | .rowKey coding => coding.functions
  | .required coding _ _ => coding.functions
  | .optional coding _ _ => coding.functions
  | .unwrapOrDefault expr _ => expr.functions

def FromRowImpl.functions (code : FromRowImpl) : List ModPath :=
  code.initializers.flatMap fun initializer => initializer.decode.functions

def Scope.Provides (scope : Scope α) (predicates : List Predicate) (functions : List ModPath) :
    Prop :=
  (∀ predicate ∈ predicates, scope.Satisfies predicate) ∧
    ∀ path ∈ functions, (scope.function path).isSome

theorem isSome_decoder_iff {coding : Coding} :
    (coding.decoder scope).isSome ↔ scope.Provides coding.bounds coding.functions := by
  cases coding <;>
    simp [Coding.decoder, Coding.bounds, Coding.functions, Scope.Provides, Scope.Satisfies]

theorem isSome_resolve_iff {spec : FieldSpec} :
    (spec.decode.resolve search scope).isSome ↔
      scope.Provides spec.bounds spec.decode.functions := by
  obtain ⟨ident, place, target, coding⟩ := spec
  unfold FieldSpec.decode FieldSpec.bounds
  cases place with
  | rowKey =>
      simp only [DecodeExpr.resolve_rowKey, Option.isSome_map, isSome_decoder_iff]
      rfl
  | column family qualifier presence =>
      cases presence with
      | required =>
          simp only [DecodeExpr.resolve_required, Option.isSome_map, isSome_decoder_iff]
          rfl
      | sparse =>
          simp only [DecodeExpr.resolve_optional, Option.isSome_map, isSome_decoder_iff]
          rfl
      | defaulted =>
          have hsplit : ((DecodeExpr.unwrapOrDefault (.optional coding family qualifier)
              target).resolve search scope).isSome ↔
                (coding.decoder scope).isSome ∧ (scope.default target).isSome := by
            rw [DecodeExpr.resolve, DecodeExpr.resolve_optional]
            cases coding.decoder scope <;> cases scope.default target <;> simp
          rw [hsplit, isSome_decoder_iff]
          unfold Scope.Provides
          simp only [List.forall_mem_append, List.forall_mem_singleton, and_right_comm]
          rfl

theorem isSome_resolve_ofSpecs {predicates : List Predicate} {specs : List FieldSpec} :
    ((FromRowImpl.ofSpecs predicates specs).resolve search scope).isSome ↔
      scope.Provides (specs.flatMap FieldSpec.bounds)
        (FromRowImpl.ofSpecs predicates specs).functions := by
  have hfunctions : (FromRowImpl.ofSpecs predicates specs).functions =
      specs.flatMap fun spec => spec.decode.functions := by
    simp [FromRowImpl.functions, FromRowImpl.ofSpecs, List.flatMap_map, FieldSpec.initializer]
  have hresolve : ∀ spec : FieldSpec, (spec.initializer.resolve search scope).isSome ↔
      scope.Provides spec.bounds spec.decode.functions := by
    intro spec
    rw [← isSome_resolve_iff]
    unfold Initializer.resolve FieldSpec.initializer
    rw [Option.isSome_map]
  unfold FromRowImpl.resolve
  rw [Option.isSome_map, isSome_mapM, hfunctions]
  simp only [FromRowImpl.ofSpecs, List.forall_mem_map, hresolve]
  unfold Scope.Provides
  simp only [List.mem_flatMap, forall_exists_index, and_imp]
  constructor
  · intro h
    exact ⟨fun predicate spec hspec => (h spec hspec).1 predicate,
      fun path spec hspec => (h spec hspec).2 path⟩
  · intro h spec hspec
    exact ⟨fun predicate => h.1 predicate spec hspec, fun path => h.2 path spec hspec⟩

/-- The where clause of the generated code is that of the struct and exactly the bounds that the
code needs: it compiles in a scope with the functions it names just when the impls are there. -/
theorem FromRowImpl.resolves_iff_bounds {syn : Syn} (hsyn : syn.Lawful) {input : DeriveInput}
    {code : FromRowImpl} (hexpand : expandFromRow syn input = .ok code) :
    ∃ added, code.predicates = input.predicates ++ added ∧ ∀ (α : Type) (scope : Scope α)
      (search : BinarySearch), (code.resolve search scope).isSome ↔
        (∀ predicate ∈ added, scope.Satisfies predicate) ∧
          ∀ path ∈ code.functions, (scope.function path).isSome := by
  obtain ⟨specs, -, rfl⟩ := (expandFromRow_eq_ok hsyn).1 hexpand
  exact ⟨specs.flatMap FieldSpec.bounds, rfl, fun α scope search => isSome_resolve_ofSpecs⟩

/-! ## Values -/

abbrev Latest := String → Bytes → Except RowMappingIssue Cell

/-- The value that a declaration promises, in a row with this key and these cells. -/
def FieldSpec.promised (scope : Scope α) (key : Bytes) (latest : Latest) (spec : FieldSpec) :
    Option (Except MapIssue (FieldValue α)) := do
  let decode ← spec.coding.decoder scope
  match spec.place with
  | .rowKey => some (((decode key).mapError (.invalidValue .rowKey)).map .value)
  | .column family qualifier presence =>
      let found (cell : Cell) := (decode cell.value).mapError
        (.invalidValue (.cell family qualifier cell.timestampMicros))
      match presence, latest family qualifier with
      | .required, .error issue => some (.error (.missing issue))
      | .required, .ok cell => some ((found cell).map .value)
      | .sparse, .error _ => some (.ok (.option none))
      | .sparse, .ok cell => some ((found cell).map fun value => .option (some value))
      | .defaulted, .error _ => (scope.default spec.target).map fun default => .ok (.value default)
      | .defaulted, .ok cell =>
          (scope.default spec.target).map fun _ => (found cell).map .value

structure Finds (search : BinarySearch) (row : Row) (latest : Latest) : Prop where
  required : ∀ family qualifier, RowDecoder.latestCell search ⟨row⟩ family qualifier =
    (latest family qualifier).mapError (.new row.key)
  optional : ∀ family qualifier, RowDecoder.optionalLatestCell search ⟨row⟩ family qualifier =
    (latest family qualifier).toOption

variable {row : Row} {latest : Latest}

/-- The code of a declaration computes what it promises. -/
theorem resolve_eq_promised (hfinds : Finds search row latest) {spec : FieldSpec}
    {decode : RowDecoder → Except MapError (FieldValue α)}
    (hresolve : spec.decode.resolve search scope = some decode) :
    ∃ promise, spec.promised scope row.key latest = some promise ∧
      decode ⟨row⟩ = promise.mapError (.new row.key) := by
  obtain ⟨ident, place, target, coding⟩ := spec
  unfold FieldSpec.decode at hresolve
  unfold FieldSpec.promised
  cases place with
  | rowKey =>
      simp only [DecodeExpr.resolve_rowKey] at hresolve
      obtain ⟨value, hvalue, rfl⟩ := Option.map_eq_some_iff.1 hresolve
      simp only [hvalue]
      refine ⟨_, rfl, ?_⟩
      unfold RowDecoder.decodeKey
      cases value row.key <;> rfl
  | column family qualifier presence =>
      have hrequired := hfinds.required family qualifier
      have hoptional := hfinds.optional family qualifier
      cases presence with
      | required =>
          simp only [DecodeExpr.resolve_required] at hresolve
          obtain ⟨value, hvalue, rfl⟩ := Option.map_eq_some_iff.1 hresolve
          simp only [hvalue]
          unfold RowDecoder.decodeRequired
          rw [hrequired]
          cases latest family qualifier with
          | error issue => exact ⟨_, rfl, rfl⟩
          | ok cell =>
              refine ⟨_, rfl, ?_⟩
              simp [Except.mapError, RowDecoder.decodeCell]
              cases value cell.value <;> rfl
      | sparse =>
          simp only [DecodeExpr.resolve_optional] at hresolve
          obtain ⟨value, hvalue, rfl⟩ := Option.map_eq_some_iff.1 hresolve
          simp only [hvalue]
          unfold RowDecoder.decodeOptional
          rw [hoptional]
          cases latest family qualifier with
          | error issue => exact ⟨_, rfl, rfl⟩
          | ok cell =>
              refine ⟨_, rfl, ?_⟩
              simp [Except.toOption, RowDecoder.decodeCell]
              cases value cell.value <;> rfl
      | defaulted =>
          rw [DecodeExpr.resolve, DecodeExpr.resolve_optional] at hresolve
          obtain ⟨optional, hoptional', hrest⟩ := Option.bind_eq_some_iff.1 hresolve
          obtain ⟨value, hvalue, rfl⟩ := Option.map_eq_some_iff.1 hoptional'
          obtain ⟨default, hdefault, hdecode⟩ := Option.bind_eq_some_iff.1 hrest
          obtain rfl := Option.some.inj hdecode
          simp only [hvalue, hdefault]
          unfold RowDecoder.decodeOptional
          rw [hoptional]
          cases latest family qualifier with
          | error issue => exact ⟨_, rfl, rfl⟩
          | ok cell =>
              refine ⟨_, rfl, ?_⟩
              simp [Except.toOption, RowDecoder.decodeCell]
              cases value cell.value <;> rfl

/-! ## Records -/

/-- The record of the promised values, or the issue of the first field that has none. -/
def recordOf (specs : List FieldSpec) (promises : List (Except MapIssue (FieldValue α))) :
    Except MapIssue (Record α) :=
  (specs.zip promises).mapM fun field => field.2.map fun value => (field.1.ident, value)

def Promises (scope : Scope α) (key : Bytes) (latest : Latest) (specs : List FieldSpec)
    (promises : List (Except MapIssue (FieldValue α))) : Prop :=
  List.Forall₂ (fun spec promise => spec.promised scope key latest = some promise) specs promises

theorem resolve_ofSpecs_eq (hfinds : Finds search row latest) {predicates : List Predicate}
    {specs : List FieldSpec} {mapper : FromRow (Record α)}
    (hresolve : (FromRowImpl.ofSpecs predicates specs).resolve search scope = some mapper) :
    ∃ promises, Promises scope row.key latest specs promises ∧
      mapper row = (recordOf specs promises).mapError (.new row.key) := by
  obtain ⟨fields, hfields, rfl⟩ := Option.map_eq_some_iff.1 hresolve
  have hall := mapM_eq_some.1 hfields
  rw [FromRowImpl.ofSpecs, List.forall₂_map_left_iff] at hall
  have hpromised : ∃ promises, Promises scope row.key latest specs promises ∧
      List.Forall₂ (fun (field : RowDecoder → Except MapError (String × FieldValue α))
        (promise : FieldSpec × Except MapIssue (FieldValue α)) => field ⟨row⟩ =
          (promise.2.map fun value => (promise.1.ident, value)).mapError (.new row.key))
        fields (specs.zip promises) := by
    clear hfields hresolve
    induction hall with
    | nil => exact ⟨[], .nil, .nil⟩
    | cons hfield hrest ih =>
        obtain ⟨decode, hdecode, rfl⟩ := Option.map_eq_some_iff.1 hfield
        obtain ⟨promise, hpromise, hvalue⟩ := resolve_eq_promised hfinds hdecode
        obtain ⟨promises, hpromises, hsame⟩ := ih
        refine ⟨promise :: promises, .cons hpromise hpromises, .cons ?_ hsame⟩
        simp only [hvalue, map_mapError]
        rfl
  obtain ⟨promises, hpromises, hsame⟩ := hpromised
  refine ⟨promises, hpromises, ?_⟩
  rw [recordOf, ← mapM_mapError]
  exact mapM_congr_forall₂ hsame

/-! ## Received rows -/

open ChunkGrammar

def latestReceived (cells : List Received) : Latest := fun family qualifier =>
  match (cellsUnder cells family qualifier).head? with
  | some cell => .ok cell
  | none =>
      .error (if family ∈ cells.map Received.family then .missingColumn family qualifier
        else .missingFamily family)

theorem finds_latestReceived {cells : List Received} (h : SeesEveryCell search row cells) :
    Finds search row (latestReceived cells) := by
  unfold latestReceived
  constructor
  case required =>
    intro family qualifier
    cases hcells : (cellsUnder cells family qualifier).head? with
    | some cell => exact h.latest family qualifier cell hcells
    | none =>
        rw [(h.missing family qualifier (List.head?_eq_none_iff.1 hcells)).2]
        rfl
  case optional =>
    intro family qualifier
    rw [h.optional]
    cases hcells : (cellsUnder cells family qualifier).head? <;> rfl

/-- On a row of received cells a mapper computes what the fields declare. -/
theorem maps_decodeRow (hsearch : search.Sound) {predicates : List Predicate}
    {specs : List FieldSpec} {mapper : FromRow (Record α)}
    (hresolve : (FromRowImpl.ofSpecs predicates specs).resolve search scope = some mapper)
    (key : Bytes) (cells : List CellChunks) :
    ∃ promises, Promises scope key (latestReceived (received "" [] cells)) specs promises ∧
      mapper (decodeRow key cells) = (recordOf specs promises).mapError (.new key) := by
  have hsees : SeesEveryCell search (decodeRow key cells) (received "" [] cells) :=
    seesEveryCell_of_families hsearch rfl
  exact resolve_ofSpecs_eq (finds_latestReceived hsees) hresolve

/-- Every row that the merger reports is mapped to the values that the fields of the struct
declare, decoded from the row key and from the first cell that was received for each column; if
there is none for a field, the error is that of the first such field. -/
theorem FromRowImpl.maps_declared_values {syn : Syn} (hsyn : syn.Lawful) {input : DeriveInput}
    {code : FromRowImpl} {mapper : FromRow (Record α)} {reversed : Bool} {items : List Item}
    {merger : RowMerger} {before after : List Output} {row : Row}
    (hexpand : expandFromRow syn input = .ok code)
    (hresolve : code.resolve search scope = some mapper) (hsearch : search.Sound)
    (hfeed : (RowMerger.new reversed).feed items = .ok (merger, before ++ .row row :: after)) :
    ∃ specs cells promises, input.Declares syn specs ∧
      ReceivedAs items before row cells ∧
      Promises scope row.key (latestReceived (received "" [] cells)) specs promises ∧
      mapper row = (recordOf specs promises).mapError (.new row.key) := by
  obtain ⟨specs, hspecs, rfl⟩ := (expandFromRow_eq_ok hsyn).1 hexpand
  obtain ⟨taken, rest, middle, rfl, htaken, hstate⟩ := RowMerger.feed_split_output hfeed
  obtain ⟨pieces, hwell, -, hitems, houtputs⟩ :=
    (RowMerger.betweenRows_new reversed).split_items taken.length le_rfl htaken hstate
  obtain ⟨earlier, cells, later, rfl, hbefore, hrow⟩ := exists_row_of_streamOutputs houtputs.symm
  obtain ⟨promises, hpromises, hmapper⟩ := maps_decodeRow hsearch hresolve row.key cells
  refine ⟨specs, cells, promises, hspecs, ?_, hpromises, ?_⟩
  · refine ⟨earlier, streamItems later ++ rest,
      fun piece hpiece => hwell piece (List.mem_append_left _ hpiece), hwell _ (by simp), ?_,
      hbefore⟩
    rw [hitems]
    simp [streamItems, Piece.items]
  · rw [← hmapper, ← hrow]

/-! ## A mapped row -/

/-- Every value is its bytes, and the default of a type is the empty string. -/
def rawScope : Scope Bytes where
  fromCellValue _ := some .ok
  fromJsonValue _ := none
  default _ := some []
  function _ := none

def profileRow : List Item :=
  [.chunk { rowKey := [1], familyName := some "profile", qualifier := some [110], value := [9],
            rowStatus := some (.commitRow true) }]

theorem resolve_profileStruct : ∃ code mapper, expandFromRow sampleSyn (profileStruct
      [bigtableAttr [textItem "family" "profile", textItem "qualifier" "n"]]) = .ok code ∧
    code.resolve binarySearchBy rawScope = some mapper ∧
    ∀ row merger, (RowMerger.new false).feed profileRow = .ok (merger, [.row row]) →
      mapper row = .ok [("key", .value [1]), ("name", .value [9]), ("visits", .value [])] := by
  refine ⟨_, _, rfl, rfl, fun row merger hfeed => ?_⟩
  obtain ⟨-, houtputs⟩ := Prod.mk.inj (Except.ok.inj hfeed)
  obtain rfl := Output.row.inj (List.cons.inj houtputs).1
  decide

theorem FromRowImpl.maps_declared_values_profileRow :
    ∃ (code : FromRowImpl) (row : Row) (mapper : FromRow (Record Bytes)) (specs : List FieldSpec)
      (cells : List CellChunks) (promises : List (Except MapIssue (FieldValue Bytes))),
      code.resolve binarySearchBy rawScope = some mapper ∧
      ReceivedAs profileRow [] row cells ∧
      Promises rawScope row.key (latestReceived (received "" [] cells)) specs promises ∧
      mapper row = (recordOf specs promises).mapError (.new row.key) ∧
      mapper row = .ok [("key", .value [1]), ("name", .value [9]), ("visits", .value [])] := by
  obtain ⟨code, mapper, hexpand, hresolve, hvalue⟩ := resolve_profileStruct
  have hfeed : ∃ merger row,
      (RowMerger.new false).feed profileRow = .ok (merger, [] ++ .row row :: []) :=
    ⟨_, _, rfl⟩
  obtain ⟨merger, row, hfeed⟩ := hfeed
  obtain ⟨specs, cells, promises, -, hreceived, hpromises, hmapper⟩ :=
    FromRowImpl.maps_declared_values lawful_sampleSyn hexpand hresolve binarySearchBy_sound hfeed
  exact ⟨code, row, mapper, specs, cells, promises, hresolve, hreceived, hpromises, hmapper,
    hvalue row merger hfeed⟩

theorem FromRowImpl.resolves_iff_bounds_profileStruct :
    ∃ (code : FromRowImpl) (added : List Predicate), code.predicates = added ∧
      ∀ (α : Type) (scope : Scope α) (search : BinarySearch),
        (code.resolve search scope).isSome ↔
          (∀ predicate ∈ added, scope.Satisfies predicate) ∧
            ∀ path ∈ code.functions, (scope.function path).isSome := by
  obtain ⟨code, mapper, hexpand, -, -⟩ := resolve_profileStruct
  obtain ⟨added, hadded, hresolves⟩ := FromRowImpl.resolves_iff_bounds lawful_sampleSyn hexpand
  exact ⟨code, added, hadded, hresolves⟩

end BigtableClient
