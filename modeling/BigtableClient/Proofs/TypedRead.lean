import BigtableClient.Proofs.DeriveMeaning
import BigtableClient.Proofs.StreamExact

/-!
# Typed reads

A typed stream maps row by row, and goes on behind a row that could not be mapped.  So
against a conforming server a consumer gets one item for each row of the scan: the record
that its struct declares, or why the row has none.
-/

namespace BigtableClient

open Proto
open ChunkGrammar
open ProofSupport.Channel
open ProofSupport.Fallible

variable {α : Type}

/-- `read_row_as` of a struct against a conforming server: nothing when the table has no row with
the key, or else the record that the struct declares over the cells of that row, or why it has
none, unless the read fails, which is never because of the server's responses. -/
theorem ReadCall.typed_read_row_exact (codec : Codec) {table : Table} {options : ReadOptions}
    {parse : MetadataParser} {config : ClientConfig} {tableId : String} {key : Bytes}
    {now : Instant} {init call : ReadCall} {unsent : List Item} {syn : Syn}
    {input : DeriveInput} {code : FromRowImpl} {search : BinarySearch} {scope : Scope α}
    {mapper : FromRow (Record α)} {result : Except TypedReadError (Option (Record α))}
    (hnever : options.NeverPanics codec)
    (hstart : readRow parse config tableId key options now = .ok init)
    (hserved : Served codec table init call unsent) (htaken : call.taken = [])
    (hsyn : syn.Lawful) (hexpand : expandFromRow syn input = .ok code)
    (hresolve : code.resolve search scope = some mapper) (hsearch : search.Sound)
    (hresult : call.firstRowAs mapper = some result) :
    (result = .ok none ∧ ∀ row ∈ table.rows, row.key ≠ key) ∨
      (∃ specs cells promises, input.Declares syn specs ∧
        decodeRow key cells ∈ table.rows ∧
        Promises scope key (latestReceived (received "" [] cells)) specs promises ∧
        result = ((recordOf specs promises).mapError fun issue =>
          .rowMapping (.new key issue)).map some) ∨
      ∃ error, result = .error (.read error) ∧ ∀ issue, error ≠ .invalidReadRowsResponse issue := by
  obtain ⟨first, hfirst, rfl⟩ := Option.map_eq_some_iff.1 hresult
  rcases foundRow_eq hnever hstart hserved htaken hfirst with ⟨hrow, hwhole⟩ | ⟨error, rfl, herror⟩
  · cases hfound : table.rows.find? fun row => row.key = key with
    | none =>
        rw [hfound] at hrow
        obtain rfl := hrow
        refine Or.inl ⟨rfl, fun row hmem => ?_⟩
        simpa using List.find?_eq_none.1 hfound row hmem
    | some row =>
        rw [hfound] at hrow
        obtain rfl := hrow
        have hkey : row.key = key := by simpa using List.find?_some hfound
        obtain ⟨cells, -, hcells⟩ := hwhole row rfl
        obtain ⟨specs, hspecs, rfl⟩ := (expandFromRow_eq_ok hsyn).1 hexpand
        obtain ⟨promises, hpromises, hmapper⟩ := maps_decodeRow hsearch hresolve key cells
        rw [hkey] at hcells
        refine Or.inr (Or.inl ⟨specs, cells, promises, hspecs, ?_, hpromises, ?_⟩)
        · rw [← hcells]
          exact List.mem_of_find?_eq_some hfound
        · simp only [hcells, hmapper]
          cases recordOf specs promises <;> rfl
  · exact Or.inr (Or.inr ⟨error, rfl, herror⟩)

def sampleAttrs : List Attribute :=
  [bigtableAttr [textItem "family" "family", textItem "qualifier" "q"]]

theorem resolve_sampleAttrs : ∃ code mapper,
    expandFromRow sampleSyn (profileStruct sampleAttrs) = .ok code ∧
    code.resolve binarySearchBy rawScope = some mapper ∧
    mapper (decodeRow [97] firstCells) =
      .ok [("key", .value [97]), ("name", .value [1]), ("visits", .value [])] :=
  ⟨_, _, rfl, rfl, by decide⟩

theorem ReadCall.typed_read_row_exact_firstRow :
    ∃ (stream : RowStream) (mapper : FromRow (Record Bytes)) (specs : List FieldSpec)
      (cells : List CellChunks) (promises : List (Except MapIssue (FieldValue Bytes))),
      (ReadCall.streaming stream).firstRowAs mapper =
        some (((recordOf specs promises).mapError fun issue =>
          .rowMapping (.new [97] issue)).map some) ∧
      Promises rawScope [97] (latestReceived (received "" [] cells)) specs promises := by
  obtain ⟨stream, hserved, htaken, hopen, hqueue, -⟩ := served_firstRow
  obtain ⟨code, mapper, hexpand, hresolve, hvalue⟩ := resolve_sampleAttrs
  have hfirst : (ReadCall.streaming stream).firstRowAs mapper =
      some (.ok (some [("key", .value [97]), ("name", .value [1]), ("visits", .value [])])) := by
    simp [ReadCall.firstRowAs, ReadCall.firstRow, RowStream.next, hopen, hqueue, hvalue,
      Except.mapError, Except.map]
  have hexact := ReadCall.typed_read_row_exact sampleCodec neverPanics_default readRow_first
    hserved htaken lawful_sampleSyn hexpand hresolve binarySearchBy_sound hfirst
  rcases hexact with ⟨hnone, -⟩ | ⟨specs, cells, promises, -, -, hpromises, hresult⟩ |
    ⟨_, herror, -⟩
  · cases hnone
  · exact ⟨stream, mapper, specs, cells, promises, by rw [hfirst, hresult], hpromises⟩
  · cases herror

end BigtableClient
