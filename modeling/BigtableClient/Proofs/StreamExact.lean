import BigtableClient.Proofs.StreamOrder

/-!
# What a consumer gets from a conforming server

The rows that a consumer takes from the stream are the first rows of the scan, and all
of it once the stream ends without an error.  `read_row` therefore finds the row of
its key exactly when the table has one.
-/

namespace BigtableClient

open Proto
open ChunkGrammar (Item decodeRow)
open ProofSupport.Channel
open ProofSupport.Transition

namespace ReadCall

variable {codec : Codec} {table : Table} {original : ReadRowsRequest} {options : ReadOptions}
  {deadline : Instant} {tableId : String} {init call next : ReadCall} {unsent : List Item}

/-! ## The read behind a call -/

theorem reachable_of_served (h : Served codec table init call unsent) :
    ReachableBy (ReadCall.step codec) Keeps init call := by
  induction h with
  | start => exact .start
  | step hserved hkeeps hstep ih => exact ih.step hkeeps hstep.1

theorem operation_eq {input : LinkInput ReadInput} (hinput : ∀ i, input ≠ .produce i)
    (h : call.step codec input = some next) : next.operation = call.operation := by
  rcases operation_step h with hsame | ⟨readInput, rfl, -⟩
  · exact hsame
  · exact absurd rfl (hinput readInput)

theorem served_operation
    (h : Served codec table (.opening (.new original options deadline tableId)) call unsent) :
    BigtableClient.Served codec table (fun _ _ => True) (.new original options deadline tableId)
      call.operation unsent := by
  induction h with
  | start => exact .start
  | step hserved hkeeps hstep ih =>
      rename_i input
      obtain ⟨hnext, hserver⟩ := hstep
      cases input with
      | produce input => exact ih.step trivial hserver
      | take =>
          obtain rfl := hserver
          rw [operation_eq (by simp) hnext]
          exact ih
      | hangUp =>
          obtain rfl := hserver
          rw [operation_eq (by simp) hnext]
          exact ih

theorem scanExact_of_served {parse : MetadataParser} {config : ClientConfig} {query : Query}
    {now : Instant} (hranges : ∀ range ∈ query.rowRanges, WellBounded range)
    (hnever : options.NeverPanics codec)
    (hstart : readRows parse config query options now = .ok init)
    (hserved : Served codec table init call unsent) :
    call.Inv codec (query.intoRequest config) ∧
      ScanExact table (query.intoRequest config) call.operation := by
  have hreach := reachable_of_served hserved
  have hinv : call.Inv codec (query.intoRequest config) := inv_of_reachable hstart hreach
  have hcalm := phase_ne_panicked hnever hstart hreach.reachable
  obtain ⟨-, -, deadline, rfl⟩ := opening_of_readRows hstart
  obtain ⟨hexact, hview, horiginal⟩ := ReadState.exact_of_served
    (intoRequest_rowsLimit_nonneg query config) (noEmptyEnds_intoRequest config hranges)
    (served_operation hserved)
  exact ⟨hinv, hexact.scanExact hview horiginal hcalm⟩

end ReadCall

/-! ## Reading rows -/

/-- The consumer got the first rows of the scan, and all of them at the end of the stream. -/
structure StreamExact (table : Table) (original : ReadRowsRequest) (stream : RowStream) :
    Prop where
  rows : stream.taken.filterMap Except.toOption <+: table.scan original
  complete : stream.next = some none → stream.taken = (table.scan original).map .ok ∨
    ∃ rows error, stream.taken = rows.map .ok ++ [.error error] ∧ rows <+: table.scan original ∧
      ∀ issue, error ≠ .invalidReadRowsResponse issue

namespace RowStream

variable {codec : Codec} {table : Table} {original : ReadRowsRequest} {stream : RowStream}

theorem queue_of_next {item : Except ReadError Row} (h : stream.next = some (some item)) :
    ∃ queue, stream.queue = item :: queue := by
  unfold next at h
  split at h
  · cases h
  · next queue hopen hqueue =>
    obtain rfl := Option.some.inj (Option.some.inj h)
    exact ⟨queue, hqueue⟩
  · split at h <;> cases h

/-- Every row in the stream was sent whole. -/
theorem Inv.completeRow_of_mem (h : stream.Inv codec original) {row : Row}
    (hrow : .ok row ∈ stream.producer.log.items) : ChunkGrammar.CompleteRow row := by
  obtain ⟨rows, errors, hitems, -, -, -, hwhole, -⟩ := (h.view.streamOrdered h.original).items
  rw [hitems] at hrow
  exact hwhole row (by simpa using hrow)

theorem Inv.finished_of_error (h : stream.Inv codec original) {error : ReadError}
    (herror : .error error ∈ stream.producer.log.items) :
    stream.producer.phase = .finished (.failed error) := by
  have hnone : ∀ pending, ¬ stream.producer.log.Withholds pending [] := by
    rintro pending ⟨rows, hitems, -⟩
    simp [hitems] at herror
  have hholds := h.holdsBack
  unfold ReadState.HoldsBack at hholds
  cases hphase : stream.producer.phase with
  | finished how =>
      rw [hphase] at hholds
      cases how with
      | completed => exact absurd hholds (hnone _)
      | panicked => exact absurd hholds (hnone _)
      | cancelled =>
          obtain ⟨pending, -, hlog⟩ := hholds
          exact absurd hlog (hnone _)
      | failed other =>
          obtain ⟨rows, hitems, -⟩ := hholds.resolve_left (hnone _)
          obtain rfl : error = other := by simpa [hitems] using herror
          rfl
  | _ =>
      rw [hphase] at hholds
      exact absurd hholds (hnone _)

theorem Inv.streamExact (h : stream.Inv codec original)
    (hexact : ScanExact table original stream.producer) : StreamExact table original stream := by
  have hitems : stream.producer.log.items = stream.taken ++ stream.queue := h.conserves.items
  have hrows := hexact.rows
  constructor
  case rows =>
    rw [hitems, List.filterMap_append] at hrows
    exact (List.prefix_append _ _).trans hrows
  case complete =>
    intro hnext
    obtain ⟨hopen, hqueue, how, hphase⟩ := next_eq_some_none.1 hnext
    rw [hqueue, List.append_nil] at hitems
    cases how with
    | completed => exact Or.inl (hitems ▸ hexact.complete .completed hphase rfl)
    | panicked => exact Or.inl (hitems ▸ hexact.complete .panicked hphase rfl)
    | failed error =>
        obtain ⟨rows, hall, -⟩ := h.failed error hphase
        rw [hall, filterMap_toOption_items] at hrows
        refine Or.inr ⟨rows, error, hitems.symm.trans hall, hrows, ?_⟩
        rintro issue rfl
        exact (hexact.accepted issue).2 hphase
    | cancelled =>
        rw [h.cancelled hphase] at hopen
        cases hopen

end RowStream

theorem rowQuery_eq_ok {tableId : String} {key : Bytes} {query : Query}
    (h : rowQuery tableId key = .ok query) :
    query.rowKeys = [key] ∧ query.rowRanges = [] ∧ query.limit.map Subtype.val = some 1 ∧
      query.reversed = false := by
  unfold rowQuery at h
  cases hnew : Query.new tableId with
  | error issue =>
      rw [hnew] at h
      cases h
  | ok base =>
      rw [hnew] at h
      have hbase : base.rowKeys = [] ∧ base.rowRanges = [] ∧ base.reversed = false := by
        unfold Query.new at hnew
        split at hnew
        · cases hnew
        · obtain rfl := Except.ok.inj hnew
          exact ⟨rfl, rfl, rfl⟩
      obtain ⟨hkeys, hranges, hreversed⟩ := hbase
      have hlimited : (base.rowKey key).withLimit 1 = .ok query := h
      have hone : (base.rowKey key).withLimit 1 =
          .ok { base.rowKey key with limit := some ⟨1, by decide, by decide⟩ } := rfl
      rw [hone] at hlimited
      obtain rfl := Except.ok.inj hlimited
      exact ⟨by simp [Query.rowKey, hkeys], hranges, rfl, hreversed⟩

theorem wellBounded_rowQuery {tableId : String} {key : Bytes} {query : Query}
    (h : rowQuery tableId key = .ok query) : ∀ range ∈ query.rowRanges, WellBounded range := by
  simp [(rowQuery_eq_ok h).2.1]

/-- The scan of one key is the row of this key. -/
theorem scan_rowQuery (table : Table) {tableId : String} {key : Bytes} {query : Query}
    (h : rowQuery tableId key = .ok query) (config : ClientConfig) :
    table.scan (query.intoRequest config) =
      (table.rows.find? fun row => row.key = key).toList := by
  obtain ⟨hkeys, hranges, hlimit, hreversed⟩ := rowQuery_eq_ok h
  have hselects : ∀ row : Row, Selection.Selects (query.intoRequest config).rows row.key ↔
      row.key = key := by
    intro row
    simp [Query.intoRequest, hkeys, hranges, Selection.selects_some, Selection.RowSetSelects]
  have hrows : (query.intoRequest config).rowsLimit = 1 := by
    simp [Query.intoRequest, hlimit]
  have horder : (query.intoRequest config).reversed = false := hreversed
  unfold Table.scan Table.select
  simp only [hrows, horder, hselects]
  simp [← List.head?_filter, List.take_one]

namespace ReadCall

variable {codec : Codec} {table : Table} {options : ReadOptions} {parse : MetadataParser}
  {config : ClientConfig} {query : Query} {tableId : String} {key : Bytes} {now : Instant}
  {init call : ReadCall} {unsent : List Item} {result : Except ReadError (Option Row)}

theorem readRows_of_readRow (h : readRow parse config tableId key options now = .ok init) :
    ∃ query, rowQuery tableId key = .ok query ∧
      readRows parse config query options now = .ok init := by
  unfold readRow at h
  split at h
  · cases h
  · next query hquery => exact ⟨query, hquery, h⟩

/-- The first item of a stream is the first row of the scan. -/
theorem firstRow_eq (hranges : ∀ range ∈ query.rowRanges, WellBounded range)
    (hnever : options.NeverPanics codec)
    (hstart : readRows parse config query options now = .ok init)
    (hserved : Served codec table init call unsent) (htaken : call.taken = [])
    (hresult : call.firstRow = some result) :
    (result = .ok (table.scan (query.intoRequest config)).head? ∧
        ∀ row, result = .ok (some row) → ChunkGrammar.CompleteRow row) ∨
      ∃ error, result = .error error ∧ ∀ issue, error ≠ .invalidReadRowsResponse issue := by
  obtain ⟨hinv, hexact⟩ := scanExact_of_served hranges hnever hstart hserved
  have herror : ∀ error, call.operation.phase = .finished (.failed error) →
      ∀ issue, error ≠ .invalidReadRowsResponse issue := by
    rintro error hphase issue rfl
    exact (hexact.accepted issue).2 hphase
  cases call with
  | opening state => cases hresult
  | dropped state => cases hresult
  | panicked state => cases hresult
  | failed error state =>
      obtain rfl := Option.some.inj hresult
      exact Or.inr ⟨error, rfl, herror error hinv⟩
  | streaming stream =>
      have hstream : RowStream.Inv codec (query.intoRequest config) stream := hinv
      have hempty : stream.taken = [] := htaken
      obtain ⟨item, hnext, rfl⟩ := Option.map_eq_some_iff.1 hresult
      have hitems : stream.producer.log.items = stream.queue := by
        rw [show stream.producer.log.items = _ from hstream.conserves.items, hempty,
          List.nil_append]
      have hrows : stream.producer.log.items.filterMap Except.toOption <+:
          table.scan (query.intoRequest config) := hexact.rows
      cases item with
      | none =>
          rcases (hstream.streamExact hexact).complete hnext with hall | ⟨rows, error, hall, -⟩
          · rw [hempty] at hall
            rw [List.map_eq_nil_iff.1 hall.symm]
            exact Or.inl ⟨rfl, by simp⟩
          · simp [hempty] at hall
      | some item =>
          obtain ⟨queue, hqueue⟩ := RowStream.queue_of_next hnext
          rw [hqueue] at hitems
          cases item with
          | error error =>
              have hmem : .error error ∈ stream.producer.log.items := by simp [hitems]
              exact Or.inr ⟨error, rfl, herror error (hstream.finished_of_error hmem)⟩
          | ok row =>
              have hmem : .ok row ∈ stream.producer.log.items := by simp [hitems]
              have hcomplete := hstream.completeRow_of_mem hmem
              obtain ⟨rest, hrest⟩ := hrows
              rw [hitems] at hrest
              refine Or.inl ⟨?_, ?_⟩
              · rw [← hrest]
                rfl
              · intro other hother
                obtain rfl := Option.some.inj (Except.ok.inj hother)
                exact hcomplete

/-- The first item of the stream behind `read_row` is the row of the key. -/
theorem foundRow_eq (hnever : options.NeverPanics codec)
    (hstart : readRow parse config tableId key options now = .ok init)
    (hserved : Served codec table init call unsent) (htaken : call.taken = [])
    (hresult : call.firstRow = some result) :
    (result = .ok (table.rows.find? fun row => row.key = key) ∧
        ∀ row, result = .ok (some row) → ChunkGrammar.CompleteRow row) ∨
      ∃ error, result = .error error ∧ ∀ issue, error ≠ .invalidReadRowsResponse issue := by
  obtain ⟨query, hquery, hrows⟩ := readRows_of_readRow hstart
  have hfirst := firstRow_eq (wellBounded_rowQuery hquery) hnever hrows hserved htaken hresult
  rwa [scan_rowQuery table hquery, Option.head?_toList] at hfirst

/-- Against a conforming server `read_row` returns the row of its key, or that there is none,
exactly as the table has it, unless it returns an error, which is never one about the server's
responses.  Its options must be ones that never panic. -/
theorem read_row_exact (codec : Codec) (hnever : options.NeverPanics codec)
    (hstart : readRow parse config tableId key options now = .ok init)
    (hserved : Served codec table init call unsent) (htaken : call.taken = [])
    (hresult : call.firstRow = some result) :
    result = .ok (table.rows.find? fun row => row.key = key) ∨
      ∃ error, result = .error error ∧ ∀ issue, error ≠ .invalidReadRowsResponse issue := by
  rcases foundRow_eq hnever hstart hserved htaken hresult with ⟨hfound, -⟩ | herror
  · exact Or.inl hfound
  · exact Or.inr herror

end ReadCall

/-! ### Reading the row "a" -/

def firstRowQuery : Query :=
  { wholeTableQuery with
    rowKeys := [[97]]
    limit := some ⟨1, by decide, by decide⟩ }

theorem readRow_first :
    readRow printableHeader sampleConfig "events" [97] .default 0 =
      .ok (.opening (.new (firstRowQuery.intoRequest sampleConfig) .default (600 * 1000000000)
        "events")) := by
  have hpolicies : validatePolicies ReadOptions.default.retry ReadOptions.default.deadlines =
      .ok () := by decide +kernel
  show readRows printableHeader sampleConfig firstRowQuery .default 0 = _
  unfold readRows
  rw [hpolicies]
  rfl

theorem answers_firstRow : Answers sampleTable (firstRowQuery.intoRequest sampleConfig) []
    [.row [97] firstCells] where
  wellFormed piece hpiece := by
    obtain rfl := List.mem_singleton.1 hpiece
    exact wellFormed_first
  rows := by decide
  placed := trivial

theorem served_firstRow : ∃ stream : RowStream,
    ReadCall.Served sampleCodec sampleTable
      (.opening (.new (firstRowQuery.intoRequest sampleConfig) .default (600 * 1000000000)
        "events")) (.streaming stream) [] ∧
      stream.taken = [] ∧ stream.hungUp = false ∧
        stream.queue = [.ok (decodeRow [97] firstCells)] ∧
          stream.producer.phase = .finished .completed := by
  have h0 : ReadCall.Served sampleCodec sampleTable
      (.opening (.new (firstRowQuery.intoRequest sampleConfig) .default (600 * 1000000000)
        "events")) _ [] := .start
  have h1 := ReadCall.Served.step h0 (by decide)
    (show ReadCall.ServedStep sampleCodec sampleTable _ _ (.produce (.begin sampleTurn)) _ []
      from ⟨rfl, rfl, rfl⟩)
  have h2 := ReadCall.Served.step h1 (by decide)
    (show ReadCall.ServedStep sampleCodec sampleTable _ _ (.produce .opened) _ _
      from ⟨rfl, rfl, _, rfl, _, answers_firstRow, rfl⟩)
  have h3 := ReadCall.Served.step h2 (by decide)
    (show ReadCall.ServedStep sampleCodec sampleTable _ _
      (.produce (.message
        { chunks := [sampleChunk [97] (some (.commitRow true))], lastScannedRowKey := [] }))
      _ [] from ⟨rfl, rfl, rfl⟩)
  have h4 := ReadCall.Served.step h3 (by decide)
    (show ReadCall.ServedStep sampleCodec sampleTable _ _ (.produce .sent) _ []
      from ⟨rfl, rfl, rfl⟩)
  exact ⟨_, h4, rfl, rfl, rfl, rfl⟩

theorem ReadCall.read_row_exact_firstRow :
    ∃ result : Except ReadError (Option Row), result = .ok (some (decodeRow [97] firstCells)) ∧
      (result = .ok (sampleTable.rows.find? fun row => row.key = [97]) ∨
        ∃ error, result = .error error ∧ ∀ issue, error ≠ .invalidReadRowsResponse issue) := by
  obtain ⟨stream, hserved, htaken, hopen, hqueue, -⟩ := served_firstRow
  have hfirst : (ReadCall.streaming stream).firstRow =
      some (.ok (some (decodeRow [97] firstCells))) := by
    simp [ReadCall.firstRow, RowStream.next, hopen, hqueue]
  exact ⟨_, rfl, ReadCall.read_row_exact sampleCodec neverPanics_default readRow_first hserved
    htaken hfirst⟩

end BigtableClient
