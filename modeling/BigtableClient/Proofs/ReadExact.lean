import BigtableClient.Proofs.ReadPanics
import BigtableClient.Proofs.ReadScan

/-!
# A retried scan returns the fault-free result

Against a conforming server the rows let through are the first rows of the scan,
and while an attempt streams, the merger is owed the rest of them: fed what the
server has still to send, it would report exactly those rows.
-/

namespace BigtableClient

open Proto
open ProofSupport.ScanOrder
open ChunkGrammar

variable {table : Table} {original : ReadRowsRequest}

namespace RowMerger

variable {merger final : RowMerger} {unsent : List Item} {outputs : List Output}

/-- A merger that accepts the rest of the stream takes its next chunks up to a row. -/
theorem pushUntilRow_of_feed {chunks : List CellChunk}
    (h : merger.feed (chunks.map .chunk ++ unsent) = .ok (final, outputs)) :
    (∃ next, ReadState.pushUntilRow merger chunks = (next, .ok none) ∧
        next.feed unsent = .ok (final, outputs)) ∨
      ∃ next row rest more,
        ReadState.pushUntilRow merger chunks = (next, .ok (some (row, rest))) ∧
          outputs = .row row :: more ∧
          next.feed (rest.map .chunk ++ unsent) = .ok (final, more) := by
  induction chunks generalizing merger outputs with
  | nil => exact Or.inl ⟨merger, rfl, h⟩
  | cons chunk chunks ih =>
      obtain ⟨next, first, more, haccept, hrest, rfl⟩ := feed_cons_eq_ok.1 h
      obtain ⟨out, hpush, rfl⟩ := accept_chunk_eq_ok.1 haccept
      cases out with
      | none =>
          simp only [ReadState.pushUntilRow, hpush]
          exact ih hrest
      | some row =>
          simp only [ReadState.pushUntilRow, hpush]
          exact Or.inr ⟨next, row, chunks, more, rfl, rfl, hrest⟩

end RowMerger

namespace ReadView

variable {view next : ReadView} {input : ReadInput} {unsent : List Item}

/-- How far the read has come in the scan. -/
def Advanced (table : Table) (view : ReadView) : Prop :=
  BigtableClient.Advanced table view.original view.progress view.accepted view.rowsReturned

/-- Fed these items, the merger would report the rows that the scan still owes. -/
def Owes (table : Table) (view : ReadView) (items : List Item) : Prop :=
  ∃ final outputs, view.merger.feed items = .ok (final, outputs) ∧ final.state = .newRow ∧
    outputRows outputs = (table.scan view.original).drop view.rowsReturned.toNat ∧
    InScanOrder view.original.reversed outputs ∧
    ∀ output ∈ outputs, After view.original.reversed view.progress output.key

def Exact (table : Table) (view : ReadView) (unsent : List Item) : Prop :=
  match view.phase with
  | .idle => view.Advanced table
  | .calling _ => view.Advanced table
  | .streaming => view.Advanced table ∧ view.Owes table unsent
  | .sending _ chunks => view.Advanced table ∧ view.Owes table (chunks.map .chunk ++ unsent)
  | .failing error => (∀ issue, error ≠ .invalidReadRowsResponse issue) ∧
      outputRows view.accepted <+: table.scan view.original
  | .concluded how => (∀ issue, how ≠ .failed (.invalidReadRowsResponse issue)) ∧
      outputRows view.accepted <+: table.scan view.original ∧
      (how = .completed → view.items = (table.scan view.original).map .ok)

theorem Advanced.prefix_scan (h : view.Advanced table) :
    outputRows view.accepted <+: table.scan view.original := by
  rw [h.rows]
  exact List.take_prefix _ _

/-- At any time the rows let through are the first rows of the scan. -/
theorem Exact.prefix_scan (h : view.Exact table unsent) :
    outputRows view.accepted <+: table.scan view.original := by
  unfold Exact at h
  cases hphase : view.phase with
  | idle =>
      rw [hphase] at h
      exact Advanced.prefix_scan h
  | calling request =>
      rw [hphase] at h
      exact Advanced.prefix_scan h
  | streaming =>
      rw [hphase] at h
      exact Advanced.prefix_scan h.1
  | sending row chunks =>
      rw [hphase] at h
      exact Advanced.prefix_scan h.1
  | failing error =>
      rw [hphase] at h
      exact h.2
  | concluded how =>
      rw [hphase] at h
      exact h.2.1

theorem Delivered.items_eq (h : view.Delivered []) :
    view.items = (outputRows view.accepted).map .ok := by
  obtain ⟨rows, hitems, hrows⟩ := h
  rw [hitems, ← hrows, List.append_nil]

/-! ## Taking what the server sends -/

theorem Exact.takeChunks {chunks : List CellChunk} (hadvanced : view.Advanced table)
    (howes : view.Owes table (chunks.map .chunk ++ unsent)) (hdelivered : view.Delivered []) :
    (view.takeChunks chunks).Exact table unsent := by
  obtain ⟨final, outputs, hfeed, hfinal, hrows, horder, hafter⟩ := howes
  unfold ReadView.takeChunks
  rcases RowMerger.pushUntilRow_of_feed hfeed with
    ⟨next, hpush, hnext⟩ | ⟨next, row, rest, more, hpush, rfl, hnext⟩
  · rw [hpush]
    by_cases hlimit : view.limitReached
    · simp only [Exact, if_pos hlimit]
      refine ⟨by simp, Advanced.prefix_scan hadvanced, fun _ => ?_⟩
      rw [hdelivered.items_eq, hadvanced.rows_of_limitUsedUp hlimit]
    · simp only [Exact, if_neg hlimit]
      exact ⟨hadvanced, final, outputs, hnext, hfinal, hrows, horder, hafter⟩
  · rw [hpush]
    have hnonneg := hadvanced.nonneg
    have hcount : (view.rowsReturned + 1).toNat = view.rowsReturned.toNat + 1 := by omega
    have hdrop : (table.scan view.original).drop view.rowsReturned.toNat =
        row :: outputRows more := hrows.symm
    have hlater : (table.scan view.original).drop (view.rowsReturned.toNat + 1) =
        outputRows more := by
      rw [← List.drop_drop, hdrop]
      rfl
    obtain ⟨hbeyond, hmore⟩ := List.pairwise_cons.1 horder
    have hahead : ∀ output ∈ more, After view.original.reversed (some row.key) output.key :=
      fun output houtput => after_some.2 (hbeyond output houtput)
    simp only [Exact]
    refine ⟨⟨by simp only; omega, ?_, ?_, ?_⟩, final, more, hnext, hfinal, ?_, hmore, hahead⟩
    · rw [outputRows_append_row, List.length_append, hadvanced.count]
      simpa using hcount.symm
    · rw [outputRows_append_row, hadvanced.rows, hcount, List.take_add, hdrop]
      rfl
    · intro other hother
      rw [hcount, hlater] at hother
      exact hahead _ (mem_of_mem_outputRows hother)
    · rw [hcount]
      exact hlater.symm

theorem Exact.takeMessage {response : ReadRowsResponse} (hadvanced : view.Advanced table)
    (howes : view.Owes table (messageItems response ++ unsent)) (hdelivered : view.Delivered []) :
    (view.takeMessage response).Exact table unsent := by
  unfold ReadView.takeMessage
  unfold messageItems at howes
  by_cases hkey : response.lastScannedRowKey = []
  · rw [if_pos hkey, List.nil_append] at howes
    rw [if_pos hkey]
    exact Exact.takeChunks hadvanced howes hdelivered
  · rw [if_neg hkey, List.append_assoc, List.singleton_append] at howes
    rw [if_neg hkey]
    obtain ⟨final, outputs, hfeed, hfinal, hrows, horder, hafter⟩ := howes
    obtain ⟨next, first, more, haccept, hnext, rfl⟩ := RowMerger.feed_cons_eq_ok.1 hfeed
    have hscan : view.merger.scanMarker response.lastScannedRowKey = (next, .ok ()) := by
      unfold RowMerger.accept at haccept
      rcases hs : view.merger.scanMarker response.lastScannedRowKey with ⟨merger, issue | ⟨⟩⟩
      · simp [hs] at haccept
      · simp only [hs, Except.ok.injEq, Prod.mk.injEq] at haccept
        rw [haccept.1]
    obtain ⟨-, -, -, rfl⟩ := RowMerger.accept_marker_eq_ok.1 haccept
    rw [hscan]
    obtain ⟨hbeyond, hmore⟩ := List.pairwise_cons.1 horder
    have hahead : ∀ output ∈ more,
        After view.original.reversed (some response.lastScannedRowKey) output.key :=
      fun output houtput => after_some.2 (hbeyond output houtput)
    obtain ⟨rows, hitems, hdelivered⟩ := hdelivered
    refine Exact.takeChunks ⟨hadvanced.nonneg, ?_, ?_, ?_⟩
      ⟨final, more, hnext, hfinal, hrows, hmore, hahead⟩ ⟨rows, hitems, ?_⟩
    · simpa using hadvanced.count
    · simpa using hadvanced.rows
    · intro row hrow
      have hmem : row ∈ outputRows more := by
        have hsame : outputRows more = (table.scan view.original).drop view.rowsReturned.toNat :=
          hrows
        rw [hsame]
        exact hrow
      exact hahead _ (mem_of_mem_outputRows hmem)
    · simpa using hdelivered

/-! ## Steps against a conforming server -/

def Supplied (table : Table) (view : ReadView) (unsent : List Item) (input : ReadInput)
    (unsent' : List Item) : Prop :=
  match input with
  | .opened => ∃ request, view.phase = .calling request ∧ ∃ pieces,
      Answers table request view.accepted pieces ∧ unsent' = streamItems pieces
  | .message response => unsent = messageItems response ++ unsent'
  | .streamEnded => unsent = [] ∧ unsent' = []
  | _ => unsent' = unsent

/-- The stream of a new attempt holds exactly the rows that the scan still owes. -/
theorem Advanced.owes_of_answers {request : ReadRowsRequest} {pieces : List Piece}
    (h : view.Advanced table) (hclean : view.Clean) (hposition : view.InPosition)
    (hstate : view.merger.state = .newRow) (hlimit : 0 ≤ view.original.rowsLimit)
    (hends : NoEmptyEnds view.original)
    (hrequest : resumeRequest view.original view.progress view.rowsReturned = some request)
    (hanswers : Answers table request view.accepted pieces) :
    view.Owes table (streamItems pieces) := by
  obtain ⟨hreversed, hscan⟩ := BigtableClient.Advanced.scan_resume h hclean.order
    hclean.keys_ne_nil hposition.latest hlimit hends hrequest
  have hrows := hanswers.rows.trans hscan
  have hplaced := hanswers.placed
  rw [hreversed] at hplaced
  have horder : RowsInOrder view.original.reversed (outputRows (streamOutputs pieces)) := by
    rw [hrows]
    exact (scan_inOrder table view.original).sublist (List.drop_sublist _ _)
  have hahead : ∀ row ∈ outputRows (streamOutputs pieces),
      After view.original.reversed (lastKey none view.accepted) row.key := by
    rw [hrows, ← hposition.latest]
    exact h.ahead
  have hordered := hplaced.ordered horder hahead
  rw [← hposition.latest] at hordered
  have hbetween : view.merger.BetweenRows view.original.reversed view.progress :=
    ⟨hstate, hposition.reversed, hposition.position⟩
  obtain ⟨final, hfeed, hfinal⟩ := hbetween.feed_pieces pieces hanswers.wellFormed hordered
  obtain ⟨hafter, hscanOrder⟩ := hordered.outputs
  exact ⟨final, streamOutputs pieces, hfeed, hfinal, hrows, hscanOrder, hafter⟩

theorem Exact.halt (hscanned : outputRows next.accepted <+: table.scan next.original)
    (hhalted : Halted next.phase) : next.Exact table unsent := by
  unfold Exact
  cases hphase : next.phase with
  | failing error =>
      rw [hphase] at hhalted
      exact ⟨hhalted, hscanned⟩
  | concluded how =>
      rw [hphase] at hhalted
      cases how with
      | completed => exact hhalted.elim
      | failed error => exact ⟨by simpa [Halted] using hhalted, hscanned, by simp⟩
      | cancelled => exact ⟨by simp, hscanned, by simp⟩
      | panicked => exact ⟨by simp, hscanned, by simp⟩
  | _ =>
      rw [hphase] at hhalted
      exact hhalted.elim

theorem Exact.move {unsent' : List Item} (h : view.Exact table unsent) (hinv : view.Inv)
    (hlimit : 0 ≤ view.original.rowsLimit) (hends : NoEmptyEnds view.original)
    (hmove : Move view input next) (hsupplied : view.Supplied table unsent input unsent') :
    next.Exact table unsent' := by
  have hscanned := h.prefix_scan
  have hphase := hinv.phase
  cases hmove with
  | halt hlive hhalted => exact Exact.halt hscanned hhalted
  | exhaust hidle hrequest =>
      simp only [Exact, hidle] at h
      simp only [PhaseInv, hidle] at hphase
      obtain ⟨hposition, -, hdelivered⟩ := hphase
      refine ⟨by simp, hscanned, fun _ => ?_⟩
      show view.items = _
      rw [hdelivered.items_eq, BigtableClient.Advanced.rows_of_resume_none h hposition.latest
        hinv.clean.keys_ne_nil hlimit hends hrequest]
  | call hidle hrequest =>
      simp only [Exact, hidle] at h
      exact h
  | refuse hcalling =>
      simp only [Exact, hcalling] at h
      exact h
  | opened hcalling =>
      simp only [Exact, hcalling] at h
      simp only [PhaseInv, hcalling] at hphase
      obtain ⟨hposition, hstate, -, hrequest⟩ := hphase
      obtain ⟨request, hsame, pieces, hanswers, rfl⟩ := hsupplied
      obtain rfl : _ = request := ViewPhase.calling.inj (hcalling.symm.trans hsame)
      exact ⟨h, h.owes_of_answers hinv.clean hposition hstate hlimit hends hrequest hanswers⟩
  | message hstreaming =>
      simp only [Exact, hstreaming] at h
      simp only [PhaseInv, hstreaming] at hphase
      obtain rfl := hsupplied
      exact Exact.takeMessage h.1 h.2 hphase.2.2
  | sent hsending =>
      rename_i row chunks
      simp only [Exact, hsending] at h
      simp only [PhaseInv, hsending] at hphase
      obtain rfl := hsupplied
      obtain ⟨-, -, rows, hitems, hrows⟩ := hphase
      exact Exact.takeChunks h.1 h.2 ⟨rows ++ [row], by simp [hitems], by simpa using hrows⟩
  | breakOff hstreaming hidle =>
      simp only [Exact, hstreaming] at h
      rcases hidle with rfl | hhalted
      · exact h.1
      · exact Exact.halt hscanned hhalted
  | ended hstreaming hfinish =>
      simp only [Exact, hstreaming] at h
      simp only [PhaseInv, hstreaming] at hphase
      obtain ⟨rfl, rfl⟩ := hsupplied
      obtain ⟨hadvanced, final, outputs, hfeed, -, hrows, -⟩ := h
      refine ⟨by simp, hscanned, fun _ => ?_⟩
      show view.items = _
      obtain ⟨-, rfl⟩ : view.merger = final ∧ [] = outputs := by simpa using hfeed
      rw [hphase.2.2.items_eq, hadvanced.rows,
        List.take_of_length_le (List.drop_eq_nil_iff.1 hrows.symm)]
  | endedEarly hstreaming hfinish =>
      simp only [Exact, hstreaming] at h
      obtain ⟨rfl, rfl⟩ := hsupplied
      obtain ⟨hadvanced, final, outputs, hfeed, hfinal, -⟩ := h
      obtain ⟨rfl, -⟩ : view.merger = final ∧ [] = outputs := by simpa using hfeed
      rw [RowMerger.finish_eq_ok.2 hfinal] at hfinish
      simp at hfinish
  | report hfailing =>
      simp only [Exact, hfailing] at h
      exact ⟨by simpa using h.1, h.2, by simp⟩

end ReadView

/-! ## Queries -/

def NonEmptyBound : RowBound → Prop
  | .unbounded => True
  | .inclusive key => key ≠ []
  | .exclusive key => key ≠ []

/-- The range has non-empty bounds, or it is the range of a prefix. -/
def WellBounded (range : RowRange) : Prop :=
  (NonEmptyBound range.start ∧ NonEmptyBound range.stop) ∨
    ∃ leading, range = RowRange.ofPrefix leading

theorem nonEmptyBound_stop {range : RowRange} (h : WellBounded range) :
    NonEmptyBound range.stop := by
  rcases h with ⟨-, hstop⟩ | ⟨leading, rfl⟩
  · exact hstop
  · unfold RowRange.ofPrefix prefixSuccessor
    cases leading.reverse.dropWhile (· == 255) with
    | nil => trivial
    | cons byte rest => simp [NonEmptyBound]

theorem noEmptyEnds_intoRequest {query : Query} (config : ClientConfig)
    (h : ∀ range ∈ query.rowRanges, WellBounded range) :
    NoEmptyEnds (query.intoRequest config) := by
  intro range hrange hend
  unfold requestedRows Query.intoRequest at hrange
  split_ifs at hrange with hrows
  · obtain rfl : range = {} := by simpa using hrange
    simp [EmptyEnd] at hend
  · obtain ⟨given, hgiven, rfl⟩ := List.mem_map.1 hrange
    have hstop := nonEmptyBound_stop (h given hgiven)
    unfold EmptyEnd protoRowRange at hend
    cases hbound : given.stop with
    | unbounded => simp [hbound] at hend
    | inclusive key =>
        rw [hbound] at hstop
        simp only [hbound] at hend
        rcases hend with hend | hend
        · simp at hend
        · exact hstop (by simpa using hend)
    | exclusive key =>
        rw [hbound] at hstop
        simp only [hbound] at hend
        rcases hend with hend | hend
        · exact hstop (by simpa using hend)
        · simp at hend

/-! ## The stream against a conforming server -/

def ReadEnd.isQuiet : ReadEnd → Bool
  | .completed => true
  | .panicked => true
  | _ => false

/-- The rows handed over to the stream are the first rows of the fault-free scan; they are all
of it once the stream ends without an error, and no response is rejected. -/
structure ScanExact (table : Table) (original : ReadRowsRequest) (state : ReadState) : Prop where
  rows : state.log.items.filterMap Except.toOption <+: table.scan original
  complete : ∀ how, state.phase = .finished how → how.isQuiet →
    state.log.items = (table.scan original).map .ok
  accepted : ∀ issue, state.phase ≠ .terminating (.invalidReadRowsResponse issue) ∧
    state.phase ≠ .finished (.failed (.invalidReadRowsResponse issue))

theorem filterMap_toOption_items (rows : List Row) (errors : List ReadError) :
    (rows.map Except.ok ++ errors.map Except.error).filterMap Except.toOption = rows := by
  rw [List.filterMap_append, List.filterMap_map, List.filterMap_map]
  simp [Function.comp_def, Except.toOption]

theorem ReadView.Exact.scanExact {original : ReadRowsRequest} {state : ReadState}
    {unsent : List Item} (h : state.view.Exact table unsent) (hinv : state.view.Inv)
    (horiginal : state.view.original = original) (hcalm : state.phase ≠ .finished .panicked) :
    ScanExact table original state := by
  have hscanned : outputRows state.log.accepted <+: table.scan original :=
    horiginal ▸ h.prefix_scan
  have hordered := hinv.streamOrdered horiginal
  obtain ⟨rows, errors, hitems, -, -, hrows, -⟩ := hordered.items
  refine ⟨?_, fun how hphase hquiet => ?_,
    fun issue => ⟨fun hphase => ?_, fun hphase => ?_⟩⟩
  · rw [hitems, filterMap_toOption_items]
    exact hrows.trans hscanned
  · cases how with
    | completed =>
        have hover : state.view.phase = .concluded .completed := congrArg ReadPhase.view hphase
        simp only [ReadView.Exact, hover] at h
        exact horiginal ▸ h.2.2 trivial
    | panicked => exact absurd hphase hcalm
    | failed error => cases hquiet
    | cancelled => cases hquiet
  · have hfailing : state.view.phase = .failing (.invalidReadRowsResponse issue) :=
      congrArg ReadPhase.view hphase
    simp only [ReadView.Exact, hfailing] at h
    exact h.1 issue rfl
  · have hover : state.view.phase = .concluded (.failed (.invalidReadRowsResponse issue)) :=
      congrArg ReadPhase.view hphase
    simp only [ReadView.Exact, hover] at h
    exact h.1 issue rfl

namespace ReadState

variable {codec : Codec} {options : ReadOptions} {deadline : Instant} {tableId : String}
variable {state init : ReadState} {unsent : List Item} {ok : ReadState → ReadInput → Prop}

theorem supplied_of_servedStep {input : ReadInput} {next : ReadState} {unsent' : List Item}
    (h : ServedStep codec table state unsent input next unsent') :
    state.view.Supplied table unsent input unsent' := by
  obtain ⟨-, hserver⟩ := h
  cases input with
  | opened =>
      obtain ⟨request, hissued, pieces, hanswers, hunsent⟩ := hserver
      refine ⟨request, ?_, pieces, hanswers, hunsent⟩
      unfold issued? at hissued
      split at hissued
      · rename_i hphase
        obtain rfl := Option.some.inj hissued
        exact congrArg ReadPhase.view hphase
      · simp at hissued
  | _ => exact hserver

theorem exact_of_served (hlimit : 0 ≤ original.rowsLimit) (hends : NoEmptyEnds original)
    (h : Served codec table ok (.new original options deadline tableId) state unsent) :
    state.view.Exact table unsent ∧ state.view.Inv ∧ state.view.original = original := by
  induction h with
  | start =>
      have hreachable : ProofSupport.Transition.Reachable (ReadState.step codec)
          (.new original options deadline tableId) (.new original options deadline tableId) :=
        ⟨[], rfl⟩
      obtain ⟨hinv, horiginal⟩ := inv_of_reachable hreachable
      have hadvanced : Advanced table original none [] 0 :=
        ⟨Int.le_refl 0, rfl, by simp [outputRows], fun row _ => after_none _ _⟩
      exact ⟨hadvanced, hinv, horiginal⟩
  | step hserved hok hstep ih =>
      obtain ⟨hexact, hinv, horiginal⟩ := ih
      have hmove := move_of_step hstep.1
      refine ⟨hexact.move hinv ?_ ?_ hmove (supplied_of_servedStep hstep), hinv.move hmove,
        hmove.original.trans horiginal⟩
      · rwa [horiginal]
      · rwa [horiginal]

theorem ne_panicked_of_served (hinit : init.phase ≠ .finished .panicked)
    (h : Served codec table (Withstands codec) init state unsent) :
    state.phase ≠ .finished .panicked := by
  cases h with
  | start => exact hinit
  | step hserved hok hstep => exact fun hphase => (panicked_iff hstep.1).1 hphase hok

/-- A retried scan returns exactly the fault-free result: for every table, every query whose
ranges have non-empty bounds or are prefixes, and every run against a conforming server none of
whose steps panics. -/
theorem scan_exact (codec : Codec) (table : Table) (query : Query) (config : ClientConfig)
    (options : ReadOptions) (deadline : Instant) (state : ReadState) (unsent : List Item)
    (hranges : ∀ range ∈ query.rowRanges, WellBounded range)
    (h : Served codec table (Withstands codec)
      (.new (query.intoRequest config) options deadline query.tableId.val) state unsent) :
    ScanExact table (query.intoRequest config) state := by
  obtain ⟨hexact, hinv, horiginal⟩ := exact_of_served (intoRequest_rowsLimit_nonneg query config)
    (noEmptyEnds_intoRequest config hranges) h
  exact hexact.scanExact hinv horiginal (ne_panicked_of_served (by simp [new]) h)

end ReadState

/-! ## An interrupted read of a table with two rows -/

def wholeTableQuery : Query where
  tableId := ⟨"events", validateTableId_events⟩
  rowKeys := []
  rowRanges := []
  filter := none
  limit := none
  reversed := false

def firstCells : List CellChunks := [⟨sampleChunk [97] (some (.commitRow true)), []⟩]

def secondCells : List CellChunks := [⟨sampleChunk [98] none, []⟩, ⟨closingChunk, []⟩]

def sampleTable : Table where
  rows := [decodeRow [97] firstCells, decodeRow [98] secondCells]
  sorted := by simp only [decodeRow]; decide
  keys_ne_nil := by simp [decodeRow]

theorem wellFormed_first : (Piece.row [97] firstCells).WellFormed := by
  refine ⟨⟨⟨rfl, by decide, rfl, rfl⟩, by simp⟩, ?_, [], _, rfl, by simp, rfl⟩
  intro cell hcell
  obtain rfl := List.mem_singleton.1 hcell
  exact Or.inl ⟨rfl, rfl⟩

theorem wellFormed_second : (Piece.row [98] secondCells).WellFormed := by
  refine ⟨⟨⟨rfl, by decide, rfl, rfl⟩, ?_⟩, ?_, [sampleChunk [98] none], _, rfl, ?_, rfl⟩
  · intro cell hcell
    obtain rfl := List.mem_singleton.1 hcell
    exact ⟨Or.inl rfl, by simp [closingChunk]⟩
  · intro cell hcell
    rcases List.mem_pair.1 hcell with rfl | rfl <;> exact Or.inl ⟨rfl, rfl⟩
  · intro chunk hchunk
    obtain rfl := List.mem_singleton.1 hchunk
    exact ⟨rfl, rfl⟩

theorem answers_first : Answers sampleTable (wholeTableQuery.intoRequest sampleConfig) []
    [.row [97] firstCells, .row [98] secondCells] where
  wellFormed piece hpiece := by
    rcases List.mem_pair.1 hpiece with rfl | rfl
    · exact wellFormed_first
    · exact wellFormed_second
  rows := by decide
  placed := trivial

theorem answers_second : Answers sampleTable
    { wholeTableQuery.intoRequest sampleConfig with
      rows := some { rowKeys := [], rowRanges := [{ startKey := some (.startKeyOpen [97]) }] } }
    [.row (decodeRow [97] firstCells)] [.row [98] secondCells] where
  wellFormed piece hpiece := by
    obtain rfl := List.mem_singleton.1 hpiece
    exact wellFormed_second
  rows := by decide
  placed := trivial

theorem backoff_default : backoff sampleCodec RetryPolicy.default 1 1 = some 1 := by
  decide +kernel

theorem ReadState.scan_exact_interruptedRead :
    ∃ state, state.phase = .finished .completed ∧
      ScanExact sampleTable (wholeTableQuery.intoRequest sampleConfig) state := by
  have h0 : Served sampleCodec sampleTable (ReadState.Withstands sampleCodec)
      (.new (wholeTableQuery.intoRequest sampleConfig) .default 1000 "events") _ [] := .start
  have h1 := Served.step h0 (ReadState.withstands_of_neverPanics neverPanics_default _)
    (show ServedStep sampleCodec sampleTable _ _ (.begin sampleTurn) _ [] from ⟨rfl, rfl⟩)
  have h2 := Served.step h1 (by trivial)
    (show ServedStep sampleCodec sampleTable _ _ .opened _ _ from
      ⟨rfl, _, rfl, _, answers_first, rfl⟩)
  have h3 := Served.step h2 (by trivial)
    (show ServedStep sampleCodec sampleTable _ _
      (.message
        { chunks := [sampleChunk [97] (some (.commitRow true)), sampleChunk [98] none]
          lastScannedRowKey := [] }) _ [.chunk closingChunk] from ⟨rfl, rfl⟩)
  have h4 := Served.step h3 (by trivial)
    (show ServedStep sampleCodec sampleTable _ _ .sent _ _ from ⟨rfl, rfl⟩)
  have h5 := Served.step h4 (ReadState.withstands_of_neverPanics neverPanics_default _)
    (show ServedStep sampleCodec sampleTable _ _ (.streamBroke unavailable sampleTurn) _ _ from
      ⟨congrArg some (ReadState.retry_eq_backOff (by decide) rfl (by decide) backoff_default rfl
        (by decide)), rfl⟩)
  have h6 := Served.step h5 (ReadState.withstands_of_neverPanics neverPanics_default _)
    (show ServedStep sampleCodec sampleTable _ _ (.wake sampleTurn) _ _ from ⟨rfl, rfl⟩)
  have h7 := Served.step h6 (by trivial)
    (show ServedStep sampleCodec sampleTable _ _ .opened _ _ from
      ⟨rfl, _, rfl, _, answers_second, rfl⟩)
  have h8 := Served.step h7 (by trivial)
    (show ServedStep sampleCodec sampleTable _ _
      (.message { chunks := [sampleChunk [98] none, closingChunk], lastScannedRowKey := [] })
      _ [] from ⟨rfl, rfl⟩)
  have h9 := Served.step h8 (by trivial)
    (show ServedStep sampleCodec sampleTable _ _ .sent _ _ from ⟨rfl, rfl⟩)
  have h10 := Served.step h9 (by trivial)
    (show ServedStep sampleCodec sampleTable _ _ .streamEnded _ [] from ⟨rfl, rfl, rfl⟩)
  exact ⟨_, rfl, ReadState.scan_exact sampleCodec sampleTable wholeTableQuery sampleConfig
    .default 1000 _ [] (by simp [wholeTableQuery]) h10⟩

/-! ### An endless backoff

The row "a" is delivered, and the stream breaks.  The backoff is no duration, so that the task of
the read panics: the stream ends, without an error and without the row "b". -/

def endlessBackoff : ReadOptions :=
  { ReadOptions.default with
    retry :=
      { RetryPolicy.default with
        initialBackoff := maxDuration
        maxBackoff := maxDuration } }

theorem backoff_endless : backoff sampleCodec endlessBackoff.retry 1 1 = none := by
  decide +kernel

theorem not_scanExact_endlessBackoff :
    validatePolicies endlessBackoff.retry endlessBackoff.deadlines = .ok () ∧
      ∃ state unsent, Served sampleCodec sampleTable (fun _ _ => True)
          (.new (wholeTableQuery.intoRequest sampleConfig) endlessBackoff 1000 "events") state
          unsent ∧
        state.phase = .finished .panicked ∧
        ¬ ScanExact sampleTable (wholeTableQuery.intoRequest sampleConfig) state := by
  have h0 : Served sampleCodec sampleTable (fun _ _ => True)
      (.new (wholeTableQuery.intoRequest sampleConfig) endlessBackoff 1000 "events") _ [] := .start
  have h1 := Served.step h0 trivial
    (show ServedStep sampleCodec sampleTable _ _ (.begin sampleTurn) _ [] from ⟨rfl, rfl⟩)
  have h2 := Served.step h1 trivial
    (show ServedStep sampleCodec sampleTable _ _ .opened _ _ from
      ⟨rfl, _, rfl, _, answers_first, rfl⟩)
  have h3 := Served.step h2 trivial
    (show ServedStep sampleCodec sampleTable _ _
      (.message
        { chunks := [sampleChunk [97] (some (.commitRow true))], lastScannedRowKey := [] })
      _ [.chunk (sampleChunk [98] none), .chunk closingChunk] from ⟨rfl, rfl⟩)
  have h4 := Served.step h3 trivial
    (show ServedStep sampleCodec sampleTable _ _ .sent _ _ from ⟨rfl, rfl⟩)
  have h5 := Served.step h4 trivial
    (show ServedStep sampleCodec sampleTable _ _ (.streamBroke unavailable sampleTurn) _ _ from
      ⟨congrArg some (ReadState.retry_eq_panicked (by decide) rfl (by decide) backoff_endless),
        rfl⟩)
  refine ⟨by decide +kernel, _, _, h5, rfl, fun hexact => ?_⟩
  have hitems := congrArg List.length (hexact.complete .panicked rfl rfl)
  revert hitems
  decide

end BigtableClient
