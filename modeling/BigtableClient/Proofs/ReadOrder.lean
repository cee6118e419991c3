import BigtableClient.Proofs.Backoff
import BigtableClient.Proofs.MergeRuns
import BigtableClient.Proofs.ReadView

/-!
# The row stream is ordered

Whatever the server sends, the rows and markers that the merger lets through move
strictly on in scan order, over all attempts of the operation, and the stream
carries those rows and at most one error after them.
-/

namespace BigtableClient

open Proto
open ProofSupport.ScanOrder (After Beyond after_some after_of_beyond)
open ProofSupport.Transition (Reachable)
open ChunkGrammar
open ProofSupport.Binary64 (F64)

namespace ChunkGrammar

@[simp] theorem outputRows_append_row (outputs : List Output) (row : Row) :
    outputRows (outputs ++ [.row row]) = outputRows outputs ++ [row] := by
  simp [outputRows, Output.row?]

@[simp] theorem outputRows_append_marker (outputs : List Output) (key : Bytes) :
    outputRows (outputs ++ [.marker key]) = outputRows outputs := by
  simp [outputRows, Output.row?]

theorem mem_of_mem_outputRows {outputs : List Output} {row : Row} (h : row ∈ outputRows outputs) :
    .row row ∈ outputs := by
  obtain ⟨output, houtput, hsome⟩ := List.mem_filterMap.1 h
  cases output with
  | marker key => simp [Output.row?] at hsome
  | row other =>
      obtain rfl : other = row := by simpa [Output.row?] using hsome
      exact houtput

variable {reversed : Bool} {outputs more : List Output}

theorem InScanOrder.outputRows (h : InScanOrder reversed outputs) :
    (outputRows outputs).Pairwise fun earlier later => Beyond reversed earlier.key later.key := by
  unfold ChunkGrammar.outputRows
  refine List.Pairwise.filterMap Output.row? ?_ h
  intro earlier later hbeyond row hrow other hother
  cases earlier <;> cases later <;> simp_all [Output.row?, Output.key]

theorem InScanOrder.after_of_mem (h : InScanOrder reversed outputs) {output : Output}
    (houtput : output ∈ outputs) {key : Bytes} (hkey : After reversed (lastKey none outputs) key) :
    Beyond reversed output.key key := by
  obtain ⟨init, last, rfl⟩ := List.eq_nil_or_concat outputs |>.resolve_left
    (List.ne_nil_of_mem houtput)
  rw [List.concat_eq_append] at h hkey houtput
  rw [lastKey_append_singleton, after_some] at hkey
  rcases List.mem_append.1 houtput with hinit | hlast
  · have hbefore : Beyond reversed output.key last.key :=
      (List.pairwise_append.1 h).2.2 output hinit last (List.mem_singleton_self last)
    exact hbefore.trans hkey
  · rw [List.mem_singleton.1 hlast]
    exact hkey

theorem InScanOrder.append (h : InScanOrder reversed outputs) (hmore : InScanOrder reversed more)
    (hafter : ∀ output ∈ more, After reversed (lastKey none outputs) output.key) :
    InScanOrder reversed (outputs ++ more) :=
  List.pairwise_append.2 ⟨h, hmore, fun _ houtput later hlater =>
    h.after_of_mem houtput (hafter later hlater)⟩

end ChunkGrammar

namespace RowMerger

variable {merger next : RowMerger} {reversed : Bool} {last : Option Bytes}
variable {outputs : List Output}

/-- The merger after it took chunks: still in the row, or at the row it committed. -/
def Took (merger next : RowMerger) (reversed : Bool) (last : Option Bytes)
    (outputs : List Output) : Option (Row × List CellChunk) → Prop
  | none => next.Fed reversed last outputs ∧ next.lastCompleteKey = merger.lastCompleteKey
  | some (row, _) =>
      next.Fed reversed last (outputs ++ [.row row]) ∧ next.lastCompleteKey = some row.key ∧
        next.state = .newRow

/-- Taking chunks up to a row feeds them to the merger. -/
theorem Fed.pushUntilRow {chunks : List CellChunk} {taken : Option (Row × List CellChunk)}
    (h : merger.Fed reversed last outputs)
    (hpush : ReadState.pushUntilRow merger chunks = (next, .ok taken)) :
    next.reversed = merger.reversed ∧ Took merger next reversed last outputs taken := by
  induction chunks generalizing merger with
  | nil =>
      simp only [ReadState.pushUntilRow, Prod.mk.injEq, Except.ok.injEq] at hpush
      obtain ⟨rfl, rfl⟩ := hpush
      exact ⟨rfl, h, rfl⟩
  | cons chunk chunks ih =>
      unfold ReadState.pushUntilRow at hpush
      rcases hone : merger.push chunk with ⟨middle, issue | out⟩
      · simp [hone] at hpush
      · obtain ⟨hreversed, hposition⟩ := push_frame hone
        have haccept : merger.accept (.chunk chunk) = .ok (middle, (out.map Output.row).toList) :=
          accept_chunk_eq_ok.2 ⟨out, hone, rfl⟩
        have hfed := h.accept haccept
        cases out with
        | none =>
            simp only [hone] at hpush
            have hfed' : middle.Fed reversed last outputs := by simpa using hfed
            obtain ⟨hrest, htook⟩ := ih hfed' hpush
            refine ⟨hrest.trans hreversed, ?_⟩
            cases taken with
            | none => exact ⟨htook.1, htook.2.trans hposition⟩
            | some taken => exact htook
        | some row =>
            simp only [hone, Prod.mk.injEq, Except.ok.injEq] at hpush
            obtain ⟨rfl, rfl⟩ := hpush
            exact ⟨hreversed, hfed, hposition⟩

end RowMerger

namespace ReadView

variable {view next : ReadView} {input : ReadInput}

/-! ## The invariant -/

/-- The merger and the progress stand at the last row or marker that was let through. -/
structure InPosition (view : ReadView) : Prop where
  reversed : view.merger.reversed = view.original.reversed
  position : view.merger.lastCompleteKey = view.progress
  latest : view.progress = lastKey none view.accepted

/-- The rows and markers let through so far. -/
structure Clean (view : ReadView) : Prop where
  order : InScanOrder view.original.reversed view.accepted
  complete : ∀ row, .row row ∈ view.accepted → CompleteRow row
  keys_ne_nil : ∀ output ∈ view.accepted, output.key ≠ []

/-- Since the attempt started, the merger was fed what gave the latest outputs. -/
def InAttempt (view : ReadView) : Prop :=
  ∃ old outputs, view.accepted = old ++ outputs ∧
    view.merger.Fed view.original.reversed (lastKey none old) outputs

def Delivered (view : ReadView) (pending : List Row) : Prop :=
  ∃ rows, view.items = rows.map .ok ∧ rows ++ pending = outputRows view.accepted

def DeliveredUpTo (view : ReadView) (errors : List ReadError) : Prop :=
  ∃ rows, view.items = rows.map .ok ++ errors.map .error ∧ rows <+: outputRows view.accepted

def PhaseInv (view : ReadView) : Prop :=
  match view.phase with
  | .idle => view.InPosition ∧ view.merger.state = .newRow ∧ view.Delivered []
  | .calling request =>
      view.InPosition ∧ view.merger.state = .newRow ∧ view.Delivered [] ∧
        resumeRequest view.original view.progress view.rowsReturned = some request
  | .streaming => view.InPosition ∧ view.InAttempt ∧ view.Delivered []
  | .sending row _ => view.InPosition ∧ view.InAttempt ∧ view.Delivered [row]
  | .failing _ => view.DeliveredUpTo []
  | .concluded _ => ∃ errors, errors.length ≤ 1 ∧ view.DeliveredUpTo errors

structure Inv (view : ReadView) : Prop where
  clean : view.Clean
  phase : view.PhaseInv

theorem Clean.of_eq (h : view.Clean) (horiginal : next.original = view.original)
    (haccepted : next.accepted = view.accepted) : next.Clean := by
  refine ⟨?_, ?_, ?_⟩
  · rw [horiginal, haccepted]
    exact h.order
  · rw [haccepted]
    exact h.complete
  · rw [haccepted]
    exact h.keys_ne_nil

theorem Delivered.upTo {pending : List Row} (h : view.Delivered pending) :
    view.DeliveredUpTo [] := by
  obtain ⟨rows, hitems, hrows⟩ := h
  exact ⟨rows, by simpa using hitems, pending, hrows⟩

theorem PhaseInv.upTo (h : view.PhaseInv) (hlive : Live view.phase) : view.DeliveredUpTo [] := by
  unfold PhaseInv at h
  cases hphase : view.phase with
  | idle =>
      rw [hphase] at h
      exact h.2.2.upTo
  | calling request =>
      rw [hphase] at h
      exact h.2.2.1.upTo
  | streaming =>
      rw [hphase] at h
      exact h.2.2.upTo
  | sending row chunks =>
      rw [hphase] at h
      exact h.2.2.upTo
  | failing error =>
      rw [hphase] at h
      exact h
  | concluded how =>
      rw [hphase] at hlive
      exact hlive.elim

theorem InPosition.inAttempt (h : view.InPosition) (hstate : view.merger.state = .newRow) :
    view.InAttempt := by
  have hbetween : view.merger.BetweenRows view.original.reversed (lastKey none view.accepted) :=
    ⟨hstate, h.reversed, h.position.trans h.latest⟩
  exact ⟨view.accepted, [], (List.append_nil _).symm, hbetween.fed⟩

/-- Letting one more row or marker through keeps the order, and the rows stay complete. -/
theorem Clean.extend {old outputs : List Output} {merger : RowMerger} {output : Output}
    (h : view.Clean) (haccepted : view.accepted = old ++ outputs)
    (hfed : merger.Fed view.original.reversed (lastKey none old) (outputs ++ [output]))
    (hstate : merger.state = .newRow) (hmarker : ∀ key, output = .marker key → key ≠ []) :
    ({ view with accepted := view.accepted ++ [output] } : ReadView).Clean := by
  obtain ⟨pieces, hwell, hordered, houtputs⟩ := hfed.pieces hstate
  obtain ⟨hafter, hscan⟩ := hordered.outputs
  rw [← houtputs] at hafter hscan
  have hold : InScanOrder view.original.reversed old := by
    have horder := h.order
    rw [haccepted] at horder
    exact (List.pairwise_append.1 horder).1
  have hcomplete : ∀ row, .row row ∈ view.accepted ++ [output] → CompleteRow row := by
    intro row hrow
    rcases List.mem_append.1 hrow with hmem | hmem
    · exact h.complete row hmem
    · exact completeRow_of_mem_streamOutputs hwell (houtputs ▸ List.mem_append_right _ hmem)
  refine ⟨?_, hcomplete, fun other hother => ?_⟩
  · show InScanOrder view.original.reversed (view.accepted ++ [output])
    rw [haccepted, List.append_assoc]
    exact hold.append hscan hafter
  · cases other with
    | row row => exact (hcomplete row hother).key_ne_nil
    | marker key =>
        rcases List.mem_append.1 hother with hmem | hmem
        · exact h.keys_ne_nil _ hmem
        · exact hmarker key (List.mem_singleton.1 hmem).symm

/-! ## Messages -/

theorem Inv.takeChunks {chunks : List CellChunk} (hclean : view.Clean)
    (hposition : view.InPosition) (hattempt : view.InAttempt) (hdelivered : view.Delivered []) :
    (view.takeChunks chunks).Inv := by
  obtain ⟨old, outputs, haccepted, hfed⟩ := hattempt
  obtain ⟨rows, hitems, hrows⟩ := hdelivered
  unfold ReadView.takeChunks
  rcases hpush : ReadState.pushUntilRow view.merger chunks with ⟨merger, issue | taken⟩
  · exact ⟨hclean.of_eq rfl rfl, rows, by simpa using hitems, [], hrows⟩
  · have htaken := hfed.pushUntilRow hpush
    cases taken with
    | none =>
        obtain ⟨hreversed, hnext, hkey⟩ := htaken
        refine ⟨hclean.of_eq rfl rfl, ?_⟩
        by_cases hlimit : view.limitReached
        · simp only [PhaseInv, if_pos hlimit]
          exact ⟨[], by simp, rows, by simpa using hitems, [], hrows⟩
        · simp only [PhaseInv, if_neg hlimit]
          exact ⟨⟨hreversed.trans hposition.reversed, hkey.trans hposition.position,
            hposition.latest⟩, ⟨old, outputs, haccepted, hnext⟩, rows, hitems, hrows⟩
    | some taken =>
        obtain ⟨row, rest⟩ := taken
        obtain ⟨hreversed, hnext, hkey, hstate⟩ := htaken
        obtain ⟨horder, hcomplete, hkeys⟩ := hclean.extend haccepted hnext hstate (by simp)
        refine ⟨⟨horder, hcomplete, hkeys⟩, ⟨hreversed.trans hposition.reversed, hkey, ?_⟩,
          ⟨old, outputs ++ [.row row], ?_, hnext⟩, rows, hitems, ?_⟩
        · exact (lastKey_append_singleton none view.accepted (.row row)).symm
        · simp [haccepted]
        · simpa using hrows

theorem Inv.takeMessage {response : ReadRowsResponse} (hclean : view.Clean)
    (hposition : view.InPosition) (hattempt : view.InAttempt) (hdelivered : view.Delivered []) :
    (view.takeMessage response).Inv := by
  unfold ReadView.takeMessage
  by_cases hkey : response.lastScannedRowKey = []
  · rw [if_pos hkey]
    exact Inv.takeChunks hclean hposition hattempt hdelivered
  · rw [if_neg hkey]
    rcases hscan : view.merger.scanMarker response.lastScannedRowKey with ⟨merger, issue | ⟨⟩⟩
    · exact ⟨hclean.of_eq rfl rfl, hdelivered.upTo⟩
    · obtain ⟨old, outputs, haccepted, hfed⟩ := hattempt
      have haccept : view.merger.accept (.marker response.lastScannedRowKey) =
          .ok (merger, [.marker response.lastScannedRowKey]) := by
        simp [RowMerger.accept, hscan]
      obtain ⟨hstate, -, hmerger, -⟩ := RowMerger.accept_marker_eq_ok.1 haccept
      have hnext := hfed.accept haccept
      have hbetween : merger.state = .newRow := by rw [hmerger, hstate]
      have hmarker : ∀ key, Output.marker response.lastScannedRowKey = .marker key → key ≠ [] := by
        rintro _ ⟨⟩
        exact hkey
      obtain ⟨horder, hcomplete, hkeys⟩ := hclean.extend haccepted hnext hbetween hmarker
      obtain ⟨rows, hitems, hrows⟩ := hdelivered
      refine Inv.takeChunks ⟨horder, hcomplete, hkeys⟩ ⟨?_, ?_, ?_⟩
        ⟨old, outputs ++ [.marker response.lastScannedRowKey], ?_, hnext⟩ ⟨rows, hitems, ?_⟩
      · rw [hmerger]
        exact hposition.reversed
      · rw [hmerger]
      · exact (lastKey_append_singleton none view.accepted (.marker _)).symm
      · simp [haccepted]
      · simpa using hrows

/-! ## Steps and runs -/

theorem Inv.halt {phase : ViewPhase} (h : view.Inv) (hlive : Live view.phase)
    (hhalted : Halted phase) : ({ view with phase := phase } : ReadView).Inv := by
  refine ⟨h.clean.of_eq rfl rfl, ?_⟩
  have hupto := h.phase.upTo hlive
  cases phase with
  | failing error => exact hupto
  | concluded how => exact ⟨[], by simp, hupto⟩
  | _ => exact hhalted.elim

theorem Inv.move (h : view.Inv) (hmove : Move view input next) : next.Inv := by
  have hclean := h.clean
  have hphase := h.phase
  cases hmove with
  | halt hlive hhalted => exact h.halt hlive hhalted
  | exhaust hidle hrequest =>
      have hupto := h.phase.upTo (hidle ▸ trivial)
      exact ⟨hclean.of_eq rfl rfl, [], by simp, hupto⟩
  | call hidle hrequest =>
      simp only [PhaseInv, hidle] at hphase
      obtain ⟨⟨hreversed, hposition, hlatest⟩, hstate, hdelivered⟩ := hphase
      exact ⟨hclean.of_eq rfl rfl, ⟨hreversed, hposition, hlatest⟩, hstate, hdelivered,
        hrequest⟩
  | refuse hcalling =>
      simp only [PhaseInv, hcalling] at hphase
      obtain ⟨⟨hreversed, hposition, hlatest⟩, hstate, hdelivered, -⟩ := hphase
      exact ⟨hclean.of_eq rfl rfl, ⟨hreversed, hposition, hlatest⟩, hstate, hdelivered⟩
  | opened hcalling =>
      simp only [PhaseInv, hcalling] at hphase
      obtain ⟨hposition, hstate, hdelivered, -⟩ := hphase
      obtain ⟨old, outputs, haccepted, hfed⟩ := hposition.inAttempt hstate
      exact ⟨hclean.of_eq rfl rfl,
        ⟨hposition.reversed, hposition.position, hposition.latest⟩,
        ⟨old, outputs, haccepted, hfed⟩, hdelivered⟩
  | message hstreaming =>
      simp only [PhaseInv, hstreaming] at hphase
      obtain ⟨hposition, hattempt, hdelivered⟩ := hphase
      exact Inv.takeMessage hclean hposition hattempt hdelivered
  | sent hsending =>
      simp only [PhaseInv, hsending] at hphase
      obtain ⟨hposition, hattempt, rows, hitems, hrows⟩ := hphase
      refine Inv.takeChunks (hclean.of_eq rfl rfl)
        ⟨hposition.reversed, hposition.position, hposition.latest⟩ hattempt
        ⟨rows ++ [_], ?_, by simpa using hrows⟩
      simp [hitems]
  | breakOff hstreaming hidle =>
      rename_i phase
      simp only [PhaseInv, hstreaming] at hphase
      obtain ⟨hposition, -, hdelivered⟩ := hphase
      obtain ⟨hstate, hreversed, hlast⟩ := RowMerger.betweenRows_discardPartial view.merger
      rcases hidle with rfl | hhalted
      · exact ⟨hclean.of_eq rfl rfl, ⟨hreversed.trans hposition.reversed,
          hlast.trans hposition.position, hposition.latest⟩, hstate, hdelivered⟩
      · have hupto := hdelivered.upTo
        refine ⟨hclean.of_eq rfl rfl, ?_⟩
        cases phase with
        | failing error => exact hupto
        | concluded how => exact ⟨[], by simp, hupto⟩
        | _ => exact hhalted.elim
  | ended hstreaming hfinish =>
      have hupto := h.phase.upTo (hstreaming ▸ trivial)
      exact ⟨hclean.of_eq rfl rfl, [], by simp, hupto⟩
  | endedEarly hstreaming hfinish =>
      have hupto := h.phase.upTo (hstreaming ▸ trivial)
      exact ⟨hclean.of_eq rfl rfl, hupto⟩
  | report hfailing =>
      rename_i error
      simp only [PhaseInv, hfailing] at hphase
      obtain ⟨rows, hitems, hrows⟩ := hphase
      exact ⟨hclean.of_eq rfl rfl, [error], by simp, rows, by simp [hitems], hrows⟩

theorem takeChunks_original (view : ReadView) (chunks : List CellChunk) :
    (view.takeChunks chunks).original = view.original := by
  unfold ReadView.takeChunks
  rcases ReadState.pushUntilRow view.merger chunks with ⟨merger, issue | _ | _⟩ <;> rfl

theorem Move.original (hmove : Move view input next) : next.original = view.original := by
  cases hmove with
  | message hstreaming =>
      unfold ReadView.takeMessage
      split_ifs
      · exact takeChunks_original _ _
      · rcases view.merger.scanMarker _ with ⟨merger, issue | ⟨⟩⟩
        · rfl
        · exact takeChunks_original _ _
  | sent hsending => exact takeChunks_original _ _
  | _ => rfl

end ReadView

/-! ## The stream of a read -/

/-- What holds of a read in every state. -/
structure StreamOrdered (original : ReadRowsRequest) (state : ReadState) : Prop where
  /-- The stream carries complete rows in strict scan order, then at most one error, and after
  an error the operation is over. -/
  items : ∃ rows errors, state.log.items = rows.map .ok ++ errors.map .error ∧
    errors.length ≤ 1 ∧ (errors ≠ [] → ∃ how, state.phase = .finished how) ∧
    rows <+: outputRows state.log.accepted ∧ (∀ row ∈ rows, CompleteRow row) ∧
    rows.Pairwise fun earlier later => Beyond original.reversed earlier.key later.key
  /-- Every committed row and accepted marker is strictly beyond all before it. -/
  scan : InScanOrder original.reversed state.log.accepted
  /-- A request is issued from the latest row or marker, where the merger stands too. -/
  position : ∀ sender deadline request telemetry,
    state.phase = .calling sender deadline request telemetry →
      state.operation.progress = state.operation.merger.lastCompleteKey ∧
        state.operation.progress = lastKey none state.log.accepted ∧
        resumeRequest original state.operation.progress state.operation.rowsReturned =
          some request

theorem ReadView.Inv.streamOrdered {original : ReadRowsRequest} {state : ReadState}
    (h : state.view.Inv) (horiginal : state.view.original = original) :
    StreamOrdered original state := by
  have horder : InScanOrder original.reversed state.log.accepted := horiginal ▸ h.clean.order
  refine ⟨?_, horder, ?_⟩
  · have herrors : ∃ errors, errors.length ≤ 1 ∧ state.view.DeliveredUpTo errors ∧
        (errors ≠ [] → ∃ how, state.phase = .finished how) := by
      cases hphase : state.phase with
      | finished how =>
          have hover : state.view.phase = .concluded how := congrArg ReadPhase.view hphase
          have hphase' := h.phase
          simp only [ReadView.PhaseInv, hover] at hphase'
          obtain ⟨errors, hlength, hupto⟩ := hphase'
          exact ⟨errors, hlength, hupto, fun _ => ⟨how, rfl⟩⟩
      | _ =>
          have hview := congrArg ReadPhase.view hphase
          have hlive : ReadView.Live state.view.phase := by
            show ReadView.Live state.phase.view
            rw [hview]
            trivial
          exact ⟨[], by simp, h.phase.upTo hlive, by simp⟩
    obtain ⟨errors, hlength, ⟨rows, hitems, hrows⟩, hover⟩ := herrors
    refine ⟨rows, errors, hitems, hlength, hover, hrows, fun row hrow => ?_, ?_⟩
    · exact h.clean.complete row (mem_of_mem_outputRows (hrows.subset hrow))
    · exact horder.outputRows.sublist hrows.sublist
  · intro sender deadline request telemetry hphase
    have hcalling : state.view.phase = .calling request := congrArg ReadPhase.view hphase
    have hphase' := h.phase
    simp only [ReadView.PhaseInv, hcalling] at hphase'
    obtain ⟨hposition, -, -, hrequest⟩ := hphase'
    exact ⟨hposition.position.symm, hposition.latest, horiginal ▸ hrequest⟩

namespace ReadState

variable {codec : Codec} {original : ReadRowsRequest} {options : ReadOptions}
variable {deadline : Instant} {tableId : String} {state : ReadState}

theorem inv_of_reachable
    (h : Reachable (ReadState.step codec) (.new original options deadline tableId) state) :
    state.view.Inv ∧ state.view.original = original := by
  refine h.invariant (fun state => state.view.Inv ∧ state.view.original = original) ?_ ?_
  · have hclean : (ReadState.new original options deadline tableId).view.Clean :=
      ⟨List.Pairwise.nil, by simp [view, ReadState.new], by simp [view, ReadState.new]⟩
    exact ⟨⟨hclean, ⟨rfl, rfl, rfl⟩, rfl, [], rfl, rfl⟩, rfl⟩
  · rintro state input next ⟨hinv, horiginal⟩ hstep
    have hmove := move_of_step hstep
    exact ⟨hinv.move hmove, hmove.original.trans horiginal⟩

/-- Whatever the server, the consumer and the clock do, the stream of a read is strictly
ordered and properly terminated, and every request resumes at the merger's position. -/
theorem stream_ordered (codec : Codec) (original : ReadRowsRequest) (options : ReadOptions)
    (deadline : Instant) (tableId : String) (state : ReadState)
    (h : Reachable (ReadState.step codec) (.new original options deadline tableId) state) :
    StreamOrdered original state :=
  (inv_of_reachable h).1.streamOrdered (inv_of_reachable h).2

end ReadState

/-! ## An interrupted read

A read of the whole table breaks in the middle of its second row. -/

/-- Every rich status decodes as the empty one.  A timeout has at most eight digits of hours. -/
def sampleCodec : Codec where
  encodeStatus _ := []
  decodeStatus _ := some {}
  decodeRetryInfo _ := none
  powi := F64.power
  takesTimeout timeout := timeout < 100000000 * (3600 * 1000000000)

theorem neverPanics_default : ReadOptions.default.NeverPanics sampleCodec :=
  ReadOptions.neverPanics_default
    (F64.power_ne_negative (F64.round_ne_negative _ _))
    fun timeout htimeout => decide_eq_true (htimeout.trans_lt (by decide))

def sampleTurn : ReadTurn where
  top := 0
  retry := 0
  call := 0
  arm := 0
  draw := 1

def sampleRead : ReadRowsRequest where
  tableName := "projects/project/instances/instance/tables/events"
  appProfileId := "analytics"
  rows := none
  filter := none
  rowsLimit := 0
  reversed := false

def sampleChunk (key : Bytes) (status : Option RowStatus) : CellChunk where
  rowKey := key
  familyName := some "family"
  qualifier := some [113]
  value := [1]
  rowStatus := status

def closingChunk : CellChunk where
  qualifier := some [114]
  value := [2]
  rowStatus := some (.commitRow true)

def unavailable : Status where
  code := .unavailable
  message := "broken stream"
  details := []

def interruptedRead : List ReadInput :=
  [.begin sampleTurn, .opened,
    .message
      { chunks := [sampleChunk [97] (some (.commitRow true)), sampleChunk [98] none]
        lastScannedRowKey := [] },
    .sent, .streamBroke unavailable sampleTurn, .wake sampleTurn, .opened,
    .message { chunks := [sampleChunk [98] none, closingChunk], lastScannedRowKey := [] },
    .sent, .streamEnded]

theorem ReadState.stream_ordered_interruptedRead :
    ∃ state, state.phase = .finished .completed ∧ state.log.items.length = 2 ∧
      StreamOrdered sampleRead state := by
  have hrun : (ProofSupport.Transition.run (ReadState.step sampleCodec)
      (.new sampleRead .default 1000 "events") interruptedRead).any fun state =>
        state.phase = .finished .completed ∧ state.log.items.length = 2 := by decide +kernel
  obtain ⟨state, hrun, hover⟩ := Option.any_eq_true _ _ |>.1 hrun
  obtain ⟨hphase, hitems⟩ := of_decide_eq_true hover
  exact ⟨state, hphase, hitems, ReadState.stream_ordered sampleCodec sampleRead .default 1000
    "events" state ⟨interruptedRead, hrun⟩⟩

end BigtableClient
