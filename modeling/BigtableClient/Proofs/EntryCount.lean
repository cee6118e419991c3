import BigtableClient.Proofs.BulkReport
import BigtableClient.Proofs.Completion
import BigtableClient.Proofs.Replay

/-!
# The entries in the events of a bulk mutation

The numbers that one attempt reports are those of its record, so they agree with each
other; those of the operation are sums over all batches.
-/

namespace BigtableClient

open ProofSupport.Brackets ProofSupport.Transition

/-- No entry gets lost from one event to another. -/
structure OperationTrace.ConservesEntries (trace : OperationTrace) : Prop where
  finished : ∀ operation batch number entries timeout,
    .attemptStarted operation batch number entries timeout ∈ trace.body →
      ∃ code rows successfulEntries failedEntries operation',
        .attemptFinished operation' batch number code rows successfulEntries failedEntries ∈
          trace.body
  balanced : ∀ operation operation' batch number entries timeout code rows successfulEntries
      failedEntries,
    .attemptStarted operation batch number entries timeout ∈ trace.body →
      .attemptFinished operation' batch number code rows successfulEntries failedEntries ∈
        trace.body →
        entries = successfulEntries + failedEntries
  resent : ∀ operation operation' batch number entries timeout code delay pendingEntries,
    .retryScheduled operation batch number code delay pendingEntries ∈ trace.body →
      .attemptStarted operation' batch (number + 1) entries timeout ∈ trace.body →
        pendingEntries = entries
  pending_le : ∀ operation operation' batch number code code' delay rows pendingEntries
      successfulEntries failedEntries,
    .retryScheduled operation batch number code delay pendingEntries ∈ trace.body →
      .attemptFinished operation' batch number code' rows successfulEntries failedEntries ∈
        trace.body →
        pendingEntries ≤ failedEntries
  successes : attemptSuccesses trace.body = trace.summary.successfulEntries
  total : trace.summary.successfulEntries + trace.summary.failedEntries = trace.entries

namespace OperationTrace

theorem attemptSuccesses_events (trace : OperationTrace) :
    attemptSuccesses trace.events = attemptSuccesses trace.body := by
  unfold attemptSuccesses attemptTotal
  rw [events, List.filterMap_append, List.filterMap_cons_none rfl, List.filterMap_cons_none rfl,
    List.filterMap_nil, List.append_nil]

theorem operationEnd?_events (trace : OperationTrace) :
    operationEnd? trace.events =
      some
        { code := trace.code
          attempts := trace.attempts
          retries := trace.retries
          summary := trace.summary } := by
  rw [operationEnd?, events, List.getLast?_concat]
  rfl

end OperationTrace

/-! ## The code of an attempt -/

theorem Code.fromI32_eq_ok_iff (value : Int) : Code.fromI32 value = .ok ↔ value = 0 := by
  constructor
  · intro h
    unfold fromI32 at h
    split at h
    · rfl
    all_goals cases h
  · rintro rfl
    rfl

namespace WriteAttempt

variable {attempt : WriteAttempt}

def FailsProperly (attempt : WriteAttempt) : Prop :=
  ∀ status ∈ attempt.ending.bind AttemptEnd.status, status.code ≠ .ok

theorem reportedCode_eq_ok_iff :
    attempt.reportedCode = .ok ↔
      attempt.Sound ∧ ∀ index ∈ attempt.indexes, attempt.codeOf index = some .ok := by
  have hfirst : ∀ codes : List Code,
      (codes.find? fun code => code ≠ .ok).getD .ok = .ok ↔ ∀ code ∈ codes, code = .ok := by
    intro codes
    cases hfind : codes.find? fun code => code ≠ .ok with
    | none => simpa using List.find?_eq_none.1 hfind
    | some code =>
        have hne := List.find?_some hfind
        have hmem := List.mem_of_find?_eq_some hfind
        simp only [decide_eq_true_eq] at hne
        exact ⟨fun h => absurd h hne, fun h => absurd (h code hmem) hne⟩
  unfold reportedCode
  split_ifs with h
  · rw [firstFailure, hfirst]
    refine ⟨fun hall => ⟨h.1, fun index hindex => ?_⟩, fun hall code hcode => ?_⟩
    · obtain ⟨code, hcode⟩ := Option.isSome_iff_exists.1 (h.2 index hindex)
      rw [hcode, hall code (List.mem_filterMap.2 ⟨index, hindex, hcode⟩)]
    · obtain ⟨index, hindex, hsome⟩ := List.mem_filterMap.1 hcode
      exact Option.some.inj (hsome.symm.trans (hall.2 index hindex))
  · constructor
    · intro hunknown
      cases hunknown
    · intro hall
      refine absurd ⟨hall.1, fun index hindex => ?_⟩ h
      rw [hall.2 index hindex]
      rfl

/-- An attempt sums up to OK when every entry is confirmed. -/
theorem reportedCode_eq_ok_iff_confirms (hne : attempt.indexes ≠ [])
    (hfails : attempt.FailsProperly) :
    attempt.reportedCode = .ok ↔ ∀ index ∈ attempt.indexes, attempt.Confirms index := by
  have hcode : ∀ index, attempt.codeOf index = some .ok ↔
      ∃ result, attempt.resultOf index = some result ∧ resultCode result = 0 := by
    intro index
    unfold codeOf
    cases hresult : attempt.resultOf index with
    | some result => simp [Code.fromI32_eq_ok_iff]
    | none =>
        simp only [reduceCtorEq, false_and, exists_false, iff_false]
        intro hcode
        obtain ⟨status, hstatus, hok⟩ := Option.map_eq_some_iff.1 hcode
        exact hfails status hstatus hok
  rw [reportedCode_eq_ok_iff]
  constructor
  · rintro ⟨hsound, hall⟩ index hindex
    exact ⟨hindex, hsound, (hcode index).1 (hall index hindex)⟩
  · intro hall
    obtain ⟨index, hindex⟩ := List.exists_mem_of_ne_nil _ hne
    exact ⟨(hall index hindex).sound, fun other hother => (hcode other).2 (hall other hother).ok⟩

end WriteAttempt

/-! ## One batch -/

namespace BatchRun

variable {initial : BatchOperation} {run : BatchRun} {events : List DiagnosticEvent}
  {operation operation' : BigtableOperation} {code code' : Code} {delay timeout : Duration}
  {number position entries rows pendingEntries successfulEntries failedEntries : Nat}
  {attempt : WriteAttempt}

theorem sent_of_past (h : run.past[position]? = some attempt) :
    run.sent[position]? = some attempt.indexes := by
  have hlt := (List.getElem?_eq_some_iff.1 h).1
  rw [sent, attempts, List.getElem?_map, List.getElem?_append_left hlt, h]
  rfl

namespace Reported

theorem balanced (h : Reported initial run events)
    (hstarted : .attemptStarted operation run.lane number entries timeout ∈ events)
    (hfinished : .attemptFinished operation' run.lane number code rows successfulEntries
      failedEntries ∈ events) : entries = successfulEntries + failedEntries := by
  obtain ⟨position, indexes, hnumber, hindexes, rfl⟩ := h.explained _ hstarted rfl
  obtain ⟨found, attempt, hfound, hattempt, -, -, htotal⟩ := h.explained _ hfinished rfl
  obtain rfl : found = position := by omega
  obtain rfl := Option.some.inj ((sent_of_past hattempt).symm.trans hindexes)
  exact htotal.symm

theorem resent_eq (h : Reported initial run events)
    (hretry : .retryScheduled operation run.lane number code delay pendingEntries ∈ events)
    (hstarted : .attemptStarted operation' run.lane (number + 1) entries timeout ∈ events) :
    pendingEntries = entries := by
  obtain ⟨position, attempt, hnumber, hattempt, -, -, rfl⟩ := h.explained _ hretry rfl
  obtain ⟨next, indexes, hnext, hindexes, rfl⟩ := h.explained _ hstarted rfl
  obtain rfl : next = position + 1 := by omega
  rw [h.resumed position attempt indexes hattempt hindexes]

theorem pending_le (h : Reported initial run events)
    (hretry : .retryScheduled operation run.lane number code delay pendingEntries ∈ events)
    (hfinished : .attemptFinished operation' run.lane number code' rows successfulEntries
      failedEntries ∈ events) : pendingEntries ≤ failedEntries := by
  obtain ⟨position, attempt, hnumber, hattempt, -, -, rfl⟩ := h.explained _ hretry rfl
  obtain ⟨found, other, hfound, hother, -, rfl, htotal⟩ := h.explained _ hfinished rfl
  obtain rfl : found = position := by omega
  obtain rfl := Option.some.inj (hattempt.symm.trans hother)
  have hle := initial.length_resent_add_le attempt
  omega

/-- In a batch that is over every attempt is. -/
theorem finished_of_started (h : Reported initial run events) (hover : run.phase.isFinished)
    (hstarted : .attemptStarted operation run.lane number entries timeout ∈ events) :
    ∃ code rows successfulEntries failedEntries operation',
      .attemptFinished operation' run.lane number code rows successfulEntries failedEntries ∈
        events := by
  obtain ⟨position, indexes, rfl, hindexes, -⟩ := h.explained _ hstarted rfl
  have hlt := (List.getElem?_eq_some_iff.1 hindexes).1
  have hnone : run.underWay = none := by
    unfold underWay
    cases hphase : run.phase with
    | calling current deadline telemetry attempt =>
        rw [hphase] at hover
        cases hover
    | streaming current deadline telemetry attempt progress =>
        rw [hphase] at hover
        cases hover
    | _ => rfl
  rw [sent, attempts, hnone, Option.toList_none, List.append_nil, List.length_map] at hlt
  obtain ⟨operation', code, rows, successfulEntries, failedEntries, hevent⟩ :=
    h.finished position hlt
  exact ⟨code, rows, successfulEntries, failedEntries, operation', hevent⟩

end Reported

end BatchRun

/-! ## All batches -/

theorem BatchRun.Reported.of_mem {initial : BatchOperation} {run : BatchRun}
    {events events' : List DiagnosticEvent} (h : run.Reported initial events)
    (hmem : ∀ event, event.lane? = some run.lane → (event ∈ events' ↔ event ∈ events)) :
    run.Reported initial events' where
  nonempty := h.nonempty
  explained event hevent hlane := h.explained event ((hmem event hlane).1 hevent) hlane
  finished position hposition := by
    obtain ⟨operation, code, rows, successfulEntries, failedEntries, hevent⟩ :=
      h.finished position hposition
    exact ⟨operation, code, rows, successfulEntries, failedEntries, (hmem _ rfl).2 hevent⟩
  announced position hposition := by
    obtain ⟨operation, code, delay, pendingEntries, hevent⟩ := h.announced position hposition
    exact ⟨operation, code, delay, pendingEntries, (hmem _ rfl).2 hevent⟩
  resumed := h.resumed
  resting hresting attempt hattempt := by
    obtain ⟨hpending, operation, code, delay, pendingEntries, hevent⟩ :=
      h.resting hresting attempt hattempt
    exact ⟨hpending, operation, code, delay, pendingEntries, (hmem _ rfl).2 hevent⟩

namespace BulkState

variable {codec : Codec} {initials : List BatchOperation} {state next : BulkState}
  {input : BulkInput} {events : List DiagnosticEvent}
  {result : Except BulkMutationError BulkMutationResult}

theorem prefix_collect (state : BulkState) (number : Nat) (run : BatchRun) :
    state.telemetry.state.events <+: (state.collect number run).telemetry.state.events := by
  unfold collect
  split_ifs with hover
  · dsimp only
    split_ifs
    · obtain ⟨code, summary, htelemetry⟩ :=
        BulkState.telemetry_conclude { state with completed := state.completed ++ [number] }
      rw [htelemetry, OperationTracker.finish]
      split_ifs
      · exact List.prefix_refl _
      · exact List.prefix_append _ _
    · exact List.prefix_refl _
  · exact List.prefix_refl _

/-- The events of a step come after those that were there. -/
theorem prefix_step (hinv : Inv codec initials state) (htrace : TraceInv state)
    (hstep : state.step codec input = some next) :
    state.telemetry.state.events <+: next.telemetry.state.events := by
  cases step_of_step hstep with
  | batch batchInput hrunning hcalm hrun hstart hbatch =>
      rename_i number run run' shared
      obtain ⟨initial, -, hrunInv⟩ := exists_of_forall₂ hinv.batches (List.mem_of_getElem? hrun)
      obtain ⟨⟨marks, hlogs⟩, -⟩ := BatchRun.wrote_step hrunInv
        ((htrace.running hrunning).2.batch number run hrun).2 hbatch
      obtain ⟨new, hevents, -⟩ := hlogs.events
      have hmoved : state.telemetry.state.events <+:
          (state.move number run' shared).telemetry.state.events := ⟨new, hevents.symm⟩
      exact hmoved.trans (prefix_collect _ _ _)
  | dropped hrunning horder =>
      obtain ⟨more, hevents, -⟩ := ends_drop state _
      exact ⟨more, hevents.symm⟩

structure FinalTrace (initials : List BatchOperation) (state : BulkState) (entries : Nat)
    (result : Except BulkMutationError BulkMutationResult) (trace : OperationTrace) : Prop where
  events : state.telemetry.state.events = trace.events
  entries : trace.entries = entries
  reported : AllReported initials state.batches trace.body
  lanes : ∀ event ∈ trace.body, ∃ (number : Nat) (initial : BatchOperation) (run : BatchRun),
    initials[number]? = some initial ∧ state.batches[number]? = some run ∧
      event.lane? = some run.lane
  successes : attemptSuccesses trace.body = successes state.batches
  summary : trace.summary = resultSummary result

section Run

variable (encodedLen : EncodedLen) (config : ClientConfig) (bulk : BulkMutation)
  (options : BulkMutationOptions) (deadline : Instant)

theorem head?_reachable (hoptions : options.Valid)
    (hreach : Reachable (step codec) (start encodedLen config bulk options deadline) state) :
    state.telemetry.state.events.head? =
      some (.operationStarted .mutateRows bulk.tableId.val bulk.entries.length) := by
  have hall := hreach.invariant
    (fun state => Inv codec (initialOperations encodedLen config bulk options deadline) state ∧
      TraceInv state ∧
        [DiagnosticEvent.operationStarted .mutateRows bulk.tableId.val bulk.entries.length] <+:
          state.telemetry.state.events)
    ⟨inv_start encodedLen config bulk options deadline hoptions,
      traceInv_start encodedLen config bulk options deadline, List.prefix_refl _⟩
    fun _ _ _ h hstep => ⟨inv_step h.1 hstep, traceInv_step h.1 h.2.1 hstep,
      h.2.2.trans (prefix_step h.1 h.2.1 hstep)⟩
  obtain ⟨more, hevents⟩ := hall.2.2
  rw [← hevents]
  rfl

theorem exists_finalTrace (hoptions : options.Valid)
    (hreach : Reachable (step codec) (start encodedLen config bulk options deadline) state)
    (hphase : state.phase = .finished result) :
    ∃ trace, FinalTrace (initialOperations encodedLen config bulk options deadline) state
      bulk.entries.length result trace := by
  have hinv := inv_reachable encodedLen config bulk options deadline hoptions hreach
  obtain ⟨trace, htrace, hbracketed, -⟩ :=
    (traceInv_reachable encodedLen config bulk options deadline hoptions hreach).concluded
      (by rw [hphase]; nofun)
  obtain ⟨events, last, hevents, -, hall, hsuccesses⟩ :=
    (reportInv_reachable encodedLen config bulk options deadline hoptions hreach).finished result
      hphase
  obtain ⟨reported, hend, -, hsummary⟩ :=
    (endInv_reachable encodedLen config bulk options deadline hreach).finished result hphase
  have hhead := head?_reachable encodedLen config bulk options deadline hoptions hreach
  rw [htrace] at hhead hend
  have hstarted : events = .operationStarted trace.operation trace.tableId trace.entries ::
      trace.body := (List.append_inj' (hevents.symm.trans htrace) rfl).1
  refine ⟨trace, htrace, ?_, ?_, ?_, ?_, ?_⟩
  · exact (DiagnosticEvent.operationStarted.inj (Option.some.inj hhead)).2.2
  · intro number initial run hinitial hrun
    apply (hall number initial run hinitial hrun).of_mem
    intro event hlane
    rw [hstarted, List.mem_cons]
    refine ⟨Or.inr, fun hevent => hevent.resolve_left ?_⟩
    rintro rfl
    cases hlane
  · intro event hevent
    obtain ⟨lane, hlane, mark, hmark⟩ := hbracketed.body event hevent
    obtain ⟨number, hnumber, rfl⟩ := List.mem_map.1 hlane
    have hrun := List.getElem?_eq_getElem (List.mem_range.1 hnumber)
    obtain ⟨initial, hinitial⟩ := getElem?_initials hinv.batches hrun
    refine ⟨number, initial, _, hinitial, hrun, ?_⟩
    have hbooks := (inv_of_getElem? hinv.batches hinitial hrun).books
    rw [DiagnosticEvent.lane?, hmark, BatchRun.lane, hbooks.config.batch,
      batch_of_getElem? encodedLen config bulk options deadline hinitial]
    rfl
  · rw [htrace] at hsuccesses
    exact trace.attemptSuccesses_events.symm.trans hsuccesses
  · rw [trace.operationEnd?_events] at hend
    obtain rfl := Option.some.inj hend
    exact hsummary

theorem FinalTrace.conservesEntries (hoptions : options.Valid)
    (hreach : Reachable (step codec) (start encodedLen config bulk options deadline) state)
    (hphase : state.phase = .finished result) {trace : OperationTrace}
    (h : FinalTrace (initialOperations encodedLen config bulk options deadline) state
      bulk.entries.length result trace) : trace.ConservesEntries := by
  have hinv := inv_reachable encodedLen config bulk options deadline hoptions hreach
  obtain ⟨hresult, hfinished⟩ := hinv.finished result hphase
  have hlane : ∀ event ∈ trace.body, ∃ (run : BatchRun) (lane : Option Nat)
      (initial : BatchOperation), event.lane? = some lane ∧ run.lane = lane ∧
        run.phase.isFinished ∧ run.Reported initial trace.body := by
    intro event hevent
    obtain ⟨number, initial, run, hinitial, hrun, hlane⟩ := h.lanes event hevent
    exact ⟨run, _, initial, hlane, rfl, hfinished run (List.mem_of_getElem? hrun),
      h.reported number initial run hinitial hrun⟩
  refine ⟨?_, ?_, ?_, ?_, ?_, ?_⟩
  · intro operation batch number entries timeout hstarted
    obtain ⟨run, lane, initial, hevent, rfl, hover, hreported⟩ := hlane _ hstarted
    obtain rfl : batch = run.lane := Option.some.inj hevent
    exact hreported.finished_of_started hover hstarted
  · intro operation operation' batch number entries timeout code rows successfulEntries
      failedEntries hstarted hended
    obtain ⟨run, lane, initial, hevent, rfl, hover, hreported⟩ := hlane _ hstarted
    obtain rfl : batch = run.lane := Option.some.inj hevent
    exact hreported.balanced hstarted hended
  · intro operation operation' batch number entries timeout code delay pendingEntries hretry
      hstarted
    obtain ⟨run, lane, initial, hevent, rfl, hover, hreported⟩ := hlane _ hretry
    obtain rfl : batch = run.lane := Option.some.inj hevent
    exact hreported.resent_eq hretry hstarted
  · intro operation operation' batch number code code' delay rows pendingEntries
      successfulEntries failedEntries hretry hended
    obtain ⟨run, lane, initial, hevent, rfl, hover, hreported⟩ := hlane _ hretry
    obtain rfl : batch = run.lane := Option.some.inj hevent
    exact hreported.pending_le hretry hended
  · obtain ⟨hgathered, -⟩ := gathered_eq hinv hfinished
    rw [h.successes, h.summary, hresult, BulkState.result]
    split_ifs
    · exact hgathered.symm
    · exact hgathered.symm
  · have htotal := (sameSizes_reachable encodedLen config bulk options deadline hreach).1
    have hreports :=
      reports_result encodedLen config bulk options deadline hoptions hinv htotal hfinished
    rw [h.entries, h.summary]
    rw [← hresult] at hreports
    cases result with
    | ok value =>
        show value.entries + 0 = _
        exact hreports.1
    | error error => exact hreports.2.2.total

/-- The events between the first and the last one agree with each other about the entries of every
attempt, retry and of the whole operation; and the code of every attempt, unless its RPC fails with
code OK, is OK exactly when all of its entries were confirmed. -/
def ConservesEntries (bulk : BulkMutation) (state : BulkState) : Prop :=
  ∃ trace : OperationTrace, state.telemetry.state.events = trace.events ∧
    trace.entries = bulk.entries.length ∧ trace.ConservesEntries ∧
    ∀ operation batch number code rows successfulEntries failedEntries,
      .attemptFinished operation batch number code rows successfulEntries failedEntries ∈
          trace.body →
        ∃ index run position attempt, batch = some index ∧ number = position + 1 ∧
          state.batches[index]? = some run ∧ run.attempts[position]? = some attempt ∧
          (attempt.FailsProperly →
            (code = .ok ↔ ∀ index ∈ attempt.indexes, attempt.Confirms index))

theorem conservesEntries_of_finished (hoptions : options.Valid)
    (hreach : Reachable (step codec) (start encodedLen config bulk options deadline) state)
    (hphase : state.phase = .finished result) : ConservesEntries bulk state := by
  obtain ⟨trace, htrace⟩ :=
    exists_finalTrace encodedLen config bulk options deadline hoptions hreach hphase
  refine ⟨trace, htrace.events, htrace.entries,
    htrace.conservesEntries encodedLen config bulk options deadline hoptions hreach hphase, ?_⟩
  intro operation batch number code rows successfulEntries failedEntries hended
  obtain ⟨index, initial, run, hinitial, hrun, hlane⟩ := htrace.lanes _ hended
  have hreported := htrace.reported index initial run hinitial hrun
  obtain ⟨position, attempt, hnumber, hattempt, rfl, -, -⟩ := hreported.explained _ hended hlane
  have hinv := inv_reachable encodedLen config bulk options deadline hoptions hreach
  have hbooks := (inv_of_getElem? hinv.batches hinitial hrun).books
  have hne : attempt.indexes ≠ [] :=
    hreported.nonempty _ (List.mem_of_getElem? (BatchRun.sent_of_past hattempt))
  refine ⟨index, run, position, attempt, ?_, hnumber, hrun, ?_,
    attempt.reportedCode_eq_ok_iff_confirms hne⟩
  · rw [← batch_of_getElem? encodedLen config bulk options deadline hinitial,
      ← hbooks.config.batch]
    exact Option.some.inj hlane
  · have hlt := (List.getElem?_eq_some_iff.1 hattempt).1
    rw [BatchRun.attempts, List.getElem?_append_left hlt, hattempt]

/-- The drop guard reports no entries. -/
theorem not_conservesEntries_of_panicked (hoptions : options.Valid)
    (hreach : Reachable (step codec) (start encodedLen config bulk options deadline) state)
    (hphase : state.phase = .panicked) : ¬ ConservesEntries bulk state := by
  rintro ⟨trace, htrace, hentries, hconserves, -⟩
  obtain ⟨reported, hend, hsummary⟩ :=
    (endInv_reachable encodedLen config bulk options deadline hreach).dropped (by rw [hphase]; rfl)
  rw [htrace, trace.operationEnd?_events] at hend
  obtain rfl := Option.some.inj hend
  have htotal := hconserves.total
  rw [show trace.summary = {} from hsummary, hentries] at htotal
  exact entries_ne_nil_of_panicked encodedLen config bulk options deadline hoptions hreach hphase
    (List.length_eq_zero_iff.1 htotal.symm)

/-- Bulk diagnostics conserve entries, unless a step panics.  In every run that is over and was not
cancelled, whatever the server does and however the batches interleave, the events agree with each
other about the entries exactly when every step withstood. -/
theorem diagnostics_conserve_entries (codec : Codec) (hoptions : validateOptions options = .ok ())
    {inputs : List BulkInput}
    (hrun : run (step codec) (start encodedLen config bulk options deadline) inputs = some state)
    (hover : state.phase ≠ .running) (hcancelled : state.phase ≠ .cancelled) :
    ConservesEntries bulk state ↔ Along (step codec) (Withstands codec)
      (start encodedLen config bulk options deadline) inputs := by
  have hvalid := BulkMutationOptions.valid_of_validateOptions hoptions
  rw [← finished_iff_along encodedLen config bulk options deadline hvalid hrun hover hcancelled]
  cases hphase : state.phase with
  | running => exact absurd hphase hover
  | cancelled => exact absurd hphase hcancelled
  | finished result =>
      exact iff_of_true
        (conservesEntries_of_finished encodedLen config bulk options deadline hvalid ⟨inputs, hrun⟩
          hphase)
        ⟨result, rfl⟩
  | panicked =>
      refine iff_of_false
        (not_conservesEntries_of_panicked encodedLen config bulk options deadline hvalid
          ⟨inputs, hrun⟩ hphase) ?_
      rintro ⟨result, hresult⟩
      cases hresult

end Run

end BulkState

theorem BulkState.diagnostics_conserve_entries_mixedRun :
    ∃ state trace, mixedRun = some state ∧ state.telemetry.state.events =
      OperationTrace.events trace ∧ trace.ConservesEntries ∧
      trace.summary.successfulEntries + trace.summary.failedEntries = 3 := by
  have hover : mixedRun.map BulkState.phase = some (.finished mixedResult) := by decide +kernel
  obtain ⟨state, hrun, hphase⟩ := Option.map_eq_some_iff.1 hover
  have hrunning : state.phase ≠ .running := by
    rw [hphase]
    nofun
  have hcancelled : state.phase ≠ .cancelled := by
    rw [hphase]
    nofun
  have halong := (BulkState.finished_iff_along wireLen bulkConfig sampleBulk pairOptions
    600000000000 (BulkMutationOptions.valid_of_validateOptions validateOptions_pair) hrun hrunning
      hcancelled).1
      ⟨mixedResult, hphase⟩
  obtain ⟨trace, hevents, hentries, hconserves, -⟩ := (BulkState.diagnostics_conserve_entries
    wireLen bulkConfig sampleBulk pairOptions 600000000000 plainCodec validateOptions_pair hrun
      hrunning hcancelled).2 halong
  exact ⟨state, trace, hrun, hevents, hconserves, hconserves.total.trans hentries⟩

/-- Two entries were confirmed, and the drop guard reports none. -/
theorem BulkState.not_conservesEntries_endlessInputs :
    validateOptions endlessOptions = .ok () ∧
      ∃ state, run (BulkState.step plainCodec)
          (.start wireLen bulkConfig sampleBulk endlessOptions 600000000000) endlessInputs =
            some state ∧
        state.phase = .panicked ∧
        (operationEnd? state.telemetry.state.events).map OperationEnd.summary = some {} ∧
        ¬ BulkState.ConservesEntries sampleBulk state := by
  have hvalid : validateOptions endlessOptions = .ok () := by decide +kernel
  have hover : (run (BulkState.step plainCodec)
      (.start wireLen bulkConfig sampleBulk endlessOptions 600000000000) endlessInputs).map
        (fun state => (state.phase,
          (operationEnd? state.telemetry.state.events).map OperationEnd.summary)) =
            some (.panicked, some {}) := by
    decide +kernel
  obtain ⟨state, hrun, hstate⟩ := Option.map_eq_some_iff.1 hover
  obtain ⟨hphase, hsummary⟩ := Prod.mk.inj hstate
  exact ⟨hvalid, state, hrun, hphase, hsummary,
    BulkState.not_conservesEntries_of_panicked wireLen bulkConfig sampleBulk endlessOptions
      600000000000 (BulkMutationOptions.valid_of_validateOptions hvalid) ⟨endlessInputs, hrun⟩
      hphase⟩

end BigtableClient
