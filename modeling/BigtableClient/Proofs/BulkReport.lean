import BigtableClient.Proofs.BatchReport
import BigtableClient.Proofs.BulkTrace

/-!
# What the events of a bulk mutation report

The batches report to lanes of their own, so each report stays as it is while the other
batches go on, and the successes of all attempts are those of all batches.
-/

namespace BigtableClient

def DiagnosticEvent.isRetry : DiagnosticEvent → Bool
  | .retryScheduled _ _ _ _ _ _ => true
  | _ => false

namespace BulkState

open ProofSupport.Brackets ProofSupport.Transition

variable {codec : Codec} {initials : List BatchOperation} {state next : BulkState}
  {input : BulkInput} {batches : List BatchRun} {shared shared' : OperationState}
  {events : List DiagnosticEvent}

def AllReported (initials : List BatchOperation) (batches : List BatchRun)
    (events : List DiagnosticEvent) : Prop :=
  ∀ (number : Nat) (initial : BatchOperation) (run : BatchRun),
    initials[number]? = some initial → batches[number]? = some run →
      run.Reported initial events

def successes (batches : List BatchRun) : Nat :=
  (batches.map fun run => run.operation.successful).sum

structure ReportInv (initials : List BatchOperation) (state : BulkState) : Prop where
  running : state.phase = .running →
    AllReported initials state.batches state.telemetry.state.events ∧
      attemptSuccesses state.telemetry.state.events = successes state.batches
  finished : ∀ result, state.phase = .finished result →
    ∃ events last, state.telemetry.state.events = events ++ [last] ∧ last.mark? = none ∧
      AllReported initials state.batches events ∧
      attemptSuccesses state.telemetry.state.events = successes state.batches
  dropped : state.phase.isDropped →
    ∃ events more, state.telemetry.state.events = events ++ more ∧
      (∀ event ∈ more, event.isRetry = false) ∧ AllReported initials state.batches events

theorem inv_of_getElem? {number : Nat} {initial : BatchOperation} {run : BatchRun}
    (h : List.Forall₂ (BatchRun.Inv codec) initials batches)
    (hinitial : initials[number]? = some initial) (hrun : batches[number]? = some run) :
    BatchRun.Inv codec initial run := by
  induction h generalizing number with
  | nil => cases hrun
  | cons hhead htail ih =>
      cases number with
      | zero =>
          obtain rfl := Option.some.inj hinitial
          obtain rfl := Option.some.inj hrun
          exact hhead
      | succ number => exact ih hinitial hrun

theorem getElem?_initials {number : Nat} {run : BatchRun}
    (h : List.Forall₂ (BatchRun.Inv codec) initials batches)
    (hrun : batches[number]? = some run) : ∃ initial, initials[number]? = some initial := by
  obtain ⟨hlt, -⟩ := List.getElem?_eq_some_iff.1 hrun
  exact ⟨_, List.getElem?_eq_getElem (h.length_eq ▸ hlt)⟩

/-! ## Steps -/

theorem AllReported.set {number : Nat} {run run' : BatchRun} {batchInput : BatchInput}
    (h : AllReported initials batches shared.events)
    (hinvs : List.Forall₂ (BatchRun.Inv codec) initials batches)
    (htraced : Traced batches shared) (hrun : batches[number]? = some run)
    (hstep : run.step codec shared batchInput = some (run', shared')) :
    AllReported initials (batches.set number run') shared'.events := by
  intro other initial found hinitial hfound
  obtain ⟨hnumber, hrunTraced⟩ := htraced.batch number run hrun
  rw [getElem?_set_run hrun] at hfound
  split_ifs at hfound with heq
  · subst heq
    obtain rfl := Option.some.inj hfound
    have hinv := inv_of_getElem? hinvs hinitial hrun
    exact BatchRun.reported_move hinv hrunTraced (h number initial run hinitial hrun)
      (BatchRun.move_of_step hstep)
  · obtain ⟨hother, -⟩ := htraced.batch other found hfound
    obtain ⟨initialOf, -, hinv⟩ := exists_of_forall₂ hinvs (List.mem_of_getElem? hrun)
    obtain ⟨⟨marks, hlogs⟩, -⟩ := BatchRun.wrote_step hinv hrunTraced hstep
    obtain ⟨new, hevents, hmarks⟩ := hlogs.events
    rw [hevents]
    apply (h other initial found hinitial hfound).frame
    intro event hevent hlane
    have hmark := List.mem_map_of_mem (f := DiagnosticEvent.mark?) hevent
    rw [hmarks] at hmark
    obtain ⟨mark, -, hmark⟩ := List.mem_map.1 hmark
    rw [DiagnosticEvent.lane?, ← hmark] at hlane
    have hsame : run.lane = found.lane := Option.some.inj hlane
    rw [BatchRun.lane, BatchRun.lane, hnumber, hother] at hsame
    exact heq (Option.some.inj hsame)

theorem reportInv_conclude (hall : AllReported initials state.batches state.telemetry.state.events)
    (hsuccesses : attemptSuccesses state.telemetry.state.events = successes state.batches)
    (hunfinished : state.telemetry.finished = false) : ReportInv initials state.conclude := by
  obtain ⟨code, summary, htelemetry⟩ := state.telemetry_conclude
  have hbatches : state.conclude.batches = state.batches := by rw [conclude_eq]
  refine ⟨?_, ?_, ?_⟩
  · rw [conclude_eq]
    intro hrunning
    cases hrunning
  · intro result _
    rw [htelemetry, hbatches, OperationTracker.finish, if_neg (by simp [hunfinished])]
    refine ⟨_, _, rfl, rfl, hall, ?_⟩
    exact (attemptTotal_recordFinish _ _ _ _).trans hsuccesses
  · rw [conclude_eq]
    intro hdropped
    cases hdropped

theorem reportInv_collect {number : Nat} {run : BatchRun} (h : ReportInv initials state)
    (hrunning : state.phase = .running) (hunfinished : state.telemetry.finished = false) :
    ReportInv initials (state.collect number run) := by
  obtain ⟨hall, hsuccesses⟩ := h.running hrunning
  unfold collect
  split_ifs
  · dsimp only
    split_ifs
    · exact reportInv_conclude hall hsuccesses hunfinished
    · exact ⟨h.running, h.finished, h.dropped⟩
  · exact h

def Ends (events events' : List DiagnosticEvent) : Prop :=
  ∃ more, events' = events ++ more ∧ ∀ event ∈ more, event.isRetry = false

theorem Ends.refl (events : List DiagnosticEvent) : Ends events events :=
  ⟨[], (List.append_nil _).symm, List.forall_mem_nil _⟩

theorem Ends.trans {events' events'' : List DiagnosticEvent} (h : Ends events events')
    (h' : Ends events' events'') : Ends events events'' := by
  obtain ⟨more, rfl, hmore⟩ := h
  obtain ⟨more', rfl, hmore'⟩ := h'
  refine ⟨more ++ more', List.append_assoc _ _ _, fun event hevent => ?_⟩
  rcases List.mem_append.1 hevent with hevent | hevent
  · exact hmore event hevent
  · exact hmore' event hevent

theorem Ends.single {event : DiagnosticEvent} (h : event.isRetry = false) :
    Ends events (events ++ [event]) :=
  ⟨[event], rfl, fun _ hother => List.mem_singleton.1 hother ▸ h⟩

theorem ends_dropAttempt (batches : List BatchRun) (shared : OperationState) (number : Nat) :
    Ends shared.events (dropAttempt batches shared number).events := by
  unfold dropAttempt
  split
  · exact .refl _
  · unfold AttemptTracker.drop
    split_ifs
    · exact .refl _
    · exact .single rfl

theorem ends_drop (state : BulkState) (order : List Nat) :
    Ends state.telemetry.state.events (state.drop order).telemetry.state.events := by
  have hfold : ∀ (order : List Nat) (shared : OperationState),
      Ends shared.events (order.foldl (dropAttempt state.batches) shared).events := by
    intro order
    induction order with
    | nil => exact fun shared => .refl _
    | cons number order ih => exact fun shared => (ends_dropAttempt _ _ _).trans (ih _)
  apply (hfold order state.telemetry.state).trans
  show Ends _ (OperationTracker.drop
    { state.telemetry with
      state := order.foldl (dropAttempt state.batches) state.telemetry.state }).state.events
  unfold OperationTracker.drop
  split_ifs
  · exact .refl _
  · exact .single rfl

theorem reportInv_step (hinv : Inv codec initials state) (htrace : TraceInv state)
    (h : ReportInv initials state) (hstep : state.step codec input = some next) :
    ReportInv initials next := by
  cases step_of_step hstep with
  | batch batchInput hrunning hcalm hrun hstart hbatch =>
      rename_i number run run' shared
      obtain ⟨hall, hsuccesses⟩ := h.running hrunning
      obtain ⟨hunfinished, htraced⟩ := htrace.running hrunning
      obtain ⟨successful, hgrown, hreported⟩ :=
        BatchRun.succeeds_move (htraced.batch number run hrun).2 (BatchRun.move_of_step hbatch)
      have hmoved : (state.move number run' shared).phase = .running := hrunning
      refine reportInv_collect ⟨fun _ => ⟨?_, ?_⟩, fun result hresult => ?_, fun hphase => ?_⟩
        hmoved hunfinished
      · exact hall.set hinv.batches htraced hrun hbatch
      · have hsum : successes (state.batches.set number run') =
            successes state.batches + successful := sum_map_set hrun hgrown
        exact hreported.trans (hsuccesses ▸ hsum.symm)
      · rw [hmoved] at hresult
        cases hresult
      · rw [hmoved] at hphase
        cases hphase
  | dropped hrunning horder =>
      obtain ⟨hall, -⟩ := h.running hrunning
      obtain ⟨more, hevents, hmore⟩ := ends_drop state _
      exact ⟨fun hphase => absurd hphase (phase_drop_ne_running _ _),
        fun _ hphase => absurd hphase (phase_drop_ne_finished _ _ _),
        fun _ => ⟨_, more, hevents, hmore, hall⟩⟩

/-! ## Runs -/

section Run

variable (encodedLen : EncodedLen) (config : ClientConfig) (bulk : BulkMutation)
  (options : BulkMutationOptions) (deadline : Instant)

theorem reportInv_start :
    ReportInv (initialOperations encodedLen config bulk options deadline)
      (start encodedLen config bulk options deadline) := by
  refine ⟨fun _ => ⟨?_, ?_⟩, nofun, nofun⟩
  · intro number initial run _ hrun
    obtain ⟨entries, -, rfl⟩ := getElem?_start encodedLen config bulk options deadline hrun
    apply BatchRun.reported_of_fresh rfl rfl
    intro event hevent
    rw [List.mem_singleton.1 hevent]
    rfl
  · have hnone : ∀ run ∈ (start encodedLen config bulk options deadline).batches,
        run.operation.successful = 0 := by
      intro run hrun
      obtain ⟨entries, -, number, rfl⟩ := mem_start encodedLen config bulk options deadline hrun
      rfl
    have hzero : successes (start encodedLen config bulk options deadline).batches = 0 := by
      rw [successes, List.map_congr_left hnone]
      simp
    rw [hzero]
    rfl

theorem batch_of_getElem? {number : Nat} {initial : BatchOperation}
    (h : (initialOperations encodedLen config bulk options deadline)[number]? = some initial) :
    initial.batch = number := by
  obtain ⟨run, hrun, rfl⟩ := Option.map_eq_some_iff.1 ((List.getElem?_map ..).symm.trans h)
  obtain ⟨entries, -, rfl⟩ := getElem?_start encodedLen config bulk options deadline hrun
  rfl

theorem reportInv_reachable (hoptions : options.Valid)
    (hreach : Reachable (step codec) (start encodedLen config bulk options deadline) state) :
    ReportInv (initialOperations encodedLen config bulk options deadline) state := by
  have hall := hreach.invariant
    (fun state => Inv codec (initialOperations encodedLen config bulk options deadline) state ∧
      TraceInv state ∧
        ReportInv (initialOperations encodedLen config bulk options deadline) state)
    ⟨inv_start encodedLen config bulk options deadline hoptions,
      traceInv_start encodedLen config bulk options deadline,
      reportInv_start encodedLen config bulk options deadline⟩
    fun _ _ _ h hstep => ⟨inv_step h.1 hstep, traceInv_step h.1 h.2.1 hstep,
      reportInv_step h.1 h.2.1 h.2.2 hstep⟩
  exact hall.2.2

end Run

end BulkState

end BigtableClient
