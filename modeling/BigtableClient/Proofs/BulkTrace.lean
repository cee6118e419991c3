import BigtableClient.Proofs.BatchTrace
import BigtableClient.Proofs.BulkInvariant

/-!
# The trace of a bulk mutation

The batches write to lanes of their own, so a step of one of them leaves the lanes of
the others in order.  When the operation is over, because every batch is or because
the future was dropped, every lane is closed.
-/

namespace BigtableClient.BulkState

open ProofSupport.Brackets ProofSupport.Transition

variable {codec : Codec} {initials : List BatchOperation} {state next : BulkState}
  {input : BulkInput} {batches : List BatchRun} {shared shared' : OperationState}

def lanes (count : Nat) : List (Option Nat) := (List.range count).map some

theorem nodup_lanes (count : Nat) : (lanes count).Nodup :=
  List.nodup_range.map fun _ _ h => Option.some.inj h

theorem mem_lanes {count number : Nat} : some number ∈ lanes count ↔ number < count := by
  simp [lanes]

structure Traced (batches : List BatchRun) (shared : OperationState) : Prop where
  journal : Journal (lanes batches.length) shared
  batch : ∀ (number : Nat) (run : BatchRun), batches[number]? = some run →
    run.operation.batch = number ∧ run.Traced shared

def AllClosed (batches : List BatchRun) (events : List DiagnosticEvent) : Prop :=
  ∀ (number : Nat) (run : BatchRun), batches[number]? = some run →
    Closed (laneMarks (some number) events) run.attempts.length

/-! ## Steps -/

theorem Traced.set {number : Nat} {run run' : BatchRun} (h : Traced batches shared)
    (hrun : batches[number]? = some run) (hwrote : run.Wrote shared run' shared')
    (hbatch : run'.operation.batch = run.operation.batch) :
    Traced (batches.set number run') shared' := by
  obtain ⟨⟨marks, hlogs⟩, htraced⟩ := hwrote
  have hnumber := (h.batch number run hrun).1
  have hlt := (List.getElem?_eq_some_iff.1 hrun).1
  refine ⟨?_, fun other found hfound => ?_⟩
  · rw [List.length_set]
    exact h.journal.logs (mem_lanes.2 (hnumber ▸ hlt)) hlogs
  · rw [getElem?_set_run hrun] at hfound
    split_ifs at hfound with heq
    · obtain rfl := Option.some.inj hfound
      exact ⟨hbatch.trans (hnumber.trans heq), htraced⟩
    · obtain ⟨hother, hotherTraced⟩ := h.batch other found hfound
      refine ⟨hother, hotherTraced.frame hlogs fun hlane => heq ?_⟩
      rw [← hnumber, ← hother]
      exact Option.some.inj hlane

theorem length_attempts (run : BatchRun) :
    run.attempts.length = run.past.length + if run.phase.telemetry.isSome then 1 else 0 := by
  rw [BatchRun.attempts, List.length_append, BatchRun.underWay]
  cases run.phase <;> rfl

/-- When all batches are over, no attempt is open. -/
theorem Traced.allClosed (h : Traced batches shared)
    (hfinished : ∀ run ∈ batches, run.phase.isFinished) : AllClosed batches shared.events := by
  intro number run hrun
  obtain ⟨hbatch, htraced⟩ := h.batch number run hrun
  have hphase := hfinished run (List.mem_of_getElem? hrun)
  have hnone : run.phase.telemetry = none := by
    cases hrunPhase : run.phase with
    | finished => rfl
    | _ =>
        rw [hrunPhase] at hphase
        cases hphase
  have hclosed := htraced.closed hnone
  rw [BatchRun.lane, hbatch] at hclosed
  rw [length_attempts, hnone]
  exact hclosed

/-! ## Dropping the future -/

def dropAttempt (batches : List BatchRun) (shared : OperationState) (number : Nat) :
    OperationState :=
  match batches[number]?.bind fun run => run.phase.telemetry with
  | none => shared
  | some telemetry => telemetry.drop shared

theorem logs_dropAttempt {number : Nat} {run : BatchRun} (hrun : batches[number]? = some run)
    (hbatch : run.operation.batch = number) (htraced : run.Traced shared) :
    (∃ marks, shared.Logs (some number) marks (dropAttempt batches shared number)) ∧
      Closed (laneMarks (some number) (dropAttempt batches shared number).events)
        run.attempts.length := by
  subst hbatch
  unfold dropAttempt
  rw [hrun, Option.bind_some]
  cases htelemetry : run.phase.telemetry with
  | none =>
      rw [length_attempts, htelemetry]
      exact ⟨⟨[], .refl _ _⟩, htraced.closed htelemetry⟩
  | some telemetry =>
      obtain ⟨hlogs, hfresh⟩ := (htraced.isOpen htelemetry).drop
      rw [length_attempts, htelemetry]
      exact ⟨⟨_, hlogs⟩, hfresh.closed⟩

/-- The guards run one after the other; the lanes that are still to come stay as they are. -/
theorem closed_foldl_dropAttempt {order : List Nat} (hnodup : order.Nodup)
    (hjournal : Journal (lanes batches.length) shared)
    (htraced : ∀ number ∈ order, ∃ run, batches[number]? = some run ∧
      run.operation.batch = number ∧ run.Traced shared)
    (hclosed : ∀ number run, batches[number]? = some run → number ∉ order →
      Closed (laneMarks (some number) shared.events) run.attempts.length) :
    Journal (lanes batches.length) (order.foldl (dropAttempt batches) shared) ∧
      AllClosed batches (order.foldl (dropAttempt batches) shared).events := by
  induction order generalizing shared with
  | nil => exact ⟨hjournal, fun number run hrun => hclosed number run hrun (by simp)⟩
  | cons number order ih =>
      obtain ⟨hnumber, hrest⟩ := List.nodup_cons.1 hnodup
      obtain ⟨run, hrun, hbatch, hrunTraced⟩ := htraced number List.mem_cons_self
      obtain ⟨⟨marks, hlogs⟩, hrunClosed⟩ := logs_dropAttempt hrun hbatch hrunTraced
      have hlt := (List.getElem?_eq_some_iff.1 hrun).1
      refine ih hrest (hjournal.logs (mem_lanes.2 hlt) hlogs) ?_ ?_
      · intro other hother
        obtain ⟨found, hfound, hfoundBatch, hfoundTraced⟩ :=
          htraced other (List.mem_cons_of_mem _ hother)
        refine ⟨found, hfound, hfoundBatch, hfoundTraced.frame hlogs fun hlane => hnumber ?_⟩
        rw [Option.some.inj hlane, hfoundBatch]
        exact hother
      · intro other found hfound hother
        by_cases heq : other = number
        · subst heq
          obtain rfl := Option.some.inj (hrun.symm.trans hfound)
          exact hrunClosed
        · rw [hlogs.laneMarks_ne fun hlane => heq (Option.some.inj hlane).symm]
          exact hclosed other found hfound (by simp [heq, hother])

/-! ## The invariant -/

def TraceOver (batches : List BatchRun) (events : List DiagnosticEvent) : Prop :=
  ∃ trace : OperationTrace, events = trace.events ∧
    trace.WellBracketed (lanes batches.length) ∧ AllClosed batches trace.body

structure TraceInv (state : BulkState) : Prop where
  running : state.phase = .running → state.telemetry.finished = false ∧
    Traced state.batches state.telemetry.state
  concluded : state.phase ≠ .running → TraceOver state.batches state.telemetry.state.events

theorem traceOver_recordFinish {tracker : OperationTracker}
    (hjournal : Journal (lanes batches.length) tracker.state)
    (hclosed : AllClosed batches tracker.state.events) (code : Code)
    (summary : OperationSummary) :
    TraceOver batches (tracker.recordFinish code summary).state.events := by
  have hlanes : ∀ lane ∈ lanes batches.length,
      ∃ count, Closed (laneMarks lane tracker.state.events) count := by
    intro lane hlane
    obtain ⟨number, hnumber, rfl⟩ := List.mem_map.1 hlane
    have hlt := List.mem_range.1 hnumber
    exact ⟨_, hclosed number batches[number] (List.getElem?_eq_getElem hlt)⟩
  obtain ⟨trace, hevents, hbracketed, -, hmarks⟩ := hjournal.recordFinish hlanes code summary
  refine ⟨trace, hevents, hbracketed, fun number run hrun => ?_⟩
  rw [hmarks]
  exact hclosed number run hrun

theorem traceInv_conclude (h : Traced state.batches state.telemetry.state)
    (hunfinished : state.telemetry.finished = false)
    (hfinished : ∀ run ∈ state.batches, run.phase.isFinished) : TraceInv state.conclude := by
  obtain ⟨code, summary, htelemetry⟩ := state.telemetry_conclude
  have hphase : state.conclude.phase ≠ .running := by
    rw [conclude_eq]
    nofun
  have hbatches : state.conclude.batches = state.batches := by rw [conclude_eq]
  refine ⟨fun hrunning => absurd hrunning hphase, fun _ => ?_⟩
  rw [htelemetry, hbatches, OperationTracker.finish, if_neg (by simp [hunfinished])]
  exact traceOver_recordFinish h.journal (h.allClosed hfinished) code summary

theorem traceInv_collect {number : Nat} {run : BatchRun}
    (h : Traced state.batches state.telemetry.state)
    (hunfinished : state.telemetry.finished = false) (hrunning : state.phase = .running) :
    TraceInv (state.collect number run) := by
  have hsame : TraceInv state := ⟨fun _ => ⟨hunfinished, h⟩, fun hover => absurd hrunning hover⟩
  unfold collect
  split_ifs
  · dsimp only
    split_ifs with hall
    · exact traceInv_conclude h hunfinished (List.all_eq_true.1 hall)
    · exact ⟨hsame.running, hsame.concluded⟩
  · exact hsame

theorem traceInv_drop {order : List Nat} (h : Traced state.batches state.telemetry.state)
    (hunfinished : state.telemetry.finished = false)
    (horder : order.Perm (List.range state.batches.length)) : TraceInv (state.drop order) := by
  refine ⟨fun hphase => absurd hphase (phase_drop_ne_running _ _), fun _ => ?_⟩
  have htraced : ∀ number ∈ order, ∃ run, state.batches[number]? = some run ∧
      run.operation.batch = number ∧ run.Traced state.telemetry.state := by
    intro number hnumber
    have hlt := List.mem_range.1 (horder.mem_iff.1 hnumber)
    have hrun := List.getElem?_eq_getElem hlt
    exact ⟨_, hrun, h.batch number _ hrun⟩
  obtain ⟨hjournal, hclosed⟩ := closed_foldl_dropAttempt (horder.nodup_iff.2 List.nodup_range)
    h.journal htraced fun number run hrun hnot => absurd
      (horder.mem_iff.2 (List.mem_range.2 (List.getElem?_eq_some_iff.1 hrun).1)) hnot
  have htelemetry : (state.drop order).telemetry =
      { state.telemetry with
        state := order.foldl (dropAttempt state.batches) state.telemetry.state }.drop := rfl
  rw [htelemetry, OperationTracker.drop, if_neg (by simp [hunfinished])]
  exact traceOver_recordFinish hjournal hclosed .cancelled {}

theorem traceInv_step (hinv : Inv codec initials state) (h : TraceInv state)
    (hstep : state.step codec input = some next) : TraceInv next := by
  cases step_of_step hstep with
  | batch batchInput hrunning hcalm hrun hstart hbatch =>
      rename_i number run run' shared
      obtain ⟨hunfinished, htraced⟩ := h.running hrunning
      obtain ⟨initial, -, hrunInv⟩ := exists_of_forall₂ hinv.batches (List.mem_of_getElem? hrun)
      have hwrote := BatchRun.wrote_step hrunInv (htraced.batch number run hrun).2 hbatch
      have hset := htraced.set hrun hwrote (BatchRun.batch_step hrunInv hbatch)
      exact traceInv_collect hset hunfinished hrunning
  | dropped hrunning horder =>
      obtain ⟨hunfinished, htraced⟩ := h.running hrunning
      exact traceInv_drop htraced hunfinished horder

/-! ## Runs -/

section Run

variable (encodedLen : EncodedLen) (config : ClientConfig) (bulk : BulkMutation)
  (options : BulkMutationOptions) (deadline : Instant)

theorem traceInv_start : TraceInv (start encodedLen config bulk options deadline) where
  running _ := by
    refine ⟨rfl, journal_start _ _ _ _, fun number run hrun => ?_⟩
    obtain ⟨entries, -, rfl⟩ := getElem?_start encodedLen config bulk options deadline hrun
    exact ⟨rfl, (BatchRun.traced_of_none rfl).2 closed_nil⟩
  concluded hover := absurd rfl hover

theorem traceInv_reachable (hoptions : options.Valid)
    (hreach : Reachable (step codec) (start encodedLen config bulk options deadline) state) :
    TraceInv state := by
  have hboth := hreach.invariant
    (fun state => Inv codec (initialOperations encodedLen config bulk options deadline) state ∧
      TraceInv state)
    ⟨inv_start encodedLen config bulk options deadline hoptions,
      traceInv_start encodedLen config bulk options deadline⟩
    fun _ _ _ hinv hstep => ⟨inv_step hinv.1 hstep, traceInv_step hinv.1 hinv.2 hstep⟩
  exact hboth.2

end Run

/-- The attempts that the events report are the requests that were issued. -/
theorem countMarks_start (events : List DiagnosticEvent)
    (hlanes : ∀ event ∈ events, ∃ lane ∈ lanes batches.length, ∃ mark,
      event.mark? = some (lane, mark)) (hclosed : AllClosed batches events) :
    countMarks .start events = (batches.map fun run => run.attempts.length).sum := by
  rw [countMarks_eq_sum (nodup_lanes _) .start hlanes, lanes, List.map_map]
  refine congrArg List.sum (List.ext_getElem (by simp) fun number hnumber hlt => ?_)
  rw [List.length_map] at hlt
  rw [List.getElem_map, List.getElem_map, List.getElem_range]
  exact (hclosed number batches[number] (List.getElem?_eq_getElem hlt)).countP_start

end BigtableClient.BulkState
