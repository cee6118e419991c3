import BigtableClient.ProofSupport.Window
import BigtableClient.Proofs.Outcome

/-!
# The requests in flight

The batches of a bulk mutation go through a window: they start in their order, at
most `max_in_flight_requests` of them are under way at a time, and no slot stays empty
as long as a batch waits.  No two requests in flight carry the same entry.
-/

namespace BigtableClient

open ProofSupport.Transition ProofSupport.Window

/-! ## The batches as jobs -/

def BatchPhase.stage : BatchPhase → Stage
  | .waiting => .queued
  | .finished => .done
  | _ => .active

def BatchRun.stage (run : BatchRun) : Stage := run.phase.stage

namespace BatchRun

variable {codec : Codec} {run run' : BatchRun} {shared shared' : OperationState}
  {input : BatchInput}

theorem stage_eq_queued : run.stage = .queued ↔ run.phase.isWaiting = true := by
  rw [stage]
  cases run.phase <;> simp [BatchPhase.stage, BatchPhase.isWaiting]

theorem stage_eq_active :
    run.stage = .active ↔ run.phase.isWaiting = false ∧ run.phase.isFinished = false := by
  rw [stage]
  cases run.phase <;> simp [BatchPhase.stage, BatchPhase.isWaiting, BatchPhase.isFinished]

theorem stage_step_ne (h : run.step codec shared input = some (run', shared')) :
    run'.stage ≠ .queued := by
  cases move_of_step h with
  | exhausted _ hresting hpending => nofun
  | expired _ hresting => nofun
  | called _ turn hresting hpending => nofun
  | crashed _ hresting hpending => nofun
  | opened hphase => nofun
  | received turn hphase hresponse => nofun
  | settled _ hends hheard hreschedules =>
      cases hreschedules with
      | done hpending => nofun
      | crashed hpending => nofun
      | expired hpending => nofun
      | sleeping delay hpending => nofun
  | panicked _ hphase houtcome => nofun

theorem stage_of_step (h : run.step codec shared input = some (run', shared'))
    (hpolled : run.stage ≠ .queued) : run.stage = .active := by
  rw [stage_eq_active]
  rw [ne_eq, stage_eq_queued, Bool.not_eq_true] at hpolled
  exact ⟨hpolled, BulkState.isFinished_of_step h⟩

/-- A request is under way in a batch that is in the window. -/
theorem stage_of_underWay {attempt : WriteAttempt} (h : run.underWay = some attempt) :
    run.stage = .active := by
  unfold underWay at h
  unfold stage
  split at h
  · next hphase =>
    rw [hphase]
    rfl
  · next hphase =>
    rw [hphase]
    rfl
  · cases h

end BatchRun

namespace BulkState

variable {codec : Codec} {initials : List BatchOperation} {batches : List BatchRun}
  {state next : BulkState} {input : BulkInput}

theorem inFlight_eq (state : BulkState) :
    state.inFlight = inWindow BatchRun.stage state.batches := by
  unfold inFlight inWindow
  congr 1
  funext run
  simp [BatchRun.stage_eq_active]

/-! ## The refinement -/

/-- A single batch is awaited without a window, which it would fit into. -/
theorem room_of_mayStart (hmax : 0 < state.maxInFlight) {number : Nat} {run : BatchRun}
    (hrun : state.batches[number]? = some run) (hwaiting : run.phase.isWaiting)
    (hmay : state.mayStart number) :
    inWindow BatchRun.stage state.batches < state.maxInFlight := by
  simp only [mayStart, decide_eq_true_eq, Bool.decide_and, Bool.and_eq_true] at hmay
  obtain ⟨-, hsingle | hroom⟩ := hmay
  · obtain ⟨only, honly⟩ := List.length_eq_one_iff.1 hsingle
    rw [honly] at hrun ⊢
    cases number with
    | zero =>
        obtain rfl := Option.some.inj hrun
        have hqueued := BatchRun.stage_eq_queued.2 hwaiting
        rw [inWindow_cons, hqueued]
        exact hmax
    | succ number => cases hrun
  · rwa [inFlight_eq] at hroom

theorem polled_of_mayStart {number : Nat} (hmay : state.mayStart number) :
    ∀ run ∈ state.batches.take number, run.stage ≠ .queued := by
  intro run hrun
  simp only [mayStart, decide_eq_true_eq, Bool.decide_and, Bool.and_eq_true, List.all_eq_true]
    at hmay
  have hpolled := hmay.1 run hrun
  rw [ne_eq, BatchRun.stage_eq_queued]
  simpa using hpolled

/-- Every step of a bulk mutation is a step of its window, or moves no batch. -/
theorem window_step (hmax : 0 < state.maxInFlight) (h : state.step codec input = some next) :
    next.batches = state.batches ∨
      ProofSupport.Window.Step BatchRun.stage state.maxInFlight state.batches next.batches := by
  cases step_of_step h with
  | dropped hrunning horder => exact Or.inl rfl
  | batch batchInput hrunning hcalm hrun hstart hbatch =>
      rename_i number run run' shared
      refine Or.inr ?_
      obtain ⟨later, hbatches, hset⟩ := exists_split hrun run'
      have hstarted := BatchRun.stage_step_ne hbatch
      rw [batches_collect]
      show ProofSupport.Window.Step _ _ _ (state.batches.set number run')
      rw [hset]
      by_cases hqueued : run.stage = .queued
      · have hwaiting := BatchRun.stage_eq_queued.1 hqueued
        have hmay := hstart hwaiting
        have hroom := room_of_mayStart hmax hrun hwaiting hmay
        rw [hbatches] at hroom
        nth_rewrite 1 [hbatches]
        exact .start (polled_of_mayStart hmay) hqueued hroom hstarted
      · nth_rewrite 1 [hbatches]
        exact .move (BatchRun.stage_of_step hbatch hqueued) hstarted

section Run

variable (encodedLen : EncodedLen) (config : ClientConfig) (bulk : BulkMutation)
  (options : BulkMutationOptions) (deadline : Instant)

/-- The batches of a run go through a window. -/
theorem window_reachable (hoptions : options.Valid)
    (hreach : Reachable (step codec) (start encodedLen config bulk options deadline) state) :
    Relation.ReflTransGen
      (ProofSupport.Window.Step BatchRun.stage options.batch.maxInFlightRequests)
      (start encodedLen config bulk options deadline).batches state.batches := by
  have hinv := hreach.invariant
    (fun state => SameSizes (start encodedLen config bulk options deadline) state ∧
      Relation.ReflTransGen
        (ProofSupport.Window.Step BatchRun.stage options.batch.maxInFlightRequests)
        (start encodedLen config bulk options deadline).batches state.batches)
    ⟨⟨rfl, rfl⟩, .refl⟩ ?_
  · exact hinv.2
  · rintro state input next ⟨hsame, hsteps⟩ hstep
    refine ⟨sameSizes_step hsame hstep, ?_⟩
    have hwidth : state.maxInFlight = options.batch.maxInFlightRequests := hsame.2
    have hmax : 0 < state.maxInFlight := by
      rw [hwidth]
      exact hoptions.inFlight_pos
    rcases window_step hmax hstep with heq | hwindow
    · rwa [heq]
    · rw [hwidth] at hwindow
      exact hsteps.tail hwindow

theorem kept_reachable (hoptions : options.Valid)
    (hreach : Reachable (step codec) (start encodedLen config bulk options deadline) state) :
    Kept BatchRun.stage options.batch.maxInFlightRequests state.batches := by
  refine Kept.steps (kept_of_queued ?_)
    (window_reachable encodedLen config bulk options deadline hoptions hreach)
  intro run hrun
  obtain ⟨entries, -, number, rfl⟩ := mem_start encodedLen config bulk options deadline hrun
  rfl

end Run

/-! ## Requests in flight -/

def requestsInFlight (state : BulkState) : List WriteAttempt :=
  state.batches.filterMap BatchRun.underWay

theorem length_filterMap_underWay_le (batches : List BatchRun) :
    (batches.filterMap BatchRun.underWay).length ≤ inWindow BatchRun.stage batches := by
  induction batches with
  | nil => exact Nat.le_refl _
  | cons run batches ih =>
      rw [inWindow_cons]
      cases hattempt : run.underWay with
      | none =>
          rw [List.filterMap_cons_none hattempt]
          omega
      | some attempt =>
          rw [List.filterMap_cons_some hattempt, List.length_cons,
            if_pos (BatchRun.stage_of_underWay hattempt)]
          omega

theorem sublist_underWay {initial : BatchOperation} {run : BatchRun}
    (h : BatchRun.Inv codec initial run) {attempt : WriteAttempt}
    (hattempt : run.underWay = some attempt) : attempt.indexes.Sublist initial.indexes := by
  have hmem : attempt ∈ run.attempts := by
    rw [BatchRun.attempts, hattempt]
    simp
  obtain ⟨entries, hsublist, hindexes, -⟩ := h.books.sends attempt hmem
  rw [hindexes]
  exact hsublist.map _

theorem sublist_requestsInFlight (h : List.Forall₂ (BatchRun.Inv codec) initials batches) :
    ((batches.filterMap BatchRun.underWay).flatMap WriteAttempt.indexes).Sublist
      (initials.flatMap BatchOperation.indexes) := by
  induction h with
  | nil => exact List.Sublist.refl _
  | cons hinv htail ih =>
      rename_i initial run initials batches
      rw [List.flatMap_cons]
      cases hattempt : run.underWay with
      | none =>
          rw [List.filterMap_cons_none hattempt]
          exact ih.trans (List.sublist_append_right _ _)
      | some attempt =>
          rw [List.filterMap_cons_some hattempt, List.flatMap_cons]
          exact (sublist_underWay hinv hattempt).append ih

/-- The next batch starts as soon as there is room for it. -/
theorem exists_start (hrunning : state.phase = .running) (hpanics : state.panics = false)
    {run : BatchRun} (hrun : run ∈ state.batches) (hwaiting : run.phase.isWaiting)
    (hroom : state.inFlight < state.maxInFlight) (turn : AttemptTurn) :
    ∃ number, (state.step codec (.batch number (.polled turn))).isSome := by
  obtain ⟨earlier, next, later, hbatches, hqueued, horder⟩ :=
    exists_next ⟨run, hrun, BatchRun.stage_eq_queued.2 hwaiting⟩
  have hnext : state.batches[earlier.length]? = some next := by
    rw [hbatches]
    simp
  have hmay : state.mayStart earlier.length := by
    simp only [mayStart, hroom, or_true, and_true, decide_eq_true_eq, List.all_eq_true]
    intro other hother
    rw [hbatches, List.take_left] at hother
    have hpolled := horder other hother
    rw [ne_eq, BatchRun.stage_eq_queued] at hpolled
    simpa using hpolled
  refine ⟨earlier.length, step_batch_isSome hrunning hpanics hnext (fun _ => hmay) ?_⟩
  have hphase := BatchRun.stage_eq_queued.1 hqueued
  cases hwaits : next.phase with
  | waiting => simp [BatchRun.step, hwaits]
  | _ =>
      rw [hwaits] at hphase
      cases hphase

structure KeepsWindow (codec : Codec) (maxInFlight : Nat) (state : BulkState) : Prop where
  inFlight_le : state.inFlight ≤ maxInFlight
  requests_le : state.requestsInFlight.length ≤ maxInFlight
  disjoint : (state.requestsInFlight.flatMap WriteAttempt.indexes).Nodup
  in_order : ∀ number run, state.batches[number]? = some run → run.phase.isWaiting = false →
    ∀ earlier ∈ state.batches.take number, earlier.phase.isWaiting = false
  no_idle_slot : state.phase = .running → state.panics = false → ∀ run ∈ state.batches,
    run.phase.isWaiting → state.inFlight = maxInFlight ∨
      ∀ turn, ∃ number, (state.step codec (.batch number (.polled turn))).isSome

/-- A bulk mutation keeps its window.  In every state that it can reach, whatever the server does
and however its batches interleave, at most `max_in_flight_requests` batches are under way and at
most as many requests, no two of which carry the same entry; the batches started in their order;
and as long as one waits, and none panicked, all slots are taken or the next one can start. -/
theorem keeps_window (encodedLen : EncodedLen) (config : ClientConfig) (bulk : BulkMutation)
    (options : BulkMutationOptions) (deadline : Instant) (codec : Codec)
    (hoptions : validateOptions options = .ok ())
    (hreach : Reachable (step codec) (start encodedLen config bulk options deadline) state) :
    KeepsWindow codec options.batch.maxInFlightRequests state := by
  have hvalid := BulkMutationOptions.valid_of_validateOptions hoptions
  have hinv := inv_reachable encodedLen config bulk options deadline hvalid hreach
  have hkept := kept_reachable encodedLen config bulk options deadline hvalid hreach
  have hnodup := nodup_initialOperations encodedLen config bulk options deadline hvalid
  have hwidth : state.maxInFlight = options.batch.maxInFlightRequests :=
    (sameSizes_reachable encodedLen config bulk options deadline hreach).2
  have hle : state.inFlight ≤ options.batch.maxInFlightRequests := by
    rw [inFlight_eq]
    exact hkept.inWindow_le
  refine ⟨hle, ?_, ?_, ?_, ?_⟩
  · exact (length_filterMap_underWay_le state.batches).trans hkept.inWindow_le
  · exact (sublist_requestsInFlight hinv.batches).nodup hnodup
  · intro number run hrun hpolled earlier hearlier
    obtain ⟨later, hbatches, -⟩ := exists_split hrun run
    rw [hbatches] at hkept
    have hstarted : run.stage ≠ .queued := by simp [BatchRun.stage_eq_queued, hpolled]
    have hbefore := hkept.not_queued_before hstarted earlier hearlier
    rw [ne_eq, BatchRun.stage_eq_queued] at hbefore
    simpa using hbefore
  · intro hrunning hpanics run hrun hwaiting
    rcases hle.eq_or_lt with hfull | hroom
    · exact Or.inl hfull
    · refine Or.inr fun turn => exists_start hrunning hpanics hrun hwaiting ?_ turn
      rw [hwidth]
      exact hroom

end BulkState

/-! ### A full window -/

def narrowOptions : BulkMutationOptions :=
  { pairOptions with batch := { pairOptions.batch with maxInFlightRequests := 1 } }

theorem BulkState.keeps_window_narrow :
    ∃ state, run (BulkState.step plainCodec)
        (.start wireLen bulkConfig sampleBulk narrowOptions 600000000000)
        [.batch 0 (.polled (turnAt 0))] = some state ∧
      (state.inFlight = 1 ∧ state.step plainCodec (.batch 1 (.polled (turnAt 0))) = none) ∧
      KeepsWindow plainCodec 1 state := by
  have hrun : ((run (BulkState.step plainCodec)
      (.start wireLen bulkConfig sampleBulk narrowOptions 600000000000)
      [.batch 0 (.polled (turnAt 0))]).any fun state => state.inFlight = 1 ∧
        state.step plainCodec (.batch 1 (.polled (turnAt 0))) = none) = true := by decide +kernel
  obtain ⟨state, hstate, hfull⟩ := (Option.any_eq_true _ _).1 hrun
  exact ⟨state, hstate, of_decide_eq_true hfull,
    BulkState.keeps_window wireLen bulkConfig sampleBulk narrowOptions 600000000000 plainCodec
      (by decide +kernel) ⟨_, hstate⟩⟩

end BigtableClient
