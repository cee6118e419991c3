import BigtableClient.Proofs.BulkInvariant

/-!
# Which steps of a bulk mutation panic

A step of a batch panics exactly when it does not withstand: the branch behind a stream
that the code calls unreachable is none.  After a panic the future can only be dropped,
so a bulk mutation has a result exactly when every step withstood.
-/

namespace BigtableClient

open ProofSupport.Transition

namespace BatchRun

variable {codec : Codec} {initial : BatchOperation} {run run' : BatchRun}
  {shared shared' : OperationState} {input : BatchInput}

/-! ## Parts of a step -/

theorem isPanicked_settle (run : BatchRun) (shared : OperationState) (telemetry : AttemptTracker)
    (attempt : WriteAttempt) (ending : AttemptEnd) (outcome : AttemptOutcome) (turn : RetryTurn) :
    (run.settle codec shared telemetry attempt ending outcome turn).1.phase.isPanicked ↔
      ¬ run.BacksOff codec outcome.retry turn := by
  have hpending : (run.book attempt ending outcome).operation.pending = outcome.retry := rfl
  have hretry : (run.book attempt ending outcome).operation.options.retry =
      run.operation.options.retry := rfl
  unfold settle
  rw [fst_reschedule, hpending, hretry]
  split_ifs with hnone
  · exact iff_of_false nofun (not_not.2 fun hne => absurd hnone hne)
  · cases hbackoff : backoff codec run.operation.options.retry
        (((outcome.retry.map PendingEntry.attempts).max?).getD 1) turn.draw with
    | none =>
        refine iff_of_true rfl fun hbacksOff => ?_
        have hsome := hbacksOff hnone
        rw [hbackoff] at hsome
        cases hsome
    | some drawn =>
        refine iff_of_false ?_ (not_not.2 fun _ => by rw [hbackoff]; rfl)
        dsimp only
        split_ifs <;> exact nofun

theorem isPanicked_loop (run : BatchRun) (shared : OperationState) (turn : AttemptTurn) :
    (run.loop codec shared turn).1.phase.isPanicked ↔ ¬ run.FitsTimeout codec turn := by
  unfold loop
  split_ifs with hpending htop
  · exact iff_of_false nofun (not_not.2 fun hne => absurd hpending hne)
  · exact iff_of_false nofun (not_not.2 fun _ hlt => absurd htop (not_le.2 hlt))
  · rw [call_eq]
    split_ifs with htakes
    · exact iff_of_false nofun (not_not.2 fun _ _ => htakes)
    · exact iff_of_true rfl fun hfits => htakes (hfits hpending (not_le.1 htop))

/-! ## Steps -/

/-- A step of a batch panics exactly when it does not withstand. -/
theorem isPanicked_step (hinv : Inv codec initial run)
    (hstep : run.step codec shared input = some (run', shared')) :
    run'.phase.isPanicked ↔ ¬ run.Withstands codec input := by
  have hrecords := hinv.records
  unfold step at hstep
  unfold Withstands
  split at hstep
  · next turn hphase =>
    obtain rfl := congrArg Prod.fst (Option.some.inj hstep)
    simp only [hphase]
    exact isPanicked_loop run shared turn
  · next current deadline telemetry attempt hphase =>
    obtain rfl := congrArg Prod.fst (Option.some.inj hstep)
    simp [hphase, BatchPhase.isPanicked]
  · next current deadline telemetry attempt status turn hphase =>
    obtain rfl := congrArg Prod.fst (Option.some.inj hstep)
    simp only [hphase]
    exact isPanicked_settle _ _ _ _ _ _ _
  · next current deadline telemetry attempt turn hphase =>
    obtain rfl := congrArg Prod.fst (Option.some.inj hstep)
    simp only [hphase]
    exact isPanicked_settle _ _ _ _ _ _ _
  · next current deadline telemetry attempt progress response turn hphase =>
    obtain rfl := congrArg Prod.fst (Option.some.inj hstep)
    simp only [hphase, not_true_eq_false, iff_false]
    unfold receive
    dsimp only
    split
    · -- a malformed stream leaves nothing to send again
      rw [isPanicked_settle, not_not]
      exact fun hne => absurd rfl hne
    · exact nofun
  · next current deadline telemetry attempt progress streamEnd turn hphase =>
    obtain rfl := congrArg Prod.fst (Option.some.inj hstep)
    simp only [hphase]
    rw [hphase] at hrecords
    obtain ⟨-, hwell, rfl⟩ := hrecords
    unfold close
    rw [streamOutcome_recorded hwell]
    simp only [Option.mem_def, Option.some.injEq, forall_eq']
    exact isPanicked_settle _ _ _ _ _ _ _
  · next turn hphase =>
    obtain rfl := congrArg Prod.fst (Option.some.inj hstep)
    simp only [hphase]
    exact isPanicked_loop run shared turn
  · next hphase =>
    obtain rfl := congrArg Prod.fst (Option.some.inj hstep)
    simp [hphase, expire, BatchPhase.isPanicked]
  · cases hstep

end BatchRun

namespace BulkState

variable {codec : Codec} {initials : List BatchOperation} {state next : BulkState}
  {input : BulkInput}

@[simp] theorem panics_collect (state : BulkState) (number : Nat) (run : BatchRun) :
    (state.collect number run).panics = state.panics := by
  unfold panics
  rw [batches_collect]

/-- While no batch panicked, the next step panics exactly when it does not withstand. -/
theorem panics_step (hinv : Inv codec initials state) (hcalm : state.panics = false)
    (hstep : state.step codec input = some next) :
    next.panics = false ↔ state.Withstands codec input := by
  cases step_of_step hstep with
  | dropped hrunning horder => exact iff_of_true hcalm trivial
  | batch batchInput hrunning hquiet hrun hstart hbatch =>
      rename_i number run run' shared
      obtain ⟨initial, -, hrunInv⟩ := exists_of_forall₂ hinv.batches (List.mem_of_getElem? hrun)
      have hpanicked : run'.phase.isPanicked = false ↔ run.Withstands codec batchInput := by
        rw [← Bool.not_eq_true, BatchRun.isPanicked_step hrunInv hbatch, not_not]
      have hwithstands : state.Withstands codec (.batch number batchInput) ↔
          run.Withstands codec batchInput := by
        simp [Withstands, hrun]
      rw [panics_collect, hwithstands, ← hpanicked]
      exact panics_move hcalm hrun run' shared

/-! ## Runs -/

def Calm (state : BulkState) : Prop := state.panics = false ∧ state.phase ≠ .panicked

theorem phase_collect_ne_panicked {number : Nat} {run : BatchRun}
    (h : state.phase ≠ .panicked) : (state.collect number run).phase ≠ .panicked := by
  unfold collect
  split_ifs
  · dsimp only
    split_ifs
    · rw [conclude_eq]
      exact nofun
    · exact h
  · exact h

theorem calm_step (hinv : Inv codec initials state) (hcalm : state.Calm)
    (hstep : state.step codec input = some next) :
    next.Calm ↔ state.Withstands codec input := by
  rw [← panics_step hinv hcalm.1 hstep]
  refine and_iff_left_of_imp fun hpanics => ?_
  cases step_of_step hstep with
  | dropped hrunning horder =>
      rw [phase_drop_of_not_panics hcalm.1]
      exact nofun
  | batch batchInput hrunning hquiet hrun hstart hbatch =>
      apply phase_collect_ne_panicked
      rw [show (state.move _ _ _).phase = .running from hrunning]
      exact nofun

/-- After a panic the future can only be dropped. -/
theorem not_calm_step (hlost : ¬ state.Calm) (hstep : state.step codec input = some next) :
    ¬ next.Calm := by
  have hpanics : state.panics = true := by
    by_contra hnot
    refine hlost ⟨eq_false_of_ne_true hnot, fun hphase => ?_⟩
    unfold step at hstep
    rw [hphase] at hstep
    cases hstep
  cases step_of_step hstep with
  | dropped hrunning horder =>
      intro hcalm
      have hstill := hpanics.symm.trans hcalm.1
      cases hstill
  | batch batchInput hrunning hquiet hrun hstart hbatch =>
      rw [hquiet] at hpanics
      cases hpanics

/-- A future that went down with a batch went down with one that panicked. -/
theorem panics_step_of_panicked (hstep : state.step codec input = some next)
    (hphase : next.phase = .panicked) : next.panics := by
  cases step_of_step hstep with
  | dropped hrunning horder =>
      by_contra hnot
      have hquiet : state.panics = false := eq_false_of_ne_true hnot
      rw [phase_drop_of_not_panics hquiet] at hphase
      cases hphase
  | batch batchInput hrunning hquiet hrun hstart hbatch =>
      refine absurd hphase (phase_collect_ne_panicked ?_)
      rw [show (state.move _ _ _).phase = .running from hrunning]
      exact nofun

theorem calm_of_finished (hinv : Inv codec initials state)
    {result : Except BulkMutationError BulkMutationResult}
    (hphase : state.phase = .finished result) : state.Calm := by
  refine ⟨List.any_eq_false.2 fun run hrun => ?_, by rw [hphase]; exact nofun⟩
  have hover := (hinv.finished result hphase).2 run hrun
  cases hrunPhase : run.phase with
  | finished => exact nofun
  | _ =>
      rw [hrunPhase] at hover
      cases hover

section Run

variable (encodedLen : EncodedLen) (config : ClientConfig) (bulk : BulkMutation)
  (options : BulkMutationOptions) (deadline : Instant)

theorem entries_ne_nil_of_panicked (hoptions : options.Valid)
    (hreach : Reachable (step codec) (start encodedLen config bulk options deadline) state)
    (hphase : state.phase = .panicked) : bulk.entries ≠ [] := by
  have hpanics := hreach.invariant (fun state => state.phase = .panicked → state.panics) nofun
    (fun _ _ _ _ hstep => panics_step_of_panicked hstep) hphase
  obtain ⟨run, hrun, -⟩ := List.any_eq_true.1 hpanics
  obtain ⟨initial, hinitial, -⟩ := exists_of_forall₂
    (inv_reachable encodedLen config bulk options deadline hoptions hreach).batches hrun
  obtain ⟨entry, hentry⟩ := List.exists_mem_of_ne_nil _
    (fresh_initials encodedLen config bulk options deadline hoptions hinitial).pending_ne_nil
  obtain ⟨row, hrow, -⟩ :=
    row_of_mem_pending encodedLen config bulk options deadline hoptions hinitial hentry
  exact List.ne_nil_of_mem (List.mem_of_getElem? hrow)

theorem calm_iff_along (hoptions : options.Valid) {inputs : List BulkInput}
    (hrun : run (step codec) (start encodedLen config bulk options deadline) inputs =
      some state) :
    state.Calm ↔ Along (step codec) (Withstands codec)
      (start encodedLen config bulk options deadline) inputs := by
  refine run_along_iff (Inv codec (initialOperations encodedLen config bulk options deadline)) Calm
    (fun _ _ _ => inv_step) (fun _ _ _ => calm_step) (fun _ _ _ => not_calm_step)
    (inv_start encodedLen config bulk options deadline hoptions) ?_ hrun
  refine ⟨List.any_eq_false.2 fun batch hbatch => ?_, nofun⟩
  obtain ⟨entries, -, number, rfl⟩ := mem_start encodedLen config bulk options deadline hbatch
  exact nofun

/-- A bulk mutation that is over, and was not cancelled, has a result exactly when every step
withstood. -/
theorem finished_iff_along (hoptions : options.Valid) {inputs : List BulkInput}
    (hrun : run (step codec) (start encodedLen config bulk options deadline) inputs = some state)
    (hover : state.phase ≠ .running) (hphase : state.phase ≠ .cancelled) :
    (∃ result, state.phase = .finished result) ↔ Along (step codec) (Withstands codec)
      (start encodedLen config bulk options deadline) inputs := by
  rw [← calm_iff_along encodedLen config bulk options deadline hoptions hrun]
  constructor
  · rintro ⟨result, hresult⟩
    exact calm_of_finished
      (inv_reachable encodedLen config bulk options deadline hoptions ⟨inputs, hrun⟩) hresult
  · intro hcalm
    cases hstate : state.phase with
    | running => exact absurd hstate hover
    | cancelled => exact absurd hstate hphase
    | panicked => exact absurd hstate hcalm.2
    | finished result => exact ⟨result, rfl⟩

end Run

end BulkState

end BigtableClient
