import BigtableClient.Proofs.BatchInvariant
import BigtableClient.Proofs.Journal

/-!
# The lane of a batch

The attempts of a batch are numbered brackets in its own lane: an attempt is open
exactly while its tracker lives, and its number is one more than that of the attempts
on record.
-/

namespace BigtableClient.BatchRun

open ProofSupport.Brackets

variable {codec : Codec} {initial : BatchOperation} {run run' : BatchRun}
  {shared shared' : OperationState} {input : BatchInput}

abbrev lane (run : BatchRun) : Option Nat := some run.operation.batch

def Traced (run : BatchRun) (shared : OperationState) : Prop :=
  match run.phase.telemetry with
  | some telemetry => telemetry.IsOpen run.lane (run.past.length + 1) shared
  | none => Closed (laneMarks run.lane shared.events) run.past.length

theorem traced_of_telemetry {telemetry : AttemptTracker}
    (h : run.phase.telemetry = some telemetry) :
    run.Traced shared ↔ telemetry.IsOpen run.lane (run.past.length + 1) shared := by
  rw [Traced, h]

theorem Traced.isOpen {telemetry : AttemptTracker} (h : run.Traced shared)
    (htelemetry : run.phase.telemetry = some telemetry) :
    telemetry.IsOpen run.lane (run.past.length + 1) shared :=
  (traced_of_telemetry htelemetry).1 h

theorem traced_of_none (h : run.phase.telemetry = none) :
    run.Traced shared ↔ Closed (laneMarks run.lane shared.events) run.past.length := by
  rw [Traced, h]

theorem Traced.closed (h : run.Traced shared) (htelemetry : run.phase.telemetry = none) :
    Closed (laneMarks run.lane shared.events) run.past.length :=
  (traced_of_none htelemetry).1 h

theorem telemetry_of_isResting (h : run.phase.isResting) : run.phase.telemetry = none := by
  cases hphase : run.phase with
  | calling current deadline telemetry attempt =>
      rw [hphase] at h
      cases h
  | streaming current deadline telemetry attempt progress =>
      rw [hphase] at h
      cases h
  | _ => rfl

/-- What other batches write does not matter. -/
theorem Traced.frame {other : Option Nat} {marks : List (Mark × Nat)} (h : run.Traced shared)
    (hlogs : shared.Logs other marks shared') (hne : other ≠ run.lane) : run.Traced shared' := by
  cases htelemetry : run.phase.telemetry with
  | none =>
      rw [traced_of_none htelemetry] at h ⊢
      rw [hlogs.laneMarks_ne hne]
      exact h
  | some telemetry =>
      rw [traced_of_telemetry htelemetry] at h ⊢
      exact h.frame hlogs hne

/-! ## Moves -/

/-- The lane of a batch that moved, and what the move wrote. -/
def Wrote (run : BatchRun) (shared : OperationState) (run' : BatchRun)
    (shared' : OperationState) : Prop :=
  (∃ marks, shared.Logs run.lane marks shared') ∧ run'.Traced shared'

theorem wrote_issue (hinv : Inv codec initial run) (h : run.Traced shared)
    (hresting : run.phase.isResting) (turn : AttemptTurn) :
    Wrote run shared (run.issue shared turn).1 (run.issue shared turn).2 := by
  have hclosed := h.closed (telemetry_of_isResting hresting)
  have hbooks := hinv.books
  rw [attempts_of_isResting hresting] at hbooks
  have hlt := (hinv.resting hresting).1
  have hmax := Books.maxAttempts_le initial
  have hnumber : saturatingAdd run.operation.rpcAttempts 1 = run.past.length + 1 := by
    rw [hbooks.rpcAttempts]
    exact saturatingAdd_of_lt (by omega)
  unfold issue
  dsimp only
  rw [hnumber]
  obtain ⟨hlogs, hopen⟩ := OperationState.logs_attempt hclosed
    (run.operation.pending.map PendingEntry.countAttempt).length
    ((Instant.checkedDurationSince (run.operation.attemptDeadline turn.arm) turn.start).getD 0)
  exact ⟨⟨_, hlogs⟩, hopen⟩

theorem heard_isOpen {telemetry : AttemptTracker} {heard : OperationState}
    (h : run.Traced shared) (hheard : Heard run shared telemetry heard) :
    (∃ marks, shared.Logs run.lane marks heard) ∧
      telemetry.IsOpen run.lane (run.past.length + 1) heard := by
  cases hheard with
  | nothing htelemetry => exact ⟨⟨[], .refl _ _⟩, h.isOpen htelemetry⟩
  | message htelemetry => exact (h.isOpen htelemetry).recordFirstResponse

/-- The attempt is closed, and the retry is announced under its number. -/
theorem wrote_reschedules {outcome : AttemptOutcome}
    (hfresh : Fresh (laneMarks run.lane shared.events) run.past.length)
    (hphase : run.phase.telemetry = none)
    (hreschedules : Reschedules run shared outcome run' shared') (hinv : Inv codec initial run') :
    Wrote run shared run' shared' := by
  cases hreschedules with
  | done hpending => exact ⟨⟨[], .refl _ _⟩, (traced_of_none hphase).2 hfresh.closed⟩
  | crashed hpending => exact ⟨⟨[], .refl _ _⟩, (traced_of_none rfl).2 hfresh.closed⟩
  | expired hpending => exact ⟨⟨[], .refl _ _⟩, (traced_of_none rfl).2 hfresh.closed⟩
  | sleeping delay hpending =>
      have hattempts : ∀ entry ∈ run.operation.pending, entry.attempts = run.past.length := by
        intro entry hentry
        have hcount := hinv.books.attempts_of_live hentry
        rwa [attempts_of_isResting rfl] at hcount
      have hretry := shared.logs_retry run.lane run.past.length outcome.code delay
        run.operation.pending.length
      rw [max?_attempts hpending hattempts]
      refine ⟨⟨_, hretry⟩, (traced_of_none rfl).2 ?_⟩
      show Closed (laneMarks run.lane _) _
      rw [hretry.laneMarks_eq]
      exact hfresh.again

theorem wrote_settled {attempt : WriteAttempt} {ending : AttemptEnd}
    {outcome : AttemptOutcome} {telemetry : AttemptTracker} {heard : OperationState}
    (h : run.Traced shared) (hheard : Heard run shared telemetry heard)
    (hreschedules : Reschedules (run.book attempt ending outcome)
      (telemetry.finish heard outcome.code
        { successfulEntries := outcome.successful
          failedEntries := outcome.failures.length + outcome.retry.length }).2 outcome run'
      shared') (hinv : Inv codec initial run') : Wrote run shared run' shared' := by
  obtain ⟨⟨marks, hlogs⟩, hopen⟩ := heard_isOpen h hheard
  obtain ⟨hfinish, hfresh⟩ := hopen.finish outcome.code
    { successfulEntries := outcome.successful
      failedEntries := outcome.failures.length + outcome.retry.length }
  have hpast : (run.book attempt ending outcome).past.length = run.past.length + 1 := by
    simp [book]
  rw [← hpast] at hfresh
  obtain ⟨⟨marks', hlogs'⟩, htraced⟩ := wrote_reschedules hfresh rfl hreschedules hinv
  exact ⟨⟨_, (hlogs.trans hfinish).trans hlogs'⟩, htraced⟩

/-- Every move of a batch writes to its lane only, and keeps the lane in order. -/
theorem wrote_move (hinv : Inv codec initial run) (h : run.Traced shared)
    (hmove : Move codec run shared input run' shared') : Wrote run shared run' shared' := by
  have hinv' : Inv codec initial run' := inv_move hinv hmove
  cases hmove with
  | exhausted _ hresting hpending =>
      have hclosed := h.closed (telemetry_of_isResting hresting)
      exact ⟨⟨[], .refl _ _⟩, (traced_of_none rfl).2 hclosed⟩
  | expired _ hresting =>
      have hclosed := h.closed (telemetry_of_isResting hresting)
      exact ⟨⟨[], .refl _ _⟩, (traced_of_none rfl).2 hclosed⟩
  | called _ turn hresting hpending => exact wrote_issue hinv h hresting turn
  | crashed _ hresting hpending =>
      have hclosed := h.closed (telemetry_of_isResting hresting)
      exact ⟨⟨[], .refl _ _⟩, (traced_of_none rfl).2 hclosed⟩
  | opened hphase =>
      have hopen := h.isOpen (by rw [hphase]; rfl)
      exact ⟨⟨[], .refl _ _⟩, (traced_of_telemetry rfl).2 hopen⟩
  | received turn hphase hresponse =>
      obtain ⟨hlogs, hopen⟩ := (h.isOpen (by rw [hphase]; rfl)).recordFirstResponse
      exact ⟨hlogs, (traced_of_telemetry rfl).2 hopen⟩
  | settled _ hends hheard hreschedules => exact wrote_settled h hheard hreschedules hinv'
  | panicked _ hphase houtcome => exact hinv'.records.elim

theorem batch_step (hinv : Inv codec initial run)
    (hstep : run.step codec shared input = some (run', shared')) :
    run'.operation.batch = run.operation.batch :=
  (inv_step hinv hstep).books.config.batch.trans hinv.books.config.batch.symm

theorem wrote_step (hinv : Inv codec initial run) (h : run.Traced shared)
    (hstep : run.step codec shared input = some (run', shared')) : Wrote run shared run' shared' :=
  wrote_move hinv h (move_of_step hstep)

end BigtableClient.BatchRun
