import BigtableClient.Proofs.BatchReport
import BigtableClient.ProofSupport.Clock

/-!
# The pace of a batch

What the loop of one batch makes of the clock: when it calls, how long it sleeps, and
which entries the deadline fails.
-/

namespace BigtableClient

/-! ## The clock of a batch -/

def AttemptTurn.isAt (turn : AttemptTurn) (now : Instant) : Bool :=
  turn.top = now ∧ turn.arm = now ∧ turn.start = now ∧ turn.send = now

namespace BatchInput

def attemptTurn? : BatchInput → Option AttemptTurn
  | .polled turn => some turn
  | .woke turn => some turn
  | _ => none

def retryTurn? : BatchInput → Option RetryTurn
  | .refused _ turn => some turn
  | .callTimedOut turn => some turn
  | .message _ turn => some turn
  | .streamClosed _ turn => some turn
  | _ => none

def isAt (input : BatchInput) (now : Instant) : Bool :=
  input.attemptTurn?.all (fun turn => turn.isAt now) ∧
    input.retryTurn?.all fun turn => turn.now = now

def isWoke : BatchInput → Bool
  | .woke _ => true
  | _ => false

end BatchInput

def BatchPhase.delay? : BatchPhase → Option Duration
  | .sleeping delay => some delay
  | _ => none

def WriteAttempt.largestDelay (codec : Codec) (attempt : WriteAttempt) (indexes : List Nat) :
    Duration :=
  (indexes.map (attempt.askedDelay codec)).foldl max 0

namespace BatchRun

variable {codec : Codec} {initial : BatchOperation} {run run' : BatchRun}
  {shared shared' : OperationState} {input : BatchInput} {now : Instant}

/-- What a step makes of its clock readings. -/
inductive Paces (codec : Codec) (run : BatchRun) (input : BatchInput) : BatchRun → Prop
  | looped {turn : AttemptTurn} {shared : OperationState}
      (hturn : input.attemptTurn? = some turn) (hresting : run.phase.isResting) :
      Paces codec run input (run.loop codec shared turn).1
  | settled {current : List PendingEntry} {attempt : WriteAttempt} {ending : AttemptEnd}
      {outcome : AttemptOutcome} {turn : RetryTurn} {shared : OperationState}
      (hturn : input.retryTurn? = some turn)
      (hends : Ends codec run current attempt ending outcome) :
      Paces codec run input
        ((run.book attempt ending outcome).reschedule codec shared outcome turn).1
  | expired (hresting : run.phase.isResting) : Paces codec run input run.expire
  | waits {run' : BatchRun} (hunderWay : run.underWay ≠ none)
      (hresting : run'.phase.isResting = false) (hpast : run'.past = run.past)
      (hattempts : run'.attempts.length ≤ run.attempts.length)
      (hfailures : run'.operation.failures = run.operation.failures) : Paces codec run input run'

theorem paces_step (h : run.step codec shared input = some (run', shared')) :
    Paces codec run input run' := by
  unfold step at h
  split at h
  · next hphase =>
    obtain rfl := congrArg Prod.fst (Option.some.inj h)
    exact .looped rfl (by rw [hphase]; rfl)
  · next hphase =>
    obtain rfl := congrArg Prod.fst (Option.some.inj h)
    refine .waits (by simp [underWay, hphase]) rfl rfl ?_ rfl
    rw [length_attempts_of_underWay rfl, length_attempts_of_underWay (by rw [underWay, hphase])]
  · next status turn hphase =>
    obtain rfl := congrArg Prod.fst (Option.some.inj h)
    exact .settled rfl (.refused status hphase)
  · next turn hphase =>
    obtain rfl := congrArg Prod.fst (Option.some.inj h)
    exact .settled rfl (.refused attemptDeadlineStatus hphase)
  · next response turn hphase =>
    obtain rfl := congrArg Prod.fst (Option.some.inj h)
    unfold receive
    dsimp only
    split
    · next issue hresponse => exact .settled rfl (.malformed hphase hresponse)
    · next progress hresponse =>
      refine .waits (by simp [underWay, hphase]) rfl rfl ?_ rfl
      rw [length_attempts_of_underWay rfl, length_attempts_of_underWay (by rw [underWay, hphase])]
  · next streamEnd turn hphase =>
    obtain rfl := congrArg Prod.fst (Option.some.inj h)
    unfold close
    split
    · next outcome houtcome => exact .settled rfl (.closed streamEnd hphase houtcome)
    · next houtcome =>
      refine .waits (by simp [underWay, hphase]) rfl rfl ?_ rfl
      show (run.past ++ []).length ≤ _
      rw [List.append_nil, attempts, List.length_append]
      exact Nat.le_add_right _ _
  · next hphase =>
    obtain rfl := congrArg Prod.fst (Option.some.inj h)
    exact .looped rfl (by rw [hphase]; rfl)
  · next hphase =>
    obtain rfl := congrArg Prod.fst (Option.some.inj h)
    exact .expired (by rw [hphase]; rfl)
  · cases h

/-! ## Calls -/

def DeadlineFree (run : BatchRun) : Prop :=
  ∀ failure ∈ run.operation.failures, failure.isDeadline = false

/-- No attempt ends with a failure that is due to the deadline of the operation. -/
theorem isDeadline_of_ends {current : List PendingEntry} {attempt : WriteAttempt}
    {ending : AttemptEnd} {outcome : AttemptOutcome} (hinv : Inv codec initial run)
    (hends : Ends codec run current attempt ending outcome) :
    ∀ failure ∈ outcome.failures, failure.isDeadline = false := by
  intro failure hfailure
  have hbooks := endBooks_of_ends hinv hends
  obtain ⟨entry, hentry, -⟩ := hbooks.settles.failed failure hfailure
  exact (hbooks.summarises (List.ne_nil_of_mem hentry)).causes failure hfailure

/-- The delay of the outcome is the largest one that is asked for, over the entries it leaves. -/
theorem EndBooks.retryDelay {current : List PendingEntry} {attempt : WriteAttempt}
    {outcome : AttemptOutcome} (h : EndBooks codec initial run current attempt outcome)
    (hne : current ≠ [])
    (hretry : outcome.retry.map PendingEntry.originalIndex = initial.resent attempt) :
    outcome.retryDelay = attempt.largestDelay codec (initial.resent attempt) := by
  rw [(h.summarises hne).retryDelay, WriteAttempt.largestDelay, ← hretry, List.map_map]
  rfl

theorem deadlineFree_book {current : List PendingEntry} {attempt : WriteAttempt}
    {ending : AttemptEnd} {outcome : AttemptOutcome} (hinv : Inv codec initial run)
    (hfree : run.DeadlineFree) (hends : Ends codec run current attempt ending outcome) :
    (run.book attempt ending outcome).DeadlineFree := by
  intro failure hfailure
  rcases List.mem_append.1 hfailure with hold | hnew
  · exact hfree failure hold
  · exact isDeadline_of_ends hinv hends failure hnew

theorem isFinished_of_isResting (h : run.phase.isResting) : run.phase.isFinished = false := by
  cases hphase : run.phase with
  | finished =>
      rw [hphase] at h
      cases h
  | _ => rfl

theorem isFinished_of_underWay (h : run.underWay ≠ none) : run.phase.isFinished = false := by
  cases hphase : run.phase with
  | finished => exact absurd (by rw [underWay, hphase]) h
  | _ => rfl

theorem deadlineFree_of_paces (hinv : Inv codec initial run)
    (hfree : run.phase.isFinished = false → run.DeadlineFree) (h : Paces codec run input run')
    (hlive : run'.phase.isFinished = false) : run'.DeadlineFree := by
  cases h with
  | looped hturn hresting =>
      have hold := hfree (isFinished_of_isResting hresting)
      unfold loop at hlive ⊢
      rw [call_eq] at hlive ⊢
      split_ifs at hlive ⊢
      · cases hlive
      · cases hlive
      · exact hold
      · exact hold
  | settled hturn hends =>
      rename_i current attempt ending outcome turn shared
      obtain ⟨-, before, hunderWay, -⟩ := hends.underWay
      have hold := hfree (isFinished_of_underWay (by rw [hunderWay]; nofun))
      have hbooked := deadlineFree_book hinv hold hends
      obtain ⟨next, shared', heq⟩ : ∃ next shared',
          (run.book attempt ending outcome).reschedule codec shared outcome turn =
            (next, shared') := ⟨_, _, rfl⟩
      rw [heq] at hlive ⊢
      cases reschedules_of_reschedule heq with
      | done hpending => exact hbooked
      | crashed hpending => exact hbooked
      | expired hpending => cases hlive
      | sleeping delay hpending => exact hbooked
  | expired hresting => cases hlive
  | waits hunderWay hresting hpast hattempts hfailures =>
      rw [DeadlineFree, hfailures]
      exact hfree (isFinished_of_underWay hunderWay)

end BatchRun

end BigtableClient
