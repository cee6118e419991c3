import BigtableClient.Proofs.Books

/-!
# The invariant of a batch

The books are kept by every move.  Between attempts every attempt so far asked to
send the pending entries again, so the next one never replays what was confirmed,
refused for good or answered by a malformed stream.
-/

namespace BigtableClient.BatchRun

open Proto (MutateRowsRequest)

variable {codec : Codec} {initial : BatchOperation} {run run' : BatchRun}
  {shared shared' : OperationState} {input : BatchInput}

structure Inv (codec : Codec) (initial : BatchOperation) (run : BatchRun) : Prop where
  books : Books initial run.operation run.attempts run.live
  records : run.phase.Records codec
  resent : Resent run.past run.live
  idle : run.phase.isResting = false → run.phase.isPanicked = false → run.operation.pending = []
  resting : run.phase.isResting = true →
    run.past.length < initial.maxAttempts ∧ run.operation.pending ≠ []

theorem inv_start (h : Books.Fresh initial) :
    Inv codec initial { operation := initial, phase := .waiting, past := [] } where
  books := Books.start h
  records := trivial
  resent := fun _ _ => by simp
  idle := nofun
  resting _ := ⟨h.attempts_pos, h.pending_ne_nil⟩

/-! ## Between attempts -/

theorem attempts_of_isResting (h : run.phase.isResting) : run.attempts = run.past := by
  rw [attempts, underWay]
  cases hphase : run.phase with
  | waiting => exact List.append_nil _
  | sleeping delay => exact List.append_nil _
  | _ =>
      rw [hphase] at h
      cases h

theorem live_of_isResting (h : run.phase.isResting) : run.live = run.operation.pending := by
  rw [live]
  split
  · next hphase =>
    rw [hphase] at h
    cases h
  · next hphase =>
    rw [hphase] at h
    cases h
  · rfl

theorem Inv.pending_books (h : Inv codec initial run) (hresting : run.phase.isResting) :
    Books initial run.operation run.past run.operation.pending ∧
      Resent run.past run.operation.pending := by
  have hbooks := h.books
  have hresent := h.resent
  rw [attempts_of_isResting hresting, live_of_isResting hresting] at hbooks
  rw [live_of_isResting hresting] at hresent
  exact ⟨hbooks, hresent⟩

theorem inv_expire (hbooks : Books initial run.operation run.past run.operation.pending)
    (hresent : Resent run.past run.operation.pending) : Inv codec initial run.expire where
  books := by
    have hexpired := hbooks.expire hresent
    rw [show run.expire.attempts = run.past from List.append_nil _]
    exact hexpired
  records := trivial
  resent := nofun
  idle _ _ := rfl
  resting := nofun

/-- A panic next to the backoff or to the timeout leaves the books as they are. -/
theorem inv_crash (reason : BatchPanic) (hreason : reason ≠ .unreachable)
    (hbooks : Books initial run.operation run.past run.operation.pending)
    (hresent : Resent run.past run.operation.pending) :
    Inv codec initial { run with phase := .panicked reason } where
  books := by
    rw [show attempts { run with phase := .panicked reason } = run.past from List.append_nil _]
    exact hbooks
  records := by
    cases reason with
    | unreachable => exact absurd rfl hreason
    | backoff => trivial
    | timeout => trivial
  resent := hresent
  idle _ := nofun
  resting := nofun

theorem inv_issue (shared : OperationState) (h : Inv codec initial run)
    (hresting : run.phase.isResting) (turn : AttemptTurn) :
    Inv codec initial (run.issue shared turn).1 := by
  obtain ⟨hbooks, hresent⟩ := h.pending_books hresting
  have hindexes : (run.operation.pending.map PendingEntry.countAttempt).map
      PendingEntry.originalIndex = run.operation.pending.map PendingEntry.originalIndex := by
    rw [List.map_map]
    rfl
  have hrequest : mutateRowsRequest run.operation.tableName run.operation.appProfileId
      (run.operation.pending.map PendingEntry.countAttempt) =
        mutateRowsRequest run.operation.tableName run.operation.appProfileId
          run.operation.pending := by
    rw [mutateRowsRequest, List.map_map]
    rfl
  have hissued : Books initial (run.issue shared turn).1.operation
      (run.issue shared turn).1.attempts (run.issue shared turn).1.live :=
    hbooks.call hresent (h.resting hresting).1 hindexes hrequest
  refine ⟨hissued, ⟨rfl, rfl⟩, ?_, fun _ _ => rfl, ?_⟩
  · intro entry hentry attempt hattempt
    obtain ⟨pending, hpending, rfl⟩ := List.mem_map.1 hentry
    exact hresent pending hpending attempt hattempt
  · intro hrests
    cases hrests

/-! ## During an attempt -/

theorem attempts_of_phase {attempt : WriteAttempt} (h : run.underWay = some attempt) :
    run.attempts = run.past ++ [attempt] := by
  rw [attempts, h]
  rfl

theorem Ends.underWay {current : List PendingEntry} {attempt : WriteAttempt} {ending : AttemptEnd}
    {outcome : AttemptOutcome} (h : Ends codec run current attempt ending outcome) :
    run.live = current ∧ ∃ before, run.underWay = some before ∧
      attempt.indexes = before.indexes ∧ attempt.request = before.request := by
  cases h with
  | refused status hphase =>
      rw [live, BatchRun.underWay, hphase]
      exact ⟨rfl, _, rfl, rfl, rfl⟩
  | malformed hphase hresponse =>
      rw [live, BatchRun.underWay, hphase]
      exact ⟨rfl, _, rfl, rfl, rfl⟩
  | closed streamEnd hphase houtcome =>
      rw [live, BatchRun.underWay, hphase]
      exact ⟨rfl, _, rfl, rfl, rfl⟩

theorem inv_opened {current : List PendingEntry} {deadline : Instant}
    {telemetry : AttemptTracker} {attempt : WriteAttempt} (h : Inv codec initial run)
    (hphase : run.phase = .calling current deadline telemetry attempt) :
    Inv codec initial
      { run with
        phase := .streaming current deadline telemetry attempt (.new current.length) } := by
  have hbooks := h.books
  have hrecords := h.records
  have hresent := h.resent
  have hidle := h.idle
  simp only [attempts, underWay, live, hphase] at hbooks hrecords hresent hidle
  obtain ⟨hindexes, hmessages⟩ := hrecords
  have hresults : attempt.results = [] := by
    simp [WriteAttempt.results, streamResults, hmessages]
  refine ⟨hbooks, ⟨hindexes, ?_, ?_⟩, hresent, hidle, ?_⟩
  · rw [hresults]
    exact WellIndexed.nil
  · rw [hresults, recorded_nil]
  · intro hrests
    cases hrests

theorem inv_received {current : List PendingEntry} {deadline : Instant}
    {telemetry telemetry' : AttemptTracker} {attempt : WriteAttempt}
    {progress progress' : StreamProgress} {response : Proto.MutateRowsResponse}
    (h : Inv codec initial run)
    (hphase : run.phase = .streaming current deadline telemetry attempt progress)
    (hresponse : recordResponse codec current.length progress response = .ok progress') :
    Inv codec initial
      { run with
        phase := .streaming current deadline telemetry'
          { attempt with messages := attempt.messages ++ [response] } progress' } := by
  have hbooks := h.books
  have hrecords := h.records
  have hresent := h.resent
  have hidle := h.idle
  simp only [attempts, underWay, live, hphase] at hbooks hrecords hresent hidle
  obtain ⟨hindexes, hwell, rfl⟩ := hrecords
  obtain ⟨hwell', rfl⟩ := (recordResponse_recorded hwell).1 hresponse
  exact ⟨hbooks.replace_last hindexes rfl rfl, ⟨hindexes, hwell', rfl⟩, hresent, hidle, nofun⟩

/-- The invariant after a booked attempt, up to the phase. -/
theorem Inv.booked {current : List PendingEntry} {attempt : WriteAttempt} {ending : AttemptEnd}
    {outcome : AttemptOutcome} (h : Inv codec initial run)
    (hends : Ends codec run current attempt ending outcome) :
    Books initial (run.book attempt ending outcome).operation (run.book attempt ending outcome).past
        outcome.retry ∧
      Resent (run.book attempt ending outcome).past outcome.retry ∧
      ∀ entry ∈ outcome.retry,
        (run.book attempt ending outcome).past.length < initial.maxAttempts := by
  obtain ⟨hlive, before, hunderWay, hindexes, hrequest⟩ := hends.underWay
  have hbooks := h.books
  have hresent := h.resent
  rw [attempts_of_phase hunderWay, hlive] at hbooks
  rw [hlive] at hresent
  obtain ⟨hcarried, hsettles⟩ := settles_of_ends hends h.records hbooks.live_nodup
  rw [hbooks.maxAttempts_eq] at hsettles
  have hreplaced : Books initial run.operation (run.book attempt ending outcome).past current :=
    hbooks.replace_last (hindexes ▸ hcarried) hindexes hrequest
  refine ⟨hreplaced.book hsettles, ?_, ?_⟩
  · intro entry hentry earlier hearlier
    obtain ⟨hsafe, -, hresends⟩ := hsettles.retried entry hentry
    rcases List.mem_append.1 hearlier with hearlier | hearlier
    · exact hresent entry (hsettles.retry_sublist.subset hentry) earlier hearlier
    · rw [List.mem_singleton.1 hearlier]
      exact ⟨hsafe, hresends⟩
  · intro entry hentry
    have hlt := (hsettles.retried entry hentry).2.1
    rwa [hreplaced.attempts_of_live (hsettles.retry_sublist.subset hentry)] at hlt

theorem inv_settled {current : List PendingEntry} {attempt : WriteAttempt} {ending : AttemptEnd}
    {outcome : AttemptOutcome} (h : Inv codec initial run)
    (hends : Ends codec run current attempt ending outcome)
    (hreschedules : Reschedules (run.book attempt ending outcome) shared outcome run' shared') :
    Inv codec initial run' := by
  obtain ⟨hbooks, hresent, hlt⟩ := h.booked hends
  cases hreschedules with
  | done hpending =>
      have hnil : outcome.retry = [] := hpending
      refine ⟨?_, trivial, hresent, fun _ _ => hpending, nofun⟩
      rw [show (run.book attempt ending outcome).attempts =
        (run.book attempt ending outcome).past from List.append_nil _]
      exact hbooks
  | expired hpending => exact inv_expire hbooks hresent
  | crashed hpending => exact inv_crash .backoff nofun hbooks hresent
  | sleeping delay hpending =>
      refine ⟨?_, trivial, hresent, nofun, fun _ => ⟨?_, hpending⟩⟩
      · rw [attempts_of_isResting rfl]
        exact hbooks
      · obtain ⟨entry, hentry⟩ := List.exists_mem_of_ne_nil _ hpending
        exact hlt entry hentry

/-! ## Moves -/

/-- Every move of a batch keeps its invariant. -/
theorem inv_move (h : Inv codec initial run) (hmove : Move codec run shared input run' shared') :
    Inv codec initial run' := by
  cases hmove with
  | exhausted _ hresting hpending => exact absurd hpending (h.resting hresting).2
  | expired _ hresting =>
      obtain ⟨hbooks, hresent⟩ := h.pending_books hresting
      exact inv_expire hbooks hresent
  | called _ turn hresting hpending => exact inv_issue shared h hresting turn
  | crashed _ hresting hpending =>
      obtain ⟨hbooks, hresent⟩ := h.pending_books hresting
      exact inv_crash .timeout nofun hbooks hresent
  | opened hphase => exact inv_opened h hphase
  | received turn hphase hresponse => exact inv_received h hphase hresponse
  | settled _ hends hheard hreschedules => exact inv_settled h hends hreschedules
  | panicked _ hphase houtcome =>
      have hrecords := h.records
      rw [hphase] at hrecords
      obtain ⟨-, hwell, rfl⟩ := hrecords
      rw [streamOutcome_recorded hwell] at houtcome
      cases houtcome

theorem inv_step (h : Inv codec initial run)
    (hstep : run.step codec shared input = some (run', shared')) : Inv codec initial run' :=
  inv_move h (move_of_step hstep)

end BigtableClient.BatchRun
