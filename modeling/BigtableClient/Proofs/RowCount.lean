import BigtableClient.Diagnostics
import BigtableClient.Proofs.ReadOrder
import BigtableClient.Proofs.ReadPanics

/-!
# The rows that are reported

An attempt counts the rows of a message when the message is used up, and the operation
counts a row before it is sent.  The counts agree with the rows that were delivered
unless a message is given up on, or the future dropped, in between.
-/

namespace BigtableClient

open Proto
open ProofSupport.Transition

def ReportsRows (events : List DiagnosticEvent) (delivered : Nat) : Prop :=
  ∃ reported, operationEnd? events = some reported ∧ reported.summary.rows = delivered ∧
    attemptRows events = delivered

namespace ReadState

variable {codec : Codec} {state next : ReadState} {input : ReadInput}
  {tracker : OperationTracker} {returned : Int} {count : Nat}

def delivered (state : ReadState) : Nat := (state.log.items.filterMap Except.toOption).length

theorem delivered_row (state : ReadState) (row : Row) :
    delivered { state with log := { state.log with items := state.log.items ++ [Except.ok row] } } =
      state.delivered + 1 := by
  simp [delivered, Except.toOption]

theorem delivered_error (state : ReadState) (error : ReadError) :
    delivered
        { state with log := { state.log with items := state.log.items ++ [Except.error error] } } =
      state.delivered := by
  simp [delivered, Except.toOption]

def ArmsTooLate (state : ReadState) (turn : ReadTurn) : Bool :=
  (resumeRequest state.operation.original state.operation.progress
      state.operation.rowsReturned).isSome ∧
    (state.operation.remaining turn.call).any fun remaining =>
      (Instant.checkedAdd turn.arm
        (min state.operation.options.deadlines.attemptTimeout remaining)).isNone

/-- The step loses no row from the reports.  A row that waits for the channel must be sent, and
the chunks behind it must not be rejected; once a row was delivered, an open operation must not be
dropped, nor fail for its deadline, nor panic. -/
def KeepsCount (codec : Codec) (state : ReadState) (input : ReadInput) : Prop :=
  match state.phase, input with
  | .terminating _, _ => True
  | _, .dropped => state.delivered = 0
  | .sending _ _ _ chunks, .sent => (pushUntilRow state.operation.merger chunks).2.isOk
  | .sending _ _ _ _, _ => False
  | .backingOff _ _, .wake turn =>
      state.delivered = 0 ∨ state.ArmsTooLate turn = false ∧ state.FitsTimeout codec turn
  | _, input => state.delivered = 0 ∨ state.Withstands codec input

instance (codec : Codec) (state : ReadState) (input : ReadInput) :
    Decidable (state.KeepsCount codec input) := by
  unfold KeepsCount
  split <;> infer_instance

/-! ## The counts -/

/-- The counts of an operation that is not over. -/
structure Counted (tracker : OperationTracker) (returned : Int) (all counted : Nat) : Prop where
  unfinished : tracker.finished = false
  returned : returned = all
  counted : attemptRows tracker.state.events = counted

/-- The counts of an operation that only its drop guard can still report. -/
def Closing (tracker : OperationTracker) (returned : Int) (delivered : Nat) : Prop :=
  (tracker.finished = true ∧ ReportsRows tracker.state.events delivered) ∨
    delivered = 0 ∧ Counted tracker returned 0 0

/-- The attempt under way has yet to report the rows it counted. -/
structure Owing (tracker : OperationTracker) (returned : Int) (delivered : Nat)
    (telemetry : AttemptTracker) (rows : Nat) : Prop where
  live : telemetry.finished = false
  counts : ∃ counted, Counted tracker returned delivered counted ∧ counted + rows = delivered

/-- In the middle of a message, the rows of the message are still to be counted. -/
structure MidMessage (tracker : OperationTracker) (returned : Int) (all delivered : Nat)
    (active : ActiveAttempt) (before : Int) : Prop where
  live : active.telemetry.finished = false
  counts : ∃ counted, Counted tracker returned all counted ∧
    ((counted + active.rows : Nat) : Int) = before
  before_le : before ≤ delivered

def PhaseRows (tracker : OperationTracker) (returned : Int) (delivered : Nat) : ReadPhase → Prop
  | .starting => delivered = 0 ∧ Counted tracker returned 0 0
  | .backingOff _ _ => Counted tracker returned delivered delivered
  | .calling _ _ _ telemetry => Owing tracker returned delivered telemetry 0
  | .streaming active => Owing tracker returned delivered active.telemetry active.rows
  | .sending active before _ _ =>
      MidMessage tracker returned (delivered + 1) delivered active before
  | .terminating _ => Closing tracker returned delivered
  | .finished _ => ReportsRows tracker.state.events delivered

abbrev RowsCounted (state : ReadState) : Prop :=
  PhaseRows state.operation.telemetry state.operation.rowsReturned state.delivered state.phase

/-! ## The end of an operation -/

theorem Counted.closing (h : Counted tracker returned count count) (code : Code) :
    Closing (tracker.finish code { rows := returned.toNat }) returned count := by
  have hend := operationEnd?_finish h.unfinished code { rows := returned.toNat }
  refine Or.inl ⟨?_, _, hend, ?_, ?_⟩
  · rw [OperationTracker.finish, if_neg (by simp [h.unfinished])]
  · rw [h.returned, Int.toNat_natCast]
  · rw [OperationTracker.finish, if_neg (by simp [h.unfinished])]
    exact (attemptTotal_recordFinish _ tracker code _).trans h.counted

/-- The drop guard reports no rows, and does nothing if the operation was finished. -/
theorem Closing.drop (h : Closing tracker returned count) :
    ReportsRows tracker.drop.state.events count := by
  rcases h with ⟨hfinished, hreports⟩ | ⟨rfl, hcounted⟩
  · rw [OperationTracker.drop, if_pos hfinished]
    exact hreports
  · rw [OperationTracker.drop, if_neg (by simp [hcounted.unfinished])]
    refine ⟨_, operationEnd?_recordFinish tracker .cancelled {}, rfl, ?_⟩
    exact (attemptTotal_recordFinish _ _ _ _).trans hcounted.counted

theorem rowsCounted_fail
    (h : Closing state.operation.telemetry state.operation.rowsReturned state.delivered)
    (sender : Bool) (error : ReadError) : (state.fail sender error).RowsCounted := by
  cases sender with
  | true => exact h
  | false => exact h.drop

theorem rowsCounted_failWith
    (h : Counted state.operation.telemetry state.operation.rowsReturned state.delivered
      state.delivered) (sender : Bool) (code : Code) (error : ReadError) :
    (state.failWith sender code error).RowsCounted := by
  have hclosing := h.closing code
  cases sender with
  | true => exact hclosing
  | false => exact hclosing.drop

theorem Owing.finish {telemetry : AttemptTracker} {rows : Nat}
    (h : Owing tracker returned count telemetry rows) (code : Code) :
    Counted
      { tracker with state := (telemetry.finish tracker.state code { rows := rows }).2 } returned
      count count := by
  obtain ⟨counted, hcounted, hsum⟩ := h.counts
  refine ⟨hcounted.unfinished, hcounted.returned, ?_⟩
  have hrows := attemptTotal_finish AttemptSummary.rows h.live tracker.state code { rows := rows }
  obtain rfl := hcounted.counted
  exact hrows.trans hsum

/-! ## Parts of a step -/

theorem rowsCounted_calls {sender : Bool} {turn : ReadTurn}
    (h : Counted state.operation.telemetry state.operation.rowsReturned state.delivered
      state.delivered)
    (hok : state.delivered = 0 ∨ state.ArmsTooLate turn = false ∧ state.FitsTimeout codec turn)
    (hcalls : Calls codec state sender turn next) : next.RowsCounted := by
  have hpanics := panicked_iff_of_calls hcalls
  cases hcalls with
  | exhausted hrequest => exact (h.closing .ok).drop
  | late hremaining => exact rowsCounted_failWith h sender _ _
  | tooLarge hrequest hremaining hdeadline =>
      have hlate : state.ArmsTooLate turn := by
        simp [ArmsTooLate, hrequest, hremaining, hdeadline]
      rcases hok with hnone | ⟨hok, -⟩
      · exact rowsCounted_fail (Or.inr ⟨hnone, hnone ▸ h⟩) sender _
      · rw [hlate] at hok
        cases hok
  | panicked hrequest hremaining hdeadline htakes =>
      rcases hok with hnone | ⟨-, hfits⟩
      · exact Closing.drop (Or.inr ⟨hnone, hnone ▸ h⟩)
      · exact absurd hfits (hpanics.1 rfl)
  | issued hrequest hremaining hdeadline =>
      refine ⟨rfl, state.delivered, ⟨h.unfinished, h.returned, ?_⟩, rfl⟩
      exact (attemptTotal_attempt _ _ _ _ _ _).trans h.counted

theorem rowsCounted_retries {sender : Bool} {status : Status} {turn : ReadTurn}
    (h : Counted state.operation.telemetry state.operation.rowsReturned state.delivered
      state.delivered) (hok : state.delivered = 0 ∨ state.BacksOff codec status turn)
    (hretries : Retries codec state sender status turn next) : next.RowsCounted := by
  have hpanics := panicked_iff_of_retries hretries
  cases hretries with
  | late => exact rowsCounted_failWith h sender _ _
  | refused htop hrefused => exact rowsCounted_failWith h sender _ _
  | panicked htop hretryable hbudget hbackoff =>
      rcases hok with hnone | hbacksOff
      · exact Closing.drop (Or.inr ⟨hnone, hnone ▸ h⟩)
      · exact absurd hbacksOff (hpanics.1 rfl)
  | backedOff hretryable hbudget hbackoff hremaining hdelay =>
      refine ⟨h.unfinished, h.returned, ?_⟩
      exact (attemptTotal_retry _ _ _ _ _ _ _).trans h.counted

theorem rowsCounted_rejectResponse {active : ActiveAttempt}
    (h : Owing state.operation.telemetry state.operation.rowsReturned state.delivered
      active.telemetry active.rows) (issue : RowMergeIssue) :
    (state.rejectResponse active issue).RowsCounted :=
  (h.finish .unknown).closing .unknown

/-- A message is used up, or rejected before a row of it was returned. -/
theorem MidMessage.owing {active : ActiveAttempt} {before : Int}
    (h : MidMessage tracker returned count count active before) :
    Owing tracker returned count active.telemetry
      (active.rows + (returned - before).toNat) := by
  obtain ⟨counted, hcounted, hsum⟩ := h.counts
  have hreturned := hcounted.returned
  have hbefore := h.before_le
  refine ⟨h.live, counted, hcounted, ?_⟩
  omega

theorem rowsCounted_takesChunks {active : ActiveAttempt} {before : Int}
    {chunks : List CellChunk}
    (h : MidMessage state.operation.telemetry state.operation.rowsReturned state.delivered
      state.delivered active before)
    (hok : before = state.delivered ∨ (pushUntilRow state.operation.merger chunks).2.isOk)
    (htakes : TakesChunks state active before chunks next) : next.RowsCounted := by
  have howing := h.owing
  obtain ⟨counted, hcounted, hsum⟩ := h.counts
  cases htakes with
  | rejected hpush =>
      rcases hok with hbefore | hok
      · rename_i merger issue
        have hnone : Owing (state.setMerger merger).operation.telemetry
            (state.setMerger merger).operation.rowsReturned (state.setMerger merger).delivered
            active.telemetry active.rows := by
          refine ⟨h.live, counted, hcounted, ?_⟩
          show counted + active.rows = state.delivered
          omega
        exact rowsCounted_rejectResponse hnone issue
      · rw [hpush] at hok
        cases hok
  | row hpush =>
      refine ⟨h.live, ⟨counted, ⟨hcounted.unfinished, ?_, hcounted.counted⟩, hsum⟩, h.before_le⟩
      have hreturned := hcounted.returned
      show state.operation.rowsReturned + 1 = ((state.delivered + 1 : Nat) : Int)
      omega
  | full hpush hlimit => exact ((howing.finish .ok).closing .ok).drop
  | drained hpush hlimit => exact howing

theorem Owing.hear {telemetry : AttemptTracker} {rows : Nat}
    (h : Owing tracker returned count telemetry rows) :
    Owing { tracker with state := (telemetry.recordFirstResponse tracker.state).2 } returned count
      (telemetry.recordFirstResponse tracker.state).1 rows := by
  obtain ⟨counted, hcounted, hsum⟩ := h.counts
  have hrows := attemptTotal_recordFirstResponse AttemptSummary.rows telemetry tracker.state
  refine ⟨?_, counted, ⟨hcounted.unfinished, hcounted.returned, hrows.trans hcounted.counted⟩, hsum⟩
  rw [AttemptTracker.recordFirstResponse]
  split_ifs
  · exact h.live
  · exact h.live

/-- A message arrives: nothing of it was returned yet. -/
theorem Owing.midMessage {active : ActiveAttempt}
    (h : Owing tracker returned count active.telemetry active.rows) :
    MidMessage tracker returned count count active returned := by
  obtain ⟨counted, hcounted, hsum⟩ := h.counts
  have hreturned := hcounted.returned
  refine ⟨h.live, ⟨counted, hcounted, ?_⟩, ?_⟩
  · omega
  · omega

theorem rowsCounted_takesMessage {active : ActiveAttempt} {response : ReadRowsResponse}
    (h : Owing state.operation.telemetry state.operation.rowsReturned state.delivered
      active.telemetry active.rows)
    (htakes : TakesMessage state active response next) : next.RowsCounted := by
  obtain ⟨_, hcounted, -⟩ := h.counts
  have hbefore := hcounted.returned
  have hheard := h.hear
  cases htakes with
  | misplaced hkey hscan =>
      exact (hheard.finish .unknown).closing .unknown
  | unmarked hkey hchunks =>
      have hmid : MidMessage _ _ _ _ (state.hearing active) _ := hheard.midMessage
      refine rowsCounted_takesChunks ?_ ?_ hchunks
      · exact hmid
      · exact Or.inl hbefore
  | marked hkey hscan hchunks =>
      have hmid : MidMessage _ _ _ _ (state.hearing active) _ := hheard.midMessage
      refine rowsCounted_takesChunks ?_ ?_ hchunks
      · exact hmid
      · exact Or.inl hbefore

/-! ## Steps -/

theorem owing_of_underWay {phase : ReadPhase} {telemetry : AttemptTracker} {rows : Nat}
    (h : PhaseRows tracker returned count phase)
    (hsending : ∀ active before row chunks, phase ≠ .sending active before row chunks)
    (hunderWay : phase.underWay = some (telemetry, rows)) :
    Owing tracker returned count telemetry rows := by
  cases phase with
  | calling sender deadline request tracker =>
      obtain ⟨rfl, rfl⟩ := Prod.mk.inj (Option.some.inj hunderWay)
      exact h
  | streaming active =>
      obtain ⟨rfl, rfl⟩ := Prod.mk.inj (Option.some.inj hunderWay)
      exact h
  | sending active before row chunks => exact absurd rfl (hsending active before row chunks)
  | _ => cases hunderWay

/-- A row that waits for the channel does not see its attempt fail, nor the consumer go away. -/
theorem not_sending_of_keepsCount (hok : state.KeepsCount codec input)
    (hinput : input.failure.isSome ∨ input.isGone) :
    ∀ active before row chunks, state.phase ≠ .sending active before row chunks := by
  intro active before row chunks hphase
  simp only [KeepsCount, hphase] at hok
  cases input with
  | refused status turn => exact hok
  | openTimedOut turn => exact hok
  | streamBroke status turn => exact hok
  | streamTimedOut turn => exact hok
  | sendFailed => exact hok
  | closed => exact hok
  | _ => simp [ReadInput.failure, ReadInput.isGone] at hinput

/-- When an attempt fails after a row was delivered, the backoff does not panic. -/
theorem backsOff_of_keepsCount {status : Status} {turn : ReadTurn}
    (hok : state.KeepsCount codec input) (hunderWay : state.phase.underWay.isSome)
    (hfailure : input.failure = some (status, turn)) :
    state.delivered = 0 ∨ state.BacksOff codec status turn := by
  have hsending := not_sending_of_keepsCount hok (Or.inl (by rw [hfailure]; rfl))
  rw [← withstands_iff_of_failure hfailure]
  cases hphase : state.phase with
  | sending active before row chunks => exact absurd hphase (hsending active before row chunks)
  | calling sender deadline request telemetry =>
      simp only [KeepsCount, hphase] at hok
      cases input with
      | dropped => cases hfailure
      | _ => exact hok
  | streaming active =>
      simp only [KeepsCount, hphase] at hok
      cases input with
      | dropped => cases hfailure
      | _ => exact hok
  | _ => simp [hphase, ReadPhase.underWay] at hunderWay

theorem rowsCounted_drop (h : state.RowsCounted) (hlive : ∀ how, state.phase ≠ .finished how)
    (hok : state.KeepsCount codec .dropped) :
    (state.drop (state.phase.underWay.map Prod.fst)).RowsCounted := by
  unfold RowsCounted at h
  have hdropped : ∀ telemetry,
      (∃ all, Counted state.operation.telemetry state.operation.rowsReturned all 0) →
      state.delivered = 0 → ReportsRows
        (OperationTracker.drop
          { state.operation.telemetry with
            state := AttemptTracker.drop telemetry state.operation.telemetry.state }).state.events
        state.delivered := by
    rintro telemetry ⟨all, hcounted⟩ hnone
    rw [hnone, OperationTracker.drop, if_neg (by simp [hcounted.unfinished])]
    refine ⟨_, operationEnd?_recordFinish _ .cancelled {}, rfl, ?_⟩
    apply (attemptTotal_recordFinish _ _ _ _).trans
    exact (attemptTotal_drop rfl _ _).trans hcounted.counted
  cases hphase : state.phase with
  | finished how => exact absurd hphase (hlive how)
  | terminating error =>
      rw [hphase] at h
      exact h.drop
  | starting =>
      rw [hphase] at h
      exact Closing.drop (Or.inr h)
  | backingOff sender delay =>
      simp only [KeepsCount, hphase] at hok
      rw [hphase] at h
      exact Closing.drop (Or.inr ⟨hok, hok ▸ h⟩)
  | calling sender deadline request telemetry =>
      simp only [KeepsCount, hphase] at hok
      rw [hphase] at h
      obtain ⟨counted, hcounted, hsum⟩ := h.counts
      obtain rfl : counted = 0 := by omega
      exact hdropped telemetry ⟨_, hcounted⟩ hok
  | streaming active =>
      simp only [KeepsCount, hphase] at hok
      rw [hphase] at h
      obtain ⟨counted, hcounted, hsum⟩ := h.counts
      obtain rfl : counted = 0 := by omega
      exact hdropped active.telemetry ⟨_, hcounted⟩ hok
  | sending active before row chunks =>
      simp only [KeepsCount, hphase] at hok
      rw [hphase] at h
      obtain ⟨counted, hcounted, hsum⟩ := h.counts
      have hbefore := h.before_le
      obtain rfl : counted = 0 := by omega
      exact hdropped active.telemetry ⟨_, hcounted⟩ hok

theorem rowsCounted_step (h : state.RowsCounted) (hok : state.KeepsCount codec input)
    (hstep : Step codec state input next) : next.RowsCounted := by
  have hphased : ∀ {phase}, state.phase = phase →
      PhaseRows state.operation.telemetry state.operation.rowsReturned state.delivered phase := by
    rintro phase rfl
    exact h
  have hcounted : state.delivered = 0 ∧ Counted state.operation.telemetry
      state.operation.rowsReturned 0 0 → Counted state.operation.telemetry
        state.operation.rowsReturned state.delivered state.delivered :=
    fun hnone => hnone.1.symm ▸ hnone.2
  cases hstep with
  | expired hphase htop => exact rowsCounted_failWith (hcounted (hphased hphase)) false _ _
  | begun hphase hcalls =>
      have hnone := hphased hphase
      exact rowsCounted_calls (hcounted hnone) (Or.inl hnone.1) hcalls
  | woken hphase hcalls =>
      simp only [KeepsCount, hphase] at hok
      exact rowsCounted_calls (hphased hphase) hok hcalls
  | opened hphase =>
      have howing := hphased hphase
      exact howing
  | failed merger hunderWay hfailure hretries =>
      have hsome : input.failure.isSome ∨ input.isGone := Or.inl (by rw [hfailure]; rfl)
      have howing := owing_of_underWay h (not_sending_of_keepsCount hok hsome) hunderWay
      have hbacksOff := backsOff_of_keepsCount hok (by rw [hunderWay]; rfl) hfailure
      refine rowsCounted_retries ?_ ?_ hretries
      · exact howing.finish _
      · exact hbacksOff
  | message hphase htakes => exact rowsCounted_takesMessage (hphased hphase) htakes
  | sent hphase htakes =>
      simp only [KeepsCount, hphase] at hok
      refine rowsCounted_takesChunks ?_ ?_ htakes
      · obtain ⟨hlive, hcounts, hbefore⟩ := hphased hphase
        rw [delivered_row]
        refine ⟨hlive, hcounts, ?_⟩
        push_cast
        omega
      · exact Or.inr hok
  | ended hphase hfinish =>
      have howing := hphased hphase
      exact ((howing.finish .ok).closing .ok).drop
  | endedEarly hphase hfinish =>
      have howing := hphased hphase
      exact (howing.finish .ok).closing .unknown
  | deserted hphase hgone => exact ((hphased hphase).closing .cancelled).drop
  | abandoned hunderWay hgone =>
      have howing := owing_of_underWay h (not_sending_of_keepsCount hok (Or.inr hgone)) hunderWay
      exact ((howing.finish .cancelled).closing .cancelled).drop
  | dropped hlive => exact rowsCounted_drop h hlive hok
  | reported hphase =>
      have hreports := Closing.drop (hphased hphase)
      rw [← delivered_error state] at hreports
      exact hreports
  | unreported hphase => exact (hphased hphase).drop

/-- Read diagnostics count every delivered row once, in every run whose steps lose no row from the
reports, however the read ends. -/
theorem read_reports_every_row (codec : Codec) (original : ReadRowsRequest) (options : ReadOptions)
    (deadline : Instant) (tableId : String) {how : ReadEnd}
    (hreach : ReachableBy (step codec) (KeepsCount codec)
      (.new original options deadline tableId) state)
    (hphase : state.phase = .finished how) :
    ReportsRows state.operation.telemetry.state.events state.delivered := by
  have hcounted := hreach.invariant RowsCounted ⟨rfl, rfl, rfl, rfl⟩
    fun _ _ _ hinv hok hstep => rowsCounted_step hinv hok (step_of_step hstep)
  unfold RowsCounted at hcounted
  rw [hphase] at hcounted
  exact hcounted

end ReadState

theorem ReadState.read_reports_every_row_interruptedRead :
    ∃ state : ReadState, state.delivered = 2 ∧
      ReportsRows state.operation.telemetry.state.events state.delivered := by
  have hrun : (run (guarded (ReadState.step sampleCodec) (ReadState.KeepsCount sampleCodec))
      (.new sampleRead .default 1000 "events") interruptedRead).any fun state =>
        state.phase = .finished .completed ∧ state.delivered = 2 := by decide +kernel
  obtain ⟨state, hrun, hover⟩ := Option.any_eq_true _ _ |>.1 hrun
  obtain ⟨hphase, hdelivered⟩ := of_decide_eq_true hover
  exact ⟨state, hdelivered, ReadState.read_reports_every_row sampleCodec sampleRead .default 1000
    "events" (reachableBy_of_run .start hrun) hphase⟩

/-! ### A row in front of a malformed chunk

The row is delivered, and then its key comes again. -/

def repeatedKey : List ReadInput :=
  [.begin sampleTurn, .opened,
    .message
      { chunks :=
          [sampleChunk [97] (some (.commitRow true)), sampleChunk [97] (some (.commitRow true))]
        lastScannedRowKey := [] },
    .sent, .sent]

theorem not_reportsRows_repeatedKey :
    ∃ state : ReadState, run (ReadState.step sampleCodec)
        (.new sampleRead .default 1000 "events") repeatedKey = some state ∧
      (∃ error, state.phase = .finished (.failed error)) ∧ state.delivered = 1 ∧
      attemptRows state.operation.telemetry.state.events = 0 ∧
      ¬ ReportsRows state.operation.telemetry.state.events state.delivered := by
  refine ⟨_, rfl, ⟨_, rfl⟩, rfl, rfl, ?_⟩
  rintro ⟨reported, -, -, hrows⟩
  exact absurd hrows (by decide)

end BigtableClient
