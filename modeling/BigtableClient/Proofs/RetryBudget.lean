import BigtableClient.Batching
import BigtableClient.Proofs.ReadOrder
import BigtableClient.Proofs.ReadSteps
import BigtableClient.Proofs.Unread

/-!
# The retry budget of a read

The history of a read is kept beside its run, from what the environment did alone:
which requests were issued, and how each attempt was over.  It tells when a further
request was due, and what an error has to say.
-/

namespace BigtableClient

open Proto
open Selection (RangeSelects RowSetSelects selects_some)
open ChunkGrammar (Output outputRows lastKey)
open ProofSupport.Transition

/-! ## The history of a read -/

/-- How an attempt of a read was over. -/
inductive AttemptVerdict where
  | failed (status : Status)
  | ended
  | limitReached
  | malformed (issue : RowMergeIssue)
  | abandoned
  deriving DecidableEq, Repr

structure ReadAttempt where
  request : ReadRowsRequest
  /-- the rows and markers let through before it -/
  earlier : List Output
  /-- `none` while the attempt is under way -/
  verdict : Option AttemptVerdict

def ReadInput.verdict (input : ReadInput) (next : ReadPhase) : Option AttemptVerdict :=
  match input with
  | .begin _ => none
  | .wake _ => none
  | .opened => none
  | .refused status _ => some (.failed status)
  | .openTimedOut _ => some (.failed (.deadlineExceeded attemptDeadlineMessage))
  | .streamBroke status _ => some (.failed status)
  | .streamTimedOut _ => some (.failed (.deadlineExceeded attemptDeadlineMessage))
  | .streamEnded => some .ended
  | .message _ | .sent =>
      match next with
      | .terminating (.invalidReadRowsResponse issue) => some (.malformed issue)
      | .finished .completed => some .limitReached
      | _ => none
  | .sendFailed => some .abandoned
  | .closed => some .abandoned
  | .dropped => some .abandoned

def ReadAttempt.judge (verdict : Option AttemptVerdict) (attempt : ReadAttempt) : ReadAttempt :=
  { attempt with verdict := attempt.verdict.or verdict }

namespace ReadState

def record (state : ReadState) (input : ReadInput) (next : ReadState)
    (history : List ReadAttempt) : List ReadAttempt :=
  history.map (ReadAttempt.judge (input.verdict next.phase)) ++
    (next.log.requests.drop state.log.requests.length).map fun issued =>
      { request := issued.request, earlier := next.log.accepted, verdict := none }

def recordedStep (codec : Codec) (state : ReadState × List ReadAttempt) (input : ReadInput) :
    Option (ReadState × List ReadAttempt) :=
  (state.1.step codec input).map fun next => (next, state.1.record input next state.2)

end ReadState

/-! ## What the history has to say -/

/-- The later attempt is a retry of the earlier one, which left something. -/
def ReadAttempt.Follows (left : List Output → Prop) (earlier later : ReadAttempt) : Prop :=
  (∃ status, earlier.verdict = some (.failed status) ∧ isRetryable status) ∧ left later.earlier

/-- The error agrees with the history. -/
def ReadError.Reports (history : List ReadAttempt) : ReadError → Prop
  | .readRows attempts source =>
      attempts = history.length ∧ ∃ last ∈ history.getLast?, last.verdict = some (.failed source)
  | .readDeadlineExceeded attempts _ => attempts = history.length
  | _ => True

def Judged (history : List ReadAttempt) : Prop := ∀ attempt ∈ history, attempt.verdict ≠ none

def LastUnderWay (history : List ReadAttempt) : Prop :=
  ∃ past last, history = past ++ [last] ∧ Judged past ∧ last.verdict = none

variable {original : ReadRowsRequest} {left : List Output → Prop} {history : List ReadAttempt}
  {verdict : Option AttemptVerdict}

theorem map_judge_none (history : List ReadAttempt) :
    history.map (ReadAttempt.judge none) = history := by
  conv_rhs => rw [← List.map_id history]
  apply List.map_congr_left
  intro attempt _
  simp [ReadAttempt.judge]

theorem Judged.map_judge (h : Judged history) :
    history.map (ReadAttempt.judge verdict) = history := by
  conv_rhs => rw [← List.map_id history]
  apply List.map_congr_left
  intro attempt hattempt
  obtain ⟨old, hold⟩ := Option.ne_none_iff_exists'.1 (h attempt hattempt)
  simp only [ReadAttempt.judge, hold, Option.some_or, id_eq]
  rw [← hold]

/-- The last attempt is over. -/
theorem LastUnderWay.map_judge (h : LastUnderWay history) (verdict : AttemptVerdict) :
    Judged (history.map (ReadAttempt.judge (some verdict))) ∧
      ∃ last ∈ (history.map (ReadAttempt.judge (some verdict))).getLast?,
        last.verdict = some verdict := by
  obtain ⟨past, last, rfl, hpast, hlast⟩ := h
  rw [List.map_append, hpast.map_judge]
  have hjudged : (ReadAttempt.judge (some verdict) last).verdict = some verdict := by
    simp [ReadAttempt.judge, hlast]
  refine ⟨fun attempt hattempt => ?_, ⟨_, by simp, hjudged⟩⟩
  rcases List.mem_append.1 hattempt with hattempt | hattempt
  · exact hpast attempt hattempt
  · rw [List.map_singleton, List.mem_singleton] at hattempt
    simp [hattempt, hjudged]

theorem isChain_map_judge (h : history.IsChain (ReadAttempt.Follows left))
    (verdict : Option AttemptVerdict) :
    (history.map (ReadAttempt.judge verdict)).IsChain (ReadAttempt.Follows left) := by
  refine List.isChain_map_of_isChain _ (fun earlier later hfollows => ?_) h
  obtain ⟨⟨status, hstatus, hretryable⟩, hleft⟩ := hfollows
  exact ⟨⟨status, by simp [ReadAttempt.judge, hstatus], hretryable⟩, hleft⟩

/-! ## The rows returned -/

namespace ReadView

variable {view next : ReadView} {input : ReadInput}

def Counts (view : ReadView) : Prop := view.rowsReturned = (outputRows view.accepted).length

theorem Counts.takeChunks (h : view.Counts) (chunks : List CellChunk) :
    (view.takeChunks chunks).Counts := by
  unfold ReadView.takeChunks
  rcases ReadState.pushUntilRow view.merger chunks with ⟨merger, issue | taken⟩
  · exact h
  · cases taken with
    | none => exact h
    | some taken =>
        have hcount : view.rowsReturned = (outputRows view.accepted).length := h
        simp [Counts, outputRows, ChunkGrammar.Output.row?, hcount]

theorem Counts.takeMessage (h : view.Counts) (response : ReadRowsResponse) :
    (view.takeMessage response).Counts := by
  unfold ReadView.takeMessage
  split_ifs with hkey
  · exact h.takeChunks response.chunks
  · rcases view.merger.scanMarker response.lastScannedRowKey with ⟨merger, issue | ⟨⟩⟩
    · exact h
    · refine Counts.takeChunks ?_ response.chunks
      have hmarker : outputRows (view.accepted ++ [.marker response.lastScannedRowKey]) =
          outputRows view.accepted := by
        simp [outputRows, ChunkGrammar.Output.row?]
      show view.rowsReturned = _
      rw [hmarker]
      exact h

theorem Counts.move (h : view.Counts) (hmove : Move view input next) : next.Counts := by
  cases hmove with
  | message hstreaming => exact h.takeMessage _
  | sent hsending =>
      refine Counts.takeChunks ?_ _
      exact h
  | _ => exact h

end ReadView

/-! ## The invariant -/

namespace ReadState

variable {codec : Codec} {options : ReadOptions} {state next : ReadState} {input : ReadInput}

structure MayCall (maxAttempts : Nat) (history : List ReadAttempt) : Prop where
  judged : Judged history
  budget : history.length < maxAttempts
  retryable : ∀ last ∈ history.getLast?, ∃ status, last.verdict = some (.failed status) ∧
    isRetryable status

/-- Where the history stands, by the phase of the operation. -/
def Stands (maxAttempts : Nat) (history : List ReadAttempt) : ReadPhase → Prop
  | .starting => MayCall maxAttempts history
  | .backingOff _ _ => MayCall maxAttempts history
  | .terminating error => Judged history ∧ error.Reports history
  | .finished (.failed error) => error.Reports history
  | .finished _ => True
  | _ => LastUnderWay history

/-- The history of a read agrees with its variables. -/
structure Tallied (left : List Output → Prop) (options : ReadOptions) (state : ReadState)
    (history : List ReadAttempt) : Prop where
  config : state.operation.options = options
  attempts : state.operation.attempts = history.length
  issued : history.map ReadAttempt.request = state.log.requests.map IssuedRead.request
  budget : history.length ≤ options.retry.maxAttempts.toNat
  follows : history.IsChain (ReadAttempt.Follows left)
  stands : Stands options.retry.maxAttempts.toNat history state.phase
  items : ∀ error, Except.error error ∈ state.log.items → state.phase = .finished (.failed error)

/-- A step that issues no request and sends no error, unless it ends the operation with it. -/
structure SameTally (state next : ReadState) : Prop where
  options : next.operation.options = state.operation.options
  attempts : next.operation.attempts = state.operation.attempts
  requests : next.log.requests = state.log.requests
  items : ∀ error, Except.error error ∈ next.log.items →
    Except.error error ∈ state.log.items ∨ next.phase = .finished (.failed error)

theorem Tallied.same (h : Tallied left options state history) (hsame : SameTally state next)
    (hlive : ∀ how, state.phase ≠ .finished how)
    (hstands : Stands options.retry.maxAttempts.toNat
      (history.map (ReadAttempt.judge (input.verdict next.phase))) next.phase) :
    Tallied left options next (state.record input next history) := by
  have hrecord : state.record input next history =
      history.map (ReadAttempt.judge (input.verdict next.phase)) := by
    rw [record, hsame.requests, List.drop_length, List.map_nil, List.append_nil]
  rw [hrecord]
  refine ⟨hsame.options.trans h.config, ?_, ?_, ?_, isChain_map_judge h.follows _, hstands, ?_⟩
  · rw [hsame.attempts, h.attempts, List.length_map]
  · rw [hsame.requests, ← h.issued, List.map_map]
    rfl
  · rw [List.length_map]
    exact h.budget
  · intro error herror
    exact (hsame.items error herror).resolve_left fun hold => hlive _ (h.items error hold)

/-! ## Parts of a step -/

theorem sameTally_failWith (state : ReadState) (sender : Bool) (code : Code) (error : ReadError) :
    SameTally state (state.failWith sender code error) := by
  cases sender <;> exact ⟨rfl, rfl, rfl, fun _ herror => Or.inl herror⟩

theorem stands_failWith {maxAttempts : Nat} (state : ReadState) (sender : Bool) (code : Code)
    {error : ReadError} (hjudged : Judged history) (hreports : error.Reports history) :
    Stands maxAttempts history (state.failWith sender code error).phase := by
  cases sender with
  | true => exact ⟨hjudged, hreports⟩
  | false => exact hreports

theorem sameTally_takesChunks {active : ActiveAttempt} {before : Int} {chunks : List CellChunk}
    (h : TakesChunks state active before chunks next) : SameTally state next := by
  cases h <;> exact ⟨rfl, rfl, rfl, fun _ herror => Or.inl herror⟩

theorem sameTally_takesMessage {active : ActiveAttempt} {response : ReadRowsResponse}
    (h : TakesMessage state active response next) : SameTally state next := by
  cases h with
  | misplaced hkey hscan => exact ⟨rfl, rfl, rfl, fun _ herror => Or.inl herror⟩
  | unmarked hkey hchunks =>
      have hsame := sameTally_takesChunks hchunks
      exact ⟨hsame.options, hsame.attempts, hsame.requests, hsame.items⟩
  | marked hkey hscan hchunks =>
      have hsame := sameTally_takesChunks hchunks
      exact ⟨hsame.options, hsame.attempts, hsame.requests, hsame.items⟩

theorem stands_takesChunks {maxAttempts : Nat} {active : ActiveAttempt} {before : Int}
    {chunks : List CellChunk} (h : TakesChunks state active before chunks next)
    (hunderWay : LastUnderWay history)
    (hinput : input = .sent ∨ ∃ response, input = .message response) :
    Stands maxAttempts (history.map (ReadAttempt.judge (input.verdict next.phase))) next.phase := by
  have hverdict : ∀ phase, input.verdict phase = ReadInput.verdict .sent phase := by
    rcases hinput with rfl | ⟨response, rfl⟩ <;> exact fun _ => rfl
  rw [hverdict]
  cases h with
  | rejected hpush => exact ⟨(hunderWay.map_judge _).1, trivial⟩
  | row hpush =>
      show LastUnderWay _
      exact (map_judge_none history).symm ▸ hunderWay
  | full hpush hlimit => trivial
  | drained hpush hlimit =>
      show LastUnderWay _
      exact (map_judge_none history).symm ▸ hunderWay

theorem stands_takesMessage {maxAttempts : Nat} {active : ActiveAttempt}
    {response : ReadRowsResponse} (h : TakesMessage state active response next)
    (hunderWay : LastUnderWay history) :
    Stands maxAttempts
      (history.map (ReadAttempt.judge ((ReadInput.message response).verdict next.phase)))
      next.phase := by
  cases h with
  | misplaced hkey hscan => exact ⟨(hunderWay.map_judge _).1, trivial⟩
  | unmarked hkey hchunks => exact stands_takesChunks hchunks hunderWay (Or.inr ⟨response, rfl⟩)
  | marked hkey hscan hchunks =>
      exact stands_takesChunks hchunks hunderWay (Or.inr ⟨response, rfl⟩)

/-! ## Steps -/

theorem Tallied.calls {sender : Bool} {turn : ReadTurn}
    (h : Tallied left options state history)
    (hmay : MayCall options.retry.maxAttempts.toNat history)
    (hlive : ∀ how, state.phase ≠ .finished how)
    (hleft : ∀ request, resumeRequest state.operation.original state.operation.progress
      state.operation.rowsReturned = some request → left state.log.accepted)
    (hverdict : ∀ phase, input.verdict phase = none) (hcalls : Calls codec state sender turn next) :
    Tallied left options next (state.record input next history) := by
  cases hcalls with
  | exhausted hrequest =>
      exact h.same ⟨rfl, rfl, rfl, fun _ herror => Or.inl herror⟩ hlive trivial
  | late hremaining =>
      apply h.same (sameTally_failWith _ _ _ _) hlive
      rw [hverdict, map_judge_none]
      exact stands_failWith _ _ _ hmay.judged h.attempts
  | tooLarge hrequest hremaining hdeadline =>
      refine h.same (by cases sender <;> exact ⟨rfl, rfl, rfl, fun _ herror => Or.inl herror⟩)
        hlive ?_
      rw [hverdict, map_judge_none]
      cases sender with
      | true => exact ⟨hmay.judged, trivial⟩
      | false => trivial
  | panicked hrequest hremaining hdeadline htakes =>
      exact h.same ⟨rfl, rfl, rfl, fun _ herror => Or.inl herror⟩ hlive trivial
  | issued hrequest hremaining hdeadline htakes =>
      rename_i request remaining deadline
      have hrecord : state.record input (state.issue sender turn.arm
          (min state.operation.options.deadlines.attemptTimeout remaining) deadline request)
            history =
          history ++ [{ request := request, earlier := state.log.accepted, verdict := none }] := by
        rw [record, hverdict, map_judge_none]
        simp [issue]
      rw [hrecord]
      refine ⟨h.config, ?_, ?_, ?_, ?_, ⟨history, _, rfl, hmay.judged, rfl⟩, ?_⟩
      · show state.operation.attempts + 1 = _
        rw [h.attempts, List.length_append, List.length_singleton]
      · simp [issue, h.issued]
      · rw [List.length_append, List.length_singleton]
        exact hmay.budget
      · refine List.isChain_append.2 ⟨h.follows, List.isChain_singleton _, ?_⟩
        intro last hlast later hlater
        obtain rfl := Option.some.inj hlater
        exact ⟨hmay.retryable last hlast, hleft request hrequest⟩
      · intro error herror
        exact absurd (h.items error herror) (hlive _)

theorem Tallied.retries {sender : Bool} {status : Status} {turn : ReadTurn}
    {telemetry : AttemptTracker} {rows : Nat} {merger : RowMerger}
    (h : Tallied left options state history) (hunderWay : LastUnderWay history)
    (hlive : ∀ how, state.phase ≠ .finished how)
    (hverdict : ∀ phase, input.verdict phase = some (.failed status))
    (hretries : Retries codec ((state.finishAttempt telemetry status.code rows).setMerger merger)
      sender status turn next) :
    Tallied left options next (state.record input next history) := by
  obtain ⟨hjudged, last, hlast, hfailed⟩ := hunderWay.map_judge (.failed status)
  have hattempts : state.operation.attempts =
      (history.map (ReadAttempt.judge (some (.failed status)))).length := by
    rw [List.length_map, h.attempts]
  cases hretries with
  | late hbacksOff =>
      refine h.same ?_ hlive ?_
      · have hsame := sameTally_failWith ((state.finishAttempt telemetry status.code rows).setMerger
          merger) sender .deadlineExceeded (ReadOperation.deadlineError
            ((state.finishAttempt telemetry status.code rows).setMerger merger).operation)
        exact ⟨hsame.options, hsame.attempts, hsame.requests, hsame.items⟩
      · rw [hverdict]
        exact stands_failWith _ _ _ hjudged hattempts
  | refused htop hrefused =>
      refine h.same ?_ hlive ?_
      · have hsame := sameTally_failWith ((state.finishAttempt telemetry status.code rows).setMerger
          merger) sender status.code (.readRows state.operation.attempts status)
        exact ⟨hsame.options, hsame.attempts, hsame.requests, hsame.items⟩
      · rw [hverdict]
        exact stands_failWith _ _ _ hjudged ⟨hattempts, last, hlast, hfailed⟩
  | panicked htop hretryable hbudget hbackoff =>
      exact h.same ⟨rfl, rfl, rfl, fun _ herror => Or.inl herror⟩ hlive trivial
  | backedOff hretryable hbudget hbackoff hremaining hdelay =>
      refine h.same ⟨rfl, rfl, rfl, fun _ herror => Or.inl herror⟩ hlive ?_
      rw [hverdict]
      refine ⟨hjudged, ?_, fun other hother => ?_⟩
      · have hlt : state.operation.attempts < state.operation.options.retry.maxAttempts.toNat :=
          hbudget
        rw [← hattempts]
        rwa [h.config] at hlt
      · obtain rfl := Option.some.inj (hlast.symm.trans hother)
        exact ⟨status, hfailed, hretryable⟩

theorem lastUnderWay_of_stands {maxAttempts : Nat} {phase : ReadPhase}
    {underWay : AttemptTracker × Nat} (h : Stands maxAttempts history phase)
    (hunderWay : phase.underWay = some underWay) :
    LastUnderWay history ∧ ∀ how, phase ≠ .finished how := by
  cases phase with
  | calling sender deadline request telemetry => exact ⟨h, by simp⟩
  | streaming active => exact ⟨h, by simp⟩
  | sending active before row chunks => exact ⟨h, by simp⟩
  | _ => cases hunderWay

theorem verdict_of_failure {status : Status} {turn : ReadTurn}
    (h : input.failure = some (status, turn)) (phase : ReadPhase) :
    input.verdict phase = some (.failed status) := by
  cases input <;> simp_all [ReadInput.failure, ReadInput.verdict]

/-- What `open` goes by, before a request. -/
theorem left_of_idle (hbefore : LeftBefore state.operation.original left) (hinv : state.view.Inv)
    (hcounts : state.view.Counts) (hidle : state.view.phase = .idle) (request : ReadRowsRequest)
    (hrequest : resumeRequest state.operation.original state.operation.progress
      state.operation.rowsReturned = some request) : left state.log.accepted := by
  have hphase := hinv.phase
  simp only [ReadView.PhaseInv, hidle] at hphase
  have hlatest : state.operation.progress = lastKey none state.log.accepted := hphase.1.latest
  have hrows : state.operation.rowsReturned = (outputRows state.log.accepted).length := hcounts
  rw [hlatest, hrows] at hrequest
  exact hbefore state.log.accepted request hinv.clean.keys_ne_nil hrequest

theorem Tallied.step (h : Tallied left options state history) (hbefore : LeftBefore original left)
    (hinv : state.view.Inv) (horiginal : state.view.original = original)
    (hcounts : state.view.Counts) (hstep : Step codec state input next) :
    Tallied left options next (state.record input next history) := by
  have hstands := h.stands
  obtain rfl : state.operation.original = original := horiginal
  have hleft := fun hidle request => left_of_idle hbefore hinv hcounts hidle request
  cases hstep with
  | expired hphase htop =>
      rw [hphase] at hstands
      apply h.same (sameTally_failWith _ _ _ _) (by simp [hphase])
      rw [show ∀ phase, ReadInput.verdict (.begin _) phase = none from fun _ => rfl,
        map_judge_none]
      exact stands_failWith _ _ _ hstands.judged h.attempts
  | begun hphase hcalls htop =>
      rw [hphase] at hstands
      exact h.calls hstands (by simp [hphase]) (hleft (congrArg ReadPhase.view hphase))
        (fun _ => rfl) hcalls
  | woken hphase hcalls =>
      rw [hphase] at hstands
      exact h.calls hstands (by simp [hphase]) (hleft (congrArg ReadPhase.view hphase))
        (fun _ => rfl) hcalls
  | opened hphase =>
      rw [hphase] at hstands
      refine h.same ⟨rfl, rfl, rfl, fun _ herror => Or.inl herror⟩ (by simp [hphase]) ?_
      exact (map_judge_none history).symm ▸ hstands
  | failed merger hunderWay hfailure hretries =>
      obtain ⟨hlast, hlive⟩ := lastUnderWay_of_stands hstands hunderWay
      exact h.retries hlast hlive (verdict_of_failure hfailure) hretries
  | message hphase htakes =>
      rw [hphase] at hstands
      exact h.same (sameTally_takesMessage htakes) (by simp [hphase])
        (stands_takesMessage htakes hstands)
  | sent hphase htakes =>
      rw [hphase] at hstands
      have hsame := sameTally_takesChunks htakes
      refine h.same ⟨hsame.options, hsame.attempts, hsame.requests, fun error herror => ?_⟩
        (by simp [hphase]) (stands_takesChunks htakes hstands (Or.inl rfl))
      simpa using hsame.items error herror
  | ended hphase hfinish =>
      exact h.same ⟨rfl, rfl, rfl, fun _ herror => Or.inl herror⟩ (by simp [hphase]) trivial
  | endedEarly hphase hfinish =>
      rw [hphase] at hstands
      refine h.same ⟨rfl, rfl, rfl, fun _ herror => Or.inl herror⟩ (by simp [hphase]) ?_
      exact ⟨(hstands.map_judge _).1, trivial⟩
  | deserted hphase hgone =>
      exact h.same ⟨rfl, rfl, rfl, fun _ herror => Or.inl herror⟩ (by simp [hphase]) trivial
  | abandoned hunderWay hgone =>
      exact h.same ⟨rfl, rfl, rfl, fun _ herror => Or.inl herror⟩
        (lastUnderWay_of_stands hstands hunderWay).2 trivial
  | dropped hlive =>
      exact h.same ⟨rfl, rfl, rfl, fun _ herror => Or.inl herror⟩ hlive trivial
  | reported hphase =>
      rename_i error
      rw [hphase] at hstands
      refine h.same ⟨rfl, rfl, rfl, fun other hother => ?_⟩ (by simp [hphase]) ?_
      · rcases List.mem_append.1 hother with hother | hother
        · exact Or.inl hother
        · obtain rfl := Except.error.inj (List.mem_singleton.1 hother)
          exact Or.inr rfl
      · exact (map_judge_none history).symm ▸ hstands.2
  | unreported hphase =>
      exact h.same ⟨rfl, rfl, rfl, fun _ herror => Or.inl herror⟩ (by simp [hphase]) trivial

/-! ## Termination -/

def credit (maxAttempts : Nat) (state : ReadState) : Nat :=
  let left := 3 * (maxAttempts - state.operation.attempts)
  match state.phase with
  | .starting => left + 1
  | .backingOff _ _ => left + 1
  | .calling _ _ _ _ => left + 3
  | .streaming _ => left + 2
  | .sending _ _ _ chunks => left + 3 + chunks.length
  | .terminating _ => 1
  | .finished _ => 0

theorem length_lt_of_pushUntilRow {merger next : RowMerger} {chunks rest : List CellChunk}
    {row : Row} (h : pushUntilRow merger chunks = (next, .ok (some (row, rest)))) :
    rest.length < chunks.length := by
  induction chunks generalizing merger with
  | nil => simp [pushUntilRow] at h
  | cons chunk chunks ih =>
      rw [pushUntilRow] at h
      rcases hpush : merger.push chunk with ⟨middle, issue | taken⟩
      · simp [hpush] at h
      · cases taken with
        | some taken =>
            simp only [hpush, Prod.mk.injEq, Except.ok.injEq, Option.some.injEq] at h
            simp [h.2.2]
        | none =>
            simp only [hpush] at h
            have hlt := ih h
            rw [List.length_cons]
            omega

theorem credit_failWith_le (maxAttempts : Nat) (state : ReadState) (sender : Bool) (code : Code)
    (error : ReadError) : (state.failWith sender code error).credit maxAttempts ≤ 1 := by
  cases sender with
  | true => exact Nat.le_refl 1
  | false => exact Nat.zero_le 1

theorem credit_calls {sender : Bool} {turn : ReadTurn} {maxAttempts : Nat}
    (hcalls : Calls codec state sender turn next) (hlt : state.operation.attempts < maxAttempts) :
    next.credit maxAttempts ≤ 3 * (maxAttempts - state.operation.attempts) := by
  cases hcalls with
  | exhausted hrequest => exact Nat.zero_le _
  | panicked hrequest hremaining hdeadline htakes => exact Nat.zero_le _
  | late hremaining =>
      have hle := credit_failWith_le maxAttempts state sender .deadlineExceeded
        state.operation.deadlineError
      omega
  | tooLarge hrequest hremaining hdeadline =>
      have hle : (state.fail sender .deadlineTooLarge).credit maxAttempts ≤ 1 := by
        cases sender with
        | true => exact Nat.le_refl 1
        | false => exact Nat.zero_le 1
      omega
  | issued hrequest hremaining hdeadline htakes =>
      show 3 * (maxAttempts - (state.operation.attempts + 1)) + 3 ≤ _
      omega

theorem credit_retries {sender : Bool} {status : Status} {turn : ReadTurn} (maxAttempts : Nat)
    (hretries : Retries codec state sender status turn next) :
    next.credit maxAttempts ≤ 3 * (maxAttempts - state.operation.attempts) + 1 := by
  cases hretries with
  | panicked htop hretryable hbudget hbackoff => exact Nat.zero_le _
  | late hbacksOff =>
      have hle := credit_failWith_le maxAttempts state sender .deadlineExceeded
        state.operation.deadlineError
      omega
  | refused htop hrefused =>
      have hle := credit_failWith_le maxAttempts state sender status.code
        (.readRows state.operation.attempts status)
      omega
  | backedOff hretryable hbudget hbackoff hremaining hdelay => exact Nat.le_refl _

theorem credit_takesChunks {active : ActiveAttempt} {before : Int} {chunks : List CellChunk}
    (maxAttempts : Nat) (h : TakesChunks state active before chunks next) :
    next.credit maxAttempts ≤ 3 * (maxAttempts - state.operation.attempts) + 2 + chunks.length := by
  cases h with
  | rejected hpush =>
      show 1 ≤ _
      omega
  | row hpush =>
      have hlt := length_lt_of_pushUntilRow hpush
      show 3 * (maxAttempts - state.operation.attempts) + 3 + _ ≤ _
      omega
  | full hpush hlimit => exact Nat.zero_le _
  | drained hpush hlimit =>
      show 3 * (maxAttempts - state.operation.attempts) + 2 ≤ _
      omega

theorem credit_takesMessage {active : ActiveAttempt} {response : ReadRowsResponse}
    (maxAttempts : Nat) (h : TakesMessage state active response next) :
    next.credit maxAttempts ≤
      3 * (maxAttempts - state.operation.attempts) + 2 + response.chunks.length := by
  cases h with
  | misplaced hkey hscan =>
      show 1 ≤ _
      omega
  | unmarked hkey hchunks =>
      have hle := credit_takesChunks maxAttempts hchunks
      exact hle
  | marked hkey hscan hchunks =>
      have hle := credit_takesChunks maxAttempts hchunks
      exact hle

end ReadState

def ReadInput.work : ReadInput → Nat
  | .message response => response.chunks.length + 1
  | _ => 0

def ReadInput.isAnswer : ReadInput → Bool
  | .opened | .refused _ _ | .message _ | .streamEnded | .streamBroke _ _ => true
  | _ => false

namespace ReadState

variable {codec : Codec} {options : ReadOptions} {state next : ReadState} {input : ReadInput}

theorem credit_underWay (maxAttempts : Nat) {underWay : AttemptTracker × Nat}
    (h : state.phase.underWay = some underWay) :
    3 * (maxAttempts - state.operation.attempts) + 2 ≤ state.credit maxAttempts := by
  unfold credit
  cases hphase : state.phase with
  | calling sender deadline request telemetry => simp
  | streaming active => simp
  | sending active before row chunks =>
      simp only
      omega
  | _ =>
      rw [hphase] at h
      cases h

theorem credit_pos (maxAttempts : Nat) (h : ∀ how, state.phase ≠ .finished how) :
    0 < state.credit maxAttempts := by
  unfold credit
  cases hphase : state.phase with
  | finished how => exact absurd hphase (h how)
  | _ =>
      simp only
      omega

/-- Every step uses up credit, and only messages add some. -/
theorem credit_step (h : Tallied left options state history)
    (hstep : Step codec state input next) :
    1 + next.credit options.retry.maxAttempts.toNat ≤
      state.credit options.retry.maxAttempts.toNat + input.work := by
  have hstands := h.stands
  have hattempts := h.attempts
  generalize hmax : options.retry.maxAttempts.toNat = maxAttempts at hstands ⊢
  have hover : ∀ how, next.phase = .finished how → (∀ how, state.phase ≠ .finished how) →
      1 + next.credit maxAttempts ≤ state.credit maxAttempts + input.work := by
    intro how hnext hlive
    have hpos := credit_pos maxAttempts hlive
    have hzero : next.credit maxAttempts = 0 := by simp [credit, hnext]
    omega
  cases hstep with
  | expired hphase htop => exact hover _ rfl (by simp [hphase])
  | begun hphase hcalls htop =>
      rw [hphase] at hstands
      have hle := credit_calls hcalls (hattempts ▸ hstands.budget)
      have hcredit : state.credit maxAttempts =
          3 * (maxAttempts - state.operation.attempts) + 1 := by simp [credit, hphase]
      omega
  | woken hphase hcalls =>
      rw [hphase] at hstands
      have hle := credit_calls hcalls (hattempts ▸ hstands.budget)
      have hcredit : state.credit maxAttempts =
          3 * (maxAttempts - state.operation.attempts) + 1 := by simp [credit, hphase]
      omega
  | opened hphase =>
      simp only [credit, hphase]
      omega
  | failed merger hunderWay hfailure hretries =>
      have hcredit := credit_underWay maxAttempts hunderWay
      have hle := credit_retries maxAttempts hretries
      change next.credit maxAttempts ≤ 3 * (maxAttempts - state.operation.attempts) + 1 at hle
      omega
  | message hphase htakes =>
      have hle := credit_takesMessage maxAttempts htakes
      have hunderWay := congrArg ReadPhase.underWay hphase
      have hcredit := credit_underWay maxAttempts hunderWay
      simp only [ReadInput.work]
      omega
  | sent hphase htakes =>
      have hle := credit_takesChunks maxAttempts htakes
      simp only [credit, hphase] at hle ⊢
      omega
  | ended hphase hfinish => exact hover _ rfl (by simp [hphase])
  | endedEarly hphase hfinish =>
      have hunderWay := congrArg ReadPhase.underWay hphase
      have hcredit := credit_underWay maxAttempts hunderWay
      show 1 + 1 ≤ _
      omega
  | deserted hphase hgone => exact hover _ rfl (by simp [hphase])
  | abandoned hunderWay hgone => exact hover _ rfl (lastUnderWay_of_stands hstands hunderWay).2
  | dropped hlive => exact hover _ rfl hlive
  | reported hphase => exact hover _ rfl (by simp [hphase])
  | unreported hphase => exact hover _ rfl (by simp [hphase])

/-- A read that is not over can go on without the server and without being cancelled. -/
theorem exists_step (codec : Codec) (hlive : ∀ how, state.phase ≠ .finished how) :
    ∃ input : ReadInput, input.isAnswer = false ∧ input.isGone = false ∧ input ≠ .dropped ∧
      (state.step codec input).isSome := by
  let turn : ReadTurn := { top := 0, retry := 0, call := 0, arm := 0, draw := 0 }
  cases hphase : state.phase with
  | starting => exact ⟨.begin turn, rfl, rfl, by simp, by simp [step, hphase]⟩
  | backingOff sender delay => exact ⟨.wake turn, rfl, rfl, by simp, by simp [step, hphase]⟩
  | calling sender deadline request telemetry =>
      exact ⟨.openTimedOut turn, rfl, rfl, by simp, by simp [step, hphase]⟩
  | streaming active =>
      exact ⟨.streamTimedOut turn, rfl, rfl, by simp, by simp [step, hphase]⟩
  | sending active before row chunks => exact ⟨.sent, rfl, rfl, by simp, by simp [step, hphase]⟩
  | terminating error => exact ⟨.sent, rfl, rfl, by simp, by simp [step, hphase]⟩
  | finished how => exact absurd hphase (hlive how)

/-! ## Runs -/

section Run

variable {deadline : Instant} {tableId : String} {config : ClientConfig} {query : Query}
  {inputs : List ReadInput}

def RecordedInv (left : List Output → Prop) (original : ReadRowsRequest) (options : ReadOptions)
    (recorded : ReadState × List ReadAttempt) : Prop :=
  recorded.1.view.Inv ∧ recorded.1.view.original = original ∧ recorded.1.view.Counts ∧
    Tallied left options recorded.1 recorded.2

theorem recordedStep_eq_some {recorded recorded' : ReadState × List ReadAttempt}
    (h : recordedStep codec recorded input = some recorded') :
    recorded.1.step codec input = some recorded'.1 ∧
      recorded'.2 = recorded.1.record input recorded'.1 recorded.2 := by
  obtain ⟨next, hnext, rfl⟩ := Option.map_eq_some_iff.1 h
  exact ⟨hnext, rfl⟩

theorem recordedInv_start (codec : Codec) (left : List Output → Prop)
    (original : ReadRowsRequest) (deadline : Instant) (tableId : String)
    (hpolicies : validatePolicies options.retry options.deadlines = .ok ()) :
    RecordedInv left original options (.new original options deadline tableId, []) := by
  have hreach : Reachable (step codec) (.new original options deadline tableId)
      (.new original options deadline tableId) := ⟨[], rfl⟩
  obtain ⟨hinv, horiginal⟩ := inv_of_reachable hreach
  have hpos := validPolicies_attempts_pos hpolicies
  have hstands : Stands options.retry.maxAttempts.toNat [] .starting := by
    constructor
    case judged => intro attempt hattempt; cases hattempt
    case budget => exact hpos
    case retryable => intro last hlast; cases hlast
  refine ⟨hinv, horiginal, rfl, ?_⟩
  exact ⟨rfl, rfl, rfl, Nat.zero_le _, .nil, hstands, nofun⟩

theorem recordedInv_step {recorded recorded' : ReadState × List ReadAttempt}
    (hbefore : LeftBefore original left) (h : RecordedInv left original options recorded)
    (hstep : recordedStep codec recorded input = some recorded') :
    RecordedInv left original options recorded' := by
  obtain ⟨hinv, horiginal, hcounts, htallied⟩ := h
  obtain ⟨hnext, hhistory⟩ := recordedStep_eq_some hstep
  have hmove := move_of_step hnext
  refine ⟨hinv.move hmove, hmove.original.trans horiginal, hcounts.move hmove, ?_⟩
  rw [hhistory]
  exact htallied.step hbefore hinv horiginal hcounts (step_of_step hnext)

/-- Every run has its history. -/
theorem exists_recorded (hrun : run (step codec) state inputs = some next)
    (history : List ReadAttempt) :
    ∃ history', run (recordedStep codec) (state, history) inputs = some (next, history') := by
  induction inputs generalizing state history with
  | nil =>
      obtain rfl := Option.some.inj hrun
      exact ⟨history, rfl⟩
  | cons input inputs ih =>
      obtain ⟨middle, hmiddle, hrest⟩ := run_cons_eq_some.1 hrun
      obtain ⟨history', hhistory⟩ := ih hrest (state.record input middle history)
      refine ⟨history', run_cons_eq_some.2 ⟨_, ?_, hhistory⟩⟩
      rw [recordedStep, hmiddle]
      rfl

/-- The attempt counter counts the requests, and stays within the budget. -/
theorem attempts_of_reachable
    (hpolicies : validatePolicies options.retry options.deadlines = .ok ())
    (hreach : Reachable (step codec) (.new original options deadline tableId) state) :
    state.operation.attempts = state.log.requests.length ∧
      state.log.requests.length ≤ options.retry.maxAttempts.toNat := by
  obtain ⟨inputs, hrun⟩ := hreach
  obtain ⟨history, hhistory⟩ := exists_recorded hrun []
  have hinv := run_invariant (RecordedInv (fun _ => True) original options)
    (fun _ _ _ => recordedInv_step fun _ _ _ _ => trivial)
    (recordedInv_start codec _ original deadline tableId hpolicies) hhistory
  have htallied := hinv.2.2.2
  have hlength := congrArg List.length htallied.issued
  rw [List.length_map, List.length_map] at hlength
  exact ⟨htallied.attempts.trans hlength, hlength ▸ htallied.budget⟩

end Run

end ReadState

/-! ## A read up to the next key -/

end BigtableClient
