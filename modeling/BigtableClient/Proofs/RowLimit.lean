import BigtableClient.Proofs.ReadExact
import BigtableClient.Proofs.RowCount

/-!
# The row limit

A read stops asking for rows once its limit is reached, and looks at the limit after
every message.  Inside a message it does not look: the rows behind the one that
reached the limit are delivered too.
-/

namespace BigtableClient

open Proto
open ProofSupport.Transition

def RowMerger.completesRow (merger : RowMerger) (chunks : List CellChunk) : Bool :=
  match (ReadState.pushUntilRow merger chunks).2 with
  | .ok (some _) => true
  | _ => false

theorem RowMerger.completesRow_eq_true {merger : RowMerger} {chunks : List CellChunk} :
    merger.completesRow chunks = true ↔ ∃ next row rest,
      ReadState.pushUntilRow merger chunks = (next, .ok (some (row, rest))) := by
  unfold RowMerger.completesRow
  rcases hpush : ReadState.pushUntilRow merger chunks with ⟨next, issue | taken⟩
  · simp
  · cases taken with
    | none => simp
    | some taken =>
        obtain ⟨row, rest⟩ := taken
        simp

theorem Query.intoRequest_rowsLimit {base accepted query : Query} {limit : UInt64}
    (haccepted : base.withLimit limit = .ok accepted) (hlimit : query.limit = accepted.limit)
    (config : ClientConfig) :
    (query.intoRequest config).rowsLimit = limit.toNat ∧ 0 < limit.toNat := by
  unfold Query.withLimit at haccepted
  split_ifs at haccepted with hzero hmax
  obtain rfl := Except.ok.inj haccepted
  have hpos : 0 < limit.toNat := Nat.pos_of_ne_zero fun h => hzero (UInt64.toNat_inj.1 h)
  refine ⟨?_, hpos⟩
  unfold Query.intoRequest
  rw [hlimit]
  rfl

namespace ReadState

variable {codec : Codec} {state next : ReadState} {input : ReadInput} {limit : Nat}

/-- A row that used up the limit was sent, and the rest of its message completes another one. -/
def runsPastLimit (state : ReadState) (input : ReadInput) : Bool :=
  match state.phase, input with
  | .sending _ _ _ chunks, .sent =>
      state.operation.limitReached && state.operation.merger.completesRow chunks
  | _, _ => false

def StopsAtLimit (state : ReadState) (input : ReadInput) : Prop :=
  state.runsPastLimit input = false

instance (state : ReadState) (input : ReadInput) : Decidable (state.StopsAtLimit input) :=
  inferInstanceAs (Decidable (state.runsPastLimit input = false))

/-! ## The rows of a limit -/

/-- While a read goes on, less than the limit was delivered; a row that is being sent is
counted already. -/
def PhaseTally (returned : Int) (delivered limit : Nat) : ReadPhase → Prop
  | .terminating _ => delivered ≤ limit
  | .finished _ => delivered ≤ limit
  | .sending _ _ _ _ => returned = delivered + 1 ∧ delivered < limit
  | _ => returned = delivered ∧ delivered < limit

structure LimitKept (limit : Nat) (state : ReadState) : Prop where
  original : state.operation.original.rowsLimit = limit
  tally : PhaseTally state.operation.rowsReturned state.delivered limit state.phase

theorem LimitKept.delivered_le (h : state.LimitKept limit) : state.delivered ≤ limit := by
  obtain ⟨-, htally⟩ := h
  unfold PhaseTally at htally
  split at htally
  · exact htally
  · exact htally
  · exact Nat.le_of_lt htally.2
  · exact Nat.le_of_lt htally.2

theorem limitReached_eq_false (horiginal : state.operation.original.rowsLimit = limit)
    (hpos : 0 < limit) :
    state.operation.limitReached = false ↔ state.operation.rowsReturned < limit := by
  unfold ReadOperation.limitReached
  rw [horiginal, decide_eq_false_iff_not]
  omega

theorem limitKept_fail (horiginal : state.operation.original.rowsLimit = limit)
    (hdelivered : state.delivered ≤ limit) (sender : Bool) (error : ReadError) :
    (state.fail sender error).LimitKept limit := by
  cases sender with
  | true => exact ⟨horiginal, hdelivered⟩
  | false => exact ⟨horiginal, hdelivered⟩

theorem limitKept_failWith (horiginal : state.operation.original.rowsLimit = limit)
    (hdelivered : state.delivered ≤ limit) (sender : Bool) (code : Code) (error : ReadError) :
    (state.failWith sender code error).LimitKept limit := by
  apply limitKept_fail
  · exact horiginal
  · exact hdelivered

theorem limitKept_calls {sender : Bool} {turn : ReadTurn}
    (horiginal : state.operation.original.rowsLimit = limit)
    (hreturned : state.operation.rowsReturned = state.delivered) (hlt : state.delivered < limit)
    (hcalls : Calls codec state sender turn next) : next.LimitKept limit := by
  have hdelivered := Nat.le_of_lt hlt
  cases hcalls with
  | exhausted hrequest => exact ⟨horiginal, hdelivered⟩
  | late hremaining => exact limitKept_failWith horiginal hdelivered sender _ _
  | tooLarge hrequest hremaining hdeadline =>
      exact limitKept_fail horiginal hdelivered sender _
  | panicked hrequest hremaining hdeadline htakes => exact ⟨horiginal, hdelivered⟩
  | issued hrequest hremaining hdeadline => exact ⟨horiginal, hreturned, hlt⟩

theorem limitKept_retries {sender : Bool} {status : Status} {turn : ReadTurn}
    (horiginal : state.operation.original.rowsLimit = limit)
    (hreturned : state.operation.rowsReturned = state.delivered) (hlt : state.delivered < limit)
    (hretries : Retries codec state sender status turn next) : next.LimitKept limit := by
  have hdelivered := Nat.le_of_lt hlt
  cases hretries with
  | late => exact limitKept_failWith horiginal hdelivered sender _ _
  | refused htop hrefused => exact limitKept_failWith horiginal hdelivered sender _ _
  | panicked htop hretryable hbudget hbackoff => exact ⟨horiginal, hdelivered⟩
  | backedOff hretryable hbudget hbackoff hremaining hdelay => exact ⟨horiginal, hreturned, hlt⟩

theorem limitKept_takesChunks {active : ActiveAttempt} {before : Int} {chunks : List CellChunk}
    (horiginal : state.operation.original.rowsLimit = limit) (hpos : 0 < limit)
    (hreturned : state.operation.rowsReturned = state.delivered)
    (hdelivered : state.delivered ≤ limit)
    (hstops : state.operation.limitReached → state.operation.merger.completesRow chunks = false)
    (htakes : TakesChunks state active before chunks next) : next.LimitKept limit := by
  cases htakes with
  | rejected hpush => exact ⟨horiginal, hdelivered⟩
  | row hpush =>
      rename_i merger row rest
      have hcompletes : state.operation.merger.completesRow chunks = true :=
        RowMerger.completesRow_eq_true.2 ⟨merger, row, rest, hpush⟩
      have hbelow : state.operation.limitReached = false := by
        by_contra hreached
        rw [hstops (Bool.of_not_eq_false hreached)] at hcompletes
        cases hcompletes
      rw [limitReached_eq_false horiginal hpos, hreturned] at hbelow
      refine ⟨horiginal, ?_, ?_⟩
      · exact congrArg (· + 1) hreturned
      · exact Int.ofNat_lt.1 hbelow
  | full hpush hlimit => exact ⟨horiginal, hdelivered⟩
  | drained hpush hlimit =>
      rw [limitReached_eq_false horiginal hpos, hreturned] at hlimit
      exact ⟨horiginal, hreturned, Int.ofNat_lt.1 hlimit⟩

/-- When a message arrives the limit was not reached. -/
theorem limitKept_takesMessage {active : ActiveAttempt} {response : ReadRowsResponse}
    (horiginal : state.operation.original.rowsLimit = limit) (hpos : 0 < limit)
    (hreturned : state.operation.rowsReturned = state.delivered) (hlt : state.delivered < limit)
    (htakes : TakesMessage state active response next) : next.LimitKept limit := by
  have hdelivered := Nat.le_of_lt hlt
  have hbelow : state.operation.limitReached = false := by
    rw [limitReached_eq_false horiginal hpos, hreturned]
    exact Int.ofNat_lt.2 hlt
  have hstops : ∀ {p : Prop}, state.operation.limitReached = true → p := by
    intro p hreached
    rw [hbelow] at hreached
    cases hreached
  cases htakes with
  | misplaced hkey hscan => exact ⟨horiginal, hdelivered⟩
  | unmarked hkey hchunks =>
      apply limitKept_takesChunks _ hpos _ _ _ hchunks
      · exact horiginal
      · exact hreturned
      · exact hdelivered
      · exact hstops
  | marked hkey hscan hchunks =>
      apply limitKept_takesChunks _ hpos _ _ _ hchunks
      · exact horiginal
      · exact hreturned
      · exact hdelivered
      · exact hstops

/-! ## Steps -/

theorem tally_of_underWay {returned : Int} {delivered : Nat} {phase : ReadPhase}
    {underWay : AttemptTracker × Nat} (h : PhaseTally returned delivered limit phase)
    (hsending : ∀ active before row chunks, phase ≠ .sending active before row chunks)
    (hunderWay : phase.underWay = some underWay) : returned = delivered ∧ delivered < limit := by
  cases phase with
  | calling sender deadline request telemetry => exact h
  | streaming active => exact h
  | sending active before row chunks => exact absurd rfl (hsending active before row chunks)
  | _ => cases hunderWay

theorem limitKept_step (h : state.LimitKept limit) (hpos : 0 < limit)
    (hok : state.StopsAtLimit input) (hstep : state.step codec input = some next) :
    next.LimitKept limit := by
  have horiginal := h.original
  have hphased : ∀ {phase}, state.phase = phase →
      PhaseTally state.operation.rowsReturned state.delivered limit phase := by
    rintro phase rfl
    exact h.tally
  cases step_of_step hstep with
  | expired hphase htop => exact limitKept_failWith horiginal h.delivered_le false _ _
  | begun hphase hcalls =>
      obtain ⟨hreturned, hlt⟩ := hphased hphase
      exact limitKept_calls horiginal hreturned hlt hcalls
  | woken hphase hcalls =>
      obtain ⟨hreturned, hlt⟩ := hphased hphase
      exact limitKept_calls horiginal hreturned hlt hcalls
  | opened hphase =>
      have htally := hphased hphase
      exact ⟨horiginal, htally⟩
  | failed merger hunderWay hfailure hretries =>
      have hsome : input.failure.isSome := by
        rw [hfailure]
        rfl
      obtain ⟨hreturned, hlt⟩ :=
        tally_of_underWay h.tally (not_sending_of_failure hstep hsome) hunderWay
      apply limitKept_retries _ _ _ hretries
      · exact horiginal
      · exact hreturned
      · exact hlt
  | message hphase htakes =>
      obtain ⟨hreturned, hlt⟩ := hphased hphase
      exact limitKept_takesMessage horiginal hpos hreturned hlt htakes
  | sent hphase htakes =>
      obtain ⟨hreturned, hlt⟩ := hphased hphase
      unfold StopsAtLimit runsPastLimit at hok
      rw [hphase] at hok
      apply limitKept_takesChunks _ hpos _ _ _ htakes
      · exact horiginal
      · rw [delivered_row]
        exact hreturned
      · rw [delivered_row]
        exact hlt
      · exact Bool.and_eq_false_imp.1 hok
  | ended hphase hfinish => exact ⟨horiginal, h.delivered_le⟩
  | endedEarly hphase hfinish => exact ⟨horiginal, h.delivered_le⟩
  | deserted hphase hgone => exact ⟨horiginal, h.delivered_le⟩
  | abandoned hunderWay hgone => exact ⟨horiginal, h.delivered_le⟩
  | dropped hlive => exact ⟨horiginal, h.delivered_le⟩
  | reported hphase =>
      have hdelivered := h.delivered_le
      rename_i error
      rw [← delivered_error state error] at hdelivered
      exact ⟨horiginal, hdelivered⟩
  | unreported hphase => exact ⟨horiginal, h.delivered_le⟩

/-! ## Beyond the limit -/

theorem delivered_takesChunks {active : ActiveAttempt} {before : Int} {chunks : List CellChunk}
    (htakes : TakesChunks state active before chunks next) : next.delivered = state.delivered := by
  cases htakes with
  | rejected hpush => rfl
  | row hpush => rfl
  | full hpush hlimit => rfl
  | drained hpush hlimit => rfl

theorem sending_of_takesChunks {active : ActiveAttempt} {before : Int} {chunks : List CellChunk}
    (hcompletes : state.operation.merger.completesRow chunks = true)
    (htakes : TakesChunks state active before chunks next) :
    ∃ row rest, next.phase = .sending active before row rest := by
  obtain ⟨merger, row, rest, hrow⟩ := RowMerger.completesRow_eq_true.1 hcompletes
  cases htakes with
  | rejected hpush =>
      rw [hrow] at hpush
      cases hpush
  | row hpush => exact ⟨_, _, rfl⟩
  | full hpush hlimit =>
      rw [hrow] at hpush
      cases hpush
  | drained hpush hlimit =>
      rw [hrow] at hpush
      cases hpush

theorem step_sent (codec : Codec) {active : ActiveAttempt} {before : Int} {row : Row}
    {chunks : List CellChunk} (hphase : state.phase = .sending active before row chunks) :
    ∃ next, state.step codec .sent = some next ∧ next.delivered = state.delivered + 1 ∧
      (state.operation.merger.completesRow chunks = true →
        ∃ row rest, next.phase = .sending active before row rest) := by
  have hstep : state.step codec .sent = some
      (handleChunks
        { state with log := { state.log with items := state.log.items ++ [Except.ok row] } }
        active before chunks) := by
    unfold step
    rw [hphase]
  refine ⟨_, hstep, ?_, ?_⟩
  · rw [delivered_takesChunks (takesChunks_handleChunks _ _ _ _), delivered_row]
  · intro hcompletes
    apply sending_of_takesChunks _ (takesChunks_handleChunks _ _ _ _)
    exact hcompletes

/-- A row that reached the limit is sent, and its message completes another one: the consumer can
get both. -/
theorem exists_delivered_gt (h : state.LimitKept limit) (hpos : 0 < limit)
    (hnot : ¬ state.StopsAtLimit input) :
    ∃ beyond, run (step codec) state [.sent, .sent] = some beyond ∧ limit < beyond.delivered := by
  have hreached : ∃ active before row chunks, state.phase = .sending active before row chunks ∧
      state.operation.limitReached = true ∧
      state.operation.merger.completesRow chunks = true := by
    unfold StopsAtLimit runsPastLimit at hnot
    split at hnot
    · next active before row chunks hphase =>
        obtain ⟨hlimit, hcompletes⟩ := Bool.and_eq_true_iff.1 (Bool.of_not_eq_false hnot)
        exact ⟨active, before, row, chunks, hphase, hlimit, hcompletes⟩
    · exact absurd rfl hnot
  obtain ⟨active, before, row, chunks, hphase, hlimit, hcompletes⟩ := hreached
  obtain ⟨middle, hfirst, hone, hmore⟩ := step_sent codec hphase
  obtain ⟨row', rest, hphase'⟩ := hmore hcompletes
  obtain ⟨beyond, hsecond, htwo, -⟩ := step_sent codec hphase'
  refine ⟨beyond, ?_, ?_⟩
  · rw [run_cons_eq_some]
    exact ⟨middle, hfirst, run_cons_eq_some.2 ⟨beyond, hsecond, rfl⟩⟩
  · obtain ⟨horiginal, htally⟩ := h
    rw [hphase] at htally
    have hreturned : state.operation.rowsReturned = state.delivered + 1 := htally.1
    have hfull : ¬ state.operation.rowsReturned < limit := by
      rw [← limitReached_eq_false horiginal hpos, hlimit]
      nofun
    omega

/-- The row limit is never exceeded in a run whose messages complete no row behind the one that
reached the limit; where a message does, the consumer can get more rows than the limit. -/
theorem delivered_le_limit (codec : Codec) (base accepted query : Query) (config : ClientConfig)
    (options : ReadOptions) (deadline : Instant) (tableId : String) (limit : UInt64)
    (haccepted : base.withLimit limit = .ok accepted) (hlimit : query.limit = accepted.limit)
    (hreach : ReachableBy (step codec) StopsAtLimit
      (.new (query.intoRequest config) options deadline tableId) state) :
    state.delivered ≤ limit.toNat ∧ ∀ input, ¬ state.StopsAtLimit input →
      ∃ beyond, run (step codec) state [.sent, .sent] = some beyond ∧
        limit.toNat < beyond.delivered := by
  obtain ⟨horiginal, hpos⟩ := Query.intoRequest_rowsLimit haccepted hlimit config
  have hkept := hreach.invariant (LimitKept limit.toNat) ⟨horiginal, rfl, hpos⟩
    fun _ _ _ hinv hok hstep => limitKept_step hinv hpos hok hstep
  exact ⟨hkept.delivered_le, fun input hnot => exists_delivered_gt hkept hpos hnot⟩

end ReadState

theorem ReadState.delivered_le_limit_interruptedRead :
    ∃ state : ReadState, state.delivered = 2 ∧ state.delivered ≤ (2 : UInt64).toNat := by
  have hrun : ∃ accepted, wholeTableQuery.withLimit 2 = .ok accepted ∧
      (run (guarded (ReadState.step sampleCodec) ReadState.StopsAtLimit)
        (.new (accepted.intoRequest sampleConfig) .default 1000 "events")
        interruptedRead.dropLast).any fun state => state.delivered = 2 :=
    ⟨_, rfl, by decide +kernel⟩
  obtain ⟨accepted, haccepted, hrun⟩ := hrun
  obtain ⟨state, hrun, hdelivered⟩ := Option.any_eq_true _ _ |>.1 hrun
  exact ⟨state, of_decide_eq_true hdelivered, (ReadState.delivered_le_limit sampleCodec
    wholeTableQuery accepted accepted sampleConfig .default 1000 "events" 2 haccepted rfl
    (reachableBy_of_run .start hrun)).1⟩

/-! ### Two rows in one message

The query asks for one row, and the server puts two into its first message. -/

def doubleRow : List ReadInput :=
  [.begin sampleTurn, .opened,
    .message
      { chunks :=
          [sampleChunk [97] (some (.commitRow true)), sampleChunk [98] (some (.commitRow true))]
        lastScannedRowKey := [] },
    .sent, .sent]

theorem not_delivered_le_limit_doubleRow :
    ∃ (accepted : Query) (state : ReadState), wholeTableQuery.withLimit 1 = .ok accepted ∧
      run (ReadState.step sampleCodec)
        (.new (accepted.intoRequest sampleConfig) .default 1000 "events") doubleRow = some state ∧
      state.phase = .finished .completed ∧ state.delivered = 2 ∧
      ¬ state.delivered ≤ (1 : UInt64).toNat := by
  refine ⟨_, _, rfl, rfl, rfl, rfl, ?_⟩
  decide

end BigtableClient
