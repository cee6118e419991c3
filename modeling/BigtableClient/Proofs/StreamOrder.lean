import BigtableClient.Proofs.ReadExact
import BigtableClient.Proofs.RetryBudget
import BigtableClient.RowStream

/-!
# What a consumer gets from a row stream

Between a read and its consumer stands a bounded channel.  The consumer takes what
the read handed over, in its order, and the read is never far ahead of it; neither
can wait for the other for ever.
-/

namespace BigtableClient

open Proto
open ChunkGrammar (CompleteRow outputRows)
open ProofSupport.ScanOrder (Beyond)
open ProofSupport.Channel
open ProofSupport.Transition

/-! ## What a step hands over -/

/-- The spawned task goes on, or it ended without an error of its own. -/
def ReadPhase.Spawned (phase : ReadPhase) : Prop :=
  phase.sender = true ∧ ∀ error, phase ≠ .finished (.failed error)

def ReadPhase.Proceeds (sender : Bool) (phase : ReadPhase) : Prop :=
  phase ≠ .finished .cancelled ∧ (sender = true → phase.Spawned)

namespace ReadState

variable {codec : Codec} {state next : ReadState} {input : ReadInput}

theorem log_fail (state : ReadState) (sender : Bool) (error : ReadError) :
    (state.fail sender error).log = state.log := by
  cases sender <;> rfl

theorem proceeds_fail (state : ReadState) (sender : Bool) (error : ReadError) :
    (state.fail sender error).phase.Proceeds sender := by
  cases sender with
  | true => exact ⟨nofun, fun _ => ⟨rfl, nofun⟩⟩
  | false => exact ⟨nofun, nofun⟩

theorem items_calls {sender : Bool} {turn : ReadTurn} (h : Calls codec state sender turn next) :
    next.log.items = state.log.items := by
  cases h with
  | exhausted hrequest => rfl
  | late hremaining => exact congrArg ReadLog.items (log_fail _ sender _)
  | tooLarge hrequest hremaining hdeadline => exact congrArg ReadLog.items (log_fail _ sender _)
  | panicked hrequest hremaining hdeadline htakes => rfl
  | issued hrequest hremaining hdeadline htakes => rfl

theorem proceeds_calls {sender : Bool} {turn : ReadTurn} (h : Calls codec state sender turn next) :
    next.phase.Proceeds sender := by
  cases h with
  | exhausted hrequest => exact ⟨nofun, fun _ => ⟨rfl, nofun⟩⟩
  | late hremaining => exact proceeds_fail _ sender _
  | tooLarge hrequest hremaining hdeadline => exact proceeds_fail _ sender _
  | panicked hrequest hremaining hdeadline htakes => exact ⟨nofun, fun _ => ⟨rfl, nofun⟩⟩
  | issued hrequest hremaining hdeadline htakes =>
      exact ⟨nofun, fun hsender => ⟨hsender, nofun⟩⟩

theorem items_retries {sender : Bool} {status : Status} {turn : ReadTurn}
    (h : Retries codec state sender status turn next) : next.log.items = state.log.items := by
  cases h with
  | late => exact congrArg ReadLog.items (log_fail _ sender _)
  | refused htop hrefused => exact congrArg ReadLog.items (log_fail _ sender _)
  | panicked htop hretryable hbudget hbackoff => rfl
  | backedOff hretryable hbudget hbackoff hremaining hdelay => rfl

theorem proceeds_retries {sender : Bool} {status : Status} {turn : ReadTurn}
    (h : Retries codec state sender status turn next) : next.phase.Proceeds sender := by
  cases h with
  | late => exact proceeds_fail _ sender _
  | refused htop hrefused => exact proceeds_fail _ sender _
  | panicked htop hretryable hbudget hbackoff => exact ⟨nofun, fun _ => ⟨rfl, nofun⟩⟩
  | backedOff hretryable hbudget hbackoff hremaining hdelay =>
      exact ⟨nofun, fun hsender => ⟨hsender, nofun⟩⟩

theorem items_takesChunks {active : ActiveAttempt} {before : Int} {chunks : List CellChunk}
    (h : TakesChunks state active before chunks next) : next.log.items = state.log.items := by
  cases h with
  | rejected hpush => rfl
  | row hpush => rfl
  | full hpush hlimit => rfl
  | drained hpush hlimit => rfl

theorem proceeds_takesChunks {active : ActiveAttempt} {before : Int} {chunks : List CellChunk}
    (h : TakesChunks state active before chunks next) : next.phase.Proceeds true := by
  cases h with
  | rejected hpush => exact ⟨nofun, fun _ => ⟨rfl, nofun⟩⟩
  | row hpush => exact ⟨nofun, fun _ => ⟨rfl, nofun⟩⟩
  | full hpush hlimit => exact ⟨nofun, fun _ => ⟨rfl, nofun⟩⟩
  | drained hpush hlimit => exact ⟨nofun, fun _ => ⟨rfl, nofun⟩⟩

theorem items_takesMessage {active : ActiveAttempt} {response : ReadRowsResponse}
    (h : TakesMessage state active response next) : next.log.items = state.log.items := by
  cases h with
  | misplaced hkey hscan => rfl
  | unmarked hkey hchunks => exact (items_takesChunks hchunks).trans rfl
  | marked hkey hscan hchunks => exact (items_takesChunks hchunks).trans rfl

theorem proceeds_takesMessage {active : ActiveAttempt} {response : ReadRowsResponse}
    (h : TakesMessage state active response next) : next.phase.Proceeds true := by
  cases h with
  | misplaced hkey hscan => exact ⟨nofun, fun _ => ⟨rfl, nofun⟩⟩
  | unmarked hkey hchunks => exact proceeds_takesChunks hchunks
  | marked hkey hscan hchunks => exact proceeds_takesChunks hchunks

/-- Only a step that sends hands an item over. -/
theorem items_step (h : state.step codec input = some next) (hinput : input ≠ .sent) :
    next.log.items = state.log.items := by
  cases step_of_step h with
  | expired hphase htop => rfl
  | begun hphase hcalls htop => exact items_calls hcalls
  | woken hphase hcalls => exact items_calls hcalls
  | opened hphase => rfl
  | failed merger hunderWay hfailure hretries => exact (items_retries hretries).trans rfl
  | message hphase htakes => exact items_takesMessage htakes
  | sent hphase htakes => exact absurd rfl hinput
  | ended hphase hfinish => rfl
  | endedEarly hphase hfinish => rfl
  | deserted hphase hgone => rfl
  | abandoned hunderWay hgone => rfl
  | dropped hlive => rfl
  | reported hphase => exact absurd rfl hinput
  | unreported hphase => rfl

theorem items_step_sent (h : state.step codec .sent = some next) :
    ∃ item, next.log.items = state.log.items ++ [item] := by
  cases step_of_step h with
  | failed merger hunderWay hfailure hretries => cases hfailure
  | sent hphase htakes => exact ⟨_, items_takesChunks htakes⟩
  | deserted hphase hgone => cases hgone
  | abandoned hunderWay hgone => cases hgone
  | reported hphase => exact ⟨_, rfl⟩

theorem proceeds_step (h : state.step codec input = some next) :
    next.phase.Proceeds state.phase.sender ∨
      (next.phase = .finished .cancelled ∧ (input.isGone = true ∨ input = .dropped)) ∨
        ∃ error, next.phase = .finished (.failed error) ∧
          next.log.items = state.log.items ++ [.error error] := by
  cases step_of_step h with
  | expired hphase htop =>
      rw [hphase]
      exact Or.inl ⟨nofun, nofun⟩
  | begun hphase hcalls htop =>
      rw [hphase]
      exact Or.inl (proceeds_calls hcalls)
  | woken hphase hcalls =>
      rw [hphase]
      exact Or.inl (proceeds_calls hcalls)
  | opened hphase => exact Or.inl ⟨nofun, fun _ => ⟨rfl, nofun⟩⟩
  | failed merger hunderWay hfailure hretries => exact Or.inl (proceeds_retries hretries)
  | message hphase htakes =>
      rw [hphase]
      exact Or.inl (proceeds_takesMessage htakes)
  | sent hphase htakes =>
      rw [hphase]
      exact Or.inl (proceeds_takesChunks htakes)
  | ended hphase hfinish => exact Or.inl ⟨nofun, fun _ => ⟨rfl, nofun⟩⟩
  | endedEarly hphase hfinish => exact Or.inl ⟨nofun, fun _ => ⟨rfl, nofun⟩⟩
  | deserted hphase hgone => exact Or.inr (Or.inl ⟨rfl, Or.inl hgone⟩)
  | abandoned hunderWay hgone => exact Or.inr (Or.inl ⟨rfl, Or.inl hgone⟩)
  | dropped hlive => exact Or.inr (Or.inl ⟨rfl, Or.inr rfl⟩)
  | reported hphase => exact Or.inr (Or.inr ⟨_, rfl, rfl⟩)
  | unreported hphase => exact Or.inr (Or.inl ⟨rfl, Or.inl rfl⟩)

theorem not_finished_of_step (h : state.step codec input = some next) (how : ReadEnd) :
    state.phase ≠ .finished how := by
  intro hphase
  simp [step, hphase] at h

theorem opening_step (h : state.step codec input = some next)
    (hsender : state.phase.sender = false) :
    next.log.items = state.log.items ∧ (next.phase.sender = false ∨
      (∃ active, next.phase = .streaming active) ∨ ∃ how, next.phase = .finished how) := by
  have hinput : input ≠ .sent := by
    rintro rfl
    cases hphase : state.phase with
    | starting => simp [step, hphase] at h
    | backingOff sender delay => simp [step, hphase] at h
    | calling sender deadline request telemetry => simp [step, hphase] at h
    | _ =>
        rw [hphase] at hsender
        cases hsender
  refine ⟨items_step h hinput, ?_⟩
  have hcalls : ∀ {turn}, Calls codec state false turn next → next.phase.sender = false ∨
      (∃ active, next.phase = .streaming active) ∨ ∃ how, next.phase = .finished how := by
    intro turn hcalls
    cases hcalls with
    | exhausted hrequest => exact Or.inr (Or.inr ⟨_, rfl⟩)
    | late hremaining => exact Or.inr (Or.inr ⟨_, rfl⟩)
    | tooLarge hrequest hremaining hdeadline => exact Or.inr (Or.inr ⟨_, rfl⟩)
    | panicked hrequest hremaining hdeadline htakes => exact Or.inr (Or.inr ⟨_, rfl⟩)
    | issued hrequest hremaining hdeadline htakes => exact Or.inl rfl
  cases step_of_step h with
  | expired hphase htop => exact Or.inr (Or.inr ⟨_, rfl⟩)
  | begun hphase hbegun htop => exact hcalls hbegun
  | woken hphase hwoken =>
      rw [hphase] at hsender
      obtain rfl : _ = false := hsender
      exact hcalls hwoken
  | opened hphase => exact Or.inr (Or.inl ⟨_, rfl⟩)
  | failed merger hunderWay hfailure hretries =>
      rw [hsender] at hretries
      cases hretries with
      | late => exact Or.inr (Or.inr ⟨_, rfl⟩)
      | refused htop hrefused => exact Or.inr (Or.inr ⟨_, rfl⟩)
      | panicked htop hretryable hbudget hbackoff => exact Or.inr (Or.inr ⟨_, rfl⟩)
      | backedOff hretryable hbudget hbackoff hremaining hdelay => exact Or.inl rfl
  | message hphase htakes =>
      rw [hphase] at hsender
      cases hsender
  | sent hphase htakes => exact absurd rfl hinput
  | ended hphase hfinish => exact Or.inr (Or.inr ⟨_, rfl⟩)
  | endedEarly hphase hfinish =>
      rw [hphase] at hsender
      cases hsender
  | deserted hphase hgone => exact Or.inr (Or.inr ⟨_, rfl⟩)
  | abandoned hunderWay hgone => exact Or.inr (Or.inr ⟨_, rfl⟩)
  | dropped hlive => exact Or.inr (Or.inr ⟨_, rfl⟩)
  | reported hphase => exact Or.inr (Or.inr ⟨_, rfl⟩)
  | unreported hphase => exact Or.inr (Or.inr ⟨_, rfl⟩)

end ReadState

/-! ## What is let through and not handed over -/

/-- The items are the rows that were let through, except these last ones, and then errors. -/
def ReadLog.Withholds (log : ReadLog) (pending : List Row) (errors : List ReadError) : Prop :=
  ∃ rows : List Row, log.items = rows.map .ok ++ errors.map .error ∧
    rows ++ pending = outputRows log.accepted

namespace ReadState

/-- A row that is being sent is pending, and is lost when the read is cancelled then. -/
def HoldsBack (state : ReadState) : Prop :=
  match state.phase with
  | .sending _ _ row _ => state.log.Withholds [row] []
  | .finished .cancelled => ∃ pending, pending.length ≤ 1 ∧ state.log.Withholds pending []
  | .finished (.failed error) => state.log.Withholds [] [] ∨ state.log.Withholds [] [error]
  | _ => state.log.Withholds [] []

variable {codec : Codec} {state next : ReadState} {input : ReadInput}

theorem withholds_of_holdsBack (h : state.HoldsBack) (hlive : ∀ how, state.phase ≠ .finished how) :
    ∃ pending, pending.length ≤ 1 ∧ state.log.Withholds pending [] := by
  unfold HoldsBack at h
  cases hphase : state.phase with
  | sending active before row chunks =>
      rw [hphase] at h
      exact ⟨[row], le_rfl, h⟩
  | finished how => exact absurd hphase (hlive how)
  | _ =>
      rw [hphase] at h
      exact ⟨[], Nat.zero_le 1, h⟩

theorem withholds_of_underWay {underWay : AttemptTracker × Nat} (h : state.HoldsBack)
    (hsending : ∀ active before row chunks, state.phase ≠ .sending active before row chunks)
    (hunderWay : state.phase.underWay = some underWay) : state.log.Withholds [] [] := by
  unfold HoldsBack at h
  cases hphase : state.phase with
  | calling sender deadline request telemetry => simpa only [hphase] using h
  | streaming active => simpa only [hphase] using h
  | sending active before row chunks => exact absurd hphase (hsending active before row chunks)
  | _ =>
      rw [hphase] at hunderWay
      cases hunderWay

theorem holdsBack_fail (h : state.log.Withholds [] []) (sender : Bool) (error : ReadError) :
    (state.fail sender error).HoldsBack := by
  cases sender with
  | true => exact h
  | false => exact Or.inl h

theorem holdsBack_failWith (h : state.log.Withholds [] []) (sender : Bool) (code : Code)
    (error : ReadError) : (state.failWith sender code error).HoldsBack := by
  apply holdsBack_fail
  exact h

theorem holdsBack_calls {sender : Bool} {turn : ReadTurn} (h : state.log.Withholds [] [])
    (hcalls : Calls codec state sender turn next) : next.HoldsBack := by
  cases hcalls with
  | exhausted hrequest => exact h
  | late hremaining => exact holdsBack_failWith h sender _ _
  | tooLarge hrequest hremaining hdeadline => exact holdsBack_fail h sender _
  | panicked hrequest hremaining hdeadline htakes => exact h
  | issued hrequest hremaining hdeadline htakes => exact h

theorem holdsBack_retries {sender : Bool} {status : Status} {turn : ReadTurn}
    (h : state.log.Withholds [] []) (hretries : Retries codec state sender status turn next) :
    next.HoldsBack := by
  cases hretries with
  | late => exact holdsBack_failWith h sender _ _
  | refused htop hrefused => exact holdsBack_failWith h sender _ _
  | panicked htop hretryable hbudget hbackoff => exact h
  | backedOff hretryable hbudget hbackoff hremaining hdelay => exact h

theorem holdsBack_takesChunks {active : ActiveAttempt} {before : Int} {chunks : List CellChunk}
    (h : state.log.Withholds [] []) (htakes : TakesChunks state active before chunks next) :
    next.HoldsBack := by
  cases htakes with
  | rejected hpush => exact h
  | row hpush =>
      obtain ⟨rows, hitems, hrows⟩ := h
      refine ⟨rows, hitems, ?_⟩
      rw [List.append_nil] at hrows
      simp [hrows]
  | full hpush hlimit => exact h
  | drained hpush hlimit => exact h

theorem holdsBack_takesMessage {active : ActiveAttempt} {response : ReadRowsResponse}
    (h : state.log.Withholds [] []) (htakes : TakesMessage state active response next) :
    next.HoldsBack := by
  cases htakes with
  | misplaced hkey hscan => exact h
  | unmarked hkey hchunks =>
      apply holdsBack_takesChunks _ hchunks
      exact h
  | marked hkey hscan hchunks =>
      apply holdsBack_takesChunks _ hchunks
      obtain ⟨rows, hitems, hrows⟩ := h
      exact ⟨rows, hitems, hrows.trans (ChunkGrammar.outputRows_append_marker _ _).symm⟩

/-- Only a read that is cancelled loses a row that was let through, and no more than one. -/
theorem holdsBack_step (h : state.HoldsBack) (hstep : state.step codec input = some next) :
    next.HoldsBack := by
  have hphased : ∀ {phase}, state.phase = phase → (match phase with
      | .sending _ _ row _ => state.log.Withholds [row] []
      | .finished .cancelled => ∃ pending, pending.length ≤ 1 ∧ state.log.Withholds pending []
      | .finished (.failed error) =>
          state.log.Withholds [] [] ∨ state.log.Withholds [] [error]
      | _ => state.log.Withholds [] []) := by
    rintro phase rfl
    exact h
  have hcancel := withholds_of_holdsBack h (not_finished_of_step hstep)
  cases step_of_step hstep with
  | expired hphase htop => exact holdsBack_failWith (hphased hphase) false _ _
  | begun hphase hcalls htop => exact holdsBack_calls (hphased hphase) hcalls
  | woken hphase hcalls => exact holdsBack_calls (hphased hphase) hcalls
  | opened hphase =>
      have hnone := hphased hphase
      exact hnone
  | failed merger hunderWay hfailure hretries =>
      have hsome : input.failure.isSome := by
        rw [hfailure]
        rfl
      have hnone := withholds_of_underWay h (not_sending_of_failure hstep hsome) hunderWay
      apply holdsBack_retries _ hretries
      exact hnone
  | message hphase htakes => exact holdsBack_takesMessage (hphased hphase) htakes
  | sent hphase htakes =>
      rename_i row chunks
      obtain ⟨rows, hitems, hrows⟩ := hphased hphase
      apply holdsBack_takesChunks _ htakes
      exact ⟨rows ++ [row], by simp [hitems], by simpa using hrows⟩
  | ended hphase hfinish =>
      have hnone := hphased hphase
      exact hnone
  | endedEarly hphase hfinish =>
      have hnone := hphased hphase
      exact hnone
  | deserted hphase hgone => exact hcancel
  | abandoned hunderWay hgone => exact hcancel
  | dropped hlive => exact hcancel
  | reported hphase =>
      obtain ⟨rows, hitems, hrows⟩ := hphased hphase
      exact Or.inr ⟨rows, by simp [hitems, conclude], hrows⟩
  | unreported hphase => exact hcancel

end ReadState

theorem ReadLog.Withholds.length_le {log : ReadLog} {pending : List Row}
    {errors : List ReadError} (h : log.Withholds pending errors) :
    (outputRows log.accepted).length ≤ log.items.length + pending.length := by
  obtain ⟨rows, hitems, hrows⟩ := h
  rw [← hrows, hitems]
  simp

theorem ReadState.HoldsBack.length_le {state : ReadState} (h : state.HoldsBack) :
    (outputRows state.log.accepted).length ≤ state.log.items.length + 1 := by
  unfold ReadState.HoldsBack at h
  split at h
  · exact h.length_le
  · obtain ⟨pending, hpending, hlog⟩ := h
    exact hlog.length_le.trans (Nat.add_le_add_left hpending _)
  · rcases h with h | h
    · exact Nat.le_succ_of_le h.length_le
    · exact Nat.le_succ_of_le h.length_le
  · exact Nat.le_succ_of_le h.length_le

/-! ## The channel of a stream -/

theorem lawful_rowProducer (codec : Codec) : (rowProducer codec).Lawful where
  adds state input next hstep hgate := by
    cases input with
    | sent => exact ReadState.items_step_sent hstep
    | _ => cases hgate
  keeps state input next hstep hgate := by
    apply ReadState.items_step hstep
    rintro rfl
    exact hgate rfl

structure RowStream.Inv (codec : Codec) (original : ReadRowsRequest) (stream : RowStream) :
    Prop where
  view : stream.producer.view.Inv
  original : stream.producer.view.original = original
  conserves : stream.Conserves (rowProducer codec) streamBuffer
  holdsBack : stream.producer.HoldsBack
  sender : stream.producer.phase.sender = true
  failed : ∀ error, stream.producer.phase = .finished (.failed error) →
    stream.producer.log.Withholds [] [error]
  cancelled : stream.producer.phase = .finished .cancelled → stream.hungUp = true

namespace RowStream

variable {codec : Codec} {original : ReadRowsRequest} {stream next : RowStream}

theorem Inv.advance {state : ReadState} {input : ReadInput} (h : stream.Inv codec original)
    (hkept : input ≠ .dropped) (hstep : stream.producer.step codec input = some state)
    (hadmits : stream.admits streamBuffer input.gate = true)
    (hconserves : (stream.advance (rowProducer codec) state).Conserves (rowProducer codec)
      streamBuffer) :
    RowStream.Inv codec original (stream.advance (rowProducer codec) state) := by
  have hmove := ReadState.move_of_step hstep
  have hholds := ReadState.holdsBack_step h.holdsBack hstep
  have hview := h.view.move hmove
  have horiginal := hmove.original.trans h.original
  rcases ReadState.proceeds_step hstep with ⟨hnot, hspawned⟩ | ⟨hcancelled, hinput⟩ |
    ⟨error, hfailed, hitems⟩
  · obtain ⟨hsender, hfailed⟩ := hspawned h.sender
    refine ⟨hview, horiginal, hconserves, hholds, hsender, ?_, ?_⟩
    · intro error hphase
      exact absurd hphase (hfailed error)
    · intro hphase
      exact absurd hphase hnot
  · have hgone := hinput.resolve_right hkept
    refine ⟨hview, horiginal, hconserves, hholds, ?_, ?_, ?_⟩
    · show state.phase.sender = true
      rw [hcancelled]
      rfl
    · intro error hphase
      rw [show state.phase = _ from hphase] at hcancelled
      cases hcancelled
    · intro _
      cases input with
      | sendFailed => exact hadmits
      | closed => exact hadmits
      | _ => cases hgone
  · refine ⟨hview, horiginal, hconserves, hholds, ?_, ?_, ?_⟩
    · show state.phase.sender = true
      rw [hfailed]
      rfl
    · intro other hphase
      obtain rfl : error = other :=
        ReadEnd.failed.inj (ReadPhase.finished.inj (hfailed.symm.trans hphase))
      simp only [ReadState.HoldsBack, hfailed] at hholds
      refine hholds.resolve_left ?_
      rintro ⟨rows, hrows, -⟩
      have hmem : Except.error error ∈ state.log.items := by simp [hitems]
      simp [hrows] at hmem
    · intro hphase
      rw [show state.phase = _ from hphase] at hfailed
      cases hfailed

theorem Inv.step {input : LinkInput ReadInput} (h : stream.Inv codec original)
    (hkept : input ≠ .produce .dropped)
    (hstep : stream.step (rowProducer codec) streamBuffer input = some next) :
    RowStream.Inv codec original next := by
  have hconserves := h.conserves.step (lawful_rowProducer codec) hstep
  cases Link.step_of_step hstep with
  | produce hadmits hproduce =>
      refine h.advance ?_ hproduce hadmits hconserves
      rintro rfl
      exact hkept rfl
  | take hopen hqueue =>
      exact ⟨h.view, h.original, hconserves, h.holdsBack, h.sender, h.failed, h.cancelled⟩
  | hangUp hopen =>
      exact ⟨h.view, h.original, hconserves, h.holdsBack, h.sender, h.failed, fun _ => rfl⟩

theorem inv_start {state : ReadState} (hview : state.view.Inv)
    (horiginal : state.view.original = original) (hitems : state.log.items = [])
    (hholds : state.HoldsBack) (hspawned : state.phase.Proceeds true) :
    RowStream.Inv codec original (.start state) := by
  obtain ⟨hnot, hsender⟩ := hspawned
  obtain ⟨hsender, hfailed⟩ := hsender rfl
  refine ⟨hview, horiginal, ⟨?_, Nat.zero_le _⟩, hholds, hsender, ?_, ?_⟩
  · exact hitems
  · intro error hphase
    exact absurd hphase (hfailed error)
  · intro hphase
    exact absurd hphase hnot

end RowStream

/-! ## Calls -/

namespace ReadCall

variable {codec : Codec} {original : ReadRowsRequest} {call next : ReadCall}

def Inv (codec : Codec) (original : ReadRowsRequest) : ReadCall → Prop
  | .opening state => state.view.Inv ∧ state.view.original = original ∧ state.HoldsBack ∧
      state.log.items = [] ∧ state.phase.sender = false
  | .failed error state => state.phase = .finished (.failed error)
  | .streaming stream => stream.Inv codec original
  | .dropped _ => True
  | .panicked _ => True

theorem settle_of_sender {state : ReadState} (h : state.phase.sender = false) :
    settle state = .opening state := by
  unfold settle
  cases hphase : state.phase with
  | starting => rfl
  | backingOff sender delay => rfl
  | calling sender deadline request telemetry => rfl
  | sending active before row chunks => rfl
  | terminating error => rfl
  | streaming active => simp [hphase, ReadPhase.sender] at h
  | finished how => simp [hphase, ReadPhase.sender] at h

theorem Inv.step {input : LinkInput ReadInput} (h : call.Inv codec original)
    (hkept : call.Keeps input) (hstep : call.step codec input = some next) :
    next.Inv codec original := by
  cases call with
  | failed error state => cases input <;> simp [ReadCall.step] at hstep
  | dropped state => cases input <;> simp [ReadCall.step] at hstep
  | panicked state => cases input <;> simp [ReadCall.step] at hstep
  | streaming stream =>
      obtain ⟨advanced, hadvanced, rfl⟩ := Option.map_eq_some_iff.1 hstep
      exact RowStream.Inv.step h hkept hadvanced
  | opening state =>
      cases input with
      | take => cases hstep
      | hangUp => cases hstep
      | produce input =>
          obtain ⟨advanced, hadvanced, rfl⟩ := Option.map_eq_some_iff.1 hstep
          obtain ⟨hview, horiginal, hholds, hitems, hsender⟩ := h
          have hmove := ReadState.move_of_step hadvanced
          have hview' := hview.move hmove
          have horiginal' := hmove.original.trans horiginal
          have hholds' := ReadState.holdsBack_step hholds hadvanced
          obtain ⟨hsame, hnext⟩ := ReadState.opening_step hadvanced hsender
          have hitems' := hsame.trans hitems
          rcases hnext with hopening | ⟨active, hstreaming⟩ | ⟨how, hfinished⟩
          · rw [settle_of_sender hopening]
            exact ⟨hview', horiginal', hholds', hitems', hopening⟩
          · unfold settle
            rw [hstreaming]
            refine RowStream.inv_start hview' horiginal' hitems' hholds' ?_
            rw [hstreaming]
            exact ⟨nofun, fun _ => ⟨rfl, nofun⟩⟩
          · unfold settle
            rw [hfinished]
            cases how with
            | completed =>
                refine RowStream.inv_start hview' horiginal' hitems' hholds' ?_
                rw [hfinished]
                exact ⟨nofun, fun _ => ⟨rfl, nofun⟩⟩
            | failed error => exact hfinished
            | cancelled => trivial
            | panicked => trivial

theorem opening_of_readRows {parse : MetadataParser} {config : ClientConfig} {query : Query}
    {options : ReadOptions} {now : Instant}
    (h : readRows parse config query options now = .ok call) :
    validatePolicies options.retry options.deadlines = .ok () ∧ query.validate = .ok () ∧
      ∃ deadline, call = .opening (.new (query.intoRequest config) options deadline
        query.tableId.val) := by
  unfold readRows at h
  split at h
  · cases h
  · next hpolicies =>
    split at h
    · cases h
    · next hquery =>
      simp only at h
      split at h
      · cases h
      · split at h
        · cases h
        · obtain rfl := Except.ok.inj h
          exact ⟨hpolicies, hquery, _, rfl⟩

theorem operation_settle (state : ReadState) : (settle state).operation = state := by
  unfold settle
  split <;> rfl

/-- The read of a call takes a step, or stays as it is. -/
theorem operation_step {input : LinkInput ReadInput} (h : call.step codec input = some next) :
    next.operation = call.operation ∨ ∃ readInput, input = .produce readInput ∧
      call.operation.step codec readInput = some next.operation := by
  cases call with
  | failed error state => cases input <;> simp [ReadCall.step] at h
  | dropped state => cases input <;> simp [ReadCall.step] at h
  | panicked state => cases input <;> simp [ReadCall.step] at h
  | opening state =>
      cases input with
      | take => cases h
      | hangUp => cases h
      | produce input =>
          obtain ⟨advanced, hadvanced, rfl⟩ := Option.map_eq_some_iff.1 h
          rw [operation_settle]
          exact Or.inr ⟨input, rfl, hadvanced⟩
  | streaming stream =>
      obtain ⟨advanced, hadvanced, rfl⟩ := Option.map_eq_some_iff.1 h
      cases Link.step_of_step hadvanced with
      | produce hadmits hproduce => exact Or.inr ⟨_, rfl, hproduce⟩
      | take hopen hqueue => exact Or.inl rfl
      | hangUp hopen => exact Or.inl rfl

theorem inv_opening (codec : Codec) (original : ReadRowsRequest) (options : ReadOptions)
    (deadline : Instant) (tableId : String) :
    Inv codec original (.opening (.new original options deadline tableId)) := by
  have hstart : Reachable (ReadState.step codec) (.new original options deadline tableId)
      (.new original options deadline tableId) := ⟨[], rfl⟩
  obtain ⟨hview, horiginal⟩ := ReadState.inv_of_reachable hstart
  exact ⟨hview, horiginal, ⟨[], rfl, rfl⟩, rfl, rfl⟩

section Start

variable {parse : MetadataParser} {config : ClientConfig} {query : Query} {options : ReadOptions}
  {now : Instant} {init : ReadCall}

theorem inv_of_reachable (hstart : readRows parse config query options now = .ok init)
    (hreach : ReachableBy (ReadCall.step codec) Keeps init call) :
    call.Inv codec (query.intoRequest config) := by
  obtain ⟨-, -, deadline, rfl⟩ := opening_of_readRows hstart
  refine hreach.invariant (Inv codec (query.intoRequest config)) ?_
    fun _ _ _ h hkept hstep => h.step hkept hstep
  exact inv_opening codec _ options deadline query.tableId.val

/-- With options that never panic, the read of a call does not. -/
theorem phase_ne_panicked (hnever : options.NeverPanics codec)
    (hstart : readRows parse config query options now = .ok init)
    (hreach : Reachable (ReadCall.step codec) init call) :
    call.operation.phase ≠ .finished .panicked := by
  obtain ⟨-, -, deadline, rfl⟩ := opening_of_readRows hstart
  have hcalm : ReadState.Calm options call.operation := by
    refine hreach.invariant (fun call => ReadState.Calm options call.operation) ⟨rfl, nofun⟩ ?_
    intro before input after hbefore hstep
    rcases operation_step hstep with hsame | ⟨readInput, -, hread⟩
    · rw [hsame]
      exact hbefore
    · exact ReadState.calm_step hnever hbefore hread
  exact hcalm.phase

end Start

end ReadCall

/-! ## The consumer -/

/-- What the consumer of a stream can rely on. -/
structure StreamContract (original : ReadRowsRequest) (stream : RowStream) : Prop where
  /-- It gets complete rows in strict scan order, and at most one error behind them. -/
  items : ∃ (rows : List Row) (errors : List ReadError),
    stream.taken = rows.map .ok ++ errors.map .error ∧ errors.length ≤ 1 ∧
      (∀ row ∈ rows, CompleteRow row) ∧
      rows.Pairwise fun earlier later => Beyond original.reversed earlier.key later.key
  /-- Behind an error nothing comes. -/
  final : ∀ error, .error error ∈ stream.taken → stream.hungUp = false → stream.next = some none
  /-- The read is ahead of it by the channel and one row. -/
  ahead : (outputRows stream.producer.log.accepted).length ≤
    stream.taken.length + (streamBuffer + 1)
  /-- When the stream is over it has got every row that was read, and an error unless the read
  was completed. -/
  complete : stream.next = some none → ∃ errors : List ReadError,
    stream.taken = (outputRows stream.producer.log.accepted).map .ok ++ errors.map .error ∧
      (errors = [] ↔ stream.producer.phase = .finished .completed)

namespace RowStream

variable {codec : Codec} {original : ReadRowsRequest} {stream : RowStream}

theorem next_eq_some_none :
    stream.next = some none ↔ stream.hungUp = false ∧ stream.queue = [] ∧
      ∃ how, stream.producer.phase = .finished how := by
  unfold next
  cases hopen : stream.hungUp with
  | true => simp
  | false =>
      cases hqueue : stream.queue with
      | cons item queue => simp
      | nil =>
          cases hphase : stream.producer.phase with
          | finished how => simp [ReadPhase.isFinished]
          | _ => simp [ReadPhase.isFinished]

/-- An initial part of a stream is rows and then errors again. -/
theorem split_items {taken queue : List (Except ReadError Row)} {rows : List Row}
    {errors : List ReadError} (h : taken ++ queue = rows.map .ok ++ errors.map .error) :
    (∃ more, taken = more.map .ok ∧ more <+: rows) ∨
      ∃ more, taken = rows.map .ok ++ more.map .error ∧ more <+: errors ∧ more ≠ [] := by
  rcases List.append_eq_append_iff.1 h with ⟨rest, hrows, -⟩ | ⟨rest, htaken, herrors⟩
  · obtain ⟨more, others, rfl, htaken, -⟩ := List.map_eq_append_iff.1 hrows
    exact Or.inl ⟨more, htaken.symm, List.prefix_append more others⟩
  · obtain ⟨more, others, rfl, rfl, -⟩ := List.map_eq_append_iff.1 herrors
    rcases eq_or_ne more [] with rfl | hne
    · exact Or.inl ⟨rows, by simpa using htaken, List.prefix_rfl⟩
    · exact Or.inr ⟨more, htaken, List.prefix_append more others, hne⟩

theorem Inv.contract (h : stream.Inv codec original)
    (hcalm : stream.producer.phase ≠ .finished .panicked) : StreamContract original stream := by
  have hordered := h.view.streamOrdered h.original
  obtain ⟨rows, errors, hitems, hlength, hover, hrows, hcomplete, horder⟩ := hordered.items
  have hsplit : stream.taken ++ stream.queue = rows.map .ok ++ errors.map .error :=
    h.conserves.items.symm.trans hitems
  constructor
  case items =>
    rcases split_items hsplit with ⟨more, htaken, hmore⟩ | ⟨more, htaken, hmore, -⟩
    · refine ⟨more, [], by simpa using htaken, Nat.zero_le 1, ?_, horder.sublist hmore.sublist⟩
      intro row hrow
      exact hcomplete row (hmore.subset hrow)
    · exact ⟨rows, more, htaken, hmore.length_le.trans hlength, hcomplete, horder⟩
  case final =>
    intro error herror hopen
    rcases split_items hsplit with ⟨more, htaken, -⟩ | ⟨more, htaken, hmore, hne⟩
    · simp [htaken] at herror
    · have hall : more = errors := by
        apply hmore.eq_of_length_le
        have hpos := List.length_pos_of_ne_nil hne
        omega
      have hqueue : stream.queue = [] := by
        rw [htaken, hall] at hsplit
        exact List.append_right_eq_self.1 hsplit
      exact next_eq_some_none.2 ⟨hopen, hqueue, hover (hall ▸ hne)⟩
  case ahead =>
    have hroom := h.conserves.room
    have hahead := h.holdsBack.length_le
    rw [show stream.producer.log.items = _ from h.conserves.items, List.length_append] at hahead
    omega
  case complete =>
    intro hnext
    obtain ⟨hopen, hqueue, how, hphase⟩ := next_eq_some_none.1 hnext
    have htaken : stream.taken = stream.producer.log.items := by
      rw [show stream.producer.log.items = _ from h.conserves.items, hqueue, List.append_nil]
    cases how with
    | completed =>
        have hholds := h.holdsBack
        simp only [ReadState.HoldsBack, hphase] at hholds
        obtain ⟨all, hall, haccepted⟩ := hholds
        rw [List.append_nil] at haccepted
        exact ⟨[], by rw [htaken, hall, haccepted], by simp [hphase]⟩
    | failed error =>
        obtain ⟨all, hall, haccepted⟩ := h.failed error hphase
        rw [List.append_nil] at haccepted
        exact ⟨[error], by rw [htaken, hall, haccepted], by simp [hphase]⟩
    | cancelled =>
        rw [h.cancelled hphase] at hopen
        cases hopen
    | panicked => exact absurd hphase hcalm

end RowStream

/-- Whatever the server and the clock do, and whenever the consumer takes an item or goes away,
it gets the rows that were read, in scan order and each once, and the read stays close to it, when
its options never panic. -/
theorem ReadCall.stream_contract (codec : Codec) {parse : MetadataParser} {config : ClientConfig}
    {query : Query} {options : ReadOptions} {now : Instant} {init : ReadCall} {stream : RowStream}
    (hnever : options.NeverPanics codec)
    (hstart : readRows parse config query options now = .ok init)
    (hreach : ReachableBy (ReadCall.step codec) Keeps init (.streaming stream)) :
    StreamContract (query.intoRequest config) stream := by
  have hinv : RowStream.Inv codec (query.intoRequest config) stream :=
    inv_of_reachable hstart hreach
  exact hinv.contract (phase_ne_panicked hnever hstart hreach.reachable)

/-! ## Termination -/

namespace ReadCall

variable {codec : Codec} {options : ReadOptions} {original : ReadRowsRequest}
  {call next : ReadCall}

/-- It is no answer of the server, and nobody goes away. -/
def Internal : LinkInput ReadInput → Prop
  | .produce input => input.isAnswer = false ∧ input ≠ .dropped
  | .take => True
  | .hangUp => False

def IsOver : ReadCall → Prop
  | .opening _ => False
  | .streaming stream =>
      stream.producer.phase.isFinished = true ∧ (stream.hungUp = true ∨ stream.queue = [])
  | _ => True

def measure (maxAttempts : Nat) : ReadCall → Nat
  | .opening state => 2 * state.credit maxAttempts + 1
  | .streaming stream => Link.measure (ReadState.credit maxAttempts) stream
  | _ => 0

def Recorded (original : ReadRowsRequest) (options : ReadOptions) (state : ReadState) : Prop :=
  ∃ history, ReadState.RecordedInv (fun _ => True) original options (state, history)

theorem Recorded.step {state advanced : ReadState} {input : ReadInput}
    (h : Recorded original options state) (hstep : state.step codec input = some advanced) :
    Recorded original options advanced ∧
      1 + advanced.credit options.retry.maxAttempts.toNat ≤
        state.credit options.retry.maxAttempts.toNat + input.work := by
  obtain ⟨history, hinv⟩ := h
  have hrecorded : ReadState.recordedStep codec (state, history) input =
      some (advanced, state.record input advanced history) := by
    rw [ReadState.recordedStep, hstep]
    rfl
  exact ⟨⟨_, ReadState.recordedInv_step (fun _ _ _ _ => trivial) hinv hrecorded⟩,
    ReadState.credit_step hinv.2.2.2 (ReadState.step_of_step hstep)⟩

theorem measure_settle (maxAttempts : Nat) (state : ReadState) :
    (settle state).measure maxAttempts ≤ 2 * state.credit maxAttempts + 1 := by
  unfold settle
  split
  · simp [measure, Link.measure, Link.start]
  · simp [measure, Link.measure, Link.start]
  · exact Nat.zero_le _
  · exact Nat.zero_le _
  · exact Nat.zero_le _
  · exact le_rfl

theorem recorded_step {input : LinkInput ReadInput}
    (h : Recorded original options call.operation) (hstep : call.step codec input = some next) :
    Recorded original options next.operation := by
  rcases operation_step hstep with hsame | ⟨readInput, -, hread⟩
  · rw [hsame]
    exact h
  · exact (Recorded.step h hread).1

/-- Every step of a call uses up what is left to do. -/
theorem measure_step {input : LinkInput ReadInput}
    (h : Recorded original options call.operation) (hstep : call.step codec input = some next) :
    1 + next.measure options.retry.maxAttempts.toNat ≤
      call.measure options.retry.maxAttempts.toNat + input.gain ReadInput.work := by
  cases call with
  | failed error state => cases input <;> simp [ReadCall.step] at hstep
  | dropped state => cases input <;> simp [ReadCall.step] at hstep
  | panicked state => cases input <;> simp [ReadCall.step] at hstep
  | opening state =>
      cases input with
      | take => cases hstep
      | hangUp => cases hstep
      | produce input =>
          obtain ⟨advanced, hadvanced, rfl⟩ := Option.map_eq_some_iff.1 hstep
          have hrecorded : Recorded original options state := h
          have hcredit := (hrecorded.step hadvanced).2
          have hsettle := measure_settle options.retry.maxAttempts.toNat advanced
          simp only [LinkInput.gain]
          have hopening : (ReadCall.opening state).measure options.retry.maxAttempts.toNat =
              2 * state.credit options.retry.maxAttempts.toNat + 1 := rfl
          omega
  | streaming stream =>
      obtain ⟨advanced, hadvanced, rfl⟩ := Option.map_eq_some_iff.1 hstep
      apply Link.measure_step (lawful_rowProducer codec) _ hadvanced
      intro input state hproduce
      exact (Recorded.step h hproduce).2

/-- A read that is not over can go on, whether or not its consumer is there. -/
theorem live_of_not_finished {state : ReadState} (hlive : ∀ how, state.phase ≠ .finished how) :
    Link.Live (rowProducer codec) (fun input => input.isAnswer = false ∧ input ≠ .dropped)
      state := by
  constructor
  case attended =>
    obtain ⟨input, hanswer, hgone, hdropped, hstep⟩ := ReadState.exists_step codec hlive
    refine ⟨input, ⟨hanswer, hdropped⟩, ?_, hstep⟩
    cases input with
    | sendFailed => cases hgone
    | closed => cases hgone
    | _ => intro hgate; cases hgate
  case deserted =>
    let turn : ReadTurn := { top := 0, retry := 0, call := 0, arm := 0, draw := 0 }
    show ∃ input : ReadInput, (input.isAnswer = false ∧ input ≠ .dropped) ∧ input.gate ≠ .room ∧
      (state.step codec input).isSome
    cases hphase : state.phase with
    | starting =>
        exact ⟨.begin turn, ⟨rfl, by simp⟩, by simp [ReadInput.gate],
          by simp [ReadState.step, hphase]⟩
    | backingOff sender delay =>
        exact ⟨.wake turn, ⟨rfl, by simp⟩, by simp [ReadInput.gate],
          by simp [ReadState.step, hphase]⟩
    | calling sender deadline request telemetry =>
        exact ⟨.openTimedOut turn, ⟨rfl, by simp⟩, by simp [ReadInput.gate],
          by simp [ReadState.step, hphase]⟩
    | streaming active =>
        exact ⟨.streamTimedOut turn, ⟨rfl, by simp⟩, by simp [ReadInput.gate],
          by simp [ReadState.step, hphase]⟩
    | sending active before row chunks =>
        exact ⟨.sendFailed, ⟨rfl, by simp⟩, by simp [ReadInput.gate],
          by simp [ReadState.step, hphase]⟩
    | terminating error =>
        exact ⟨.sendFailed, ⟨rfl, by simp⟩, by simp [ReadInput.gate],
          by simp [ReadState.step, hphase]⟩
    | finished how => exact absurd hphase (hlive how)

def Unspawned : ReadCall → Prop
  | .opening state => state.phase.sender = false
  | _ => True

theorem unspawned_settle {state : ReadState} (h : state.phase.sender = false ∨
    (∃ active, state.phase = .streaming active) ∨ ∃ how, state.phase = .finished how) :
    (settle state).Unspawned := by
  rcases h with hsender | ⟨active, hphase⟩ | ⟨how, hphase⟩
  · rw [settle_of_sender hsender]
    exact hsender
  · unfold settle
    rw [hphase]
    trivial
  · unfold settle
    rw [hphase]
    cases how <;> trivial

theorem unspawned_step {input : LinkInput ReadInput} (h : call.Unspawned)
    (hstep : call.step codec input = some next) : next.Unspawned := by
  cases call with
  | failed error state => cases input <;> simp [ReadCall.step] at hstep
  | dropped state => cases input <;> simp [ReadCall.step] at hstep
  | panicked state => cases input <;> simp [ReadCall.step] at hstep
  | opening state =>
      cases input with
      | take => cases hstep
      | hangUp => cases hstep
      | produce input =>
          obtain ⟨advanced, hadvanced, rfl⟩ := Option.map_eq_some_iff.1 hstep
          exact unspawned_settle (ReadState.opening_step hadvanced h).2
  | streaming stream =>
      obtain ⟨advanced, -, rfl⟩ := Option.map_eq_some_iff.1 hstep
      trivial

theorem exists_internal_step (codec : Codec) (h : call.Unspawned) :
    call.IsOver ∨ ∃ input : LinkInput ReadInput, Internal input ∧
      (call.step codec input).isSome := by
  cases call with
  | failed error state => exact Or.inl trivial
  | dropped state => exact Or.inl trivial
  | panicked state => exact Or.inl trivial
  | opening state =>
      have hlive : ∀ how, state.phase ≠ .finished how := by
        intro how hphase
        have hsender : state.phase.sender = false := h
        rw [hphase] at hsender
        cases hsender
      obtain ⟨input, hanswer, -, hdropped, hstep⟩ := ReadState.exists_step codec hlive
      refine Or.inr ⟨.produce input, ⟨hanswer, hdropped⟩, ?_⟩
      rw [step, Option.isSome_map]
      exact hstep
  | streaming stream =>
      by_cases hlive : ∀ how, stream.producer.phase ≠ .finished how
      · refine Or.inr ?_
        have hproducer : Link.Live (rowProducer codec)
            (fun input => input.isAnswer = false ∧ input ≠ .dropped) stream.producer :=
          live_of_not_finished hlive
        have hcapacity : 0 < streamBuffer := by decide
        rcases Link.progress hcapacity hproducer with ⟨input, hkind, hstep⟩ | htake
        · exact ⟨.produce input, hkind, by rwa [step, Option.isSome_map]⟩
        · exact ⟨.take, trivial, by rwa [step, Option.isSome_map]⟩
      · obtain ⟨how, hphase⟩ := not_forall_not.1 hlive
        have hfinished : stream.producer.phase.isFinished = true := by
          rw [hphase]
          rfl
        cases hopen : stream.hungUp with
        | true => exact Or.inl ⟨hfinished, Or.inl hopen⟩
        | false =>
            cases hqueue : stream.queue with
            | nil => exact Or.inl ⟨hfinished, Or.inr hqueue⟩
            | cons item queue =>
                exact Or.inr ⟨.take, trivial, by simp [step, Link.step, hopen, hqueue]⟩

/-- A call comes to an end.  Its steps are bounded by the attempts it may make and the chunks that
the server sends, and as long as it is not over it can go on without an answer of the server: it
never waits for a consumer that waits for it. -/
theorem call_terminates (codec : Codec) {parse : MetadataParser} {config : ClientConfig}
    {query : Query} {now : Instant} {init : ReadCall} {inputs : List (LinkInput ReadInput)}
    (hstart : readRows parse config query options now = .ok init)
    (hrun : run (ReadCall.step codec) init inputs = some call) :
    inputs.length ≤ 6 * options.retry.maxAttempts.toNat + 3 +
        (inputs.map (LinkInput.gain ReadInput.work)).sum ∧
      (call.IsOver ∨ ∃ input, Internal input ∧ (call.step codec input).isSome) := by
  obtain ⟨hpolicies, -, deadline, rfl⟩ := opening_of_readRows hstart
  have hrecorded : Recorded (query.intoRequest config) options
      (.new (query.intoRequest config) options deadline query.tableId.val) :=
    ⟨[], ReadState.recordedInv_start codec _ _ deadline query.tableId.val hpolicies⟩
  constructor
  · have hlength := run_length_add_le (fun call => Recorded (query.intoRequest config) options
        call.operation) (measure options.retry.maxAttempts.toNat)
      (LinkInput.gain ReadInput.work) (fun _ _ _ => recorded_step) (fun _ _ _ => measure_step)
      hrecorded hrun
    have hinit : (ReadCall.opening (.new (query.intoRequest config) options deadline
        query.tableId.val)).measure options.retry.maxAttempts.toNat =
          2 * (3 * options.retry.maxAttempts.toNat + 1) + 1 := rfl
    omega
  · have hinit : (ReadCall.opening (.new (query.intoRequest config) options deadline
        query.tableId.val)).Unspawned := rfl
    have hunspawned := run_invariant Unspawned (fun _ _ _ => unspawned_step) hinit hrun
    exact exists_internal_step codec hunspawned

end ReadCall

/-! ### The interrupted read, consumed to its end -/

def consumedRead : List (LinkInput ReadInput) :=
  interruptedRead.map .produce ++ [.take, .take]

theorem readRows_wholeTable :
    readRows printableHeader sampleConfig wholeTableQuery .default 0 =
      .ok (.opening (.new (wholeTableQuery.intoRequest sampleConfig) .default (600 * 1000000000)
        "events")) := by
  have hpolicies : validatePolicies ReadOptions.default.retry ReadOptions.default.deadlines =
      .ok () := by decide +kernel
  unfold readRows
  rw [hpolicies]
  rfl

/-- The stream that the call returned. -/
def ReadCall.stream? : ReadCall → Option RowStream
  | .streaming stream => some stream
  | _ => none

theorem ReadCall.eq_streaming_of_stream? {call : ReadCall} {stream : RowStream}
    (h : call.stream? = some stream) : call = .streaming stream := by
  cases call with
  | streaming found => exact congrArg streaming (Option.some.inj h)
  | _ => cases h

theorem ReadCall.stream_contract_consumedRead :
    ∃ stream : RowStream, stream.next = some none ∧ stream.taken.length = 2 ∧
      StreamContract (wholeTableQuery.intoRequest sampleConfig) stream := by
  have hrun : ((run (guarded (ReadCall.step sampleCodec) Keeps)
      (.opening (.new (wholeTableQuery.intoRequest sampleConfig) .default (600 * 1000000000)
        "events")) consumedRead).any fun call => call.stream?.any fun stream =>
          stream.next = some none ∧ stream.taken.length = 2) = true := by decide +kernel
  obtain ⟨call, hrun, hcall⟩ := (Option.any_eq_true _ _).1 hrun
  obtain ⟨stream, hstream, hover⟩ := (Option.any_eq_true _ _).1 hcall
  obtain rfl := ReadCall.eq_streaming_of_stream? hstream
  obtain ⟨hnext, htaken⟩ := of_decide_eq_true hover
  exact ⟨stream, hnext, htaken, ReadCall.stream_contract sampleCodec neverPanics_default
    readRows_wholeTable (reachableBy_of_run .start hrun)⟩

theorem ReadCall.call_terminates_consumedRead :
    ∃ call : ReadCall, call.IsOver ∧
      consumedRead.length ≤ 6 * 10 + 3 +
        (consumedRead.map (LinkInput.gain ReadInput.work)).sum := by
  have hrun : ((run (ReadCall.step sampleCodec)
      (.opening (.new (wholeTableQuery.intoRequest sampleConfig) .default (600 * 1000000000)
        "events")) consumedRead).any fun call => call.stream?.any fun stream =>
          stream.producer.phase.isFinished ∧ stream.queue = []) = true := by decide +kernel
  obtain ⟨call, hrun, hcall⟩ := (Option.any_eq_true _ _).1 hrun
  obtain ⟨stream, hstream, hover⟩ := (Option.any_eq_true _ _).1 hcall
  obtain rfl := ReadCall.eq_streaming_of_stream? hstream
  obtain ⟨hfinished, hqueue⟩ := of_decide_eq_true hover
  exact ⟨.streaming stream, ⟨hfinished, Or.inr hqueue⟩,
    (ReadCall.call_terminates sampleCodec readRows_wholeTable hrun).1⟩

end BigtableClient
