import BigtableClient.Proofs.Backoff
import BigtableClient.Proofs.ReadPacing

/-!
# Which steps of a read panic

A step panics exactly when it does not withstand, and with options that never panic
every step withstands.
-/

namespace BigtableClient.ReadState

variable {codec : Codec} {state next : ReadState} {input : ReadInput} {sender : Bool}
  {turn : ReadTurn}

/-! ## Parts of a step -/

theorem phase_fail_ne_panicked (state : ReadState) (sender : Bool) (error : ReadError) :
    (state.fail sender error).phase ≠ .finished .panicked := by
  cases sender with
  | true => exact nofun
  | false => exact nofun

theorem phase_failWith_ne_panicked (state : ReadState) (sender : Bool) (code : Code)
    (error : ReadError) : (state.failWith sender code error).phase ≠ .finished .panicked :=
  phase_fail_ne_panicked _ sender error

theorem panicked_iff_of_calls (h : Calls codec state sender turn next) :
    next.phase = .finished .panicked ↔ ¬ state.FitsTimeout codec turn := by
  cases h with
  | exhausted hrequest =>
      have hfits : state.FitsTimeout codec turn := fun hsome => by simp [hrequest] at hsome
      exact iff_of_false nofun (not_not.2 hfits)
  | late hremaining =>
      have hfits : state.FitsTimeout codec turn :=
        fun _ remaining hsome => by simp [hremaining] at hsome
      exact iff_of_false (phase_failWith_ne_panicked _ _ _ _) (not_not.2 hfits)
  | tooLarge hrequest hremaining hdeadline =>
      have hfits : state.FitsTimeout codec turn := by
        intro _ remaining hsome hadd
        obtain rfl := Option.some.inj (hremaining.symm.trans hsome)
        simp [hdeadline] at hadd
      exact iff_of_false (phase_fail_ne_panicked _ _ _) (not_not.2 hfits)
  | panicked hrequest hremaining hdeadline htakes =>
      refine iff_of_true rfl fun hfits => ?_
      have hfit := hfits (by rw [hrequest]; rfl) _ hremaining (by rw [hdeadline]; rfl)
      rw [htakes] at hfit
      cases hfit
  | issued hrequest hremaining hdeadline htakes =>
      have hfits : state.FitsTimeout codec turn := by
        intro _ remaining hsome _
        obtain rfl := Option.some.inj (hremaining.symm.trans hsome)
        exact htakes
      exact iff_of_false nofun (not_not.2 hfits)

theorem panicked_iff_of_retries {status : Status}
    (h : Retries codec state sender status turn next) :
    next.phase = .finished .panicked ↔ ¬ state.BacksOff codec status turn := by
  cases h with
  | late hbacksOff => exact iff_of_false (phase_failWith_ne_panicked _ _ _ _) (not_not.2 hbacksOff)
  | refused htop hrefused =>
      have hbacksOff : state.BacksOff codec status turn := by
        intro _ hretryable hbudget
        rcases hrefused with hrefused | hspent
        · exact absurd hretryable hrefused
        · exact absurd hbudget (not_lt.2 hspent)
      exact iff_of_false (phase_failWith_ne_panicked _ _ _ _) (not_not.2 hbacksOff)
  | panicked htop hretryable hbudget hbackoff =>
      refine iff_of_true rfl fun hbacksOff => ?_
      have hsome := hbacksOff htop hretryable hbudget
      rw [hbackoff] at hsome
      cases hsome
  | backedOff hretryable hbudget hbackoff hremaining hdelay =>
      have hbacksOff : state.BacksOff codec status turn := by
        intro _ _ _
        rw [hbackoff]
        rfl
      exact iff_of_false nofun (not_not.2 hbacksOff)

theorem ne_panicked_of_takesChunks {active : ActiveAttempt} {before : Int}
    {chunks : List Proto.CellChunk} (h : TakesChunks state active before chunks next) :
    next.phase ≠ .finished .panicked := by
  cases h with
  | rejected hpush => exact nofun
  | row hpush => exact nofun
  | full hpush hlimit => exact nofun
  | drained hpush hlimit => exact nofun

theorem ne_panicked_of_takesMessage {active : ActiveAttempt} {response : Proto.ReadRowsResponse}
    (h : TakesMessage state active response next) : next.phase ≠ .finished .panicked := by
  cases h with
  | misplaced hkey hscan => exact nofun
  | unmarked hkey hchunks => exact ne_panicked_of_takesChunks hchunks
  | marked hkey hscan hchunks => exact ne_panicked_of_takesChunks hchunks

/-! ## Steps -/

theorem withstands_iff_of_failure {status : Status} (h : input.failure = some (status, turn)) :
    state.Withstands codec input ↔ state.BacksOff codec status turn := by
  unfold ReadInput.failure at h
  split at h <;> first | cases h; done | obtain ⟨rfl, rfl⟩ := Prod.mk.inj (Option.some.inj h)
  · exact Iff.rfl
  · exact Iff.rfl
  · exact Iff.rfl
  · exact Iff.rfl

theorem withstands_of_isGone (h : input.isGone) : state.Withstands codec input := by
  cases input with
  | sendFailed => trivial
  | closed => trivial
  | _ => cases h

/-- A step panics exactly when it does not withstand. -/
theorem panicked_iff (hstep : state.step codec input = some next) :
    next.phase = .finished .panicked ↔ ¬ state.Withstands codec input := by
  have hother : next.phase ≠ .finished .panicked → state.Withstands codec input →
      (next.phase = .finished .panicked ↔ ¬ state.Withstands codec input) :=
    fun hphase hwithstands => iff_of_false hphase (not_not.2 hwithstands)
  cases step_of_step hstep with
  | expired hphase htop =>
      exact hother (phase_failWith_ne_panicked _ _ _ _) fun hearly =>
        absurd hearly (not_lt.2 htop)
  | begun hphase hcalls htop =>
      exact (panicked_iff_of_calls hcalls).trans
        (not_congr ⟨fun hfits _ => hfits, fun hfits => hfits htop⟩)
  | woken hphase hcalls => exact panicked_iff_of_calls hcalls
  | failed merger hunderWay hfailure hretries =>
      exact (panicked_iff_of_retries hretries).trans
        (not_congr (withstands_iff_of_failure hfailure).symm)
  | opened hphase => exact hother nofun trivial
  | message hphase htakes => exact hother (ne_panicked_of_takesMessage htakes) trivial
  | sent hphase htakes => exact hother (ne_panicked_of_takesChunks htakes) trivial
  | ended hphase hfinish => exact hother nofun trivial
  | endedEarly hphase hfinish => exact hother (phase_failWith_ne_panicked _ _ _ _) trivial
  | deserted hphase hgone => exact hother nofun (withstands_of_isGone hgone)
  | abandoned hunderWay hgone => exact hother nofun (withstands_of_isGone hgone)
  | dropped hlive => exact hother nofun trivial
  | reported hphase => exact hother nofun trivial
  | unreported hphase => exact hother nofun trivial

/-! ## Options that never panic -/

/-- With such options every step withstands. -/
theorem withstands_of_neverPanics (h : state.operation.options.NeverPanics codec)
    (input : ReadInput) : state.Withstands codec input := by
  have hfits : ∀ turn, state.FitsTimeout codec turn :=
    fun turn _ remaining _ _ => h.fits _ (min_le_left _ _)
  have hbacksOff : ∀ status turn, state.BacksOff codec status turn :=
    fun status turn _ _ _ => h.backsOff _ _
  cases input with
  | begin turn => exact fun _ => hfits turn
  | wake turn => exact hfits turn
  | refused status turn => exact hbacksOff _ turn
  | openTimedOut turn => exact hbacksOff _ turn
  | streamBroke status turn => exact hbacksOff _ turn
  | streamTimedOut turn => exact hbacksOff _ turn
  | _ => trivial

theorem options_step (hstep : state.step codec input = some next) :
    next.operation.options = state.operation.options := by
  cases paces_step (step_of_step hstep) with
  | same hsame => exact hsame.options
  | issued hturn hremaining => rfl

structure Calm (options : ReadOptions) (state : ReadState) : Prop where
  options : state.operation.options = options
  phase : state.phase ≠ .finished .panicked

theorem calm_step {options : ReadOptions} (hnever : options.NeverPanics codec)
    (h : Calm options state) (hstep : state.step codec input = some next) :
    Calm options next where
  options := (options_step hstep).trans h.options
  phase := fun hphase =>
    (panicked_iff hstep).1 hphase (withstands_of_neverPanics (h.options ▸ hnever) input)

end BigtableClient.ReadState
