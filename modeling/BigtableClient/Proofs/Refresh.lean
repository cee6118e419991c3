import BigtableClient.Auth

/-!
# Tokens on requests

Which token a request carries, when the token source is asked for another one, and
under which delays and failures a usable token is always at hand.
-/

namespace BigtableClient

open ProofSupport.Clock
open ProofSupport.Transition

/-! ## Metadata -/

namespace MetadataMap

variable (metadata : MetadataMap)

theorem getAll_insert_self (key value : String) :
    (metadata.insert key value).getAll key = [value] := by
  simp [getAll, insert, List.filter_filter]

theorem getAll_insert_of_ne {key other : String} (value : String) (h : other ≠ key) :
    (metadata.insert key value).getAll other = metadata.getAll other := by
  have hfilter : ∀ entry : String × String,
      (decide (entry.1 = other) && decide (entry.1 ≠ key)) = decide (entry.1 = other) := by
    intro entry
    by_cases hentry : entry.1 = other
    · simp [hentry, h]
    · simp [hentry]
  simp only [getAll, insert, List.filter_append, List.filter_filter, hfilter]
  simp [h.symm]

end MetadataMap

/-! ## The current token -/

section Tokens

variable {parse : MetadataParser}

def AccessToken.IsValid (parse : MetadataParser) (token : AccessToken) : Prop :=
  (parse ("Bearer " ++ token.secret)).isSome

instance (token : AccessToken) : Decidable (token.IsValid parse) :=
  inferInstanceAs (Decidable ((parse ("Bearer " ++ token.secret)).isSome = true))

def Accepts (parse : MetadataParser) (answer : Except AuthError AccessToken) : Prop :=
  ∃ token, answer = .ok token ∧ token.IsValid parse

/-- The last usable token that the source answered with. -/
def LastAccepted (parse : MetadataParser) (answers : List (Except AuthError AccessToken))
    (token : AccessToken) : Prop :=
  token.IsValid parse ∧ ∃ before after, answers = before ++ .ok token :: after ∧
    ∀ answer ∈ after, ¬ Accepts parse answer

theorem LastAccepted.concat_rejected {answers : List (Except AuthError AccessToken)}
    {token : AccessToken} {answer : Except AuthError AccessToken}
    (h : LastAccepted parse answers token) (hanswer : ¬ Accepts parse answer) :
    LastAccepted parse (answers ++ [answer]) token := by
  obtain ⟨hvalid, before, after, rfl, hafter⟩ := h
  refine ⟨hvalid, before, after ++ [answer], by simp, ?_⟩
  intro other hother
  rcases List.mem_append.1 hother with hmem | hlast
  · exact hafter other hmem
  · rw [List.mem_singleton.1 hlast]
    exact hanswer

theorem lastAccepted_concat {token : AccessToken} (answers : List (Except AuthError AccessToken))
    (hvalid : token.IsValid parse) : LastAccepted parse (answers ++ [.ok token]) token :=
  ⟨hvalid, answers, [], rfl, by simp⟩

def AccessToken.snapshot (parse : MetadataParser) (token : AccessToken)
    (h : token.IsValid parse) : TokenSnapshot where
  authorization := (parse ("Bearer " ++ token.secret)).get h
  expiresAt := token.expiresAt

theorem tryFrom_of_isValid {token : AccessToken} (h : token.IsValid parse) :
    TokenSnapshot.tryFrom parse token = .ok (token.snapshot parse h) := by
  obtain ⟨authorization, hparse⟩ := Option.isSome_iff_exists.1 h
  simp [TokenSnapshot.tryFrom, AccessToken.snapshot, hparse]

theorem tryFrom_of_not_isValid {token : AccessToken} (h : ¬ token.IsValid parse) :
    TokenSnapshot.tryFrom parse token = .error .invalidAccessToken := by
  have hparse : parse ("Bearer " ++ token.secret) = none := Option.not_isSome_iff_eq_none.1 h
  simp [TokenSnapshot.tryFrom, hparse]

theorem tryFrom_eq_ok {answer : Except AuthError AccessToken} {snapshot : TokenSnapshot} :
    answer.bind (TokenSnapshot.tryFrom parse) = .ok snapshot ↔
      ∃ token, ∃ h : token.IsValid parse, answer = .ok token ∧
        snapshot = token.snapshot parse h := by
  cases answer with
  | error error => simp [Except.bind]
  | ok token =>
      by_cases hvalid : token.IsValid parse
      · have hsome := tryFrom_of_isValid hvalid
        simp only [Except.bind, hsome, Except.ok.injEq]
        constructor
        · rintro rfl
          exact ⟨token, hvalid, rfl, rfl⟩
        · rintro ⟨other, hother, rfl, rfl⟩
          rfl
      · have hnone := tryFrom_of_not_isValid hvalid
        simp only [Except.bind, hnone, reduceCtorEq, false_iff]
        rintro ⟨other, hother, hsame, -⟩
        rw [← Except.ok.inj hsame] at hother
        exact hvalid hother

end Tokens

namespace TokenManager

variable {parse : MetadataParser} {manager next init : TokenManager} {input : RefreshInput}

inductive Step (parse : MetadataParser) (manager : TokenManager) :
    RefreshInput → TokenManager → Prop
  | polled {turn : RefreshTurn} (hphase : manager.phase = .spawned) :
      Step parse manager (.polled turn) (manager.sleepUntilRefresh turn)
  | woke {delay : Duration} (hphase : manager.phase = .sleeping delay) :
      Step parse manager .woke { manager with phase := .fetching }
  | accepted {token : AccessToken} {turn : RefreshTurn} (hphase : manager.phase = .fetching)
      (hvalid : token.IsValid parse) :
      Step parse manager (.fetched (.ok token) turn)
        (sleepUntilRefresh
          { manager with
            answers := manager.answers ++ [.ok token]
            current := token.snapshot parse hvalid }
          turn)
  | rejected {answer : Except AuthError AccessToken} {turn : RefreshTurn}
      (hphase : manager.phase = .fetching) (hanswer : ¬ Accepts parse answer) :
      Step parse manager (.fetched answer turn)
        { manager with answers := manager.answers ++ [answer], phase := .backingOff }
  | rested {turn : RefreshTurn} (hphase : manager.phase = .backingOff) :
      Step parse manager (.rested turn) (manager.sleepUntilRefresh turn)
  | dropped (hphase : manager.phase ≠ .aborted) :
      Step parse manager .dropped { manager with phase := .aborted }

theorem step_receive (manager : TokenManager) (answer : Except AuthError AccessToken)
    (turn : RefreshTurn) (hphase : manager.phase = .fetching) :
    Step parse manager (.fetched answer turn) (manager.receive parse answer turn) := by
  unfold receive
  cases hanswer : answer.bind (TokenSnapshot.tryFrom parse) with
  | ok snapshot =>
      obtain ⟨token, hvalid, rfl, rfl⟩ := tryFrom_eq_ok.1 hanswer
      exact .accepted hphase hvalid
  | error error =>
      refine .rejected hphase ?_
      rintro ⟨token, rfl, hvalid⟩
      rw [tryFrom_eq_ok.2 ⟨token, hvalid, rfl, rfl⟩] at hanswer
      cases hanswer

theorem step_of_step (h : manager.step parse input = some next) :
    Step parse manager input next := by
  unfold step at h
  split at h
  · next turn hphase => exact Option.some.inj h ▸ .polled hphase
  · next delay hphase => exact Option.some.inj h ▸ .woke hphase
  · next answer turn hphase => exact Option.some.inj h ▸ step_receive _ _ _ hphase
  · next turn hphase => exact Option.some.inj h ▸ .rested hphase
  · cases h
  · next hphase => exact Option.some.inj h ▸ .dropped hphase
  · cases h

/-! ## Which token is current -/

/-- The current token is the last usable one that the source answered with. -/
def Current (parse : MetadataParser) (manager : TokenManager) : Prop :=
  ∃ token, ∃ h : token.IsValid parse, LastAccepted parse manager.answers token ∧
    manager.current = token.snapshot parse h

theorem start_eq_ok {answer : Except AuthError AccessToken} (h : start parse answer = .ok init) :
    ∃ token, ∃ hvalid : token.IsValid parse, answer = .ok token ∧
      init =
        { current := token.snapshot parse hvalid, phase := .spawned, answers := [.ok token] } := by
  cases answer with
  | error error => cases h
  | ok token =>
      by_cases hvalid : token.IsValid parse
      · have hsome := tryFrom_of_isValid hvalid
        have hstart : start parse (.ok token) = .ok
            { current := token.snapshot parse hvalid, phase := .spawned,
              answers := [.ok token] } := by
          simp [start, hsome, Bind.bind, Except.bind, Pure.pure, Except.pure]
        rw [hstart] at h
        exact ⟨token, hvalid, rfl, (Except.ok.inj h).symm⟩
      · have hnone := tryFrom_of_not_isValid hvalid
        simp [start, hnone, Bind.bind, Except.bind] at h

theorem current_start {answer : Except AuthError AccessToken} (h : start parse answer = .ok init) :
    init.Current parse := by
  obtain ⟨token, hvalid, -, rfl⟩ := start_eq_ok h
  exact ⟨token, hvalid, lastAccepted_concat [] hvalid, rfl⟩

theorem current_step (h : manager.Current parse) (hstep : manager.step parse input = some next) :
    next.Current parse := by
  obtain ⟨token, hvalid, hlast, hcurrent⟩ := h
  cases step_of_step hstep with
  | polled hphase => exact ⟨token, hvalid, hlast, hcurrent⟩
  | woke hphase => exact ⟨token, hvalid, hlast, hcurrent⟩
  | accepted hphase hother => exact ⟨_, hother, lastAccepted_concat _ hother, rfl⟩
  | rejected hphase hanswer => exact ⟨token, hvalid, hlast.concat_rejected hanswer, hcurrent⟩
  | rested hphase => exact ⟨token, hvalid, hlast, hcurrent⟩
  | dropped hphase => exact ⟨token, hvalid, hlast, hcurrent⟩

end TokenManager

structure Carries (interceptor : AuthInterceptor) (metadata sent : MetadataMap) : Prop where
  apiClient : sent.getAll "x-goog-api-client" = [interceptor.apiClient.text]
  featureFlags : sent.getAll "bigtable-features" = [interceptor.featureFlags.text]
  others : ∀ key, key ≠ "authorization" → key ≠ "x-goog-api-client" → key ≠ "bigtable-features" →
    sent.getAll key = metadata.getAll key

theorem carries_insert (interceptor : AuthInterceptor) {metadata authorized : MetadataMap}
    (h : ∀ key, key ≠ "authorization" → authorized.getAll key = metadata.getAll key) :
    Carries interceptor metadata
      ((authorized.insert "x-goog-api-client" interceptor.apiClient.text).insert
        "bigtable-features" interceptor.featureFlags.text) := by
  constructor
  case apiClient =>
    rw [MetadataMap.getAll_insert_of_ne _ _ (by decide), MetadataMap.getAll_insert_self]
  case featureFlags => exact MetadataMap.getAll_insert_self _ _ _
  case others =>
    intro key hauthorization hclient hflags
    rw [MetadataMap.getAll_insert_of_ne _ _ hflags, MetadataMap.getAll_insert_of_ne _ _ hclient]
    exact h key hauthorization

/-- In every state of the token manager a request goes out with one authorization, that of the
last usable token the source answered with, or it does not go out because that token is over. -/
theorem AuthInterceptor.call_carries_last_token {parse : MetadataParser}
    {answer : Except AuthError AccessToken} {init manager : TokenManager}
    (hparse : parse.KeepsText) (hstart : TokenManager.start parse answer = .ok init)
    (hreach : Reachable (TokenManager.step parse) init manager) (interceptor : AuthInterceptor)
    (htokens : interceptor.tokens = some manager) (now : SystemTime) (metadata : MetadataMap) :
    ∃ token, LastAccepted parse manager.answers token ∧
      (now < token.expiresAt → ∃ sent, interceptor.call now metadata = .ok sent ∧
        sent.getAll "authorization" = ["Bearer " ++ token.secret] ∧
          Carries interceptor metadata sent) ∧
      (token.expiresAt ≤ now →
        interceptor.call now metadata = .error TokenManager.expiredStatus) := by
  obtain ⟨token, hvalid, hlast, hcurrent⟩ := hreach.invariant (TokenManager.Current parse)
    (TokenManager.current_start hstart) fun _ _ _ h hstep => TokenManager.current_step h hstep
  have hexpires : manager.current.expiresAt = token.expiresAt := by
    rw [hcurrent]
    rfl
  refine ⟨token, hlast, ?_, ?_⟩
  · intro hnow
    have hauthorization : manager.authorization now = .ok manager.current.authorization := by
      apply if_neg
      rw [hexpires]
      exact Nat.not_le.2 hnow
    have htext : manager.current.authorization.text = "Bearer " ++ token.secret := by
      rw [hcurrent]
      exact hparse _ _ (Option.some_get hvalid).symm
    have hcarries := carries_insert interceptor fun key hkey =>
      metadata.getAll_insert_of_ne ("Bearer " ++ token.secret) hkey
    refine ⟨_, ?_, ?_, hcarries⟩
    · simp only [call, htokens, hauthorization, ← htext]
      rfl
    · rw [MetadataMap.getAll_insert_of_ne _ _ (by decide),
        MetadataMap.getAll_insert_of_ne _ _ (by decide), MetadataMap.getAll_insert_self]
  · intro hnow
    have hauthorization : manager.authorization now = .error TokenManager.expiredStatus := by
      apply if_pos
      rw [hexpires]
      exact hnow
    simp only [call, htokens, hauthorization]
    rfl

/-! ## When the token source is asked -/

namespace TokenManager

variable {parse : MetadataParser} {manager next init : TokenManager} {input : RefreshInput}

def Asks (manager next : TokenManager) : Prop :=
  manager.phase ≠ .fetching ∧ next.phase = .fetching

def Asleep (manager : TokenManager) : Prop :=
  (∃ delay, manager.phase = .sleeping delay) ∨ manager.phase = .backingOff

theorem aborted_step (h : manager.phase = .aborted) (hstep : manager.step parse input = some next) :
    next.phase = .aborted ∧ ¬ manager.Asks next := by
  cases input <;> simp [step, h] at hstep

theorem asleep_step (h : manager.Asleep) (hwakes : (clocked parse).wakes input ≠ some ())
    (hstep : manager.step parse input = some next) : next.phase = .aborted := by
  cases step_of_step hstep with
  | polled hphase => simp [Asleep, hphase] at h
  | woke hphase => exact absurd rfl hwakes
  | accepted hphase hvalid => simp [Asleep, hphase] at h
  | rejected hphase hanswer => simp [Asleep, hphase] at h
  | rested hphase => exact absurd rfl hwakes
  | dropped hphase => rfl

/-- A manager that sleeps until the bound asks for nothing before it. -/
theorem notBefore_of_asleep {timed : Timed TokenManager Unit} {bound : Nat}
    (hasleep : timed.state.Asleep) (hbound : bound ≤ timed.wakeAt ()) :
    (clocked parse).NotBefore Asks bound timed := by
  refine ClockedMachine.notBefore_of_rests Asleep (fun manager => manager.phase = .aborted) ()
    (fun _ _ _ h hstep => aborted_step h hstep) ?_ (Or.inr (Or.inl ⟨hasleep, hbound⟩))
  intro manager input next h hwakes hstep
  have hover := asleep_step h hwakes hstep
  refine ⟨?_, Or.inl hover⟩
  rintro ⟨-, hasks⟩
  rw [hover] at hasks
  cases hasks

theorem durationSince_getD (time earlier : SystemTime) :
    (SystemTime.durationSince time earlier).getD 0 = time - earlier := by
  unfold SystemTime.durationSince
  by_cases hle : earlier ≤ time
  · rw [if_pos hle, Option.getD_some]
  · rw [if_neg hle, Option.getD_none, Nat.sub_eq_zero_of_le (Nat.le_of_not_le hle)]

theorem sleepUntilRefresh_phase (manager : TokenManager) {turn : RefreshTurn} {now : SystemTime}
    (hfallback : turn.fallback = now) (hnow : turn.now = now) :
    (manager.sleepUntilRefresh turn).phase =
      .sleeping (manager.current.expiresAt - refreshMargin - now) := by
  refine congrArg RefreshPhase.sleeping ?_
  rw [durationSince_getD, hfallback, hnow, SystemTime.checkedSub]
  by_cases hmargin : refreshMargin ≤ manager.current.expiresAt
  · rw [if_pos hmargin, Option.getD_some]
  · rw [if_neg hmargin, Option.getD_none, Nat.sub_self,
      Nat.sub_eq_zero_of_le (Nat.le_of_not_le hmargin), Nat.zero_sub]

/-- A manager that went to the top of the loop is woken when its token is nearly over. -/
theorem sleeps_of_sleeping {manager : TokenManager} {delay : Nat}
    (h : manager.phase = .sleeping delay) :
    (clocked parse).sleeps input manager = some ((), delay) := by
  unfold clocked
  simp only [h]

theorem sleeps_of_backingOff {manager : TokenManager} (h : manager.phase = .backingOff) :
    (clocked parse).sleeps input manager = some ((), refreshRetryDelay) := by
  unfold clocked
  simp only [h]

theorem wakeAt_of_sleepUntilRefresh {timed timed' : Timed TokenManager Unit} {now : Nat}
    {manager : TokenManager} {turn : RefreshTurn}
    (hticks : (clocked parse).Ticks timed now input timed') (hfallback : turn.fallback = now)
    (hnow : turn.now = now)
    (hstate : timed'.state = manager.sleepUntilRefresh turn) :
    timed'.wakeAt () = now + (manager.current.expiresAt - refreshMargin - now) := by
  apply hticks.asleep ()
  apply sleeps_of_sleeping
  rw [hstate, sleepUntilRefresh_phase manager hfallback hnow]

theorem turn_of_reads {turn : RefreshTurn} {now : Nat}
    (h : decide (turn.fallback = now ∧ turn.now = now) = true) :
    turn.fallback = now ∧ turn.now = now :=
  of_decide_eq_true h

/-- A task that is past its sleep has a token that is nearly over. -/
def PaceInv (timed : Timed TokenManager Unit) : Prop :=
  match timed.state.phase with
  | .sleeping _ => timed.state.current.expiresAt ≤ timed.wakeAt () + refreshMargin
  | .fetching => timed.state.current.expiresAt ≤ timed.now + refreshMargin
  | .backingOff => timed.state.current.expiresAt ≤ timed.now + refreshMargin
  | _ => True

theorem paceInv_of_sleepUntilRefresh {timed timed' : Timed TokenManager Unit} {now : Nat}
    {manager : TokenManager} {turn : RefreshTurn}
    (hticks : (clocked parse).Ticks timed now input timed') (hfallback : turn.fallback = now)
    (hnow : turn.now = now)
    (hstate : timed'.state = manager.sleepUntilRefresh turn) : PaceInv timed' := by
  have hwake := wakeAt_of_sleepUntilRefresh hticks hfallback hnow hstate
  unfold PaceInv
  rw [hstate, sleepUntilRefresh_phase manager hfallback hnow]
  have harith : ∀ expires margin now : Nat, expires ≤ now + (expires - margin - now) + margin := by
    intro expires margin now
    omega
  show manager.current.expiresAt ≤ timed'.wakeAt () + refreshMargin
  rw [hwake]
  exact harith _ _ _

theorem paceInv_tick {timed timed' : Timed TokenManager Unit} {now : Nat} (h : PaceInv timed)
    (htick : (clocked parse).tick timed (now, input) = some timed') : PaceInv timed' := by
  have hticks := ClockedMachine.ticks_of_tick htick
  have hnow := hticks.now_le
  have hstep := step_of_step hticks.step
  have hreads := hticks.reads
  generalize hstate : timed'.state = manager' at hstep
  cases hstep with
  | polled hphase =>
      obtain ⟨hfallback, hturn⟩ := turn_of_reads hreads
      exact paceInv_of_sleepUntilRefresh hticks hfallback hturn hstate
  | woke hphase =>
      have hwakes := hticks.wakes () rfl
      unfold PaceInv at h ⊢
      rw [hphase] at h
      rw [hstate, hticks.now_eq]
      exact Nat.le_trans h (Nat.add_le_add_right hwakes _)
  | accepted hphase hvalid =>
      obtain ⟨hfallback, hturn⟩ := turn_of_reads hreads
      exact paceInv_of_sleepUntilRefresh hticks hfallback hturn hstate
  | rejected hphase hanswer =>
      unfold PaceInv at h ⊢
      rw [hphase] at h
      rw [hstate, hticks.now_eq]
      exact Nat.le_trans h (Nat.add_le_add_right hnow _)
  | rested hphase =>
      obtain ⟨hfallback, hturn⟩ := turn_of_reads hreads
      exact paceInv_of_sleepUntilRefresh hticks hfallback hturn hstate
  | dropped hphase =>
      unfold PaceInv
      rw [hstate]
      trivial

/-- The token source is asked only when the current token has at most the margin left, and not
again before the retry delay is over when it failed or its token could not be used. -/
theorem refresh_pacing {answer : Except AuthError AccessToken} {now : Nat}
    {timed next : Timed TokenManager Unit} {instant : Nat} (hstart : start parse answer = .ok init)
    (hreach : Reachable (clocked parse).tick (.start init now) timed)
    (htick : (clocked parse).tick timed (instant, input) = some next) :
    (timed.state.Asks next.state → timed.state.current.expiresAt ≤ instant + refreshMargin) ∧
      ∀ answer turn, input = .fetched answer turn → ¬ Accepts parse answer →
        (clocked parse).NotBefore Asks (instant + refreshRetryDelay) next := by
  have hticks := ClockedMachine.ticks_of_tick htick
  have hinit : PaceInv (.start init now) := by
    obtain ⟨token, hvalid, -, rfl⟩ := start_eq_ok hstart
    trivial
  have hpace := hreach.invariant PaceInv hinit fun _ _ _ h hnext => paceInv_tick h hnext
  have hstep := step_of_step hticks.step
  constructor
  · rintro ⟨hnot, hasks⟩
    generalize hstate : next.state = manager' at hstep
    rw [hstate] at hasks
    cases hstep with
    | woke hphase =>
        have hwakes := hticks.wakes () rfl
        unfold PaceInv at hpace
        rw [hphase] at hpace
        exact Nat.le_trans hpace (Nat.add_le_add_right hwakes _)
    | polled hphase => cases hasks
    | accepted hphase hvalid => cases hasks
    | rejected hphase hanswer => cases hasks
    | rested hphase => cases hasks
    | dropped hphase => cases hasks
  · rintro answer turn rfl hrejected
    generalize hstate : next.state = manager' at hstep
    cases hstep with
    | accepted hphase hvalid => exact absurd ⟨_, rfl, hvalid⟩ hrejected
    | rejected hphase hanswer =>
        have hbacking : next.state.phase = .backingOff := by rw [hstate]
        apply notBefore_of_asleep (Or.inr hbacking)
        apply Nat.le_of_eq
        exact (hticks.asleep () _ (sleeps_of_backingOff hbacking)).symm

/-! ## A token in time -/

/-- How late a timer fires and how long the token source takes at most, in nanoseconds, and how
often in a row the source may fail. -/
structure Patience where
  lag : Nat
  latency : Nat
  failures : Nat

def Patience.cycle (patience : Patience) : Nat :=
  2 * patience.lag + patience.latency + refreshRetryDelay

/-- The margin makes up for the delays and the failures. -/
def Patience.Suffices (patience : Patience) : Prop :=
  2 * patience.lag + patience.latency + patience.failures * patience.cycle < refreshMargin

instance (patience : Patience) : Decidable patience.Suffices :=
  inferInstanceAs (Decidable (_ < _))

instance (answer : Except AuthError AccessToken) : Decidable (Accepts parse answer) :=
  match answer with
  | .error _ => .isFalse (by rintro ⟨token, h, -⟩; cases h)
  | .ok token =>
      decidable_of_iff (token.IsValid parse)
        ⟨fun h => ⟨token, rfl, h⟩, by rintro ⟨other, h, hvalid⟩; cases h; exact hvalid⟩

def recentFailures (parse : MetadataParser) (answers : List (Except AuthError AccessToken)) :
    Nat :=
  (answers.reverse.takeWhile fun answer => ¬ Accepts parse answer).length

def due (patience : Patience) (timed : Timed TokenManager Unit) : Nat :=
  match timed.state.phase with
  | .spawned => timed.now + patience.lag
  | .sleeping _ => timed.wakeAt () + patience.lag
  | .fetching => timed.now + patience.latency
  | .backingOff => timed.wakeAt () + patience.lag
  | .aborted => timed.now

structure InTime (parse : MetadataParser) (patience : Patience) (timed : Timed TokenManager Unit)
    (input : Nat × RefreshInput) : Prop where
  due : input.1 ≤ due patience timed
  life : ∀ token turn, input.2 = .fetched (.ok token) turn → token.IsValid parse →
    input.1 + refreshMargin ≤ token.expiresAt
  failures : ∀ answer turn, input.2 = .fetched answer turn → ¬ Accepts parse answer →
    recentFailures parse timed.state.answers < patience.failures

/-- What the failures that may still come would cost. -/
def spare (parse : MetadataParser) (patience : Patience) (manager : TokenManager) : Nat :=
  (patience.failures - recentFailures parse manager.answers) * patience.cycle

/-- The current token outlasts all that may still go wrong. -/
def Fresh (parse : MetadataParser) (patience : Patience) (timed : Timed TokenManager Unit) :
    Prop :=
  match timed.state.phase with
  | .aborted => True
  | .spawned => timed.now + refreshMargin ≤ timed.state.current.expiresAt
  | .sleeping _ => timed.wakeAt () + (patience.lag + patience.latency) +
      spare parse patience timed.state < timed.state.current.expiresAt
  | .fetching => timed.now + patience.latency + spare parse patience timed.state <
      timed.state.current.expiresAt
  | .backingOff => timed.wakeAt () + (2 * patience.lag + patience.latency) +
      spare parse patience timed.state < timed.state.current.expiresAt

theorem spare_le (parse : MetadataParser) (patience : Patience) (manager : TokenManager) :
    spare parse patience manager ≤ patience.failures * patience.cycle :=
  Nat.mul_le_mul_right _ (Nat.sub_le _ _)

theorem recentFailures_rejected (answers : List (Except AuthError AccessToken))
    {answer : Except AuthError AccessToken} (h : ¬ Accepts parse answer) :
    recentFailures parse (answers ++ [answer]) = recentFailures parse answers + 1 := by
  simp [recentFailures, h]

theorem spare_lt_margin (parse : MetadataParser) {patience : Patience} (h : patience.Suffices)
    (manager : TokenManager) :
    2 * patience.lag + patience.latency + spare parse patience manager < refreshMargin := by
  have hspare := spare_le parse patience manager
  unfold Patience.Suffices at h
  exact Nat.lt_of_le_of_lt (Nat.add_le_add_left hspare _) h

/-- A failure costs one cycle. -/
theorem spare_rejected {patience : Patience} {manager : TokenManager}
    {answer : Except AuthError AccessToken} (hanswer : ¬ Accepts parse answer)
    (hmore : recentFailures parse manager.answers < patience.failures) :
    spare parse patience
        { manager with answers := manager.answers ++ [answer], phase := .backingOff } +
      patience.cycle = spare parse patience manager := by
  unfold spare
  rw [recentFailures_rejected _ hanswer, ← Nat.succ_mul]
  congr 1
  omega

/-- At the top of the loop there is time for one more cycle. -/
theorem fresh_of_sleepUntilRefresh {patience : Patience} {timed timed' : Timed TokenManager Unit}
    {now : Nat} {manager : TokenManager} {turn : RefreshTurn} (hsuffices : patience.Suffices)
    (hticks : (clocked parse).Ticks timed now input timed') (hfallback : turn.fallback = now)
    (hnow : turn.now = now) (hstate : timed'.state = manager.sleepUntilRefresh turn)
    (hfresh : now + (patience.lag + patience.latency + spare parse patience manager) <
      manager.current.expiresAt) : Fresh parse patience timed' := by
  have hwake := wakeAt_of_sleepUntilRefresh hticks hfallback hnow hstate
  have hmargin := spare_lt_margin parse hsuffices manager
  have harith : ∀ now expires margin cost : Nat, cost < margin → now + cost < expires →
      now + (expires - margin - now) + cost < expires := by
    intro now expires margin cost hcost hexpires
    omega
  unfold Fresh
  rw [hstate, sleepUntilRefresh_phase manager hfallback hnow]
  show timed'.wakeAt () + (patience.lag + patience.latency) + spare parse patience manager <
    manager.current.expiresAt
  rw [hwake, Nat.add_assoc]
  apply harith _ _ _ _ _ hfresh
  omega

theorem fresh_tick {patience : Patience} {timed timed' : Timed TokenManager Unit} {now : Nat}
    (hsuffices : patience.Suffices) (h : Fresh parse patience timed)
    (hok : InTime parse patience timed (now, input))
    (htick : (clocked parse).tick timed (now, input) = some timed') :
    Fresh parse patience timed' := by
  have hticks := ClockedMachine.ticks_of_tick htick
  have hstep := step_of_step hticks.step
  have hreads := hticks.reads
  have hmargin := spare_lt_margin parse hsuffices timed.state
  obtain ⟨hdue, hlife, hfailures⟩ := hok
  unfold due at hdue
  unfold Fresh at h
  generalize hstate : timed'.state = manager' at hstep
  cases hstep with
  | polled hphase =>
      obtain ⟨hfallback, hturn⟩ := turn_of_reads hreads
      rw [hphase] at h hdue
      apply fresh_of_sleepUntilRefresh hsuffices hticks hfallback hturn hstate
      simp only at h hdue
      omega
  | woke hphase =>
      rw [hphase] at h hdue
      unfold Fresh
      rw [hstate, hticks.now_eq]
      show now + patience.latency + spare parse patience timed.state < timed.state.current.expiresAt
      simp only at hdue h
      omega
  | accepted hphase hvalid =>
      obtain ⟨hfallback, hturn⟩ := turn_of_reads hreads
      rename_i token turn
      apply fresh_of_sleepUntilRefresh hsuffices hticks hfallback hturn hstate
      have hmargin' := spare_lt_margin parse hsuffices
        { current := token.snapshot parse hvalid
          phase := timed.state.phase
          answers := timed.state.answers ++ [.ok token] }
      refine Nat.lt_of_lt_of_le ?_ (hlife token turn rfl hvalid)
      omega
  | rejected hphase hrejected =>
      rw [hphase] at h hdue
      have hcycle := spare_rejected hrejected (hfailures _ _ rfl hrejected)
      have hwake : timed'.wakeAt () = now + refreshRetryDelay := by
        apply hticks.asleep ()
        apply sleeps_of_backingOff
        rw [hstate]
      unfold Fresh
      rw [hstate]
      simp only at hdue h ⊢
      unfold Patience.cycle at hcycle
      omega
  | rested hphase =>
      obtain ⟨hfallback, hturn⟩ := turn_of_reads hreads
      rw [hphase] at h hdue
      apply fresh_of_sleepUntilRefresh hsuffices hticks hfallback hturn hstate
      simp only at hdue h
      omega
  | dropped hphase =>
      unfold Fresh
      rw [hstate]
      trivial

/-- Until the next input is due, the current token is not over. -/
theorem Fresh.lt_expiresAt {patience : Patience} {timed : Timed TokenManager Unit} {instant : Nat}
    (hsuffices : patience.Suffices) (h : Fresh parse patience timed)
    (halive : timed.state.phase ≠ .aborted) (hinstant : instant ≤ due patience timed) :
    instant < timed.state.current.expiresAt := by
  have hmargin := spare_lt_margin parse hsuffices timed.state
  unfold Fresh at h
  unfold due at hinstant
  cases hphase : timed.state.phase with
  | spawned =>
      rw [hphase] at h hinstant
      simp only at h hinstant
      omega
  | sleeping delay =>
      rw [hphase] at h hinstant
      simp only at h hinstant
      omega
  | fetching =>
      rw [hphase] at h hinstant
      simp only at h hinstant
      omega
  | backingOff =>
      rw [hphase] at h hinstant
      simp only at h hinstant
      omega
  | aborted => exact absurd hphase halive

/-- A usable token is always at hand: while timers and the token source are not too slow, the
source does not fail too often in a row, and its tokens are good for the margin at least, no
request is ever turned away for want of a token. -/
theorem refresh_in_time {patience : Patience} {token : AccessToken} {now instant : Nat}
    {timed : Timed TokenManager Unit} (hsuffices : patience.Suffices)
    (hstart : start parse (.ok token) = .ok init) (hlife : now + refreshMargin ≤ token.expiresAt)
    (hreach : ReachableBy (clocked parse).tick (InTime parse patience) (.start init now) timed)
    (halive : timed.state.phase ≠ .aborted) (hinstant : instant ≤ due patience timed) :
    timed.state.authorization instant = .ok timed.state.current.authorization := by
  have hinit : Fresh parse patience (.start init now) := by
    obtain ⟨other, hvalid, hsame, rfl⟩ := start_eq_ok hstart
    obtain rfl := Except.ok.inj hsame
    exact hlife
  have hfresh := hreach.invariant (Fresh parse patience) hinit
    fun _ _ _ h hok htick => fresh_tick hsuffices h hok htick
  apply if_neg
  exact Nat.not_le.2 (hfresh.lt_expiresAt hsuffices halive hinstant)

end TokenManager

/-! ### A failed refresh

A token is good for a minute, and the token source fails when it is asked for the next one. -/

def minuteToken : AccessToken where
  secret := "first"
  expiresAt := 60 * 1000000000

def plainHeader (text : String) : Option MetadataValue := some { text := text }

theorem keepsText_plainHeader : MetadataParser.KeepsText plainHeader := by
  rintro text value h
  obtain rfl := Option.some.inj h
  rfl

theorem isValid_minuteToken : minuteToken.IsValid plainHeader := rfl

def minuteManager : TokenManager where
  current := minuteToken.snapshot plainHeader isValid_minuteToken
  phase := .spawned
  answers := [.ok minuteToken]

def turnNow (now : Nat) : RefreshTurn where
  fallback := now
  now := now

def failedRefresh : List (Nat × RefreshInput) :=
  [(0, .polled (turnNow 0)), (45 * 1000000000, .woke),
    (46 * 1000000000, .fetched (.error .authentication) (turnNow (46 * 1000000000)))]

def sampleInterceptor (manager : TokenManager) : AuthInterceptor where
  tokens := some manager
  apiClient := { text := "gl-rust/1.88 gccl/0.1.0" }
  featureFlags := { text := "CAE" }

theorem AuthInterceptor.call_carries_last_token_failedRefresh :
    ∃ manager : TokenManager, manager.phase = .backingOff ∧
      ∃ token, LastAccepted plainHeader manager.answers token ∧
        (0 < token.expiresAt → ∃ sent, (sampleInterceptor manager).call 0 [] = .ok sent ∧
          sent.getAll "authorization" = ["Bearer " ++ token.secret] ∧
            Carries (sampleInterceptor manager) [] sent) ∧
        (token.expiresAt ≤ 0 →
          (sampleInterceptor manager).call 0 [] = .error TokenManager.expiredStatus) := by
  have hrun : ∃ manager, run (TokenManager.step plainHeader) minuteManager
      (failedRefresh.map Prod.snd) = some manager ∧ manager.phase = .backingOff :=
    ⟨_, rfl, rfl⟩
  obtain ⟨manager, hrun, hphase⟩ := hrun
  have hstart : TokenManager.start plainHeader (.ok minuteToken) = .ok minuteManager := rfl
  exact ⟨manager, hphase, AuthInterceptor.call_carries_last_token keepsText_plainHeader hstart
    ⟨_, hrun⟩ (sampleInterceptor manager) rfl 0 []⟩

theorem TokenManager.refresh_pacing_failedRefresh :
    ∃ timed : Timed TokenManager Unit, timed.now = 46 * 1000000000 ∧
      (clocked plainHeader).NotBefore Asks (46 * 1000000000 + refreshRetryDelay) timed := by
  have hrun : ∃ timed, run (clocked plainHeader).tick (.start minuteManager 0)
      (failedRefresh.take 2) = some timed ∧ ∃ next, (clocked plainHeader).tick timed
          (46 * 1000000000, .fetched (.error .authentication) (turnNow (46 * 1000000000))) =
            some next ∧ next.now = 46 * 1000000000 :=
    ⟨_, rfl, _, rfl, rfl⟩
  obtain ⟨timed, hrun, next, htick, hnow⟩ := hrun
  have hstart : TokenManager.start plainHeader (.ok minuteToken) = .ok minuteManager := rfl
  refine ⟨next, hnow, (TokenManager.refresh_pacing hstart ⟨_, hrun⟩ htick).2 _ _ rfl ?_⟩
  rintro ⟨token, htoken, -⟩
  cases htoken

def samplePatience : TokenManager.Patience where
  lag := 1000000000
  latency := 1000000000
  failures := 1

theorem TokenManager.inTime_failed {timed : Timed TokenManager Unit} {now : Nat}
    {turn : RefreshTurn} (hdue : now ≤ due samplePatience timed)
    (hanswers : timed.state.answers = [.ok minuteToken]) :
    InTime plainHeader samplePatience timed (now, .fetched (.error .authentication) turn) := by
  refine ⟨hdue, ?_, ?_⟩
  · intro token turn hinput
    cases hinput
  · intro answer turn hinput hanswer
    rw [hanswers]
    decide

theorem TokenManager.inTime_of_ne_fetched {timed : Timed TokenManager Unit} {now : Nat}
    {input : RefreshInput} (hdue : now ≤ due samplePatience timed)
    (hinput : ∀ answer turn, input ≠ .fetched answer turn) :
    InTime plainHeader samplePatience timed (now, input) :=
  ⟨hdue, fun _ _ h => absurd h (hinput _ _), fun _ _ h => absurd h (hinput _ _)⟩

theorem TokenManager.refresh_in_time_failedRefresh :
    ∃ timed : Timed TokenManager Unit, timed.state.phase = .backingOff ∧
      timed.state.authorization (52 * 1000000000) = .ok timed.state.current.authorization := by
  have hrun : ∃ first second third,
      (clocked plainHeader).tick (.start minuteManager 0) (0, .polled (turnNow 0)) = some first ∧
      (clocked plainHeader).tick first (45 * 1000000000, .woke) = some second ∧
      (clocked plainHeader).tick second (46 * 1000000000,
        .fetched (.error .authentication) (turnNow (46 * 1000000000))) = some third ∧
      45 * 1000000000 ≤ due samplePatience first ∧
      46 * 1000000000 ≤ due samplePatience second ∧
      52 * 1000000000 ≤ due samplePatience third ∧
      second.state.answers = [.ok minuteToken] ∧ third.state.phase = .backingOff :=
    ⟨_, _, _, rfl, rfl, rfl, by decide, by decide, by decide, rfl, rfl⟩
  obtain ⟨first, second, third, h1, h2, h3, hdue1, hdue2, hdue3, hanswers, hphase⟩ := hrun
  have hreach := ReachableBy.step (ReachableBy.step (ReachableBy.step .start
    (inTime_of_ne_fetched (by decide) (by simp)) h1) (inTime_of_ne_fetched hdue1 (by simp)) h2)
    (inTime_failed hdue2 hanswers) h3
  have hstart : TokenManager.start plainHeader (.ok minuteToken) = .ok minuteManager := rfl
  exact ⟨third, hphase, TokenManager.refresh_in_time (by decide) hstart (by decide) hreach
    (by rw [hphase]; nofun) hdue3⟩

end BigtableClient
