import BigtableClient.Diagnostics
import BigtableClient.Proofs.AttemptCode
import BigtableClient.Proofs.BatchTrace

/-!
# What the events of a batch report

Every number in the events of a batch can be read off the records of its attempts, and
every attempt that is over, and every retry, has its event.
-/

namespace BigtableClient

variable {codec : Codec}

theorem length_filter_add_le {α : Type*} {p q : α → Bool} {xs : List α}
    (h : ∀ x ∈ xs, p x → q x = false) :
    (xs.filter p).length + (xs.filter q).length ≤ xs.length := by
  induction xs with
  | nil => simp
  | cons x xs ih =>
      have htail := ih fun y hy => h y (List.mem_cons_of_mem _ hy)
      have hhead := h x List.mem_cons_self
      simp only [List.filter_cons, List.length_cons]
      cases hp : p x with
      | true =>
          simp only [hhead hp, if_true, Bool.false_eq_true, if_false, List.length_cons]
          omega
      | false =>
          have hle : (if q x then x :: xs.filter q else xs.filter q).length ≤
              (xs.filter q).length + 1 := by
            split_ifs <;> simp
          simp only [Bool.false_eq_true, if_false]
          omega

namespace BatchOperation

variable {initial : BatchOperation} {attempt : WriteAttempt} {index : Nat}

def isSafe (initial : BatchOperation) (index : Nat) : Bool :=
  initial.pending.any fun entry => entry.originalIndex = index ∧ entry.retrySafe

def resent (initial : BatchOperation) (attempt : WriteAttempt) : List Nat :=
  attempt.indexes.filter fun index => attempt.asksAgain index ∧ initial.isSafe index

theorem mem_resent : index ∈ initial.resent attempt ↔
    attempt.Resends index ∧ initial.isSafe index := by
  rw [resent, List.mem_filter, decide_eq_true_eq, WriteAttempt.resends_iff, and_assoc]

theorem length_resent_add_le (initial : BatchOperation) (attempt : WriteAttempt) :
    (initial.resent attempt).length + attempt.confirmed.length ≤ attempt.indexes.length := by
  apply length_filter_add_le
  intro index hindex hresent
  have hresends : attempt.Resends index :=
    WriteAttempt.resends_iff.2 ⟨hindex, (of_decide_eq_true hresent).1⟩
  by_contra hconfirmed
  rw [Bool.not_eq_false] at hconfirmed
  have hmem : index ∈ attempt.confirmed := List.mem_filter.2 ⟨hindex, hconfirmed⟩
  exact hresends.not_confirms (WriteAttempt.mem_confirmed.1 hmem)

end BatchOperation

/-! ## The outcome of an attempt -/

theorem Settles.successful {maxAttempts : Nat} {attempt : WriteAttempt}
    {current : List PendingEntry} {outcome : AttemptOutcome}
    (h : Settles maxAttempts attempt current outcome)
    (hindexes : attempt.indexes = current.map PendingEntry.originalIndex) :
    outcome.successful = attempt.confirmed.length ∧
      outcome.successful + (outcome.failures.length + outcome.retry.length) =
        attempt.indexes.length := by
  obtain ⟨succeeded, hlength, hconfirms, hperm⟩ := h.accounted
  rw [← hindexes] at hperm
  constructor
  · -- Of the three parts of the request only the last one is confirmed.
    let isConfirmed : Nat → Bool := fun index =>
      attempt.Sound ∧ (attempt.resultOf index).any fun result => resultCode result = 0
    have hnone : ∀ indexes : List Nat, indexes ⊆ attempt.indexes →
        (∀ index ∈ indexes, ¬ attempt.Confirms index) → indexes.filter isConfirmed = [] := by
      intro indexes hsub hnot
      refine List.filter_eq_nil_iff.2 fun index hindex hconfirmed => hnot index hindex ?_
      exact WriteAttempt.mem_confirmed.1 (List.mem_filter.2 ⟨hsub hindex, hconfirmed⟩)
    have hretry := hnone (outcome.retry.map PendingEntry.originalIndex)
      (fun index hindex => hperm.subset (List.mem_append_left _ hindex)) (by
        intro index hindex
        obtain ⟨entry, hentry, rfl⟩ := List.mem_map.1 hindex
        exact (h.retried entry hentry).2.2.not_confirms)
    have hfailures := hnone (outcome.failures.map MutationFailure.index)
      (fun index hindex => hperm.subset
        (List.mem_append_right _ (List.mem_append_left _ hindex))) (by
        intro index hindex
        obtain ⟨failure, hfailure, rfl⟩ := List.mem_map.1 hindex
        obtain ⟨_, -, -, -, hnot⟩ := h.failed failure hfailure
        exact hnot)
    have hsucceeded : succeeded.filter isConfirmed = succeeded := by
      apply List.filter_eq_self.2
      intro index hindex
      exact (List.mem_filter.1 (WriteAttempt.mem_confirmed.2 (hconfirms index hindex))).2
    have hfiltered := (hperm.filter isConfirmed).length_eq
    rw [List.filter_append, List.filter_append, hretry, hfailures, hsucceeded, List.nil_append,
      List.nil_append, hlength] at hfiltered
    exact hfiltered
  · have hall := hperm.length_eq
    rw [List.length_append, List.length_append, List.length_map, List.length_map, hlength] at hall
    omega

theorem Summarises.map_retry_of_lt {maxAttempts count : Nat} {attempt : WriteAttempt}
    {initial : BatchOperation} {current : List PendingEntry} {outcome : AttemptOutcome}
    (h : Summarises codec maxAttempts attempt current outcome)
    (hindexes : attempt.indexes = current.map PendingEntry.originalIndex)
    (hlt : count < maxAttempts) (hcount : ∀ entry ∈ current, entry.attempts = count)
    (hsafe : ∀ entry ∈ current, entry.retrySafe = initial.isSafe entry.originalIndex) :
    outcome.retry.map PendingEntry.originalIndex = initial.resent attempt := by
  rw [BatchOperation.resent, hindexes, List.filter_map, h.retry]
  refine congrArg (List.map PendingEntry.originalIndex) (List.filter_congr fun entry hentry => ?_)
  simp only [Function.comp_apply, hcount entry hentry, hlt, hsafe entry hentry, true_and]
  rw [decide_eq_decide]
  exact and_comm

/-- When something is sent again, no entry has used up its attempts. -/
theorem Summarises.map_retry {maxAttempts count : Nat} {attempt : WriteAttempt}
    {initial : BatchOperation} {current : List PendingEntry} {outcome : AttemptOutcome}
    (h : Summarises codec maxAttempts attempt current outcome)
    (hindexes : attempt.indexes = current.map PendingEntry.originalIndex)
    (hne : outcome.retry ≠ []) (hcount : ∀ entry ∈ current, entry.attempts = count)
    (hsafe : ∀ entry ∈ current, entry.retrySafe = initial.isSafe entry.originalIndex) :
    outcome.retry.map PendingEntry.originalIndex = initial.resent attempt := by
  refine h.map_retry_of_lt hindexes ?_ hcount hsafe
  obtain ⟨entry, hentry⟩ := List.exists_mem_of_ne_nil _ hne
  rw [h.retry] at hentry
  obtain ⟨hcurrent, hretry⟩ := List.mem_filter.1 hentry
  have hlt := (of_decide_eq_true hretry).2.1
  rwa [hcount entry hcurrent] at hlt

theorem Books.retrySafe_of_live {initial operation : BatchOperation}
    {attempts : List WriteAttempt} {live : List PendingEntry} {entry : PendingEntry}
    (h : Books initial operation attempts live) (hentry : entry ∈ live) :
    entry.retrySafe = initial.isSafe entry.originalIndex := by
  obtain ⟨entries, hsublist, rfl⟩ := h.live_eq
  obtain ⟨_, -, -, hledger⟩ := h.ledger
  obtain ⟨original, horiginal, rfl⟩ := List.mem_map.1 hentry
  have hmem := hsublist.subset horiginal
  show original.retrySafe = initial.isSafe original.originalIndex
  rw [Bool.eq_iff_iff, BatchOperation.isSafe, List.any_eq_true]
  constructor
  · exact fun hsafe => ⟨original, hmem, decide_eq_true ⟨rfl, hsafe⟩⟩
  · rintro ⟨other, hother, hsafe⟩
    obtain ⟨hindex, hsafe⟩ := of_decide_eq_true hsafe
    rwa [← List.inj_on_of_nodup_map hledger.nodup hother hmem hindex]

/-! ## Events -/

def DiagnosticEvent.lane? (event : DiagnosticEvent) : Option (Option Nat) :=
  event.mark?.map Prod.fst

namespace BatchRun

open ProofSupport.Brackets

variable {initial : BatchOperation} {run run' : BatchRun} {shared shared' : OperationState}
  {input : BatchInput} {events new : List DiagnosticEvent}

def sent (run : BatchRun) : List (List Nat) := run.attempts.map WriteAttempt.indexes

/-- What an event says about an attempt is what the record of the attempt says. -/
def Explains (initial : BatchOperation) (run : BatchRun) : DiagnosticEvent → Prop
  | .attemptStarted _ _ number entries _ => ∃ position indexes, number = position + 1 ∧
      run.sent[position]? = some indexes ∧ entries = indexes.length
  | .attemptFinished _ _ number code _ successfulEntries failedEntries =>
      ∃ position attempt, number = position + 1 ∧ run.past[position]? = some attempt ∧
        code = attempt.reportedCode ∧ successfulEntries = attempt.confirmed.length ∧
        successfulEntries + failedEntries = attempt.indexes.length
  | .retryScheduled _ _ number code _ pendingEntries =>
      ∃ position attempt, number = position + 1 ∧ run.past[position]? = some attempt ∧
        code = attempt.reportedCode ∧ initial.resent attempt ≠ [] ∧
        pendingEntries = (initial.resent attempt).length
  | _ => True

def Announced (run : BatchRun) (events : List DiagnosticEvent) (number : Nat) : Prop :=
  ∃ operation code delay pendingEntries,
    .retryScheduled operation run.lane number code delay pendingEntries ∈ events

structure Reported (initial : BatchOperation) (run : BatchRun) (events : List DiagnosticEvent) :
    Prop where
  nonempty : ∀ indexes ∈ run.sent, indexes ≠ []
  explained : ∀ event ∈ events, event.lane? = some run.lane → run.Explains initial event
  finished : ∀ position < run.past.length, ∃ operation code rows successfulEntries failedEntries,
    .attemptFinished operation run.lane (position + 1) code rows successfulEntries failedEntries ∈
      events
  announced : ∀ position, position + 1 < run.sent.length → run.Announced events (position + 1)
  resumed : ∀ position attempt indexes, run.past[position]? = some attempt →
    run.sent[position + 1]? = some indexes → indexes = initial.resent attempt
  resting : run.phase.isResting → ∀ attempt ∈ run.past.getLast?,
    run.operation.pending.map PendingEntry.originalIndex = initial.resent attempt ∧
      run.Announced events run.past.length

theorem explains_of_extends (hpast : run.past <+: run'.past) (hsent : run.sent <+: run'.sent)
    {event : DiagnosticEvent} (h : run.Explains initial event) : run'.Explains initial event := by
  have hget : ∀ {α : Type} {xs ys : List α} {position : Nat} {x : α}, xs <+: ys →
      xs[position]? = some x → ys[position]? = some x := by
    rintro α xs ys position x ⟨tail, rfl⟩ hx
    rw [List.getElem?_append_left (List.getElem?_eq_some_iff.1 hx).1]
    exact hx
  cases event with
  | attemptStarted operation batch number entries timeout =>
      obtain ⟨position, indexes, hnumber, hindexes, hentries⟩ := h
      exact ⟨position, indexes, hnumber, hget hsent hindexes, hentries⟩
  | attemptFinished operation batch number code rows successfulEntries failedEntries =>
      obtain ⟨position, attempt, hnumber, hattempt, hrest⟩ := h
      exact ⟨position, attempt, hnumber, hget hpast hattempt, hrest⟩
  | retryScheduled operation batch number code delay pendingEntries =>
      obtain ⟨position, attempt, hnumber, hattempt, hrest⟩ := h
      exact ⟨position, attempt, hnumber, hget hpast hattempt, hrest⟩
  | _ => trivial

theorem explained_append (h : Reported initial run events) (hlane : run'.lane = run.lane)
    (hpast : run.past <+: run'.past) (hsent : run.sent <+: run'.sent)
    (hnew : ∀ event ∈ new, run'.Explains initial event) :
    ∀ event ∈ events ++ new, event.lane? = some run'.lane → run'.Explains initial event := by
  intro event hevent hin
  rcases List.mem_append.1 hevent with hevent | hevent
  · exact explains_of_extends hpast hsent (h.explained event hevent (hlane ▸ hin))
  · exact hnew event hevent

theorem Announced.append {number : Nat} (h : run.Announced events number)
    (hlane : run'.lane = run.lane) : run'.Announced (events ++ new) number := by
  obtain ⟨operation, code, delay, pendingEntries, hevent⟩ := h
  exact ⟨operation, code, delay, pendingEntries,
    hlane ▸ List.mem_append_left _ hevent⟩

theorem Reported.finished_append (h : Reported initial run events) {position : Nat}
    (hposition : position < run.past.length) :
    ∃ operation code rows successfulEntries failedEntries,
      .attemptFinished operation run.lane (position + 1) code rows successfulEntries
        failedEntries ∈ events ++ new := by
  obtain ⟨operation, code, rows, successfulEntries, failedEntries, hevent⟩ :=
    h.finished position hposition
  exact ⟨operation, code, rows, successfulEntries, failedEntries,
    List.mem_append_left _ hevent⟩

theorem Reported.quiet (h : Reported initial run events) (hlane : run'.lane = run.lane)
    (hpast : run'.past = run.past) (hsent : run'.sent = run.sent)
    (hresting : run'.phase.isResting = false)
    (hnew : ∀ event ∈ new, run'.Explains initial event) :
    Reported initial run' (events ++ new) where
  nonempty := hsent ▸ h.nonempty
  explained := explained_append h hlane (hpast ▸ List.prefix_refl _)
    (hsent ▸ List.prefix_refl _) hnew
  finished position hposition := by
    rw [hlane]
    exact h.finished_append (hpast ▸ hposition)
  announced position hposition := (h.announced position (hsent ▸ hposition)).append hlane
  resumed position attempt indexes hattempt hindexes :=
    h.resumed position attempt indexes (hpast ▸ hattempt) (hsent ▸ hindexes)
  resting hrest := by
    rw [hresting] at hrest
    cases hrest

/-- Events of other lanes do not matter. -/
theorem Reported.frame (h : Reported initial run events)
    (hnew : ∀ event ∈ new, event.lane? ≠ some run.lane) :
    Reported initial run (events ++ new) where
  nonempty := h.nonempty
  explained event hevent hin := by
    rcases List.mem_append.1 hevent with hevent | hevent
    · exact h.explained event hevent hin
    · exact absurd hin (hnew event hevent)
  finished _ hposition := h.finished_append hposition
  announced position hposition := (h.announced position hposition).append rfl
  resumed := h.resumed
  resting hrest attempt hattempt :=
    ⟨(h.resting hrest attempt hattempt).1, (h.resting hrest attempt hattempt).2.append rfl⟩

/-- Before the first attempt there is nothing to report. -/
theorem reported_of_fresh (hpast : run.past = []) (hunderWay : run.underWay = none)
    (hevents : ∀ event ∈ events, event.lane? = none) : Reported initial run events := by
  have hsent : run.sent = [] := by
    rw [sent, attempts, hpast, hunderWay]
    rfl
  refine ⟨by simp [hsent], ?_, by simp [hpast], by simp [hsent], by simp [hsent], by simp [hpast]⟩
  intro event hevent hlane
  rw [hevents event hevent] at hlane
  cases hlane

/-! ## Moves -/

theorem sent_of_isResting (h : run.phase.isResting) :
    run.sent = run.past.map WriteAttempt.indexes := by
  rw [sent, attempts_of_isResting h]

theorem sent_of_underWay {attempt : WriteAttempt} (h : run.underWay = some attempt) :
    run.sent = run.past.map WriteAttempt.indexes ++ [attempt.indexes] := by
  rw [sent, attempts_of_phase h, List.map_append]
  rfl

theorem length_attempts_of_underWay {attempt : WriteAttempt} (h : run.underWay = some attempt) :
    run.attempts.length = run.past.length + 1 := by
  rw [attempts_of_phase h, List.length_append, List.length_singleton]

structure EndBooks (codec : Codec) (initial : BatchOperation) (run : BatchRun)
    (current : List PendingEntry) (attempt : WriteAttempt) (outcome : AttemptOutcome) : Prop where
  carried : attempt.indexes = current.map PendingEntry.originalIndex
  settles : Settles run.operation.maxAttempts attempt current outcome
  summarises : current ≠ [] → Summarises codec run.operation.maxAttempts attempt current outcome
  counted : ∀ entry ∈ current, entry.attempts = run.past.length + 1
  safe : ∀ entry ∈ current, entry.retrySafe = initial.isSafe entry.originalIndex
  maxAttempts : run.operation.maxAttempts = initial.maxAttempts

theorem endBooks_of_ends {current : List PendingEntry} {attempt : WriteAttempt}
    {ending : AttemptEnd} {outcome : AttemptOutcome} (hinv : Inv codec initial run)
    (hends : Ends codec run current attempt ending outcome) :
    EndBooks codec initial run current { attempt with ending := some ending } outcome := by
  obtain ⟨hlive, before, hunderWay, -⟩ := hends.underWay
  have hbooks := hinv.books
  rw [hlive] at hbooks
  obtain ⟨hcarried, hsettles⟩ := settles_of_ends hends hinv.records hbooks.live_nodup
  constructor
  case carried => exact hcarried
  case settles => exact hsettles
  case summarises =>
    intro hne
    exact summarises_of_ends hne hends hinv.records hbooks.live_nodup
  case counted =>
    intro entry hentry
    rw [hbooks.attempts_of_live hentry, length_attempts_of_underWay hunderWay]
  case safe => exact fun entry hentry => hbooks.retrySafe_of_live hentry
  case maxAttempts => exact hbooks.maxAttempts_eq

namespace EndBooks

variable {current : List PendingEntry} {attempt : WriteAttempt} {outcome : AttemptOutcome}

theorem ne_nil (h : EndBooks codec initial run current attempt outcome)
    (hretry : outcome.retry ≠ []) : current ≠ [] := by
  rintro rfl
  exact hretry (List.sublist_nil.1 h.settles.retry_sublist)

theorem map_retry (h : EndBooks codec initial run current attempt outcome)
    (hretry : outcome.retry ≠ []) :
    outcome.retry.map PendingEntry.originalIndex = initial.resent attempt :=
  (h.summarises (h.ne_nil hretry)).map_retry h.carried hretry h.counted h.safe

theorem map_retry_of_lt (h : EndBooks codec initial run current attempt outcome)
    (hne : current ≠ []) (hlt : run.past.length + 1 < initial.maxAttempts) :
    outcome.retry.map PendingEntry.originalIndex = initial.resent attempt := by
  rw [← h.maxAttempts] at hlt
  exact (h.summarises hne).map_retry_of_lt h.carried hlt h.counted h.safe

end EndBooks

/-- The next attempt carries what the last one asked to send again. -/
theorem reported_issue (hinv : Inv codec initial run) (h : Reported initial run shared.events)
    (hresting : run.phase.isResting) (turn : AttemptTurn) :
    Reported initial (run.issue shared turn).1 (run.issue shared turn).2.events := by
  have hbooks := hinv.books
  rw [attempts_of_isResting hresting] at hbooks
  obtain ⟨hlt, hpending⟩ := hinv.resting hresting
  have hmax := Books.maxAttempts_le initial
  have hnumber : saturatingAdd run.operation.rpcAttempts 1 = run.past.length + 1 := by
    rw [hbooks.rpcAttempts]
    exact saturatingAdd_of_lt (by omega)
  have hbefore := sent_of_isResting hresting
  have hlength : run.sent.length = run.past.length := by rw [hbefore, List.length_map]
  have hsent : (run.issue shared turn).1.sent =
      run.sent ++ [run.operation.pending.map PendingEntry.originalIndex] := by
    rw [hbefore]
    show (run.past ++ [_]).map WriteAttempt.indexes = _
    rw [List.map_append, List.map_singleton]
    simp [Function.comp_def, PendingEntry.countAttempt]
  have hlane : (run.issue shared turn).1.lane = run.lane := rfl
  have hpast : (run.issue shared turn).1.past = run.past := rfl
  have hnew : ∀ event ∈ [DiagnosticEvent.attemptStarted shared.operation run.lane
      (saturatingAdd run.operation.rpcAttempts 1)
      (run.operation.pending.map PendingEntry.countAttempt).length
      ((Instant.checkedDurationSince (run.operation.attemptDeadline turn.arm) turn.start).getD 0)],
      (run.issue shared turn).1.Explains initial event := by
    intro event hevent
    rw [List.mem_singleton.1 hevent]
    refine ⟨run.past.length, run.operation.pending.map PendingEntry.originalIndex, hnumber, ?_, ?_⟩
    · rw [hsent, ← hlength, List.getElem?_concat_length]
    · rw [List.length_map, List.length_map]
  refine ⟨?_, ?_, ?_, ?_, ?_, ?_⟩
  · intro indexes hindexes
    rw [hsent] at hindexes
    rcases List.mem_append.1 hindexes with hindexes | hindexes
    · exact h.nonempty indexes hindexes
    · rw [List.mem_singleton.1 hindexes]
      exact fun hnil => hpending (List.map_eq_nil_iff.1 hnil)
  · exact explained_append h hlane (hpast ▸ List.prefix_refl _)
      (hsent ▸ List.prefix_append _ _) hnew
  · exact fun _ hposition => h.finished_append hposition
  · intro position hposition
    rw [hsent, List.length_append, List.length_singleton] at hposition
    rcases Nat.lt_or_ge (position + 1) run.sent.length with hold | hlast
    · exact (h.announced position hold).append hlane
    · have hne : run.past ≠ [] := by
        apply List.ne_nil_of_length_pos
        omega
      have hlater := (h.resting hresting _ (List.getLast?_eq_some_getLast hne)).2
      rw [show position + 1 = run.past.length by omega]
      exact hlater.append hlane
  · intro position attempt indexes hattempt hindexes
    rw [hsent] at hindexes
    rcases Nat.lt_or_ge (position + 1) run.sent.length with hold | hlast
    · rw [List.getElem?_append_left hold] at hindexes
      exact h.resumed position attempt indexes hattempt hindexes
    · have hposition := (List.getElem?_eq_some_iff.1 hattempt).1
      have hlt : position < run.past.length := hposition
      rw [show position + 1 = run.sent.length by omega, List.getElem?_concat_length] at hindexes
      obtain rfl := Option.some.inj hindexes
      have hgetLast : attempt ∈ run.past.getLast? := by
        rw [List.getLast?_eq_getElem?, show run.past.length - 1 = position by omega]
        exact hattempt
      exact (h.resting hresting attempt hgetLast).1
  · intro hrests
    cases hrests

/-- An attempt is over: its outcome is booked and reported. -/
theorem reported_book {current : List PendingEntry} {attempt : WriteAttempt} {ending : AttemptEnd}
    {outcome : AttemptOutcome} {telemetry : AttemptTracker} (hinv : Inv codec initial run)
    (hends : Ends codec run current attempt ending outcome)
    (hopen : telemetry.IsOpen run.lane (run.past.length + 1) shared)
    (h : Reported initial run shared.events) :
    Reported initial (run.book attempt ending outcome)
      (telemetry.finish shared outcome.code
        { successfulEntries := outcome.successful
          failedEntries := outcome.failures.length + outcome.retry.length }).2.events := by
  obtain ⟨-, before, hunderWay, hindexes, -⟩ := hends.underWay
  have hbooks := endBooks_of_ends hinv hends
  have hbefore := sent_of_underWay hunderWay
  have hne : current ≠ [] := by
    rintro rfl
    have hnonempty := h.nonempty before.indexes (by simp [hbefore])
    rw [← hindexes] at hnonempty
    exact hnonempty hbooks.carried
  obtain ⟨hsuccessful, htotal⟩ := hbooks.settles.successful hbooks.carried
  have hsent : (run.book attempt ending outcome).sent = run.sent := by
    rw [hbefore, ← hindexes]
    show ((run.past ++ [_]) ++ []).map WriteAttempt.indexes = _
    rw [List.append_nil, List.map_append]
    rfl
  have hlength : run.sent.length = run.past.length + 1 := by
    rw [hbefore, List.length_append, List.length_map, List.length_singleton]
  rw [AttemptTracker.finish, if_neg (by simp [hopen.unfinished])]
  unfold AttemptTracker.recordFinish
  rw [hopen.batch, hopen.attempt]
  refine ⟨hsent ▸ h.nonempty, ?_, ?_, ?_, ?_, ?_⟩
  · refine explained_append h rfl (List.prefix_append _ _) (hsent ▸ List.prefix_refl _) ?_
    intro event hevent
    rw [List.mem_singleton.1 hevent]
    exact ⟨run.past.length, _, rfl, List.getElem?_concat_length, (hbooks.summarises hne).code,
      hsuccessful, htotal⟩
  · intro position hposition
    rcases Nat.lt_or_ge position run.past.length with hold | hlast
    · exact h.finished_append hold
    · have hcount : (run.book attempt ending outcome).past.length = run.past.length + 1 := by
        simp [book]
      rw [show position = run.past.length by omega]
      exact ⟨_, _, _, _, _, List.mem_append_right _ (List.mem_singleton.2 rfl)⟩
  · intro position hposition
    exact (h.announced position (hsent ▸ hposition)).append rfl
  · intro position other indexes hother hsentAt
    rw [hsent] at hsentAt
    have hlt := (List.getElem?_eq_some_iff.1 hsentAt).1
    refine h.resumed position other indexes ?_ hsentAt
    rw [← List.getElem?_append_left (by omega : position < run.past.length)]
    exact hother
  · intro hrests
    cases hrests

/-- A retry is announced for what is pending. -/
theorem reported_reschedules {current : List PendingEntry} {attempt : WriteAttempt}
    {ending : AttemptEnd} {outcome : AttemptOutcome} (hinv : Inv codec initial run)
    (hends : Ends codec run current attempt ending outcome)
    (h : Reported initial (run.book attempt ending outcome) shared.events)
    (hinv' : Inv codec initial run')
    (hreschedules : Reschedules (run.book attempt ending outcome) shared outcome run' shared') :
    Reported initial run' shared'.events := by
  cases hreschedules with
  | done hpending => exact h
  | crashed hpending =>
      have hquiet : Reported initial
          { run.book attempt ending outcome with phase := .panicked .backoff }
          (shared.events ++ []) :=
        h.quiet rfl rfl rfl rfl nofun
      rwa [List.append_nil] at hquiet
  | expired hpending =>
      have hquiet : Reported initial (run.book attempt ending outcome).expire
          (shared.events ++ []) :=
        h.quiet rfl rfl rfl rfl nofun
      rwa [List.append_nil] at hquiet
  | sleeping delay hpending =>
      have hbooks := endBooks_of_ends hinv hends
      have hsummarises := hbooks.summarises (hbooks.ne_nil hpending)
      have hresent : outcome.retry.map PendingEntry.originalIndex =
          initial.resent { attempt with ending := some ending } := hbooks.map_retry hpending
      have hattempts : ∀ entry ∈ (run.book attempt ending outcome).operation.pending,
          entry.attempts = (run.book attempt ending outcome).past.length := by
        intro entry hentry
        have hcount := hinv'.books.attempts_of_live hentry
        rwa [attempts_of_isResting rfl] at hcount
      have hlength : (run.book attempt ending outcome).past.length = run.past.length + 1 := by
        simp [book]
      have hget : (run.book attempt ending outcome).past[run.past.length]? =
          some { attempt with ending := some ending } := List.getElem?_concat_length
      unfold OperationState.retry
      rw [max?_attempts hpending hattempts]
      refine ⟨h.nonempty, ?_, ?_, ?_, h.resumed, ?_⟩
      · apply explained_append h rfl (List.prefix_refl _) (List.prefix_refl _)
        intro event hevent
        rw [List.mem_singleton.1 hevent]
        refine ⟨run.past.length, _, hlength, hget, hsummarises.code, ?_, ?_⟩
        · rw [← hresent]
          exact fun hnil => hpending (List.map_eq_nil_iff.1 hnil)
        · rw [← hresent, List.length_map]
          rfl
      · exact fun _ hposition => h.finished_append hposition
      · intro position hposition
        exact (h.announced position hposition).append rfl
      · intro _ last hlast
        have hlast' : last ∈ (run.book attempt ending outcome).past.getLast? := hlast
        rw [List.getLast?_eq_getElem?, hlength, Nat.add_sub_cancel, hget] at hlast'
        obtain rfl := Option.some.inj hlast'
        exact ⟨hresent, _, _, _, _, List.mem_append_right _ (List.mem_singleton.2 rfl)⟩

theorem Reported.recordFirstResponse {telemetry : AttemptTracker}
    (h : Reported initial run shared.events) (hlane : run'.lane = run.lane)
    (hpast : run'.past = run.past) (hsent : run'.sent = run.sent)
    (hresting : run'.phase.isResting = false) :
    Reported initial run' (telemetry.recordFirstResponse shared).2.events := by
  unfold AttemptTracker.recordFirstResponse
  split_ifs
  · have hsame := h.quiet hlane hpast hsent hresting (List.forall_mem_nil _)
    rwa [List.append_nil] at hsame
  · apply h.quiet hlane hpast hsent hresting
    intro event hevent
    rw [List.mem_singleton.1 hevent]
    trivial

theorem reported_heard {telemetry : AttemptTracker} {heard : OperationState}
    (h : Reported initial run shared.events) (hheard : Heard run shared telemetry heard) :
    Reported initial run heard.events := by
  have hresting : ∀ {telemetry}, run.phase.telemetry = some telemetry →
      run.phase.isResting = false := by
    intro telemetry htelemetry
    by_contra hresting
    rw [telemetry_of_isResting (by simpa using hresting)] at htelemetry
    cases htelemetry
  cases hheard with
  | nothing htelemetry => exact h
  | message htelemetry => exact h.recordFirstResponse rfl rfl rfl (hresting htelemetry)

/-- Every move of a batch keeps its report. -/
theorem reported_move (hinv : Inv codec initial run) (htraced : run.Traced shared)
    (h : Reported initial run shared.events) (hmove : Move codec run shared input run' shared') :
    Reported initial run' shared'.events := by
  have hinv' : Inv codec initial run' := inv_move hinv hmove
  have hquiet : ∀ {run' : BatchRun}, run'.lane = run.lane → run'.past = run.past →
      run'.sent = run.sent → run'.phase.isResting = false →
      Reported initial run' shared.events := by
    intro run' hlane hpast hsent hresting
    have hsame := h.quiet hlane hpast hsent hresting (List.forall_mem_nil _)
    rwa [List.append_nil] at hsame
  cases hmove with
  | exhausted _ hresting hpending => exact absurd hpending (hinv.resting hresting).2
  | expired _ hresting =>
      refine hquiet rfl rfl ?_ rfl
      rw [sent_of_isResting hresting]
      show (run.past ++ []).map WriteAttempt.indexes = _
      rw [List.append_nil]
  | called _ turn hresting hpending => exact reported_issue hinv h hresting turn
  | crashed _ hresting hpending =>
      refine hquiet rfl rfl ?_ rfl
      rw [sent_of_isResting hresting]
      show (run.past ++ []).map WriteAttempt.indexes = _
      rw [List.append_nil]
  | opened hphase =>
      rename_i current deadline telemetry attempt
      have hunderWay : run.underWay = some attempt := by rw [underWay, hphase]
      refine hquiet rfl rfl ?_ rfl
      exact (sent_of_underWay rfl).trans (sent_of_underWay hunderWay).symm
  | received turn hphase hresponse =>
      rename_i current deadline telemetry attempt progress progress' response
      have hunderWay : run.underWay = some attempt := by rw [underWay, hphase]
      refine h.recordFirstResponse rfl rfl ?_ rfl
      rw [sent_of_underWay hunderWay]
      show (run.past ++ [_]).map WriteAttempt.indexes = _
      rw [List.map_append]
      rfl
  | settled _ hends hheard hreschedules =>
      have hopen := (heard_isOpen htraced hheard).2
      have hbooked := reported_book hinv hends hopen (reported_heard h hheard)
      exact reported_reschedules hinv hends hbooked hinv' hreschedules
  | panicked _ hphase houtcome => exact hinv'.records.elim

/-! ## Successes -/

def Succeeds (run : BatchRun) (shared : OperationState) (run' : BatchRun)
    (shared' : OperationState) : Prop :=
  ∃ successful, run'.operation.successful = run.operation.successful + successful ∧
    attemptSuccesses shared'.events = attemptSuccesses shared.events + successful

theorem attemptSuccesses_heard {telemetry : AttemptTracker} {heard : OperationState}
    (hheard : Heard run shared telemetry heard) :
    attemptSuccesses heard.events = attemptSuccesses shared.events := by
  cases hheard with
  | nothing htelemetry => rfl
  | message htelemetry => exact attemptTotal_recordFirstResponse _ _ _

theorem succeeds_move (htraced : run.Traced shared)
    (hmove : Move codec run shared input run' shared') :
    Succeeds run shared run' shared' := by
  cases hmove with
  | exhausted _ hresting hpending => exact ⟨0, rfl, rfl⟩
  | expired _ hresting => exact ⟨0, rfl, rfl⟩
  | called _ turn hresting hpending => exact ⟨0, rfl, attemptTotal_attempt _ _ _ _ _ _⟩
  | crashed _ hresting hpending => exact ⟨0, rfl, rfl⟩
  | opened hphase => exact ⟨0, rfl, rfl⟩
  | received turn hphase hresponse =>
      exact ⟨0, rfl, attemptTotal_recordFirstResponse _ _ _⟩
  | panicked _ hphase houtcome => exact ⟨0, rfl, rfl⟩
  | settled _ hends hheard hreschedules =>
      rename_i current attempt ending outcome telemetry heard
      have hopen := (heard_isOpen htraced hheard).2
      have hfinish := attemptTotal_finish AttemptSummary.successfulEntries hopen.unfinished heard
        outcome.code
        { successfulEntries := outcome.successful
          failedEntries := outcome.failures.length + outcome.retry.length }
      have hreported := hfinish.trans
        (congrArg (· + outcome.successful) (attemptSuccesses_heard hheard))
      cases hreschedules with
      | done hpending => exact ⟨_, rfl, hreported⟩
      | crashed hpending => exact ⟨_, rfl, hreported⟩
      | expired hpending => exact ⟨_, rfl, hreported⟩
      | sleeping delay hpending =>
          exact ⟨_, rfl, (attemptTotal_retry _ _ _ _ _ _ _).trans hreported⟩

end BatchRun

end BigtableClient
