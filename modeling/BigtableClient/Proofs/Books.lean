import BigtableClient.Proofs.Settled
import BigtableClient.ProofSupport.RetryLedger

/-!
# The books of a batch

What the variables of a batch say about the attempts on record: every entry of the
batch is live, and then every attempt sent it, or it has its one outcome, and that
outcome is what the last attempt that sent it said.
-/

namespace BigtableClient

open Proto (MutateRowsRequest)
open ProofSupport.RetryLedger

/-! ## What is kept -/

def PendingEntry.withAttempts (attempts : Nat) (entry : PendingEntry) : PendingEntry :=
  { entry with attempts := attempts }

@[simp] theorem PendingEntry.originalIndex_withAttempts (attempts : Nat) (entry : PendingEntry) :
    (entry.withAttempts attempts).originalIndex = entry.originalIndex := rfl

@[simp] theorem PendingEntry.retrySafe_withAttempts (attempts : Nat) (entry : PendingEntry) :
    (entry.withAttempts attempts).retrySafe = entry.retrySafe := rfl

abbrev carriers (attempts : List WriteAttempt) (index : Nat) : List WriteAttempt :=
  carrying WriteAttempt.indexes attempts index

def Succeeded (attempts : List WriteAttempt) (index : Nat) : Prop :=
  ∃ attempt, (carriers attempts index).getLast? = some attempt ∧ attempt.Confirms index

structure Failed (attempts : List WriteAttempt) (failure : MutationFailure) : Prop where
  counted : failure.attempts = (carriers attempts failure.index).length
  not_confirmed : ∀ attempt, (carriers attempts failure.index).getLast? = some attempt →
    ¬ attempt.Confirms failure.index

namespace BatchOperation

structure SameConfig (initial operation : BatchOperation) : Prop where
  tableName : operation.tableName = initial.tableName
  appProfileId : operation.appProfileId = initial.appProfileId
  options : operation.options = initial.options
  deadline : operation.deadline = initial.deadline
  batch : operation.batch = initial.batch

def Sends (initial : BatchOperation) (attempt : WriteAttempt) : Prop :=
  ∃ entries : List PendingEntry, entries.Sublist initial.pending ∧
    attempt.indexes = entries.map PendingEntry.originalIndex ∧
    attempt.request = mutateRowsRequest initial.tableName initial.appProfileId entries

/-- The later attempt sends only entries that are safe to retry and that the earlier one asked to
send again. -/
def Follows (initial : BatchOperation) (earlier later : WriteAttempt) : Prop :=
  ∀ index ∈ later.indexes, earlier.Resends index ∧
    ∀ entry ∈ initial.pending, entry.originalIndex = index → entry.retrySafe

def indexes (operation : BatchOperation) : List Nat :=
  operation.pending.map PendingEntry.originalIndex

end BatchOperation

open BatchOperation

/-- The operation agrees with the attempts on record and the entries that are live. -/
structure Books (initial operation : BatchOperation) (attempts : List WriteAttempt)
    (live : List PendingEntry) : Prop where
  config : SameConfig initial operation
  rpcAttempts : operation.rpcAttempts = attempts.length
  attempts_le : attempts.length ≤ initial.maxAttempts
  live_eq : ∃ entries : List PendingEntry, entries.Sublist initial.pending ∧
    live = entries.map (PendingEntry.withAttempts attempts.length)
  sends : ∀ attempt ∈ attempts, Sends initial attempt
  follows : attempts.Pairwise (Follows initial)
  ledger : ∃ succeeded : List Nat, succeeded.length = operation.successful ∧
    (∀ index ∈ succeeded, Succeeded attempts index) ∧
    Ledger WriteAttempt.indexes initial.indexes attempts
      (live.map PendingEntry.originalIndex)
      (operation.failures.map MutationFailure.index ++ succeeded)
  failed : ∀ failure ∈ operation.failures, Failed attempts failure

def Resent (attempts : List WriteAttempt) (live : List PendingEntry) : Prop :=
  ∀ entry ∈ live, ∀ attempt ∈ attempts,
    entry.retrySafe ∧ attempt.Resends entry.originalIndex

/-- All entries that are sent again were sent by the same attempts. -/
theorem max?_attempts {pending : List PendingEntry} {count : Nat} (hpending : pending ≠ [])
    (h : ∀ entry ∈ pending, entry.attempts = count) :
    ((pending.map PendingEntry.attempts).max?).getD 1 = count := by
  have hmap : pending.map PendingEntry.attempts = List.replicate pending.length count :=
    List.eq_replicate_iff.2 ⟨List.length_map _, by simpa using h⟩
  rw [hmap, List.max?_replicate, if_neg (by simpa using hpending)]
  rfl

theorem saturatingAdd_of_lt {value : Nat} (h : value < u32Max) :
    saturatingAdd value 1 = value + 1 := by
  unfold saturatingAdd
  omega

namespace Books

variable {initial operation : BatchOperation} {attempts past : List WriteAttempt}
  {attempt : WriteAttempt} {live : List PendingEntry}

theorem maxAttempts_le (operation : BatchOperation) : operation.maxAttempts ≤ u32Max := by
  have hlt := operation.options.retry.maxAttempts.toNat_lt
  unfold maxAttempts u32Max
  omega

theorem maxAttempts_eq (h : Books initial operation attempts live) :
    operation.maxAttempts = initial.maxAttempts := by
  rw [maxAttempts, h.config.options, maxAttempts]

theorem attempts_of_live (h : Books initial operation attempts live) {entry : PendingEntry}
    (hentry : entry ∈ live) : entry.attempts = attempts.length := by
  obtain ⟨entries, -, rfl⟩ := h.live_eq
  obtain ⟨original, -, rfl⟩ := List.mem_map.1 hentry
  rfl

theorem map_originalIndex_withAttempts (n : Nat) (entries : List PendingEntry) :
    (entries.map (PendingEntry.withAttempts n)).map PendingEntry.originalIndex =
      entries.map PendingEntry.originalIndex := by
  rw [List.map_map]
  rfl

theorem live_nodup (h : Books initial operation attempts live) :
    (live.map PendingEntry.originalIndex).Nodup := by
  obtain ⟨succeeded, -, -, hledger⟩ := h.ledger
  exact (List.nodup_append.1 hledger.nodup_append).1

theorem failed_of_live (h : Books initial operation attempts live) {failure : MutationFailure}
    {entry : PendingEntry} (hentry : entry ∈ live) (hindex : failure.index = entry.originalIndex)
    (hattempts : failure.attempts = entry.attempts)
    (hnot : ∀ last ∈ attempts.getLast?, ¬ last.Confirms failure.index) :
    Failed attempts failure := by
  obtain ⟨succeeded, -, -, hledger⟩ := h.ledger
  have hcarriers : carriers attempts failure.index = attempts := by
    rw [hindex]
    exact hledger.carrying_of_live (List.mem_map_of_mem hentry)
  constructor
  · rw [hcarriers, hattempts, h.attempts_of_live hentry]
  · intro last hlast
    rw [hcarriers] at hlast
    exact hnot last hlast

/-! ## Start -/

structure Fresh (initial : BatchOperation) : Prop where
  pending_ne_nil : initial.pending ≠ []
  attempts_eq_zero : ∀ entry ∈ initial.pending, entry.attempts = 0
  nodup : initial.indexes.Nodup
  attempts_pos : 0 < initial.maxAttempts
  successful : initial.successful = 0
  failures : initial.failures = []
  rpcAttempts : initial.rpcAttempts = 0

theorem start (h : Fresh initial) : Books initial initial [] initial.pending where
  config := ⟨rfl, rfl, rfl, rfl, rfl⟩
  rpcAttempts := h.rpcAttempts
  attempts_le := Nat.zero_le _
  live_eq := by
    refine ⟨initial.pending, List.Sublist.refl _, ?_⟩
    conv_lhs => rw [← List.map_id initial.pending]
    apply List.map_congr_left
    intro entry hentry
    simp [PendingEntry.withAttempts, ← h.attempts_eq_zero entry hentry]
  sends := by simp
  follows := List.Pairwise.nil
  ledger := by
    refine ⟨[], h.successful.symm, by simp, ?_⟩
    rw [h.failures]
    exact Ledger.start h.nodup
  failed := by simp [h.failures]

/-! ## Steps -/

/-- An attempt is made: it sends the live entries. -/
theorem call (h : Books initial operation attempts operation.pending)
    (hresent : Resent attempts operation.pending)
    (hlt : attempts.length < initial.maxAttempts)
    (hindexes : attempt.indexes = operation.pending.map PendingEntry.originalIndex)
    (hrequest : attempt.request =
      mutateRowsRequest operation.tableName operation.appProfileId operation.pending) :
    Books initial
      { operation with
        rpcAttempts := saturatingAdd operation.rpcAttempts 1
        pending := [] }
      (attempts ++ [attempt]) (operation.pending.map PendingEntry.countAttempt) := by
  have hmax := maxAttempts_le initial
  have hsaturating : saturatingAdd attempts.length 1 = attempts.length + 1 :=
    saturatingAdd_of_lt (by omega)
  obtain ⟨entries, hsublist, hentries⟩ := h.live_eq
  obtain ⟨succeeded, hsuccessful, hsucceeded, hledger⟩ := h.ledger
  have hcount : operation.pending.map PendingEntry.countAttempt =
      entries.map (PendingEntry.withAttempts (attempts.length + 1)) := by
    rw [hentries, List.map_map]
    apply List.map_congr_left
    intro entry _
    simp only [Function.comp_apply, PendingEntry.countAttempt, PendingEntry.withAttempts,
      hsaturating]
  have hsettled : ∀ index ∈ operation.failures.map MutationFailure.index ++ succeeded,
      carriers (attempts ++ [attempt]) index = carriers attempts index :=
    fun index hindex => hledger.carrying_append_of_settled hindexes hindex
  refine ⟨⟨h.config.tableName, h.config.appProfileId, h.config.options, h.config.deadline,
    h.config.batch⟩, ?_, ?_, ⟨entries, hsublist, ?_⟩, ?_, ?_, ⟨succeeded, hsuccessful, ?_, ?_⟩, ?_⟩
  · show saturatingAdd operation.rpcAttempts 1 = _
    rw [h.rpcAttempts, hsaturating, List.length_append, List.length_singleton]
  · rw [List.length_append, List.length_singleton]
    omega
  · rw [hcount, List.length_append, List.length_singleton]
  · intro other hother
    rcases List.mem_append.1 hother with hother | hother
    · exact h.sends other hother
    · rw [List.mem_singleton.1 hother]
      refine ⟨entries, hsublist, ?_, ?_⟩
      · rw [hindexes, hentries, map_originalIndex_withAttempts]
      · rw [hrequest, h.config.tableName, h.config.appProfileId, hentries]
        simp [mutateRowsRequest, PendingEntry.withAttempts, Function.comp_def]
  · refine List.pairwise_append.2 ⟨h.follows, List.pairwise_singleton _ _, ?_⟩
    intro earlier hearlier later hlater index hindex
    rw [List.mem_singleton.1 hlater, hindexes] at hindex
    obtain ⟨entry, hentry, rfl⟩ := List.mem_map.1 hindex
    obtain ⟨hsafe, hresends⟩ := hresent entry hentry earlier hearlier
    refine ⟨hresends, fun other hother heq => ?_⟩
    rw [hentries] at hentry
    obtain ⟨original, horiginal, rfl⟩ := List.mem_map.1 hentry
    rw [List.inj_on_of_nodup_map hledger.nodup hother (hsublist.subset horiginal) heq]
    exact hsafe
  · intro index hindex
    have hcarriers := hsettled index (List.mem_append_right _ hindex)
    obtain ⟨last, hlast, hconfirms⟩ := hsucceeded index hindex
    exact ⟨last, hcarriers ▸ hlast, hconfirms⟩
  · rw [hcount, map_originalIndex_withAttempts, ← map_originalIndex_withAttempts attempts.length,
      ← hentries]
    exact hledger.append hindexes
  · intro failure hfailure
    have hcarriers := hsettled failure.index
      (List.mem_append_left _ (List.mem_map_of_mem hfailure))
    obtain ⟨hattempts, hnot⟩ := h.failed failure hfailure
    exact ⟨hcarriers ▸ hattempts, hcarriers ▸ hnot⟩

/-- The record of the last attempt grows. -/
theorem replace_last {attempt' : WriteAttempt}
    (h : Books initial operation (past ++ [attempt]) live)
    (hsent : attempt.indexes = live.map PendingEntry.originalIndex)
    (hindexes : attempt'.indexes = attempt.indexes)
    (hrequest : attempt'.request = attempt.request) :
    Books initial operation (past ++ [attempt']) live := by
  obtain ⟨succeeded, hsuccessful, hsucceeded, hledger⟩ := h.ledger
  have hsettled : ∀ index ∈ operation.failures.map MutationFailure.index ++ succeeded,
      carriers (past ++ [attempt']) index = carriers (past ++ [attempt]) index := by
    intro index hindex
    have hnot : index ∉ attempt.indexes := hsent ▸ hledger.notMem_live hindex
    rw [carriers, carriers, carrying_append_of_notMem hnot,
      carrying_append_of_notMem (hindexes ▸ hnot)]
  have hlength : (past ++ [attempt']).length = (past ++ [attempt]).length := by simp
  refine ⟨h.config, hlength ▸ h.rpcAttempts, hlength ▸ h.attempts_le, hlength ▸ h.live_eq, ?_, ?_,
    ⟨succeeded, hsuccessful, ?_, hledger.replace_last hindexes⟩, ?_⟩
  · intro other hother
    rcases List.mem_append.1 hother with hother | hother
    · exact h.sends other (List.mem_append_left _ hother)
    · rw [List.mem_singleton.1 hother, Sends, hindexes, hrequest]
      exact h.sends attempt (by simp)
  · obtain ⟨hpast, -, hlast⟩ := List.pairwise_append.1 h.follows
    refine List.pairwise_append.2 ⟨hpast, List.pairwise_singleton _ _, ?_⟩
    intro earlier hearlier later hlater
    rw [List.mem_singleton.1 hlater, Follows, hindexes]
    exact hlast earlier hearlier attempt (by simp)
  · intro index hindex
    rw [Succeeded, hsettled index (List.mem_append_right _ hindex)]
    exact hsucceeded index hindex
  · intro failure hfailure
    have hcarriers := hsettled failure.index
      (List.mem_append_left _ (List.mem_map_of_mem hfailure))
    obtain ⟨hattempts, hnot⟩ := h.failed failure hfailure
    exact ⟨hcarriers ▸ hattempts, hcarriers ▸ hnot⟩

/-- The outcome of the last attempt is booked. -/
theorem book {outcome : AttemptOutcome} (h : Books initial operation (past ++ [attempt]) live)
    (houtcome : Settles initial.maxAttempts attempt live outcome) :
    Books initial (operation.book outcome) (past ++ [attempt]) outcome.retry := by
  obtain ⟨succeeded, hsuccessful, hsucceeded, hledger⟩ := h.ledger
  obtain ⟨newly, hlength, hnewly, hperm⟩ := houtcome.accounted
  obtain ⟨entries, hsublist, hentries⟩ := h.live_eq
  have hretry : ∃ entries : List PendingEntry, entries.Sublist initial.pending ∧
      outcome.retry = entries.map (PendingEntry.withAttempts (past ++ [attempt]).length) := by
    have hsub := houtcome.retry_sublist
    rw [hentries] at hsub
    obtain ⟨retried, hretried, heq⟩ := List.sublist_map_iff.1 hsub
    exact ⟨retried, hretried.trans hsublist, heq⟩
  refine ⟨⟨h.config.tableName, h.config.appProfileId, h.config.options, h.config.deadline,
    h.config.batch⟩, h.rpcAttempts, h.attempts_le, hretry, h.sends, h.follows,
    ⟨newly ++ succeeded, ?_, ?_, ?_⟩, ?_⟩
  · show _ = operation.successful + outcome.successful
    rw [List.length_append, hlength, hsuccessful, Nat.add_comm]
  · intro index hindex
    rcases List.mem_append.1 hindex with hindex | hindex
    · have hconfirms := hnewly index hindex
      exact ⟨attempt, by rw [carriers, carrying_append_of_mem hconfirms.carried]; simp,
        hconfirms⟩
    · exact hsucceeded index hindex
  · apply (hledger.settle hperm).perm_settled
    show ((operation.failures ++ outcome.failures).map MutationFailure.index ++
      (newly ++ succeeded)).Perm _
    rw [List.map_append]
    generalize operation.failures.map MutationFailure.index = old
    generalize outcome.failures.map MutationFailure.index = fresh
    rw [List.append_assoc, List.append_assoc]
    refine List.perm_append_comm_assoc old fresh (newly ++ succeeded) |>.trans ?_
    exact (List.perm_append_comm_assoc old newly succeeded).append_left fresh
  · intro failure hfailure
    rcases List.mem_append.1 hfailure with hfailure | hfailure
    · exact h.failed failure hfailure
    · obtain ⟨entry, hentry, hindex, hattempts, hnot⟩ := houtcome.failed failure hfailure
      apply h.failed_of_live hentry hindex hattempts
      intro last hlast
      simp only [List.getLast?_append, List.getLast?_singleton, Option.some_or,
        Option.mem_some_iff] at hlast
      exact hlast ▸ hnot

/-- The deadline fails what is live. -/
theorem expire (h : Books initial operation attempts operation.pending)
    (hresent : Resent attempts operation.pending) :
    Books initial operation.failPendingDeadline attempts [] := by
  obtain ⟨succeeded, hsuccessful, hsucceeded, hledger⟩ := h.ledger
  refine ⟨⟨h.config.tableName, h.config.appProfileId, h.config.options, h.config.deadline,
    h.config.batch⟩, h.rpcAttempts, h.attempts_le, ⟨[], List.nil_sublist _, rfl⟩, h.sends,
    h.follows, ⟨succeeded, hsuccessful, hsucceeded, ?_⟩, ?_⟩
  · have hmap : (operation.pending.map operation.deadlineFailure).map MutationFailure.index =
        operation.pending.map PendingEntry.originalIndex := by
      rw [List.map_map]
      rfl
    apply (hledger.settle (List.Perm.refl ([] ++ _))).perm_settled
    show ((operation.failures ++ operation.pending.map operation.deadlineFailure).map
      MutationFailure.index ++ succeeded).Perm _
    rw [List.map_append, hmap, List.append_assoc]
    exact List.perm_append_comm_assoc _ _ _
  · intro failure hfailure
    rcases List.mem_append.1 hfailure with hfailure | hfailure
    · exact h.failed failure hfailure
    · obtain ⟨entry, hentry, rfl⟩ := List.mem_map.1 hfailure
      apply h.failed_of_live hentry rfl rfl
      intro last hlast
      exact (hresent entry hentry last (List.mem_of_getLast? hlast)).2.not_confirms

end Books

end BigtableClient
