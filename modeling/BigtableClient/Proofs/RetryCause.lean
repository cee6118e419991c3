import BigtableClient.Proofs.BulkReport
import BigtableClient.Proofs.Replay

/-!
# The code of a retry event

The event carries the code that sums up the attempt, which is the first code other
than OK, whatever entry it belongs to.  It names a cause of the retry exactly when
that code is also the code of an entry that is sent again.
-/

namespace BigtableClient

open ProofSupport.Transition

def BulkMutation.isRetrySafe (bulk : BulkMutation) (index : Nat) : Bool :=
  bulk.entries[index]?.any RowMutation.isRetrySafe

def WriteAttempt.resent (bulk : BulkMutation) (attempt : WriteAttempt) : List Nat :=
  attempt.indexes.filter fun index => attempt.asksAgain index ∧ bulk.isRetrySafe index

def NamesCause (bulk : BulkMutation) (attempt : WriteAttempt) (code : Code) : Prop :=
  (code = .deadlineExceeded ∨ code = .unavailable) ∧
    ∃ index ∈ attempt.resent bulk, attempt.codeOf index = some code

instance (bulk : BulkMutation) (attempt : WriteAttempt) :
    DecidablePred (NamesCause bulk attempt) := fun code =>
  inferInstanceAs (Decidable ((code = .deadlineExceeded ∨ code = .unavailable) ∧
    ∃ index ∈ attempt.resent bulk, attempt.codeOf index = some code))

/-- Every entry was left with a code, and the first one that is not OK asks for another attempt and
is also that of an entry which is safe to send again. -/
def LeadsWithRetry (bulk : BulkMutation) (attempt : WriteAttempt) : Prop :=
  attempt.Complete ∧ ∃ code ∈ attempt.firstFailure,
    (code = .deadlineExceeded ∨ code = .unavailable) ∧
      ∃ index ∈ attempt.indexes, attempt.codeOf index = some code ∧ bulk.isRetrySafe index

instance (bulk : BulkMutation) : DecidablePred (LeadsWithRetry bulk) := fun attempt =>
  inferInstanceAs (Decidable (attempt.Complete ∧ ∃ code ∈ attempt.firstFailure,
    (code = .deadlineExceeded ∨ code = .unavailable) ∧
      ∃ index ∈ attempt.indexes, attempt.codeOf index = some code ∧ bulk.isRetrySafe index))

/-- The code that sums up a sound attempt names a cause only when it leads. -/
theorem namesCause_reportedCode {bulk : BulkMutation} {attempt : WriteAttempt}
    (hsound : attempt.Sound) :
    NamesCause bulk attempt attempt.reportedCode ↔ LeadsWithRetry bulk attempt := by
  have hmem : ∀ {index}, index ∈ attempt.resent bulk ↔
      attempt.Resends index ∧ bulk.isRetrySafe index := by
    intro index
    rw [WriteAttempt.resent, List.mem_filter, decide_eq_true_eq, WriteAttempt.resends_iff,
      and_assoc]
  constructor
  · rintro ⟨hretryable, index, hindex, hcode⟩
    obtain ⟨hresends, hsafe⟩ := hmem.1 hindex
    by_cases hcomplete : attempt.Complete
    · rw [WriteAttempt.reportedCode, if_pos ⟨hsound, hcomplete⟩] at hretryable hcode
      cases hfirst : attempt.firstFailure with
      | none => simp [hfirst] at hretryable
      | some code =>
          rw [hfirst, Option.getD_some] at hretryable hcode
          exact ⟨hcomplete, code, hfirst, hretryable, index, hresends.carried, hcode, hsafe⟩
    · rw [WriteAttempt.reportedCode, if_neg fun h => hcomplete h.2] at hretryable
      simp at hretryable
  · rintro ⟨hcomplete, code, hfirst, hretryable, index, hindex, hcode, hsafe⟩
    rw [WriteAttempt.reportedCode, if_pos ⟨hsound, hcomplete⟩, hfirst, Option.getD_some]
    refine ⟨hretryable, index, hmem.2 ⟨⟨hindex, hsound, ?_⟩, hsafe⟩, hcode⟩
    rw [hcode, Option.some.injEq, Option.some.injEq]
    exact hretryable

namespace BulkState

variable {codec : Codec} {initials : List BatchOperation} {state : BulkState}
  {batches : List BatchRun} {events : List DiagnosticEvent} {number position : Nat}
  {initial : BatchOperation} {run : BatchRun} {attempt next : WriteAttempt}

theorem ReportInv.allReported (h : ReportInv initials state) :
    ∃ events more, state.telemetry.state.events = events ++ more ∧
      (∀ event ∈ more, event.isRetry = false) ∧ AllReported initials state.batches events := by
  cases hphase : state.phase with
  | running =>
      obtain ⟨hall, -⟩ := h.running hphase
      exact ⟨_, [], (List.append_nil _).symm, List.forall_mem_nil _, hall⟩
  | finished result =>
      obtain ⟨events, last, hevents, hlast, hall, -⟩ := h.finished result hphase
      refine ⟨events, [last], hevents, fun event hevent => ?_, hall⟩
      rw [List.mem_singleton.1 hevent]
      cases last with
      | retryScheduled _ _ _ _ _ _ => cases hlast
      | _ => rfl
  | cancelled => exact h.dropped (by rw [hphase]; rfl)
  | panicked => exact h.dropped (by rw [hphase]; rfl)

section Run

variable (encodedLen : EncodedLen) (config : ClientConfig) (bulk : BulkMutation)
  (options : BulkMutationOptions) (deadline : Instant)

/-- What is sent again of a batch, from the rows of the bulk mutation. -/
theorem resent_eq (hoptions : options.Valid)
    (hinitial : initial ∈ initialOperations encodedLen config bulk options deadline)
    (hsends : initial.Sends attempt) : initial.resent attempt = attempt.resent bulk := by
  obtain ⟨entries, hsublist, hindexes, -⟩ := hsends
  apply List.filter_congr
  intro index hindex
  rw [hindexes] at hindex
  obtain ⟨entry, hentry, rfl⟩ := List.mem_map.1 hindex
  have hpending := hsublist.subset hentry
  obtain ⟨row, hrow, -, hsafe⟩ :=
    row_of_mem_pending encodedLen config bulk options deadline hoptions hinitial hpending
  have hnodup := (fresh_initials encodedLen config bulk options deadline hoptions hinitial).nodup
  have hsame : initial.isSafe entry.originalIndex = bulk.isRetrySafe entry.originalIndex := by
    rw [BulkMutation.isRetrySafe, hrow, Option.any_some, ← hsafe, Bool.eq_iff_iff,
      BatchOperation.isSafe, List.any_eq_true]
    constructor
    · rintro ⟨other, hother, hboth⟩
      obtain ⟨hindex, hsafe⟩ := of_decide_eq_true hboth
      rwa [← List.inj_on_of_nodup_map hnodup hother hpending hindex]
    · exact fun hsafe => ⟨entry, hpending, decide_eq_true ⟨rfl, hsafe⟩⟩
  rw [hsame]

/-- A bulk retry event names a cause of the retry exactly when the attempt leads with one.  In every
run, whatever the server does, an attempt that sends entries again sends those that the attempt
before it left to be sent again, and a retry event comes between the two; and the code of every
retry event is the status code of an entry that is sent again if and only if every entry was left
with a code, and the first one that is not OK, in the order of the request, asks for another attempt
and is also the code of an entry that is safe to send again. -/
theorem retry_event_names_cause (codec : Codec) (hoptions : validateOptions options = .ok ())
    (hreach : Reachable (step codec) (start encodedLen config bulk options deadline) state)
    (hrun : state.batches[number]? = some run) (hattempt : run.past[position]? = some attempt) :
    (∀ next, run.attempts[position + 1]? = some next → next.indexes = attempt.resent bulk ∧
      ∃ operation code delay pendingEntries,
        .retryScheduled operation (some number) (position + 1) code delay pendingEntries ∈
          state.telemetry.state.events) ∧
      ∀ operation code delay pendingEntries,
        .retryScheduled operation (some number) (position + 1) code delay pendingEntries ∈
            state.telemetry.state.events →
          pendingEntries = (attempt.resent bulk).length ∧
            (NamesCause bulk attempt code ↔ LeadsWithRetry bulk attempt) := by
  have hvalid := BulkMutationOptions.valid_of_validateOptions hoptions
  have hinv := inv_reachable encodedLen config bulk options deadline hvalid hreach
  obtain ⟨initial, hinitial⟩ := getElem?_initials hinv.batches hrun
  have hbatch := inv_of_getElem? hinv.batches hinitial hrun
  have hbooks := hbatch.books
  have hlane : run.lane = some number := by
    rw [BatchRun.lane, hbooks.config.batch,
      batch_of_getElem? encodedLen config bulk options deadline hinitial]
  have hresent : initial.resent attempt = attempt.resent bulk := by
    refine resent_eq encodedLen config bulk options deadline hvalid (List.mem_of_getElem? hinitial)
      (hbooks.sends attempt ?_)
    exact List.mem_append_left _ (List.mem_of_getElem? hattempt)
  obtain ⟨events, more, hevents, hmore, hall⟩ :=
    (reportInv_reachable encodedLen config bulk options deadline hvalid hreach).allReported
  have hreported := hall number initial run hinitial hrun
  rw [hevents]
  refine ⟨fun next hnext => ?_, fun operation code delay pendingEntries hevent => ?_⟩
  · have hsent : run.sent[position + 1]? = some next.indexes := by
      rw [BatchRun.sent, List.getElem?_map, hnext]
      rfl
    obtain ⟨hlt, -⟩ := List.getElem?_eq_some_iff.1 hsent
    obtain ⟨operation, code, delay, pendingEntries, hevent⟩ := hreported.announced position hlt
    refine ⟨?_, operation, code, delay, pendingEntries, ?_⟩
    · rw [hreported.resumed position attempt next.indexes hattempt hsent, hresent]
    · exact List.mem_append_left _ (hlane ▸ hevent)
  · have hold : .retryScheduled operation (some number) (position + 1) code delay pendingEntries ∈
        events := by
      apply (List.mem_append.1 hevent).resolve_right
      intro hlate
      exact Bool.noConfusion (hmore _ hlate)
    obtain ⟨found, other, hposition, hother, hcode, hne, hpending⟩ :=
      hreported.explained _ hold (hlane ▸ rfl)
    obtain rfl : found = position := by omega
    obtain rfl := Option.some.inj (hattempt.symm.trans hother)
    obtain ⟨index, hindex⟩ := List.exists_mem_of_ne_nil _ hne
    have hsound := (BatchOperation.mem_resent.1 hindex).1.sound
    exact ⟨hresent ▸ hpending, hcode ▸ namesCause_reportedCode hsound⟩

end Run

end BulkState

theorem BulkState.retry_event_names_cause_mixedRun :
    ∃ state run attempt, mixedRun = some state ∧ state.batches[0]? = some run ∧
      run.past[0]? = some attempt ∧ NamesCause sampleBulk attempt .unavailable := by
  have hleads : mixedRun.any fun state => state.batches[0]?.any fun run => run.past[0]?.any
      fun attempt => LeadsWithRetry sampleBulk attempt ∧
        .retryScheduled .mutateRows (some 0) 1 .unavailable 1 1 ∈
          state.telemetry.state.events := by decide +kernel
  obtain ⟨state, hstate, hleads⟩ := (Option.any_eq_true _ _).1 hleads
  obtain ⟨run, hrun, hleads⟩ := (Option.any_eq_true _ _).1 hleads
  obtain ⟨attempt, hattempt, hleads⟩ := (Option.any_eq_true _ _).1 hleads
  obtain ⟨hleads, hevent⟩ := of_decide_eq_true hleads
  have hcause := BulkState.retry_event_names_cause wireLen bulkConfig sampleBulk pairOptions
    600000000000 plainCodec validateOptions_pair ⟨mixedInputs, hstate⟩ hrun hattempt
  exact ⟨state, run, attempt, hstate, hrun, hattempt, (hcause.2 _ _ _ _ hevent).2.2 hleads⟩

/-! ### A permanent failure comes first

Of the three entries of one request the first one is invalid, and the stream breaks before there is
a result for the last one, which is sent again. -/

def invalidFirst : List BulkInput :=
  let retryTurn : RetryTurn := { draw := 1, now := 10 }
  let invalid : Proto.RpcStatus := { code := 3, message := "", details := [] }
  let unavailable : Status := { code := .unavailable, message := "", details := [] }
  [.batch 0 (.polled (turnAt 0)), .batch 0 .opened,
    .batch 0 (.message
      { entries := [{ index := 0, status := some invalid }, { index := 1, status := none }] }
      retryTurn),
    .batch 0 (.streamClosed (.broke unavailable) retryTurn)]

theorem not_namesCause_invalidFirst :
    ∃ state run attempt, ProofSupport.Transition.run (BulkState.step plainCodec)
        (.start wireLen bulkConfig sampleBulk .default 600000000000) invalidFirst = some state ∧
      state.batches[0]? = some run ∧ run.past[0]? = some attempt ∧
      attempt.resent sampleBulk = [2] ∧ attempt.codeOf 2 = some .unavailable ∧
      .retryScheduled .mutateRows (some 0) 1 .invalidArgument 1 1 ∈
        state.telemetry.state.events ∧
      ¬ NamesCause sampleBulk attempt .invalidArgument := by
  have hfirst : (run (BulkState.step plainCodec)
      (.start wireLen bulkConfig sampleBulk .default 600000000000) invalidFirst).any fun state =>
        state.batches[0]?.any fun run => run.past[0]?.any fun attempt =>
          attempt.resent sampleBulk = [2] ∧ attempt.codeOf 2 = some .unavailable ∧
            .retryScheduled .mutateRows (some 0) 1 .invalidArgument 1 1 ∈
              state.telemetry.state.events ∧
            ¬ NamesCause sampleBulk attempt .invalidArgument := by decide +kernel
  obtain ⟨state, hstate, hfirst⟩ := (Option.any_eq_true _ _).1 hfirst
  obtain ⟨run, hrun, hfirst⟩ := (Option.any_eq_true _ _).1 hfirst
  obtain ⟨attempt, hattempt, hfirst⟩ := (Option.any_eq_true _ _).1 hfirst
  exact ⟨state, run, attempt, hstate, hrun, hattempt, of_decide_eq_true hfirst⟩

end BigtableClient
