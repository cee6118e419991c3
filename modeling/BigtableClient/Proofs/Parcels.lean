import BigtableClient.Proofs.Replay
import BigtableClient.WriteServer

/-!
# Parcels on their way

A request that was issued stays on record as it was sent.  Every parcel carries one
row of the bulk mutation, and a row that travels in two parcels is safe to send
twice.
-/

namespace BigtableClient

/-! ## Records only grow -/

/-- Later attempts may have been added, and what was received may have been recorded, but nothing
that was sent has changed. -/
def Extends (attempts attempts' : List WriteAttempt) : Prop :=
  ∀ (n : Nat) (attempt : WriteAttempt), attempts[n]? = some attempt →
    ∃ attempt', attempts'[n]? = some attempt' ∧
      attempt'.indexes = attempt.indexes ∧ attempt'.request = attempt.request

namespace Extends

variable {past attempts attempts' more : List WriteAttempt} {attempt attempt' : WriteAttempt}

theorem refl (attempts : List WriteAttempt) : Extends attempts attempts :=
  fun _ attempt h => ⟨attempt, h, rfl, rfl⟩

theorem append (attempts more : List WriteAttempt) : Extends attempts (attempts ++ more) := by
  intro n attempt h
  have hlt := (List.getElem?_eq_some_iff.1 h).1
  exact ⟨attempt, by rw [List.getElem?_append_left hlt, h], rfl, rfl⟩

theorem replace_last (hindexes : attempt'.indexes = attempt.indexes)
    (hrequest : attempt'.request = attempt.request) :
    Extends (past ++ [attempt]) (past ++ [attempt']) := by
  intro n found h
  rcases Nat.lt_trichotomy n past.length with hlt | heq | hgt
  · rw [List.getElem?_append_left hlt] at h
    exact ⟨found, by rw [List.getElem?_append_left hlt, h], rfl, rfl⟩
  · rw [heq, List.getElem?_concat_length] at h
    obtain rfl := Option.some.inj h
    exact ⟨attempt', by rw [heq, List.getElem?_concat_length], hindexes, hrequest⟩
  · have hlt := (List.getElem?_eq_some_iff.1 h).1
    rw [List.length_append, List.length_singleton] at hlt
    omega

end Extends

namespace BatchRun

variable {codec : Codec} {initial : BatchOperation} {run run' : BatchRun}
  {shared shared' : OperationState} {input : BatchInput}

theorem attempts_of_reschedules {outcome : AttemptOutcome} (hphase : run.phase = .finished)
    (h : Reschedules run shared outcome run' shared') : run'.attempts = run.past := by
  cases h with
  | done hpending =>
      rw [attempts, underWay, hphase]
      exact List.append_nil _
  | crashed hpending => exact List.append_nil _
  | expired hpending => exact List.append_nil _
  | sleeping delay hpending => exact List.append_nil _

theorem extends_move (hinv : Inv codec initial run)
    (h : Move codec run shared input run' shared') : Extends run.attempts run'.attempts := by
  have hrecords := (inv_move hinv h).records
  cases h with
  | exhausted _ hresting hpending =>
      rw [attempts_of_isResting hresting]
      exact .append _ _
  | expired _ hresting =>
      rw [attempts_of_isResting hresting]
      exact .append _ _
  | called _ turn hresting hpending =>
      rw [attempts_of_isResting hresting]
      exact .append _ _
  | crashed _ hresting hpending =>
      rw [attempts_of_isResting hresting]
      exact .append _ _
  | opened hphase =>
      rw [attempts, underWay, hphase]
      exact .refl _
  | received turn hphase hresponse =>
      rw [attempts, underWay, hphase]
      exact .replace_last rfl rfl
  | settled _ hends hheard hreschedules =>
      obtain ⟨-, before, hunderWay, hindexes, hrequest⟩ := hends.underWay
      rw [attempts_of_phase hunderWay, attempts_of_reschedules rfl hreschedules]
      exact .replace_last hindexes hrequest
  | panicked _ hphase houtcome => exact hrecords.elim

end BatchRun

theorem Books.retrySafe_of_two {initial operation : BatchOperation} {attempts : List WriteAttempt}
    {live : List PendingEntry} {m n index : Nat} {attempt attempt' : WriteAttempt}
    (h : Books initial operation attempts live) (hattempt : attempts[m]? = some attempt)
    (hattempt' : attempts[n]? = some attempt') (hne : m ≠ n) (hmem : index ∈ attempt.indexes)
    (hmem' : index ∈ attempt'.indexes) :
    ∀ entry ∈ initial.pending, entry.originalIndex = index → entry.retrySafe := by
  have hfollows := List.pairwise_iff_getElem.1 h.follows
  obtain ⟨hm, rfl⟩ := List.getElem?_eq_some_iff.1 hattempt
  obtain ⟨hn, rfl⟩ := List.getElem?_eq_some_iff.1 hattempt'
  rcases Nat.lt_or_gt_of_ne hne with hlt | hgt
  · exact (hfollows m n hm hn hlt index hmem').2
  · exact (hfollows n m hn hm hgt index hmem).2

namespace BulkState

open ProofSupport.Transition

variable {codec : Codec} {initials : List BatchOperation} {state next : BulkState}
  {input : BulkInput} {parcel other : Parcel} {attempt : WriteAttempt} {index : Nat}

theorem sent_eq_some : state.sent parcel = some attempt ↔
    ∃ run, state.batches[parcel.batch]? = some run ∧
      run.attempts[parcel.request]? = some attempt := by
  simp [sent, Option.bind_eq_some_iff]

/-- What was sent stays sent. -/
theorem sent_step (h : Inv codec initials state) (hstep : state.step codec input = some next)
    (hsent : state.sent parcel = some attempt) :
    ∃ attempt', next.sent parcel = some attempt' ∧
      attempt'.indexes = attempt.indexes ∧ attempt'.request = attempt.request := by
  obtain ⟨run, hrun, hattempt⟩ := sent_eq_some.1 hsent
  cases step_of_step hstep with
  | dropped hrunning horder => exact ⟨attempt, hsent, rfl, rfl⟩
  | batch batchInput hrunning hcalm hmoved hstart hbatch =>
      rename_i number moved moved' shared
      simp only [sent_eq_some, batches_collect]
      show ∃ attempt', (∃ run, (state.batches.set number moved')[parcel.batch]? = some run ∧ _) ∧ _
      rw [getElem?_set_run hmoved]
      by_cases heq : number = parcel.batch
      · rw [heq, hrun] at hmoved
        obtain rfl := Option.some.inj hmoved
        obtain ⟨initial, -, hinv⟩ := exists_of_forall₂ h.batches (List.mem_of_getElem? hrun)
        obtain ⟨attempt', hattempt', hsame⟩ :=
          BatchRun.extends_move hinv (BatchRun.move_of_step hbatch) _ attempt hattempt
        exact ⟨attempt', ⟨moved', if_pos heq, hattempt'⟩, hsame⟩
      · exact ⟨attempt, ⟨run, (if_neg heq).trans hrun, hattempt⟩, rfl, rfl⟩

theorem mem_done : parcel ∈ state.done ↔
    ∃ attempt, state.sent parcel = some attempt ∧ parcel.position ∈ attempt.doneAt := by
  obtain ⟨batch, request, position⟩ := parcel
  simp only [done, BatchRun.done, List.mem_flatMap, List.mem_map, Prod.exists,
    List.mk_mem_zipIdx_iff_getElem?, sent_eq_some, Parcel.mk.injEq]
  constructor
  · rintro ⟨run, _, hrun, attempt, _, hattempt, _, hdone, rfl, rfl, rfl⟩
    exact ⟨attempt, ⟨run, hrun, hattempt⟩, hdone⟩
  · rintro ⟨attempt, ⟨run, hrun, hattempt⟩, hdone⟩
    exact ⟨run, batch, hrun, attempt, request, hattempt, position, hdone, rfl, rfl, rfl⟩

/-! ## What a parcel carries -/

def rowOf (state : BulkState) (parcel : Parcel) : Option Nat := do
  let attempt ← state.sent parcel
  attempt.indexes[parcel.position]?

theorem rowOf_eq_some : state.rowOf parcel = some index ↔
    ∃ attempt, state.sent parcel = some attempt ∧
      attempt.indexes[parcel.position]? = some index := by
  simp [rowOf, Option.bind_eq_some_iff]

theorem rowOf_step (h : Inv codec initials state) (hstep : state.step codec input = some next)
    (hrow : state.rowOf parcel = some index) : next.rowOf parcel = some index := by
  obtain ⟨attempt, hsent, hindex⟩ := rowOf_eq_some.1 hrow
  obtain ⟨attempt', hsent', hindexes, -⟩ := sent_step h hstep hsent
  exact rowOf_eq_some.2 ⟨attempt', hsent', hindexes ▸ hindex⟩

theorem getElem?_of_forall₂ {α β : Type*} {R : α → β → Prop} {as : List α} {bs : List β} {n : Nat}
    {b : β} (h : List.Forall₂ R as bs) (hb : bs[n]? = some b) : ∃ a, as[n]? = some a ∧ R a b := by
  induction h generalizing n with
  | nil => cases hb
  | cons hhead htail ih =>
      cases n with
      | zero =>
          obtain rfl := Option.some.inj hb
          exact ⟨_, rfl, hhead⟩
      | succ n => exact ih hb

/-- A parcel comes from the batch that its row belongs to. -/
theorem exists_initial (h : Inv codec initials state) (hrow : state.rowOf parcel = some index) :
    ∃ initial, initials[parcel.batch]? = some initial ∧ index ∈ initial.indexes ∧
      ∃ run attempt, state.batches[parcel.batch]? = some run ∧ BatchRun.Inv codec initial run ∧
        run.attempts[parcel.request]? = some attempt ∧
        attempt.indexes[parcel.position]? = some index := by
  obtain ⟨attempt, hsent, hindex⟩ := rowOf_eq_some.1 hrow
  obtain ⟨run, hrun, hattempt⟩ := sent_eq_some.1 hsent
  obtain ⟨initial, hinitial, hinv⟩ := getElem?_of_forall₂ h.batches hrun
  obtain ⟨entries, hsublist, hindexes, -⟩ :=
    hinv.books.sends attempt (List.mem_of_getElem? hattempt)
  refine ⟨initial, hinitial, ?_, run, attempt, hrun, hinv, hattempt, hindex⟩
  have hmem := List.mem_of_getElem? hindex
  rw [hindexes] at hmem
  exact (hsublist.map _).subset hmem

/-- An entry belongs to one batch. -/
theorem number_eq_of_mem {m n : Nat} {initial initial' : BatchOperation}
    (hnodup : (initials.flatMap BatchOperation.indexes).Nodup)
    (hinitial : initials[m]? = some initial) (hinitial' : initials[n]? = some initial')
    (hmem : index ∈ initial.indexes) (hmem' : index ∈ initial'.indexes) : m = n := by
  have hdisjoint := (List.nodup_flatMap.1 hnodup).2
  obtain ⟨hm, rfl⟩ := List.getElem?_eq_some_iff.1 hinitial
  obtain ⟨hn, rfl⟩ := List.getElem?_eq_some_iff.1 hinitial'
  rw [List.pairwise_iff_getElem] at hdisjoint
  rcases Nat.lt_trichotomy m n with hlt | heq | hgt
  · exact absurd hmem' (List.disjoint_left.1 (hdisjoint m n hm hn hlt) hmem)
  · exact heq
  · exact absurd hmem (List.disjoint_left.1 (hdisjoint n m hn hm hgt) hmem')

/-- Two parcels with the same row come from two requests of one batch. -/
theorem request_ne (h : Inv codec initials state)
    (hnodup : (initials.flatMap BatchOperation.indexes).Nodup)
    (hrow : state.rowOf parcel = some index) (hother : state.rowOf other = some index)
    (hne : parcel ≠ other) : parcel.batch = other.batch ∧ parcel.request ≠ other.request := by
  obtain ⟨initial, hinitial, hmem, run, attempt, hrun, hinv, hattempt, hindex⟩ :=
    exists_initial h hrow
  obtain ⟨initial', hinitial', hmem', run', attempt', hrun', -, hattempt', hindex'⟩ :=
    exists_initial h hother
  have hbatch := number_eq_of_mem hnodup hinitial hinitial' hmem hmem'
  refine ⟨hbatch, fun hrequest => hne ?_⟩
  rw [← hbatch, hrun] at hrun'
  obtain rfl := Option.some.inj hrun'
  rw [← hrequest, hattempt] at hattempt'
  obtain rfl := Option.some.inj hattempt'
  obtain ⟨entries, hsublist, hindexes, -⟩ :=
    hinv.books.sends attempt (List.mem_of_getElem? hattempt)
  have hinitialNodup : initial.indexes.Nodup :=
    (List.nodup_flatMap.1 hnodup).1 initial (List.mem_of_getElem? hinitial)
  have hattemptNodup : attempt.indexes.Nodup := by
    rw [hindexes]
    exact hinitialNodup.sublist (hsublist.map _)
  have hposition : parcel.position = other.position :=
    (List.getElem?_inj (List.getElem?_eq_some_iff.1 hindex).1 hattemptNodup).1
      (hindex.trans hindex'.symm)
  cases parcel
  cases other
  simp_all

section Run

variable (encodedLen : EncodedLen) (config : ClientConfig) (bulk : BulkMutation)
  (options : BulkMutationOptions) (deadline : Instant) (hoptions : options.Valid)
  (h : Inv codec (initialOperations encodedLen config bulk options deadline) state)

include h hoptions

theorem contents_eq_some {entry : Proto.MutateRowsEntry}
    (hcontents : state.contents parcel = some entry) :
    ∃ index row, state.rowOf parcel = some index ∧ bulk.entries[index]? = some row ∧
      entry = row.intoProto := by
  obtain ⟨attempt, hsent, hentry⟩ := Option.bind_eq_some_iff.1 hcontents
  obtain ⟨run, hrun, hattempt⟩ := sent_eq_some.1 hsent
  obtain ⟨initial, hinitial, hinv⟩ := exists_of_forall₂ h.batches (List.mem_of_getElem? hrun)
  obtain ⟨entries, hsublist, hindexes, hrequest⟩ :=
    hinv.books.sends attempt (List.mem_of_getElem? hattempt)
  rw [hrequest, mutateRowsRequest, List.getElem?_map] at hentry
  obtain ⟨pending, hpending, rfl⟩ := Option.map_eq_some_iff.1 hentry
  obtain ⟨row, hrow, hproto, -⟩ := row_of_mem_pending encodedLen config bulk options deadline
    hoptions hinitial (hsublist.subset (List.mem_of_getElem? hpending))
  refine ⟨pending.originalIndex, row, rowOf_eq_some.2 ⟨attempt, hsent, ?_⟩, hrow, hproto⟩
  rw [hindexes, List.getElem?_map, hpending]
  rfl

/-- A row that travels in two parcels is safe to send twice. -/
theorem isRetrySafe_of_two {row : RowMutation} (hrow : state.rowOf parcel = some index)
    (hother : state.rowOf other = some index) (hne : parcel ≠ other)
    (hentry : bulk.entries[index]? = some row) : row.isRetrySafe := by
  have hnodup := nodup_initialOperations encodedLen config bulk options deadline hoptions
  obtain ⟨hbatch, hrequest⟩ := request_ne h hnodup hrow hother hne
  obtain ⟨initial, hinitial, hmem, run, attempt, hrun, hinv, hattempt, hindex⟩ :=
    exists_initial h hrow
  obtain ⟨-, -, -, run', attempt', hrun', -, hattempt', hindex'⟩ := exists_initial h hother
  rw [← hbatch, hrun] at hrun'
  obtain rfl := Option.some.inj hrun'
  have hsafe : ∀ entry ∈ initial.pending, entry.originalIndex = index → entry.retrySafe :=
    hinv.books.retrySafe_of_two hattempt hattempt' hrequest (List.mem_of_getElem? hindex)
      (List.mem_of_getElem? hindex')
  obtain ⟨entry, hpending, rfl⟩ := List.mem_map.1 hmem
  obtain ⟨row', hentry', -, hrowSafe⟩ := row_of_mem_pending encodedLen config bulk options deadline
    hoptions (List.mem_of_getElem? hinitial) hpending
  obtain rfl := Option.some.inj (hentry.symm.trans hentry')
  rw [← hrowSafe]
  exact hsafe entry hpending rfl

end Run

end BulkState

end BigtableClient
