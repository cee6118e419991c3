import BigtableClient.Proofs.BulkView
import BigtableClient.ProofSupport.Transition

/-!
# The invariant of a bulk mutation

Every batch keeps its own invariant, whatever the others do, and the batches that
are over are collected once.  The entries of the batches are those of the bulk
mutation, each under its position.
-/

namespace BigtableClient.BulkState

open ProofSupport.Transition

variable {codec : Codec} {initials : List BatchOperation} {state next : BulkState}
  {input : BulkInput}

/-! ## One batch among the others -/

theorem forall₂_set {α β : Type*} {R : α → β → Prop} {as : List α} {bs : List β} {n : Nat}
    {old new : β} (h : List.Forall₂ R as bs) (hold : bs[n]? = some old)
    (hnew : ∀ a, R a old → R a new) : List.Forall₂ R as (bs.set n new) := by
  induction h generalizing n with
  | nil => cases hold
  | cons hhead htail ih =>
      cases n with
      | zero =>
          obtain rfl := Option.some.inj hold
          exact .cons (hnew _ hhead) htail
      | succ n => exact .cons hhead (ih hold)

theorem exists_of_forall₂ {α β : Type*} {R : α → β → Prop} {as : List α} {bs : List β} {b : β}
    (h : List.Forall₂ R as bs) (hb : b ∈ bs) : ∃ a ∈ as, R a b := by
  induction h with
  | nil => cases hb
  | cons hhead htail ih =>
      rcases List.mem_cons.1 hb with rfl | hb
      · exact ⟨_, List.mem_cons_self, hhead⟩
      · obtain ⟨a, ha, hab⟩ := ih hb
        exact ⟨a, List.mem_cons_of_mem _ ha, hab⟩

theorem sum_map_set {α : Type*} {f : α → Nat} {bs : List α} {n grown : Nat} {old new : α}
    (hold : bs[n]? = some old) (hnew : f new = f old + grown) :
    ((bs.set n new).map f).sum = (bs.map f).sum + grown := by
  induction bs generalizing n with
  | nil => cases hold
  | cons b bs ih =>
      cases n with
      | zero =>
          obtain rfl := Option.some.inj hold
          simp only [List.set_cons_zero, List.map_cons, List.sum_cons, hnew]
          omega
      | succ n =>
          simp only [List.set_cons_succ, List.map_cons, List.sum_cons, ih hold]
          omega

/-- The collected batches are those that are over. -/
structure Collected (completed : List Nat) (batches : List BatchRun) : Prop where
  nodup : completed.Nodup
  mem_iff : ∀ number, number ∈ completed ↔
    ∃ run, batches[number]? = some run ∧ run.phase.isFinished

section Collected

variable {completed : List Nat} {batches : List BatchRun} {number : Nat} {run run' : BatchRun}

theorem getElem?_set_run (hrun : batches[number]? = some run) (other : Nat) :
    (batches.set number run')[other]? = if number = other then some run' else batches[other]? := by
  have hlt := (List.getElem?_eq_some_iff.1 hrun).1
  rw [List.getElem?_set, if_pos hlt]

theorem Collected.set (h : Collected completed batches) (hrun : batches[number]? = some run)
    (hnot : run.phase.isFinished = false) (hnot' : run'.phase.isFinished = false) :
    Collected completed (batches.set number run') where
  nodup := h.nodup
  mem_iff other := by
    rw [h.mem_iff, getElem?_set_run hrun]
    split_ifs with heq
    · subst heq
      simp [hrun, hnot, hnot']
    · rfl

theorem Collected.append (h : Collected completed batches) (hrun : batches[number]? = some run)
    (hnot : run.phase.isFinished = false) (hfinished : run'.phase.isFinished = true) :
    Collected (completed ++ [number]) (batches.set number run') where
  nodup := by
    have hnumber : number ∉ completed := by
      rw [h.mem_iff]
      simp [hrun, hnot]
    exact List.nodup_append.2 ⟨h.nodup, List.nodup_singleton _, fun other hother last hlast heq =>
      hnumber (by rwa [← List.mem_singleton.1 hlast, ← heq])⟩
  mem_iff other := by
    rw [List.mem_append, h.mem_iff, getElem?_set_run hrun, List.mem_singleton]
    split_ifs with heq
    · subst heq
      simp [hfinished]
    · simp [Ne.symm heq]

/-- When all batches are over, they were collected in some order. -/
theorem Collected.perm_range (h : Collected completed batches)
    (hall : ∀ run ∈ batches, run.phase.isFinished) :
    completed.Perm (List.range batches.length) := by
  apply (List.perm_ext_iff_of_nodup h.nodup List.nodup_range).2
  intro number
  rw [h.mem_iff, List.mem_range]
  constructor
  · rintro ⟨run, hrun, -⟩
    exact (List.getElem?_eq_some_iff.1 hrun).1
  · intro hlt
    exact ⟨batches[number], List.getElem?_eq_getElem hlt, hall _ (List.getElem_mem hlt)⟩

end Collected

/-! ## All batches -/

structure Inv (codec : Codec) (initials : List BatchOperation) (state : BulkState) : Prop where
  batches : List.Forall₂ (BatchRun.Inv codec) initials state.batches
  collected : Collected state.completed state.batches
  running : state.phase = .running → state.batches ≠ [] →
    ∃ run ∈ state.batches, run.phase.isFinished = false
  finished : ∀ result, state.phase = .finished result →
    result = state.result ∧ ∀ run ∈ state.batches, run.phase.isFinished

theorem isFinished_of_step {run run' : BatchRun} {shared shared' : OperationState}
    {input : BatchInput} (h : run.step codec shared input = some (run', shared')) :
    run.phase.isFinished = false := by
  cases hphase : run.phase with
  | finished =>
      simp [BatchRun.step, hphase] at h
  | _ => rfl

/-- A batch that moved is collected. -/
theorem inv_collect {number : Nat} {run' : BatchRun}
    (hbatches : List.Forall₂ (BatchRun.Inv codec) initials state.batches)
    (hrun : state.batches[number]? = some run') (hrunning : state.phase = .running)
    (hpending : run'.phase.isFinished = false → Collected state.completed state.batches)
    (hover : run'.phase.isFinished = true →
      Collected (state.completed ++ [number]) state.batches) :
    Inv codec initials (state.collect number run') := by
  unfold collect
  by_cases hfinished : run'.phase.isFinished
  · rw [if_pos hfinished]
    by_cases hall : state.batches.all fun run => run.phase.isFinished
    · simp only [if_pos hall]
      rw [conclude_eq]
      refine ⟨hbatches, hover hfinished, nofun, ?_⟩
      intro result hresult
      obtain rfl := BulkPhase.finished.inj hresult
      exact ⟨rfl, List.all_eq_true.1 hall⟩
    · simp only [if_neg hall]
      refine ⟨hbatches, hover hfinished, fun _ _ => ?_, fun _ hphase => ?_⟩
      · simpa using hall
      · rw [show state.phase = .running from hrunning] at hphase
        cases hphase
  · rw [if_neg hfinished]
    refine ⟨hbatches, hpending (by simpa using hfinished), fun _ _ => ?_, fun _ hphase => ?_⟩
    · exact ⟨run', List.mem_of_getElem? hrun, by simpa using hfinished⟩
    · rw [hrunning] at hphase
      cases hphase

theorem inv_step (h : Inv codec initials state) (hstep : state.step codec input = some next) :
    Inv codec initials next := by
  cases step_of_step hstep with
  | batch batchInput hrunning hcalm hrun hstart hbatch =>
      rename_i number run run' shared
      have hnot := isFinished_of_step hbatch
      refine inv_collect ?_ ?_ hrunning ?_ ?_
      · exact forall₂_set h.batches hrun fun initial hinv => BatchRun.inv_step hinv hbatch
      · show (state.batches.set number run')[number]? = some run'
        rw [getElem?_set_run hrun, if_pos rfl]
      · exact h.collected.set hrun hnot
      · exact h.collected.append hrun hnot
  | dropped hrunning horder =>
      exact ⟨h.batches, h.collected, fun hphase => absurd hphase (phase_drop_ne_running _ _),
        fun _ hphase => absurd hphase (phase_drop_ne_finished _ _ _)⟩

/-! ## The start -/

section Start

variable (encodedLen : EncodedLen) (config : ClientConfig) (bulk : BulkMutation)
  (options : BulkMutationOptions) (deadline : Instant)

theorem getElem?_start {number : Nat} {run : BatchRun}
    (h : (start encodedLen config bulk options deadline).batches[number]? = some run) :
    ∃ entries ∈ splitBatches encodedLen bulk.entries (tableName config bulk.tableId.val)
        config.appProfileId options.batch,
      run = .new (tableName config bulk.tableId.val) config.appProfileId options deadline entries
        number := by
  obtain ⟨⟨entries, batch⟩, hentries, rfl⟩ := Option.map_eq_some_iff.1
    ((List.getElem?_map ..).symm.trans h)
  rw [List.getElem?_zipIdx] at hentries
  obtain ⟨found, hfound, heq⟩ := Option.map_eq_some_iff.1 hentries
  obtain ⟨rfl, rfl⟩ := Prod.mk.inj heq
  exact ⟨found, List.mem_of_getElem? hfound, by rw [Nat.zero_add]⟩

theorem mem_start {run : BatchRun}
    (h : run ∈ (start encodedLen config bulk options deadline).batches) :
    ∃ entries ∈ splitBatches encodedLen bulk.entries (tableName config bulk.tableId.val)
        config.appProfileId options.batch, ∃ number,
      run = .new (tableName config bulk.tableId.val) config.appProfileId options deadline entries
        number := by
  obtain ⟨number, hnumber⟩ := List.getElem?_of_mem h
  obtain ⟨entries, hentries, hrun⟩ :=
    getElem?_start encodedLen config bulk options deadline hnumber
  exact ⟨entries, hentries, number, hrun⟩

def initialOperations : List BatchOperation :=
  (start encodedLen config bulk options deadline).batches.map BatchRun.operation

theorem mem_initialOperations {initial : BatchOperation}
    (h : initial ∈ initialOperations encodedLen config bulk options deadline) :
    ∃ entries batch,
      entries ∈ splitBatches encodedLen bulk.entries (tableName config bulk.tableId.val)
        config.appProfileId options.batch ∧
      initial = (BatchRun.new (tableName config bulk.tableId.val) config.appProfileId options
        deadline entries batch).operation := by
  obtain ⟨run, hrun, rfl⟩ := List.mem_map.1 h
  obtain ⟨entries, hentries, number, rfl⟩ := mem_start encodedLen config bulk options deadline hrun
  exact ⟨entries, number, hentries, rfl⟩

theorem map_pending_initials :
    (initialOperations encodedLen config bulk options deadline).map BatchOperation.pending =
      splitBatches encodedLen bulk.entries (tableName config bulk.tableId.val)
        config.appProfileId options.batch := by
  rw [initialOperations, List.map_map, start, List.map_map]
  exact List.zipIdx_map_fst 0 _

variable (hoptions : options.Valid)

include hoptions

/-- The entries of all batches are the rows of the bulk mutation, in their order. -/
theorem flatMap_pending_initials :
    (initialOperations encodedLen config bulk options deadline).flatMap BatchOperation.pending =
      submittedEntries bulk.entries := by
  rw [List.flatMap_def, map_pending_initials]
  exact flatten_splitBatches hoptions.entries_pos bulk.entries

theorem flatMap_indexes_initials :
    (initialOperations encodedLen config bulk options deadline).flatMap BatchOperation.indexes =
      List.range bulk.entries.length := by
  have hmap : (initialOperations encodedLen config bulk options deadline).flatMap
        BatchOperation.indexes =
      ((initialOperations encodedLen config bulk options deadline).flatMap
        BatchOperation.pending).map PendingEntry.originalIndex := by
    rw [List.map_flatMap]
    rfl
  rw [hmap, flatMap_pending_initials encodedLen config bulk options deadline hoptions,
    submittedEntries, List.map_map]
  exact (List.zipIdx_map_snd 0 bulk.entries).trans (List.range_eq_range' ..).symm

theorem nodup_initialOperations :
    ((initialOperations encodedLen config bulk options deadline).flatMap
      BatchOperation.indexes).Nodup := by
  rw [flatMap_indexes_initials encodedLen config bulk options deadline hoptions]
  exact List.nodup_range

theorem fresh_initials {initial : BatchOperation}
    (h : initial ∈ initialOperations encodedLen config bulk options deadline) :
    Books.Fresh initial := by
  have hpending := flatMap_pending_initials encodedLen config bulk options deadline hoptions
  have hnodup : initial.indexes.Nodup :=
    (List.nodup_flatMap.1
      (nodup_initialOperations encodedLen config bulk options deadline hoptions)).1 initial h
  have hzero : ∀ entry ∈ initial.pending, entry.attempts = 0 := by
    intro entry hentry
    have hmem := List.mem_flatMap_of_mem h hentry
    rw [hpending] at hmem
    obtain ⟨item, -, rfl⟩ := List.mem_map.1 hmem
    rfl
  obtain ⟨entries, batch, hentries, rfl⟩ :=
    mem_initialOperations encodedLen config bulk options deadline h
  exact ⟨(greedy_splitBatches hoptions.entries_pos bulk.entries).ne_nil entries hentries, hzero,
    hnodup, hoptions.attempts_pos, rfl, rfl, rfl⟩

theorem inv_start :
    Inv codec (initialOperations encodedLen config bulk options deadline)
      (start encodedLen config bulk options deadline) where
  batches := by
    rw [initialOperations, List.forall₂_map_left_iff, List.forall₂_same]
    intro run hrun
    have hfresh := fresh_initials encodedLen config bulk options deadline hoptions
      (List.mem_map_of_mem hrun)
    obtain ⟨entries, -, number, rfl⟩ := mem_start encodedLen config bulk options deadline hrun
    exact BatchRun.inv_start hfresh
  collected := by
    refine ⟨List.nodup_nil, fun number => ⟨nofun, ?_⟩⟩
    rintro ⟨run, hrun, hfinished⟩
    obtain ⟨entries, -, rfl⟩ := getElem?_start encodedLen config bulk options deadline hrun
    cases hfinished
  running _ hne := by
    obtain ⟨run, hrun⟩ := List.exists_mem_of_ne_nil _ hne
    refine ⟨run, hrun, ?_⟩
    obtain ⟨entries, -, number, rfl⟩ := mem_start encodedLen config bulk options deadline hrun
    rfl
  finished := nofun

theorem inv_reachable
    (hreach : Reachable (step codec) (start encodedLen config bulk options deadline) state) :
    Inv codec (initialOperations encodedLen config bulk options deadline) state :=
  hreach.invariant _ (inv_start encodedLen config bulk options deadline hoptions)
    fun _ _ _ hinv hstep => inv_step hinv hstep

omit hoptions in
theorem maxAttempts_initialOperations {initial : BatchOperation}
    (h : initial ∈ initialOperations encodedLen config bulk options deadline) :
    initial.maxAttempts = options.retry.maxAttempts.toNat := by
  obtain ⟨entries, batch, -, rfl⟩ := mem_initialOperations encodedLen config bulk options deadline h
  rfl

theorem row_of_mem_pending {initial : BatchOperation} {entry : PendingEntry}
    (h : initial ∈ initialOperations encodedLen config bulk options deadline)
    (hentry : entry ∈ initial.pending) :
    ∃ row, bulk.entries[entry.originalIndex]? = some row ∧ entry.proto = row.intoProto ∧
      entry.retrySafe = row.isRetrySafe := by
  have hmem := List.mem_flatMap_of_mem h hentry
  rw [flatMap_pending_initials encodedLen config bulk options deadline hoptions] at hmem
  obtain ⟨⟨row, position⟩, hrow, rfl⟩ := List.mem_map.1 hmem
  exact ⟨row, List.mk_mem_zipIdx_iff_getElem?.1 hrow, rfl, rfl⟩

end Start

end BigtableClient.BulkState
