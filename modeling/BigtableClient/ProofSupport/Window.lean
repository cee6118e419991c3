import Mathlib

/-!
# A window over a queue of jobs

Jobs are started in the order of a list, so many at a time as the window is wide,
and they end in any order.  What a step of a job does to it is left open: only
its stage counts.
-/

namespace BigtableClient.ProofSupport.Window

inductive Stage where
  | queued
  | active
  | done
  deriving DecidableEq, Repr

variable {α : Type*} (stage : α → Stage) (width : Nat)

def inWindow (jobs : List α) : Nat :=
  jobs.countP fun job => stage job = .active

/-- A job starts when it is the next one and there is room for it, or it goes on. -/
inductive Step : List α → List α → Prop
  | start {earlier later : List α} {job job' : α}
      (horder : ∀ other ∈ earlier, stage other ≠ .queued) (hqueued : stage job = .queued)
      (hroom : inWindow stage (earlier ++ job :: later) < width)
      (hstarted : stage job' ≠ .queued) : Step (earlier ++ job :: later) (earlier ++ job' :: later)
  | move {earlier later : List α} {job job' : α} (hactive : stage job = .active)
      (hstarted : stage job' ≠ .queued) : Step (earlier ++ job :: later) (earlier ++ job' :: later)

/-- The jobs that were started are the first ones, and those that go on fit into the window. -/
structure Kept (jobs : List α) : Prop where
  in_order : jobs.Pairwise fun job later => stage job = .queued → stage later = .queued
  inWindow_le : inWindow stage jobs ≤ width

variable {stage width} {jobs jobs' earlier later : List α} {job job' : α}

theorem inWindow_append (earlier later : List α) :
    inWindow stage (earlier ++ later) = inWindow stage earlier + inWindow stage later :=
  List.countP_append

theorem inWindow_cons (job : α) (jobs : List α) :
    inWindow stage (job :: jobs) = inWindow stage jobs + if stage job = .active then 1 else 0 := by
  simp [inWindow, List.countP_cons]

theorem in_order_replace (hstarted : stage job' ≠ .queued)
    (horder : ∀ other ∈ earlier, stage other ≠ .queued)
    (h : (earlier ++ job :: later).Pairwise fun job later =>
      stage job = .queued → stage later = .queued) :
    (earlier ++ job' :: later).Pairwise fun job later =>
      stage job = .queued → stage later = .queued := by
  obtain ⟨hearlier, hrest, -⟩ := List.pairwise_append.1 h
  apply List.pairwise_append.2
  refine ⟨hearlier, List.pairwise_cons.2 ⟨?_, (List.pairwise_cons.1 hrest).2⟩, ?_⟩
  · exact fun _ _ hqueued => absurd hqueued hstarted
  · exact fun other hother _ _ hqueued => absurd hqueued (horder other hother)

theorem exists_split {number : Nat} (h : jobs[number]? = some job) (job' : α) :
    ∃ later, jobs = jobs.take number ++ job :: later ∧
      jobs.set number job' = jobs.take number ++ job' :: later := by
  induction jobs generalizing number with
  | nil => cases h
  | cons first rest ih =>
      cases number with
      | zero =>
          obtain rfl := Option.some.inj h
          exact ⟨rest, rfl, rfl⟩
      | succ number =>
          obtain ⟨later, hrest, hset⟩ := ih h
          refine ⟨later, ?_, ?_⟩
          · rw [List.take_succ_cons, List.cons_append, ← hrest]
          · rw [List.set_cons_succ, hset, List.take_succ_cons, List.cons_append]

/-- The jobs before one that was started were started. -/
theorem Kept.not_queued_before (h : Kept stage width (earlier ++ job :: later))
    (hstarted : stage job ≠ .queued) : ∀ other ∈ earlier, stage other ≠ .queued := by
  intro other hother hqueued
  have hcross := (List.pairwise_append.1 h.in_order).2.2
  exact hstarted (hcross other hother job List.mem_cons_self hqueued)

theorem Kept.step (h : Kept stage width jobs) (hstep : Step stage width jobs jobs') :
    Kept stage width jobs' := by
  cases hstep with
  | start horder hqueued hroom hstarted =>
      refine ⟨in_order_replace hstarted horder h.in_order, ?_⟩
      rw [inWindow_append, inWindow_cons] at hroom ⊢
      split_ifs at hroom ⊢ <;> omega
  | move hactive hstarted =>
      rename_i earlier later job job'
      have hbefore := h.not_queued_before (by simp [hactive])
      refine ⟨in_order_replace hstarted hbefore h.in_order, ?_⟩
      have hle := h.inWindow_le
      rw [inWindow_append, inWindow_cons, if_pos hactive] at hle
      rw [inWindow_append, inWindow_cons]
      split_ifs <;> omega

theorem kept_of_queued (h : ∀ job ∈ jobs, stage job = .queued) : Kept stage width jobs where
  in_order := List.pairwise_of_forall_mem_list fun _ _ later hlater _ => h later hlater
  inWindow_le := by
    have hzero : inWindow stage jobs = 0 := by
      rw [inWindow, List.countP_eq_zero]
      intro job hjob
      simp [h job hjob]
    omega

theorem Kept.steps (h : Kept stage width jobs)
    (hsteps : Relation.ReflTransGen (Step stage width) jobs jobs') : Kept stage width jobs' := by
  induction hsteps with
  | refl => exact h
  | tail _ hstep ih => exact ih.step hstep

/-- The first job of the queue. -/
theorem exists_next (h : ∃ job ∈ jobs, stage job = .queued) :
    ∃ earlier job later, jobs = earlier ++ job :: later ∧ stage job = .queued ∧
      ∀ other ∈ earlier, stage other ≠ .queued := by
  induction jobs with
  | nil =>
      obtain ⟨job, hjob, -⟩ := h
      cases hjob
  | cons first rest ih =>
      by_cases hfirst : stage first = .queued
      · exact ⟨[], first, rest, rfl, hfirst, by simp⟩
      · have hrest : ∃ job ∈ rest, stage job = .queued := by
          obtain ⟨job, hjob, hqueued⟩ := h
          rcases List.mem_cons.1 hjob with rfl | hjob
          · exact absurd hqueued hfirst
          · exact ⟨job, hjob, hqueued⟩
        obtain ⟨earlier, job, later, rfl, hqueued, horder⟩ := ih hrest
        refine ⟨first :: earlier, job, later, rfl, hqueued, fun other hother => ?_⟩
        rcases List.mem_cons.1 hother with rfl | hother
        · exact hfirst
        · exact horder other hother

end BigtableClient.ProofSupport.Window
