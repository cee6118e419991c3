import Mathlib

/-!
# Greedy splitting

A list is split into groups by adding one item after the other to the last group,
and by starting a new group when the last one would no longer fit.  An item that
does not fit by itself makes a group of its own.
-/

namespace BigtableClient.ProofSupport.GreedySplit

variable {α : Type*} (fits : List α → Prop)

abbrev Split (α : Type*) := List (List α) × List α

def add [DecidablePred fits] (split : Split α) (x : α) : Split α :=
  if split.2 ≠ [] ∧ ¬ fits (split.2 ++ [x]) then
    (split.1 ++ [split.2], [x])
  else
    (split.1, split.2 ++ [x])

def close (split : Split α) : List (List α) :=
  if split.2 = [] then split.1 else split.1 ++ [split.2]

/-- Between two groups there is a need to cut: the first item of the later one does not fit
into the earlier one. -/
def Forced (earlier later : List α) : Prop :=
  ∃ x rest, later = x :: rest ∧ ¬ fits (earlier ++ [x])

structure Greedy (groups : List (List α)) : Prop where
  ne_nil : ∀ group ∈ groups, group ≠ []
  singleton_or_fits : ∀ group ∈ groups, (∃ x, group = [x]) ∨ fits group
  forced : groups.IsChain (Forced fits)

structure SplitsInto (xs : List α) (split : Split α) : Prop where
  flatten : split.1.flatten ++ split.2 = xs
  closed : split.2 = [] → split.1 = []
  greedy : split.2 ≠ [] → Greedy fits (split.1 ++ [split.2])

variable {fits}

theorem splitsInto_nil : SplitsInto fits [] (([], []) : Split α) where
  flatten := rfl
  closed _ := rfl
  greedy h := absurd rfl h

theorem greedy_singleton (x : α) : Greedy fits [[x]] where
  ne_nil := by simp
  singleton_or_fits group hgroup := Or.inl ⟨x, List.mem_singleton.1 hgroup⟩
  forced := List.IsChain.singleton _

theorem Greedy.append_singleton {groups : List (List α)} {last : List α} {x : α}
    (h : Greedy fits (groups ++ [last])) (hfits : ¬ fits (last ++ [x])) :
    Greedy fits (groups ++ [last] ++ [[x]]) where
  ne_nil group hgroup := by
    rcases List.mem_append.1 hgroup with hgroup | hgroup
    · exact h.ne_nil group hgroup
    · simp [List.mem_singleton.1 hgroup]
  singleton_or_fits group hgroup := by
    rcases List.mem_append.1 hgroup with hgroup | hgroup
    · exact h.singleton_or_fits group hgroup
    · exact Or.inl ⟨x, List.mem_singleton.1 hgroup⟩
  forced := by
    refine List.isChain_append.2 ⟨h.forced, List.IsChain.singleton _, ?_⟩
    intro earlier hearlier later hlater
    simp only [List.getLast?_append, List.getLast?_singleton, Option.some_or,
      Option.mem_some_iff] at hearlier
    simp only [List.head?_cons, Option.mem_some_iff] at hlater
    exact ⟨x, [], hlater.symm, hearlier ▸ hfits⟩

theorem Greedy.extend_last {groups : List (List α)} {last : List α} {x : α}
    (h : Greedy fits (groups ++ [last])) (hfits : fits (last ++ [x])) :
    Greedy fits (groups ++ [last ++ [x]]) where
  ne_nil group hgroup := by
    rcases List.mem_append.1 hgroup with hgroup | hgroup
    · exact h.ne_nil group (List.mem_append_left _ hgroup)
    · simp [List.mem_singleton.1 hgroup]
  singleton_or_fits group hgroup := by
    rcases List.mem_append.1 hgroup with hgroup | hgroup
    · exact h.singleton_or_fits group (List.mem_append_left _ hgroup)
    · exact Or.inr (List.mem_singleton.1 hgroup ▸ hfits)
  forced := by
    obtain ⟨hgroups, -, hjoin⟩ := List.isChain_append.1 h.forced
    refine List.isChain_append.2 ⟨hgroups, List.IsChain.singleton _, ?_⟩
    intro earlier hearlier later hlater
    obtain ⟨first, rest, hfirst, hforced⟩ := hjoin earlier hearlier last rfl
    simp only [List.head?_cons, Option.mem_some_iff] at hlater
    exact ⟨first, rest ++ [x], by rw [← hlater, hfirst, List.cons_append], hforced⟩

section

variable [DecidablePred fits]

theorem SplitsInto.add {xs : List α} {split : Split α} (h : SplitsInto fits xs split) (x : α) :
    SplitsInto fits (xs ++ [x]) (add fits split x) := by
  obtain ⟨groups, current⟩ := split
  have hflatten : groups.flatten ++ current = xs := h.flatten
  unfold GreedySplit.add
  split_ifs with hcut
  · refine ⟨?_, by simp, fun _ => (h.greedy hcut.1).append_singleton hcut.2⟩
    simp [← hflatten]
  · refine ⟨?_, by simp, fun _ => ?_⟩
    · simp [← hflatten]
    · by_cases hcurrent : current = []
      · subst hcurrent
        rw [show groups = [] from h.closed rfl]
        exact greedy_singleton x
      · have hfits : fits (current ++ [x]) := by
          by_contra hfits
          exact hcut ⟨hcurrent, hfits⟩
        exact (h.greedy hcurrent).extend_last hfits

theorem splitsInto_foldl (xs : List α) : SplitsInto fits xs (xs.foldl (add fits) ([], [])) := by
  induction xs using List.reverseRecOn with
  | nil => exact splitsInto_nil
  | append_singleton xs x ih =>
      rw [List.foldl_append]
      exact ih.add x

end

theorem SplitsInto.flatten_close {xs : List α} {split : Split α} (h : SplitsInto fits xs split) :
    (close split).flatten = xs := by
  rw [← h.flatten]
  unfold close
  split_ifs with hcurrent
  · simp [hcurrent]
  · simp

theorem SplitsInto.greedy_close {xs : List α} {split : Split α} (h : SplitsInto fits xs split) :
    Greedy fits (close split) := by
  unfold close
  split_ifs with hcurrent
  · rw [h.closed hcurrent]
    exact ⟨by simp, by simp, List.IsChain.nil⟩
  · exact h.greedy hcurrent

end BigtableClient.ProofSupport.GreedySplit
