import Mathlib

/-!
# Find-or-append grouping

A stream of keyed values is often collected by looking a key up in the list of
groups built so far, extending the group that is found and appending a new one
otherwise.  `upsert` is that step and `groups` is what it computes: one group a
key, in order of first appearance, with the key's values in arrival order.
-/

namespace BigtableClient.ProofSupport.Grouping

variable {α β κ : Type*} [DecidableEq κ]

/-- Update the first element with key `k`, or append `fresh` when there is none. -/
def upsert (key : α → κ) (k : κ) (update : α → α) (fresh : α) : List α → List α
  | [] => [fresh]
  | x :: xs => if key x = k then update x :: xs else x :: upsert key k update fresh xs

/-- The distinct elements of a list, in order of first appearance. -/
def firsts (ks : List κ) : List κ := ks.reverse.dedup.reverse

def valuesAt (k : κ) (l : List (κ × β)) : List β :=
  (l.filter fun p => p.1 = k).map Prod.snd

/-- One group for each key, in order of first appearance. -/
def groups (build : κ → List β → α) (l : List (κ × β)) : List α :=
  (firsts (l.map Prod.fst)).map fun k => build k (valuesAt k l)

/-! ## First appearances -/

@[simp] theorem firsts_nil : firsts ([] : List κ) = [] := rfl

@[simp] theorem mem_firsts {k : κ} {ks : List κ} : k ∈ firsts ks ↔ k ∈ ks := by
  simp [firsts]

theorem nodup_firsts (ks : List κ) : (firsts ks).Nodup :=
  List.nodup_reverse.2 (List.nodup_dedup _)

theorem firsts_append_singleton (ks : List κ) (k : κ) :
    firsts (ks ++ [k]) = if k ∈ ks then firsts ks else firsts ks ++ [k] := by
  unfold firsts
  rw [List.reverse_append, List.reverse_singleton, List.singleton_append]
  split_ifs with hk
  · rw [List.dedup_cons_of_mem (List.mem_reverse.2 hk)]
  · rw [List.dedup_cons_of_notMem (fun h => hk (List.mem_reverse.1 h)), List.reverse_cons]

/-! ## Values of one key -/

@[simp] theorem valuesAt_nil (k : κ) : valuesAt k ([] : List (κ × β)) = [] := rfl

@[simp] theorem valuesAt_append (k : κ) (l l' : List (κ × β)) :
    valuesAt k (l ++ l') = valuesAt k l ++ valuesAt k l' := by
  simp [valuesAt]

@[simp] theorem valuesAt_singleton_self (k : κ) (v : β) : valuesAt k [(k, v)] = [v] := by
  simp [valuesAt]

theorem valuesAt_singleton_of_ne {k k' : κ} (h : k' ≠ k) (v : β) :
    valuesAt k [(k', v)] = [] := by
  simp [valuesAt, h]

theorem valuesAt_eq_nil_iff {k : κ} {l : List (κ × β)} :
    valuesAt k l = [] ↔ k ∉ l.map Prod.fst := by
  induction l with
  | nil => simp
  | cons p l ih =>
      by_cases hp : p.1 = k
      · simp [valuesAt, hp]
      · simp only [valuesAt, List.filter_cons, decide_eq_true_eq, if_neg hp] at ih ⊢
        simpa [Ne.symm hp] using ih

/-! ## Upserting into a keyed list -/

section Upsert

variable {key : α → κ} {k : κ} {update : α → α} {fresh : α}

theorem upsert_of_notMem {l : List α} (h : k ∉ l.map key) :
    upsert key k update fresh l = l ++ [fresh] := by
  induction l with
  | nil => rfl
  | cons x xs ih =>
      simp only [List.map_cons, List.mem_cons, not_or] at h
      rw [upsert, if_neg (fun hx => h.1 hx.symm), ih h.2, List.cons_append]

/-- On a list with distinct keys, an upsert of a present key is a pointwise update. -/
theorem upsert_of_mem {l : List α} (hnodup : (l.map key).Nodup) (h : k ∈ l.map key) :
    upsert key k update fresh l = l.map fun x => if key x = k then update x else x := by
  induction l with
  | nil => simp at h
  | cons x xs ih =>
      obtain ⟨hx, hxs⟩ := List.nodup_cons.1 hnodup
      by_cases hk : key x = k
      · rw [upsert, if_pos hk, List.map_cons, if_pos hk]
        congr 1
        conv_lhs => rw [← List.map_id xs]
        apply List.map_congr_left
        intro y hy
        have hne : key y ≠ k := fun hy' => hx (hk ▸ hy' ▸ List.mem_map_of_mem hy)
        simp [hne]
      · have hmem : k ∈ xs.map key := by
          rcases List.mem_cons.1 h with h | h
          · exact absurd h.symm hk
          · exact h
        rw [upsert, if_neg hk, List.map_cons, if_neg hk, ih hxs hmem]

end Upsert

/-! ## Groups -/

section Groups

variable {build : κ → List β → α} {key : α → κ}

theorem map_key_groups (hkey : ∀ k vs, key (build k vs) = k) (l : List (κ × β)) :
    (groups build l).map key = firsts (l.map Prod.fst) := by
  simp [groups, Function.comp_def, hkey]

theorem nodup_map_key_groups (hkey : ∀ k vs, key (build k vs) = k) (l : List (κ × β)) :
    ((groups build l).map key).Nodup := by
  rw [map_key_groups hkey]
  exact nodup_firsts _

theorem groups_append_singleton_of_notMem (l : List (κ × β)) {k : κ} (v : β)
    (h : k ∉ l.map Prod.fst) :
    groups build (l ++ [(k, v)]) = groups build l ++ [build k [v]] := by
  unfold groups
  rw [List.map_append, List.map_singleton, firsts_append_singleton, if_neg h,
    List.map_append]
  congr 1
  · apply List.map_congr_left
    intro k' hk'
    have hne : k ≠ k' := fun he => h (he ▸ mem_firsts.1 hk')
    rw [valuesAt_append, valuesAt_singleton_of_ne hne, List.append_nil]
  · rw [List.map_singleton, valuesAt_append, valuesAt_eq_nil_iff.2 h,
      valuesAt_singleton_self, List.nil_append]

theorem groups_singleton (k : κ) (v : β) : groups build [(k, v)] = [build k [v]] :=
  groups_append_singleton_of_notMem [] v (by simp)

/-- Filing one more value is one upsert, when `update` extends the group it finds. -/
theorem upsert_groups (hkey : ∀ k vs, key (build k vs) = k) {update : α → α}
    (l : List (κ × β)) (k : κ) (v : β)
    (hupdate : update (build k (valuesAt k l)) = build k (valuesAt k l ++ [v])) :
    upsert key k update (build k [v]) (groups build l) = groups build (l ++ [(k, v)]) := by
  by_cases hk : k ∈ l.map Prod.fst
  · rw [upsert_of_mem (nodup_map_key_groups hkey l)
      (by rw [map_key_groups hkey]; exact mem_firsts.2 hk)]
    unfold groups
    rw [List.map_map, List.map_append, List.map_singleton, firsts_append_singleton, if_pos hk]
    apply List.map_congr_left
    intro k' _
    simp only [Function.comp_apply, hkey, valuesAt_append]
    by_cases hk' : k' = k
    · subst k'
      rw [if_pos rfl, hupdate, valuesAt_singleton_self]
    · rw [if_neg hk', valuesAt_singleton_of_ne (fun h => hk' h.symm), List.append_nil]
  · rw [upsert_of_notMem (by rw [map_key_groups hkey]; exact fun h => hk (mem_firsts.1 h)),
      groups_append_singleton_of_notMem l v hk]

theorem mem_groups_iff {l : List (κ × β)} {x : α} :
    x ∈ groups build l ↔ ∃ k ∈ l.map Prod.fst, x = build k (valuesAt k l) := by
  simp only [groups, List.mem_map, mem_firsts]
  constructor
  · rintro ⟨k, hk, rfl⟩
    exact ⟨k, hk, rfl⟩
  · rintro ⟨k, hk, rfl⟩
    exact ⟨k, hk, rfl⟩

theorem exists_of_mem_groups {l : List (κ × β)} {x : α} (h : x ∈ groups build l) :
    ∃ k v vs, x = build k (v :: vs) := by
  obtain ⟨k, hk, rfl⟩ := mem_groups_iff.1 h
  cases hvs : valuesAt k l with
  | nil => exact absurd hk (valuesAt_eq_nil_iff.1 hvs)
  | cons v vs => exact ⟨k, v, vs, rfl⟩

/-- Looking a key up finds its group exactly when a value was filed under it. -/
theorem find?_groups (hkey : ∀ k vs, key (build k vs) = k) (l : List (κ × β)) (k : κ) :
    (groups build l).find? (fun x => key x = k) =
      if k ∈ l.map Prod.fst then some (build k (valuesAt k l)) else none := by
  split_ifs with hk
  · apply List.find?_eq_some_iff_append.2
    refine ⟨by simp [hkey], ?_⟩
    obtain ⟨pre, post, hsplit⟩ := List.append_of_mem (mem_firsts.2 hk)
    refine ⟨pre.map fun k => build k (valuesAt k l),
      post.map fun k => build k (valuesAt k l), ?_, ?_⟩
    · rw [groups, hsplit, List.map_append, List.map_cons]
    · intro x hx
      obtain ⟨k', hk', rfl⟩ := List.mem_map.1 hx
      have hnodup := nodup_firsts (l.map Prod.fst)
      rw [hsplit] at hnodup
      have hne : k' ≠ k := fun he =>
        (List.nodup_append.1 hnodup).2.2 k' hk' k (by simp) he
      simp [hkey, hne]
  · apply List.find?_eq_none.2
    intro x hx
    obtain ⟨k', hk', rfl⟩ := mem_groups_iff.1 hx
    have hne : k' ≠ k := fun he => hk (he ▸ hk')
    simp [hkey, hne]

end Groups

end BigtableClient.ProofSupport.Grouping
