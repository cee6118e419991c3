import Mathlib

/-!
# Prefixes as intervals

In the lexicographic order on lists the extensions of a list form an interval: from
the list itself up to the list with its last increasable element increased and the
rest cut off.  When no element can be increased the interval has no upper end.
-/

namespace BigtableClient.ProofSupport.PrefixInterval

variable {α : Type*} [LinearOrder α]

/-- Every element but the greatest one has an immediate successor. -/
structure Successors (top : α) (next : α → α) : Prop where
  le_top : ∀ a, a ≤ top
  lt_next_iff : ∀ a b, a ≠ top → (b < next a ↔ b ≤ a)

/-- The least list above every extension of a list. -/
def successor (top : α) (next : α → α) : List α → Option (List α)
  | [] => none
  | a :: l =>
      match successor top next l with
      | some stop => some (a :: stop)
      | none => if a = top then none else some [next a]

variable {top : α} {next : α → α}

theorem successor_append_singleton (l : List α) (a : α) :
    successor top next (l ++ [a]) =
      if a = top then successor top next l else some (l ++ [next a]) := by
  induction l with
  | nil => rfl
  | cons b l ih =>
      rw [List.cons_append, successor, ih]
      by_cases ha : a = top
      · rw [if_pos ha, if_pos ha]
        rfl
      · rw [if_neg ha, if_neg ha]
        rfl

theorem ne_nil_of_successor {l stop : List α} (h : successor top next l = some stop) :
    stop ≠ [] := by
  cases l with
  | nil => cases h
  | cons a l =>
      unfold successor at h
      split at h
      · obtain rfl := Option.some.inj h
        exact List.cons_ne_nil _ _
      · split_ifs at h
        obtain rfl := Option.some.inj h
        exact List.cons_ne_nil _ _

theorem cons_le_cons_iff {a b : α} {l k : List α} :
    a :: l ≤ b :: k ↔ a < b ∨ a = b ∧ l ≤ k := by
  rw [← not_lt, List.cons_lt_cons_iff, not_or, not_and, not_lt, not_lt]
  constructor
  · rintro ⟨hle, htail⟩
    rcases lt_or_eq_of_le hle with hlt | rfl
    · exact Or.inl hlt
    · exact Or.inr ⟨rfl, htail rfl⟩
  · rintro (hlt | ⟨rfl, htail⟩)
    · exact ⟨le_of_lt hlt, fun heq => absurd hlt (heq ▸ lt_irrefl _)⟩
    · exact ⟨le_rfl, fun _ => htail⟩

/-- The interval of a list holds its extensions and nothing else. -/
theorem mem_interval_iff (h : Successors top next) (l k : List α) :
    (l ≤ k ∧ ∀ stop ∈ successor top next l, k < stop) ↔ l <+: k := by
  induction l generalizing k with
  | nil => simpa [successor] using not_lt.1 (List.not_lt_nil k)
  | cons a l ih =>
      cases k with
      | nil => simp
      | cons b k =>
          rw [List.cons_prefix_cons, ← ih k, cons_le_cons_iff]
          cases hl : successor top next l with
          | some stop =>
              simp only [successor, hl, Option.mem_some_iff, forall_eq']
              rw [List.cons_lt_cons_iff]
              constructor
              · rintro ⟨hle, hlt⟩
                rcases hle with hab | ⟨rfl, hle⟩
                · rcases hlt with hba | ⟨rfl, -⟩
                  · exact absurd hba (lt_asymm hab)
                  · exact absurd hab (lt_irrefl _)
                · exact ⟨rfl, hle, (hlt.resolve_left (lt_irrefl _)).2⟩
              · rintro ⟨rfl, hle, hlt⟩
                exact ⟨Or.inr ⟨rfl, hle⟩, Or.inr ⟨rfl, hlt⟩⟩
          | none =>
              simp only [successor, hl, Option.not_mem_none, false_implies, implies_true,
                and_true]
              by_cases ha : a = top
              · simp only [ha, if_true, Option.not_mem_none, false_implies, implies_true,
                  and_true]
                have hnot : ¬ top < b := not_lt.2 (h.le_top b)
                simp [hnot]
              · simp only [ha, if_false, Option.mem_some_iff, forall_eq']
                rw [List.cons_lt_cons_iff, h.lt_next_iff a b ha]
                constructor
                · rintro ⟨hle, hlt⟩
                  have hba : b ≤ a := hlt.resolve_right fun hnil => List.not_lt_nil k hnil.2
                  rcases hle with hab | hle
                  · exact absurd hab (not_lt.2 hba)
                  · exact hle
                · rintro ⟨rfl, hle⟩
                  exact ⟨Or.inr ⟨rfl, hle⟩, Or.inl le_rfl⟩

end BigtableClient.ProofSupport.PrefixInterval
