import Mathlib

/-!
# Trimming

The part of a list between its first and its last element that is kept.  A trimmed
list stays as it is, and no pattern of kept elements gets lost.
-/

namespace BigtableClient.ProofSupport.Trimming

variable {α : Type*} {p : α → Bool} {l pattern : List α}

def trimmed (p : α → Bool) (l : List α) : List α :=
  (l.dropWhile p).rdropWhile p

theorem trimmed_idempotent (p : α → Bool) (l : List α) : trimmed p (trimmed p l) = trimmed p l := by
  have hhead : (trimmed p l).dropWhile p = trimmed p l := by
    apply List.dropWhile_eq_self_iff.2
    intro hpos
    have hpre : trimmed p l <+: l.dropWhile p := List.rdropWhile_prefix p _
    rw [hpre.getElem hpos]
    exact List.dropWhile_get_zero_not p l _
  have hlast : (trimmed p l).rdropWhile p = trimmed p l := List.rdropWhile_idempotent p _
  rw [trimmed, hhead, hlast]

theorem isInfix_dropWhile (hkept : ∀ a ∈ pattern, p a = false) (h : pattern <:+: l) :
    pattern <:+: l.dropWhile p := by
  induction l with
  | nil => exact h
  | cons a l ih =>
      rw [List.dropWhile_cons]
      split_ifs with hdrop
      · rcases List.infix_cons_iff.1 h with hpre | hinfix
        · cases pattern with
          | nil => exact List.nil_infix
          | cons b pattern =>
              obtain ⟨rfl, -⟩ := List.cons_prefix_cons.1 hpre
              rw [hkept b List.mem_cons_self] at hdrop
              cases hdrop
        · exact ih hinfix
      · exact h

theorem isInfix_trimmed (hkept : ∀ a ∈ pattern, p a = false) (h : pattern <:+: l) :
    pattern <:+: trimmed p l := by
  have hdrop := isInfix_dropWhile hkept h
  rw [trimmed, List.rdropWhile, ← List.reverse_infix, List.reverse_reverse]
  refine isInfix_dropWhile ?_ (List.reverse_infix.2 hdrop)
  intro a ha
  exact hkept a (List.mem_reverse.1 ha)

end BigtableClient.ProofSupport.Trimming
