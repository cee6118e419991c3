import Mathlib

/-!
# Sorting by distinct keys

Where no two elements share a key, a list is determined by its elements once it is
sorted by key.
-/

namespace BigtableClient.ProofSupport.KeyedSort

variable {α κ : Type*} [LinearOrder κ] {key : α → κ} {xs ys : List α}

theorem pairwise_mergeSort_key (key : α → κ) (xs : List α) :
    (xs.mergeSort fun x y => key x ≤ key y).Pairwise fun x y => key x ≤ key y := by
  have htrans : ∀ x y z : α, decide (key x ≤ key y) → decide (key y ≤ key z) →
      decide (key x ≤ key z) := by
    intro x y z hxy hyz
    exact decide_eq_true (le_trans (of_decide_eq_true hxy) (of_decide_eq_true hyz))
  have htotal : ∀ x y : α, decide (key x ≤ key y) || decide (key y ≤ key x) := by
    intro x y
    simpa using le_total (key x) (key y)
  have hsorted := List.pairwise_mergeSort htrans htotal xs
  exact hsorted.imp fun hle => of_decide_eq_true hle

theorem mergeSort_eq_of_perm (hnodup : (xs.map key).Nodup) (hperm : ys.Perm xs) :
    (ys.mergeSort fun x y => key x ≤ key y) = xs.mergeSort fun x y => key x ≤ key y := by
  have hsame : ∀ x y, x ∈ (ys.mergeSort fun x y => key x ≤ key y) →
      y ∈ (xs.mergeSort fun x y => key x ≤ key y) → key x ≤ key y → key y ≤ key x → x = y := by
    intro x y hx hy hxy hyx
    have hx' := hperm.mem_iff.1 ((List.mergeSort_perm ys _).mem_iff.1 hx)
    have hy' := (List.mergeSort_perm xs _).mem_iff.1 hy
    exact List.inj_on_of_nodup_map hnodup hx' hy' (le_antisymm hxy hyx)
  apply List.Perm.eq_of_pairwise hsame
  · exact pairwise_mergeSort_key key ys
  · exact pairwise_mergeSort_key key xs
  · exact (List.mergeSort_perm ys _).trans (hperm.trans (List.mergeSort_perm xs _).symm)

end BigtableClient.ProofSupport.KeyedSort
