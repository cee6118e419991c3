import Mathlib

/-!
# Retry ledgers

Items are sent in rounds.  Each round sends the items that are still live; what it
settles is live no more.  The ledger says where every item stands: live and sent in
every round so far, or settled.
-/

namespace BigtableClient.ProofSupport.RetryLedger

variable {α ι : Type*}

def carrying [DecidableEq ι] (sent : α → List ι) (rounds : List α) (i : ι) : List α :=
  rounds.filter fun round => i ∈ sent round

structure Ledger (sent : α → List ι) (all : List ι) (rounds : List α) (live settled : List ι) :
    Prop where
  nodup : all.Nodup
  perm : (live ++ settled).Perm all
  sent_live : ∀ round ∈ rounds, live ⊆ sent round

variable {sent : α → List ι} {all live live' settled newly : List ι} {rounds : List α}
  {round round' : α} {i : ι}

theorem carrying_append_of_mem [DecidableEq ι] (h : i ∈ sent round) :
    carrying sent (rounds ++ [round]) i = carrying sent rounds i ++ [round] := by
  simp [carrying, h]

theorem carrying_append_of_notMem [DecidableEq ι] (h : i ∉ sent round) :
    carrying sent (rounds ++ [round]) i = carrying sent rounds i := by
  simp [carrying, h]

namespace Ledger

theorem start (h : all.Nodup) : Ledger sent all [] all [] where
  nodup := h
  perm := by simp
  sent_live := by simp

theorem nodup_append (h : Ledger sent all rounds live settled) : (live ++ settled).Nodup :=
  h.perm.nodup_iff.2 h.nodup

theorem notMem_live (h : Ledger sent all rounds live settled) (hi : i ∈ settled) : i ∉ live :=
  fun hlive => (List.nodup_append.1 h.nodup_append).2.2 i hlive i hi rfl

/-- A live item was sent in every round. -/
theorem carrying_of_live [DecidableEq ι] (h : Ledger sent all rounds live settled) (hi : i ∈ live) :
    carrying sent rounds i = rounds :=
  List.filter_eq_self.2 fun round hround => decide_eq_true (h.sent_live round hround hi)

/-- A round that sends the live items. -/
theorem append (h : Ledger sent all rounds live settled) (hround : sent round = live) :
    Ledger sent all (rounds ++ [round]) live settled where
  nodup := h.nodup
  perm := h.perm
  sent_live other hother := by
    rcases List.mem_append.1 hother with hother | hother
    · exact h.sent_live other hother
    · rw [List.mem_singleton.1 hother, hround]
      exact List.Subset.refl _

theorem replace_last (h : Ledger sent all (rounds ++ [round]) live settled)
    (hsent : sent round' = sent round) : Ledger sent all (rounds ++ [round']) live settled where
  nodup := h.nodup
  perm := h.perm
  sent_live other hother := by
    rcases List.mem_append.1 hother with hother | hother
    · exact h.sent_live other (List.mem_append_left _ hother)
    · rw [List.mem_singleton.1 hother, hsent]
      exact h.sent_live round (by simp)

theorem carrying_append_of_settled [DecidableEq ι]
    (h : Ledger sent all rounds live settled) (hround : sent round = live) (hi : i ∈ settled) :
    carrying sent (rounds ++ [round]) i = carrying sent rounds i :=
  carrying_append_of_notMem (hround ▸ h.notMem_live hi)

/-- Some of the live items are settled. -/
theorem settle (h : Ledger sent all rounds live settled) (hperm : (live' ++ newly).Perm live) :
    Ledger sent all rounds live' (newly ++ settled) where
  nodup := h.nodup
  perm := by
    rw [← List.append_assoc]
    exact (hperm.append_right settled).trans h.perm
  sent_live round hround i hi :=
    h.sent_live round hround (hperm.subset (List.mem_append_left _ hi))

theorem perm_settled (h : Ledger sent all rounds live settled) {settled' : List ι}
    (hperm : settled'.Perm settled) : Ledger sent all rounds live settled' where
  nodup := h.nodup
  perm := (hperm.append_left live).trans h.perm
  sent_live := h.sent_live

end Ledger

end BigtableClient.ProofSupport.RetryLedger
