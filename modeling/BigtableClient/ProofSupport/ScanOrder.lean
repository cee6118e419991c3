import Mathlib

/-!
# Scans in either direction

A scan visits the keys of a linear order in increasing order, or in decreasing
order when it is reversed.  `Beyond` is "strictly later in the scan", `After` the
same against a position that may not exist yet.
-/

namespace BigtableClient.ProofSupport.ScanOrder

variable {α β : Type*} [LinearOrder α]

def Beyond (reversed : Bool) (previous key : α) : Prop :=
  if reversed then key < previous else previous < key

def After (reversed : Bool) (last : Option α) (key : α) : Prop :=
  ∀ previous ∈ last, Beyond reversed previous key

instance (reversed : Bool) (previous key : α) : Decidable (Beyond reversed previous key) :=
  inferInstanceAs (Decidable (if reversed then key < previous else previous < key))

instance (reversed : Bool) (last : Option α) (key : α) : Decidable (After reversed last key) :=
  inferInstanceAs (Decidable (∀ previous ∈ last, Beyond reversed previous key))

@[simp] theorem beyond_false {a b : α} : Beyond false a b ↔ a < b := by
  simp [Beyond]

@[simp] theorem beyond_true {a b : α} : Beyond true a b ↔ b < a := by
  simp [Beyond]

theorem Beyond.trans {reversed : Bool} {a b c : α} (hab : Beyond reversed a b)
    (hbc : Beyond reversed b c) : Beyond reversed a c := by
  cases reversed with
  | false => exact lt_trans (beyond_false.1 hab) (beyond_false.1 hbc) |> beyond_false.2
  | true => exact lt_trans (beyond_true.1 hbc) (beyond_true.1 hab) |> beyond_true.2

theorem not_beyond_self (reversed : Bool) (a : α) : ¬ Beyond reversed a a := by
  cases reversed <;> simp

theorem Beyond.asymm {reversed : Bool} {a b : α} (hab : Beyond reversed a b) :
    ¬ Beyond reversed b a :=
  fun hba => not_beyond_self reversed a (hab.trans hba)

@[simp] theorem after_none (reversed : Bool) (key : α) : After reversed none key := by
  simp [After]

@[simp] theorem after_some {reversed : Bool} {previous key : α} :
    After reversed (some previous) key ↔ Beyond reversed previous key := by
  simp [After]

theorem after_of_beyond {reversed : Bool} {last : Option α} {a b : α}
    (ha : After reversed last a) (hab : Beyond reversed a b) : After reversed last b :=
  fun previous hprevious => (ha previous hprevious).trans hab

/-- Where a position cuts a scan, filtering keeps the part after the cut. -/
theorem filter_beyond_eq_drop {key : β → α} {reversed : Bool} {p : α} {l : List β} {n : Nat}
    (hbehind : ∀ x ∈ l.take n, ¬ Beyond reversed p (key x))
    (hahead : ∀ x ∈ l.drop n, Beyond reversed p (key x)) :
    l.filter (fun x => Beyond reversed p (key x)) = l.drop n := by
  have hcut : l.filter (fun x => Beyond reversed p (key x)) =
      (l.take n ++ l.drop n).filter fun x => Beyond reversed p (key x) := by
    rw [List.take_append_drop]
  rw [hcut, List.filter_append, List.filter_eq_nil_iff.2 (by simpa using hbehind),
    List.filter_eq_self.2 (by simpa using hahead), List.nil_append]

end BigtableClient.ProofSupport.ScanOrder
