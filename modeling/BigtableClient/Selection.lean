import BigtableClient.Proto
import BigtableClient.ProofSupport.ScanOrder

/-!
# What a row set selects

The meaning of a `RowSet` as a set of non-empty row keys.  An absent bound and an
empty bound both leave their side of the range open, and an absent row set is the
whole table.
-/

namespace BigtableClient.Selection

open Proto

def StartAdmits : Option StartKey → Bytes → Prop
  | none, _ => True
  | some (.startKeyClosed start), key => start = [] ∨ start ≤ key
  | some (.startKeyOpen start), key => start = [] ∨ start < key

def EndAdmits : Option EndKey → Bytes → Prop
  | none, _ => True
  | some (.endKeyOpen stop), key => stop = [] ∨ key < stop
  | some (.endKeyClosed stop), key => stop = [] ∨ key ≤ stop

def RangeSelects (range : Proto.RowRange) (key : Bytes) : Prop :=
  StartAdmits range.startKey key ∧ EndAdmits range.endKey key

def RowSetSelects (rows : RowSet) (key : Bytes) : Prop :=
  key ∈ rows.rowKeys ∨ ∃ range ∈ rows.rowRanges, RangeSelects range key

def Selects (rows : Option RowSet) (key : Bytes) : Prop :=
  ∀ set ∈ rows, RowSetSelects set key

instance decidableStartAdmits : ∀ start key, Decidable (StartAdmits start key)
  | none, _ => .isTrue trivial
  | some (.startKeyClosed start), key => inferInstanceAs (Decidable (start = [] ∨ start ≤ key))
  | some (.startKeyOpen start), key => inferInstanceAs (Decidable (start = [] ∨ start < key))

instance decidableEndAdmits : ∀ stop key, Decidable (EndAdmits stop key)
  | none, _ => .isTrue trivial
  | some (.endKeyOpen stop), key => inferInstanceAs (Decidable (stop = [] ∨ key < stop))
  | some (.endKeyClosed stop), key => inferInstanceAs (Decidable (stop = [] ∨ key ≤ stop))

instance (range : Proto.RowRange) (key : Bytes) : Decidable (RangeSelects range key) :=
  inferInstanceAs (Decidable (_ ∧ _))

instance (rows : RowSet) (key : Bytes) : Decidable (RowSetSelects rows key) :=
  inferInstanceAs (Decidable (_ ∨ _))

instance (rows : Option RowSet) (key : Bytes) : Decidable (Selects rows key) :=
  inferInstanceAs (Decidable (∀ set ∈ rows, RowSetSelects set key))

theorem selects_none (key : Bytes) : Selects none key := by
  simp [Selects]

theorem selects_some {rows : RowSet} {key : Bytes} :
    Selects (some rows) key ↔ RowSetSelects rows key := by
  simp [Selects]

end BigtableClient.Selection
