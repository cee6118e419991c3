import BigtableClient.Proofs.Effect
import BigtableClient.Proofs.Lookup
import BigtableClient.Proofs.StreamExact

/-!
# What was written is read

A bulk mutation and a read of one of its rows, against the same table: the row that
`read_row` returns lists the cells as they were before the entry or as after one
delivery of it, and a lookup finds the newest of them.
-/

namespace BigtableClient

open ProofSupport.Transition

/-! ## Rows as a table lists them -/

def Row.listed (row : Row) (family : String) (qualifier : Bytes) : List Cell :=
  (row.families.filter fun item => item.name = family).flatMap fun item =>
    (item.columns.filter fun column => column.qualifier = qualifier).flatMap Column.cells

/-- The row lists exactly these cells, the newest of a column first. -/
structure Row.Shows (row : Row) (cells : RowCells) : Prop where
  newestFirst : ∀ family qualifier, (row.listed family qualifier).Pairwise fun newer older =>
    older.timestampMicros < newer.timestampMicros
  value : ∀ (key : CellKey) (value : Bytes), cells.value key = some value ↔
    ∃ cell ∈ row.listed key.familyName key.columnQualifier,
      cell.timestampMicros = key.timestampMicros ∧ cell.value = value

structure Table.Shows (table : Table) (rows : Bytes → RowServer.Served) : Prop where
  row : ∀ row ∈ table.rows, row.Shows (rows row.key).row
  complete : ∀ key cellKey, (rows key).row.value cellKey ≠ none →
    ∃ row ∈ table.rows, row.key = key

def RowCells.IsNewest (cells : RowCells) (key : CellKey) (value : Bytes) : Prop :=
  cells.value key = some value ∧ ∀ timestampMicros,
    cells.value { key with timestampMicros := timestampMicros } ≠ none →
      timestampMicros ≤ key.timestampMicros

/-- The row is well formed and lists these cells, and lookups find the newest of a column. -/
structure ReadsBack (search : BinarySearch) (cells : RowCells) (row : Row) : Prop where
  distinct : Distinct row
  shows : row.Shows cells
  latest : ∀ family qualifier,
    ∀ cell ∈ RowDecoder.optionalLatestCell search ⟨row⟩ family qualifier,
      cells.IsNewest ⟨family, qualifier, cell.timestampMicros⟩ cell.value
  absent : ∀ family qualifier,
    RowDecoder.optionalLatestCell search ⟨row⟩ family qualifier = none →
      ∀ timestampMicros, cells.value ⟨family, qualifier, timestampMicros⟩ = none

/-- What a read of the key returns: no row when there is no cell, else the row. -/
def Returned (search : BinarySearch) (key : Bytes) (cells : RowCells) (found : Option Row) :
    Prop :=
  (found = none ∧ ∀ cellKey, cells.value cellKey = none) ∨
    ∃ row, found = some row ∧ row.key = key ∧ ReadsBack search cells row

/-! ## Lookups -/

theorem filter_eq_nil_of_notMem {α κ : Type*} [DecidableEq κ] {key : α → κ} {l : List α} {k : κ}
    (h : k ∉ l.map key) : (l.filter fun x => key x = k) = [] := by
  refine List.filter_eq_nil_iff.2 fun x hx hsame => h ?_
  rw [← of_decide_eq_true hsame]
  exact List.mem_map_of_mem hx

theorem filter_eq_find?_toList {α κ : Type*} [DecidableEq κ] {key : α → κ} {l : List α}
    (hnodup : (l.map key).Nodup) (k : κ) :
    (l.filter fun x => key x = k) = (l.find? fun x => key x = k).toList := by
  induction l with
  | nil => rfl
  | cons x l ih =>
      obtain ⟨hx, hl⟩ := List.nodup_cons.1 hnodup
      by_cases hkey : key x = k
      · rw [List.filter_cons_of_pos (by simpa using hkey),
          List.find?_cons_of_pos (by simpa using hkey), filter_eq_nil_of_notMem (hkey ▸ hx)]
        rfl
      · rw [List.filter_cons_of_neg (by simpa using hkey), ih hl,
          List.find?_cons_of_neg (by simpa using hkey)]

section Lookups

variable {search : BinarySearch} {row : Row} {cells : RowCells}

/-- A lookup finds the first cell that the row lists in the column. -/
theorem optionalLatestCell_eq_head? (hsearch : search.Sound) (hdistinct : Distinct row)
    (family : String) (qualifier : Bytes) :
    RowDecoder.optionalLatestCell search ⟨row⟩ family qualifier =
      (row.listed family qualifier).head? := by
  unfold RowDecoder.optionalLatestCell RowDecoder.optionalColumn Row.listed
  rw [filter_eq_find?_toList hdistinct.families family]
  cases hfamily : row.families.find? fun item => item.name = family with
  | none => rfl
  | some item =>
      have hqualifiers := hdistinct.qualifiers item (List.mem_of_find?_eq_some hfamily)
      simp only [Option.bind_eq_bind, Option.bind_some, Option.toList_some,
        List.flatMap_singleton, findColumn_eq_find? hsearch hqualifiers,
        filter_eq_find?_toList hqualifiers qualifier]
      cases item.columns.find? fun column => column.qualifier = qualifier with
      | none => rfl
      | some column => simp

theorem Row.Shows.value_eq_none (hshows : row.Shows cells) {family : String} {qualifier : Bytes}
    (hnil : row.listed family qualifier = []) (timestampMicros : Int) :
    cells.value ⟨family, qualifier, timestampMicros⟩ = none := by
  by_contra hsome
  obtain ⟨value, hvalue⟩ := Option.ne_none_iff_exists'.1 hsome
  obtain ⟨cell, hcell, -⟩ := (hshows.value _ _).1 hvalue
  rw [hnil] at hcell
  cases hcell

/-- In a row that lists the newest cells first, lookups find the newest ones. -/
theorem Row.Shows.readsBack (hshows : row.Shows cells) (hsearch : search.Sound)
    (hdistinct : Distinct row) : ReadsBack search cells row where
  distinct := hdistinct
  shows := hshows
  latest family qualifier cell hcell := by
    rw [optionalLatestCell_eq_head? hsearch hdistinct] at hcell
    obtain ⟨older, hlisted⟩ := List.head?_eq_some_iff.1 hcell
    have hnewest := hshows.newestFirst family qualifier
    rw [hlisted] at hnewest
    refine ⟨(hshows.value _ _).2 ⟨cell, ?_, rfl, rfl⟩, fun timestampMicros hsome => ?_⟩
    · rw [hlisted]
      exact List.mem_cons_self
    · obtain ⟨value, hvalue⟩ := Option.ne_none_iff_exists'.1 hsome
      obtain ⟨other, hother, rfl, -⟩ := (hshows.value _ _).1 hvalue
      rw [hlisted] at hother
      rcases List.mem_cons.1 hother with rfl | hother
      · exact le_rfl
      · exact (List.rel_of_pairwise_cons hnewest hother).le
  absent family qualifier hnone timestampMicros := by
    rw [optionalLatestCell_eq_head? hsearch hdistinct, List.head?_eq_none_iff] at hnone
    exact hshows.value_eq_none hnone timestampMicros

end Lookups

/-! ## Rows of one family -/

section OneFamily

variable {key : Bytes} {name : String} {columns : List Column} {qualifier : Bytes}

end OneFamily

/-! ## Reading the table -/

theorem ChunkGrammar.CompleteRow.distinct {row : Row} (h : ChunkGrammar.CompleteRow row) :
    Distinct row := by
  obtain ⟨cells, -, hrow⟩ := h
  rw [hrow]
  exact distinct_families row.key (ChunkGrammar.received "" [] cells)

variable {search : BinarySearch} {table : Table} {rows : Bytes → RowServer.Served} {key : Bytes}

theorem Table.Shows.returned (hshows : table.Shows rows) (hsearch : search.Sound)
    (hcomplete : ∀ row, (table.rows.find? fun row => row.key = key) = some row →
      ChunkGrammar.CompleteRow row) :
    Returned search key (rows key).row (table.rows.find? fun row => row.key = key) := by
  cases hfound : table.rows.find? fun row => row.key = key with
  | none =>
      refine Or.inl ⟨rfl, fun cellKey => ?_⟩
      by_contra hsome
      obtain ⟨row, hrow, hkey⟩ := hshows.complete key cellKey hsome
      exact absurd (by simpa using hkey) (List.find?_eq_none.1 hfound row hrow)
  | some row =>
      have hrow : row.Shows (rows row.key).row :=
        hshows.row row (List.mem_of_find?_eq_some hfound)
      obtain rfl : row.key = key := by simpa using List.find?_some hfound
      exact Or.inr ⟨row, rfl, rfl, hrow.readsBack hsearch (hcomplete row hfound).distinct⟩

end BigtableClient
