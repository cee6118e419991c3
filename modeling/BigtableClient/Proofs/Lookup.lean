import BigtableClient.Mapping
import BigtableClient.Proofs.MergeRuns

/-!
# Lookups see every received cell

The columns of a merged row are groups of the received cells, so a lookup finds
all cells of its column, and a binary search cannot hit a wrong one: no two columns
of a family have the same qualifier.
-/

namespace BigtableClient

open Proto
open ChunkGrammar
open ProofSupport.Grouping

/-! ## Searching -/

theorem find?_eq_some_of_nodup {α κ : Type*} [DecidableEq κ] {key : α → κ} {l : List α} {x : α}
    (hnodup : (l.map key).Nodup) (hx : x ∈ l) :
    l.find? (fun y => key y = key x) = some x := by
  induction l with
  | nil => simp at hx
  | cons y l ih =>
      obtain ⟨hy, hl⟩ := List.nodup_cons.1 hnodup
      rcases List.mem_cons.1 hx with rfl | hmem
      · simp
      · have hne : key y ≠ key x := fun h => hy (h ▸ List.mem_map_of_mem hmem)
        rw [List.find?_cons_of_neg (by simpa using hne), ih hl hmem]

theorem eq_of_cmp_eq {a b : Bytes} (h : cmp a b = .eq) : a = b := by
  unfold cmp cmpUsing at h
  split_ifs at h with hlt hgt
  exact le_antisymm (not_lt.1 hgt) (not_lt.1 hlt)

/-- The binary search with its linear fallback agrees with a plain scan. -/
theorem findColumn_eq_find? {search : BinarySearch} (hsearch : search.Sound) {family : Family}
    (hnodup : (family.columns.map Column.qualifier).Nodup) (qualifier : Bytes) :
    RowDecoder.findColumn search family qualifier =
      family.columns.find? fun column => column.qualifier = qualifier := by
  unfold RowDecoder.findColumn
  cases hhit : search family.columns fun column => cmp column.qualifier qualifier with
  | none => simp
  | some index =>
      obtain ⟨column, hcolumn, hequal⟩ := hsearch _ _ _ hhit
      obtain rfl := eq_of_cmp_eq hequal
      have hscan := find?_eq_some_of_nodup hnodup (List.mem_of_getElem? hcolumn)
      rw [hscan, Option.bind_some, hcolumn]
      rfl

/-! ## Received cells -/

def cellsUnder (cells : List Received) (family : String) (qualifier : Bytes) : List Cell :=
  (cells.filter fun r => r.family = family ∧ r.qualifier = qualifier).map Received.cell

theorem valuesAt_valuesAt (cells : List Received) (family : String) (qualifier : Bytes) :
    valuesAt qualifier (valuesAt family (cells.map fun r => (r.family, r.qualifier, r.cell))) =
      cellsUnder cells family qualifier := by
  induction cells with
  | nil => rfl
  | cons r cells ih =>
      unfold valuesAt cellsUnder at ih ⊢
      by_cases hf : r.family = family <;> by_cases hq : r.qualifier = qualifier <;>
        simp_all

theorem buildFamily_name (name : String) (cells : List (Bytes × Cell)) :
    (buildFamily name cells).name = name := rfl

theorem buildColumn_qualifier (qualifier : Bytes) (cells : List Cell) :
    (buildColumn qualifier cells).qualifier = qualifier := rfl

/-- A lookup in the families of received cells, by a plain scan. -/
theorem find?_families (cells : List Received) (family : String) :
    (families cells).find? (fun item => item.name = family) =
      if family ∈ cells.map Received.family then
        some (buildFamily family
          (valuesAt family (cells.map fun r => (r.family, r.qualifier, r.cell))))
      else
        none := by
  have hfind := find?_groups buildFamily_name
    (cells.map fun r => (r.family, r.qualifier, r.cell)) family
  simpa [families, Function.comp_def] using hfind

theorem find?_columns (cells : List Received) (family : String) (qualifier : Bytes) :
    (buildFamily family
        (valuesAt family (cells.map fun r => (r.family, r.qualifier, r.cell)))).columns.find?
          (fun column => column.qualifier = qualifier) =
      if cellsUnder cells family qualifier = [] then
        none
      else
        some (buildColumn qualifier (cellsUnder cells family qualifier)) := by
  have hfind := find?_groups buildColumn_qualifier
    (valuesAt family (cells.map fun r => (r.family, r.qualifier, r.cell))) qualifier
  rw [valuesAt_valuesAt] at hfind
  apply hfind.trans
  have hiff : cellsUnder cells family qualifier = [] ↔ qualifier ∉
      (valuesAt family (cells.map fun r => (r.family, r.qualifier, r.cell))).map Prod.fst := by
    rw [← valuesAt_valuesAt, valuesAt_eq_nil_iff]
  by_cases hnil : cellsUnder cells family qualifier = []
  · rw [if_pos hnil, if_neg (hiff.1 hnil)]
  · rw [if_neg hnil, if_pos (not_not.1 fun h => hnil (hiff.2 h))]

/-! ## Well-formed rows -/

/-- No family or qualifier appears twice, and nothing is empty. -/
structure Distinct (row : Row) : Prop where
  families : (row.families.map Family.name).Nodup
  qualifiers : ∀ family ∈ row.families, (family.columns.map Column.qualifier).Nodup
  columns : ∀ family ∈ row.families, family.columns ≠ []
  cells : ∀ family ∈ row.families, ∀ column ∈ family.columns, column.cells ≠ []

theorem distinct_families (key : Bytes) (cells : List Received) :
    Distinct { key := key, families := families cells } where
  families := nodup_map_key_groups buildFamily_name _
  qualifiers family hfamily := by
    obtain ⟨name, -, rfl⟩ := mem_groups_iff.1 hfamily
    exact nodup_map_key_groups buildColumn_qualifier _
  columns family hfamily := by
    obtain ⟨name, ⟨qualifier, cell⟩, rest, rfl⟩ := exists_of_mem_groups hfamily
    intro hnil
    have hcolumn : buildColumn qualifier (valuesAt qualifier ((qualifier, cell) :: rest)) ∈
        groups buildColumn ((qualifier, cell) :: rest) :=
      mem_groups_iff.2 ⟨qualifier, by simp, rfl⟩
    have hempty : groups buildColumn ((qualifier, cell) :: rest) = [] := hnil
    rw [hempty] at hcolumn
    simp at hcolumn
  cells family hfamily column hcolumn := by
    obtain ⟨name, -, rfl⟩ := mem_groups_iff.1 hfamily
    obtain ⟨qualifier, cell, rest, rfl⟩ := exists_of_mem_groups hcolumn
    simp [buildColumn]

/-! ## Lookups -/

structure SeesEveryCell (search : BinarySearch) (row : Row) (cells : List Received) : Prop where
  found : ∀ family qualifier, cellsUnder cells family qualifier ≠ [] →
    RowDecoder.cells search ⟨row⟩ family qualifier = .ok (cellsUnder cells family qualifier)
  latest : ∀ family qualifier, ∀ cell ∈ (cellsUnder cells family qualifier).head?,
    RowDecoder.latestCell search ⟨row⟩ family qualifier = .ok cell
  optional : ∀ family qualifier, RowDecoder.optionalLatestCell search ⟨row⟩ family qualifier =
    (cellsUnder cells family qualifier).head?
  missing : ∀ family qualifier, cellsUnder cells family qualifier = [] →
    let error : RowMappingError :=
      .new row.key
        (if family ∈ cells.map Received.family then .missingColumn family qualifier
          else .missingFamily family)
    RowDecoder.cells search ⟨row⟩ family qualifier = .error error ∧
      RowDecoder.latestCell search ⟨row⟩ family qualifier = .error error
  agrees : ∀ family ∈ row.families, ∀ qualifier,
    RowDecoder.findColumn search family qualifier =
      family.columns.find? fun column => column.qualifier = qualifier

section Lookups

variable {search : BinarySearch} (hsearch : search.Sound) {row : Row} {cells : List Received}
variable (hrow : row.families = families cells) (family : String) (qualifier : Bytes)
include hsearch hrow

theorem agrees_of_families (item : Family) (hitem : item ∈ row.families) :
    RowDecoder.findColumn search item qualifier =
      item.columns.find? fun column => column.qualifier = qualifier := by
  have hdistinct := distinct_families row.key cells
  exact findColumn_eq_find? hsearch (hdistinct.qualifiers item (hrow ▸ hitem)) qualifier

omit hrow in
theorem findColumn_buildFamily :
    RowDecoder.findColumn search
        (buildFamily family
          (valuesAt family (cells.map fun r => (r.family, r.qualifier, r.cell)))) qualifier =
      if cellsUnder cells family qualifier = [] then
        none
      else
        some (buildColumn qualifier (cellsUnder cells family qualifier)) := by
  have hnodup : ((buildFamily family (valuesAt family
      (cells.map fun r => (r.family, r.qualifier, r.cell)))).columns.map
        Column.qualifier).Nodup := nodup_map_key_groups buildColumn_qualifier _
  rw [findColumn_eq_find? hsearch hnodup, find?_columns]

omit hsearch hrow in
theorem mem_of_cellsUnder_ne_nil (h : cellsUnder cells family qualifier ≠ []) :
    family ∈ cells.map Received.family := by
  obtain ⟨cell, hcell⟩ := List.exists_mem_of_ne_nil _ h
  obtain ⟨r, hr, -⟩ := List.mem_map.1 hcell
  obtain ⟨hmem, hunder⟩ := List.mem_filter.1 hr
  exact List.mem_map.2 ⟨r, hmem, (of_decide_eq_true hunder).1⟩

/-- The required column holds the received cells, or the error names what is missing. -/
theorem requiredColumn_eq :
    RowDecoder.requiredColumn search ⟨row⟩ family qualifier =
      if cellsUnder cells family qualifier = [] then
        .error (.new row.key
          (if family ∈ cells.map Received.family then .missingColumn family qualifier
            else .missingFamily family))
      else
        .ok (buildColumn qualifier (cellsUnder cells family qualifier)) := by
  unfold RowDecoder.requiredColumn
  rw [hrow, find?_families]
  by_cases hfamily : family ∈ cells.map Received.family
  · rw [if_pos hfamily]
    simp only [findColumn_buildFamily hsearch, if_pos hfamily]
    split_ifs <;> rfl
  · have hnil : cellsUnder cells family qualifier = [] := by
      by_contra hne
      exact hfamily (mem_of_cellsUnder_ne_nil family qualifier hne)
    rw [if_neg hfamily, if_pos hnil, if_neg hfamily]
    rfl

theorem optionalColumn_eq :
    RowDecoder.optionalColumn search ⟨row⟩ family qualifier =
      if cellsUnder cells family qualifier = [] then
        none
      else
        some (buildColumn qualifier (cellsUnder cells family qualifier)) := by
  unfold RowDecoder.optionalColumn
  rw [hrow, find?_families]
  by_cases hfamily : family ∈ cells.map Received.family
  · rw [if_pos hfamily]
    exact findColumn_buildFamily hsearch family qualifier
  · have hnil : cellsUnder cells family qualifier = [] := by
      by_contra hne
      exact hfamily (mem_of_cellsUnder_ne_nil family qualifier hne)
    rw [if_neg hfamily, if_pos hnil]
    rfl

theorem seesEveryCell_of_families : SeesEveryCell search row cells where
  found family qualifier hne := by
    unfold RowDecoder.cells
    rw [requiredColumn_eq hsearch hrow, if_neg hne]
    exact if_neg hne
  latest family qualifier cell hcell := by
    obtain ⟨rest, hcells⟩ : ∃ rest, cellsUnder cells family qualifier = cell :: rest := by
      cases hcells : cellsUnder cells family qualifier with
      | nil => simp [hcells] at hcell
      | cons first rest => exact ⟨rest, by simpa [hcells] using hcell⟩
    unfold RowDecoder.latestCell
    rw [requiredColumn_eq hsearch hrow, hcells]
    rfl
  optional family qualifier := by
    unfold RowDecoder.optionalLatestCell
    rw [optionalColumn_eq hsearch hrow]
    cases hcells : cellsUnder cells family qualifier <;> rfl
  missing family qualifier hnil := by
    unfold RowDecoder.cells RowDecoder.latestCell
    rw [requiredColumn_eq hsearch hrow, if_pos hnil]
    exact ⟨rfl, rfl⟩
  agrees family hfamily qualifier := agrees_of_families hsearch hrow qualifier family hfamily

end Lookups

/-! ## Rows of a stream -/

/-- In the stream the row comes right after the given outputs, and its chunks are these cells. -/
def ReceivedAs (items : List Item) (before : List Output) (row : Row) (cells : List CellChunks) :
    Prop :=
  ∃ pieces rest, (∀ piece ∈ pieces, piece.WellFormed) ∧ (Piece.row row.key cells).WellFormed ∧
    items = streamItems pieces ++ ((cellsChunks cells).map .chunk ++ rest) ∧
    streamOutputs pieces = before

/-- Every row that a merger reports from a stream it accepts is well formed, and lookups in it
see exactly the cells that were received for it. -/
theorem RowDecoder.sees_every_cell (search : BinarySearch) (reversed : Bool) (items : List Item)
    (merger : RowMerger) (before after : List Output) (row : Row) (hsearch : search.Sound)
    (hfeed : (RowMerger.new reversed).feed items = .ok (merger, before ++ .row row :: after)) :
    ∃ cells, ReceivedAs items before row cells ∧ Distinct row ∧
      SeesEveryCell search row (received "" [] cells) := by
  obtain ⟨taken, rest, middle, rfl, htaken, hstate⟩ := RowMerger.feed_split_output hfeed
  obtain ⟨pieces, hwell, -, hitems, houtputs⟩ :=
    (RowMerger.betweenRows_new reversed).split_items taken.length le_rfl htaken hstate
  obtain ⟨earlier, cells, later, rfl, hbefore, hrow⟩ := exists_row_of_streamOutputs houtputs.symm
  have hfamilies : row.families = families (received "" [] cells) := by
    rw [hrow]
    rfl
  have hearlier : ∀ piece ∈ earlier, piece.WellFormed :=
    fun piece hpiece => hwell piece (List.mem_append_left _ hpiece)
  refine ⟨cells, ⟨earlier, streamItems later ++ rest, hearlier, hwell _ (by simp), ?_, hbefore⟩, ?_,
    seesEveryCell_of_families hsearch hfamilies⟩
  · rw [hitems]
    simp [streamItems, Piece.items]
  · rw [hrow]
    exact distinct_families row.key (received "" [] cells)

/-! ## The standard library's search -/

/-- The loop of `binary_search_by`: halve `size` candidates from `base` on. -/
def narrow (columns : List Column) (compare : Column → Ordering) : Nat → Nat → Nat → Nat
  | 0, _, base => base
  | fuel + 1, size, base =>
      if 1 < size then
        let half := size / 2
        let mid := base + half
        narrow columns compare fuel (size - half)
          (if (columns[mid]?).map compare = some .gt then base else mid)
      else
        base

def binarySearchBy : BinarySearch := fun columns compare =>
  let base := narrow columns compare columns.length columns.length 0
  match columns[base]? with
  | none => none
  | some column => if compare column = .eq then some base else none

theorem binarySearchBy_sound : BinarySearch.Sound binarySearchBy := by
  intro columns compare index h
  unfold binarySearchBy at h
  simp only at h
  split at h
  · simp at h
  · rename_i column hcolumn
    split_ifs at h with hequal
    obtain rfl := Option.some.inj h
    exact ⟨column, hcolumn, hequal⟩

def unsortedRow : List Item :=
  [.chunk { rowKey := [1], familyName := some "family", qualifier := some [98], value := [1] },
    .chunk { qualifier := some [97], value := [2] },
    .chunk { qualifier := some [98], value := [3], rowStatus := some (.commitRow true) }]

theorem RowDecoder.sees_every_cell_unsortedRow :
    ∃ row cells, ReceivedAs unsortedRow [] row cells ∧ Distinct row ∧
      SeesEveryCell binarySearchBy row (received "" [] cells) := by
  have hfeed : ∃ merger row,
      (RowMerger.new false).feed unsortedRow = .ok (merger, [] ++ .row row :: []) :=
    ⟨_, _, rfl⟩
  obtain ⟨merger, row, hfeed⟩ := hfeed
  exact ⟨row, RowDecoder.sees_every_cell binarySearchBy false unsortedRow merger [] [] row
    binarySearchBy_sound hfeed⟩

end BigtableClient
