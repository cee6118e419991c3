import BigtableClient.ProofSupport.PrefixInterval
import BigtableClient.Query
import BigtableClient.Selection

/-!
# What a query selects

The row set of a query, against what its caller asked for: exact keys, ranges with
their bounds, and prefixes.  A bound that is absent or empty leaves its side open.
-/

namespace BigtableClient

open Selection
open ProofSupport.PrefixInterval

/-! ## What is asked for -/

/-- The key is not before this start. -/
def RowBound.AdmitsStart : RowBound → Bytes → Prop
  | .unbounded, _ => True
  | .inclusive start, key => start = [] ∨ start ≤ key
  | .exclusive start, key => start = [] ∨ start < key

def RowBound.AdmitsStop : RowBound → Bytes → Prop
  | .unbounded, _ => True
  | .inclusive stop, key => stop = [] ∨ key ≤ stop
  | .exclusive stop, key => stop = [] ∨ key < stop

def RowRange.Holds (range : RowRange) (key : Bytes) : Prop :=
  range.start.AdmitsStart key ∧ range.stop.AdmitsStop key

namespace Query

/-- A call of the builder that adds keys or ranges to read. -/
inductive Addition where
  | rowKey (key : Bytes)
  | rowKeys (keys : List Bytes)
  | rowRange (range : RowRange)
  | ofPrefix (leading : Bytes)
  deriving DecidableEq

def add (query : Query) : Addition → Query
  | .rowKey key => query.rowKey key
  | .rowKeys keys => query.addRowKeys keys
  | .rowRange range => query.rowRange range
  | .ofPrefix leading => query.ofPrefix leading

def Addition.Asks : Addition → Bytes → Prop
  | .rowKey exact, key => key = exact
  | .rowKeys keys, key => key ∈ keys
  | .rowRange range, key => range.Holds key
  | .ofPrefix leading, key => leading <+: key

end Query

/-! ## Prefixes -/

theorem successors_byte : Successors (255 : UInt8) (· + 1) where
  le_top byte := by
    rw [UInt8.le_iff_toNat_le]
    exact Nat.le_of_lt_succ byte.toNat_lt
  lt_next_iff byte other hne := by
    have hlt := byte.toNat_lt
    have hnat : byte.toNat ≠ 255 := fun h => hne (UInt8.toNat_inj.1 h)
    rw [UInt8.lt_iff_toNat_lt, UInt8.le_iff_toNat_le, UInt8.toNat_add]
    simp only [UInt8.toNat_one]
    omega

/-- Cutting off the trailing 0xff bytes and increasing the last byte left gives the successor. -/
theorem prefixSuccessor_eq (leading : Bytes) :
    prefixSuccessor leading = successor 255 (· + 1) leading := by
  induction leading using List.reverseRecOn with
  | nil => rfl
  | append_singleton bytes byte ih =>
      rw [successor_append_singleton, ← ih, prefixSuccessor, prefixSuccessor,
        List.reverse_append, List.reverse_singleton, List.singleton_append]
      by_cases hbyte : byte = 255
      · rw [if_pos hbyte, List.dropWhile_cons_of_pos (by simp [hbyte])]
      · rw [if_neg hbyte, List.dropWhile_cons_of_neg (by simp [hbyte])]
        simp

/-- The range of a prefix holds the keys with this prefix. -/
theorem holds_ofPrefix (leading key : Bytes) :
    (RowRange.ofPrefix leading).Holds key ↔ leading <+: key := by
  rw [← mem_interval_iff successors_byte, ← prefixSuccessor_eq]
  have hstart : (RowRange.ofPrefix leading).start.AdmitsStart key ↔ leading ≤ key := by
    show leading = [] ∨ leading ≤ key ↔ leading ≤ key
    exact or_iff_right_of_imp fun hnil => hnil ▸ nil_le key
  rw [RowRange.Holds, hstart]
  apply and_congr_right
  intro _
  cases hstop : prefixSuccessor leading with
  | none => simp [RowRange.ofPrefix, hstop, RowBound.AdmitsStop]
  | some stop =>
      rw [prefixSuccessor_eq] at hstop
      simp [RowRange.ofPrefix, prefixSuccessor_eq, hstop, RowBound.AdmitsStop,
        ne_nil_of_successor hstop]

/-! ## The row set -/

theorem rangeSelects_protoRowRange (range : RowRange) (key : Bytes) :
    RangeSelects (protoRowRange range) key ↔ range.Holds key := by
  obtain ⟨start, stop⟩ := range
  refine and_congr ?_ ?_
  · cases start with
    | unbounded => exact Iff.rfl
    | inclusive start => exact Iff.rfl
    | exclusive start => exact Iff.rfl
  · cases stop with
    | unbounded => exact Iff.rfl
    | inclusive stop => exact Iff.rfl
    | exclusive stop => exact Iff.rfl

namespace Query

def Reads (query : Query) (key : Bytes) : Prop :=
  key ∈ query.rowKeys ∨ ∃ range ∈ query.rowRanges, range.Holds key

def IsNarrowed (query : Query) : Prop :=
  query.rowKeys ≠ [] ∨ query.rowRanges ≠ []

theorem selects_intoRequest {query : Query} (h : query.IsNarrowed) (config : ClientConfig)
    (key : Bytes) : Selects (query.intoRequest config).rows key ↔ query.Reads key := by
  have hrows : ¬ (query.rowKeys = [] ∧ query.rowRanges = []) := fun hnil =>
    h.elim (fun hkeys => hkeys hnil.1) fun hranges => hranges hnil.2
  rw [intoRequest, if_neg hrows, selects_some]
  simp [RowSetSelects, Reads, rangeSelects_protoRowRange]

theorem reads_add (query : Query) (addition : Addition) (key : Bytes) :
    (query.add addition).Reads key ↔ query.Reads key ∨ addition.Asks key := by
  cases addition with
  | rowKey exact =>
      simp only [Reads, add, rowKey, Addition.Asks, List.mem_append, List.mem_singleton]
      exact or_right_comm
  | rowKeys keys =>
      simp only [Reads, add, addRowKeys, Addition.Asks, List.mem_append]
      exact or_right_comm
  | rowRange range =>
      simp [Reads, add, rowRange, Addition.Asks, or_and_right, exists_or, or_assoc]
  | ofPrefix leading =>
      simp [Reads, add, ofPrefix, rowRange, Addition.Asks, or_and_right, exists_or, or_assoc,
        holds_ofPrefix]

theorem reads_foldl_add (additions : List Addition) (query : Query) (key : Bytes) :
    (additions.foldl add query).Reads key ↔
      query.Reads key ∨ ∃ addition ∈ additions, addition.Asks key := by
  induction additions generalizing query with
  | nil => simp
  | cons addition additions ih =>
      rw [List.foldl_cons, ih, reads_add, or_assoc]
      simp

/-- A query selects exactly what was asked for: the keys that one of the calls of its builder names,
has in its range, or has as an extension of its prefix. -/
theorem selects_what_was_asked (tableId : String) (empty : Query)
    (hnew : Query.new tableId = .ok empty) (additions : List Addition)
    (hnarrowed : (additions.foldl add empty).IsNarrowed) (config : ClientConfig) (key : Bytes) :
    Selects ((additions.foldl add empty).intoRequest config).rows key ↔
      ∃ addition ∈ additions, addition.Asks key := by
  have hempty : ¬ empty.Reads key := by
    unfold Query.new at hnew
    split at hnew
    · cases hnew
    · obtain rfl := Except.ok.inj hnew
      simp [Reads]
  rw [selects_intoRequest hnarrowed, reads_foldl_add]
  exact or_iff_right hempty

end Query

/-- A prefix that ends in 0xff bytes, and one that holds nothing else. -/
theorem Query.selects_what_was_asked_ffPrefixes :
    ∃ query : Query, Query.new "events" = .ok query ∧
      (Selects (([Query.Addition.ofPrefix [97, 255], .ofPrefix [255, 255]].foldl Query.add
        query).intoRequest { projectId := "project", instanceId := "instance",
                             appProfileId := "analytics" }).rows [97, 255, 0] ↔
        ∃ addition ∈ [Query.Addition.ofPrefix [97, 255], .ofPrefix [255, 255]],
          addition.Asks [97, 255, 0]) :=
  ⟨_, rfl, Query.selects_what_was_asked "events" _ rfl _ (Or.inr (by decide)) _ _⟩

end BigtableClient
