import BigtableClient.Proofs.GrammarSound

/-!
# Runs of the merger

What an arbitrary list of accepted items tells about the merger and its outputs,
whether or not a row is still open at its end.
-/

namespace BigtableClient

open Proto
open ProofSupport.ScanOrder (After Beyond after_some after_of_beyond)
open ChunkGrammar

namespace ChunkGrammar

/-- A row that was sent whole: all its cells are complete, and it was committed. -/
def CompleteRow (row : Row) : Prop :=
  ∃ cells, (Piece.row row.key cells).WellFormed ∧ row = decodeRow row.key cells

theorem CompleteRow.key_ne_nil {row : Row} (h : CompleteRow row) : row.key ≠ [] := by
  obtain ⟨cells, ⟨hheads, -, init, last, hchunks, -⟩, -⟩ := h
  cases cells with
  | nil => simp [cellsChunks] at hchunks
  | cons cell cells => exact hheads.1.2.1

def InScanOrder (reversed : Bool) (outputs : List Output) : Prop :=
  outputs.Pairwise fun earlier later => Beyond reversed earlier.key later.key

def lastKey (last : Option Bytes) (outputs : List Output) : Option Bytes :=
  ((outputs.getLast?.map Output.key).or last)

theorem lastKey_append_singleton (last : Option Bytes) (outputs : List Output)
    (output : Output) : lastKey last (outputs ++ [output]) = some output.key := by
  simp [lastKey]

theorem lastKey_eq_none {outputs : List Output} (h : lastKey none outputs = none) :
    outputs = [] := by
  rcases List.eq_nil_or_concat outputs with hnil | ⟨init, last, rfl⟩
  · exact hnil
  · rw [List.concat_eq_append, lastKey_append_singleton] at h
    simp at h

theorem exists_of_lastKey_eq_some {outputs : List Output} {key : Bytes}
    (h : lastKey none outputs = some key) :
    ∃ init output, outputs = init ++ [output] ∧ output.key = key := by
  rcases List.eq_nil_or_concat outputs with rfl | ⟨init, last, rfl⟩
  · simp [lastKey] at h
  · rw [List.concat_eq_append, lastKey_append_singleton] at h
    exact ⟨init, last, List.concat_eq_append, Option.some.inj h⟩

theorem Ordered.outputs {reversed : Bool} {last : Option Bytes} {pieces : List Piece}
    (h : Ordered reversed last pieces) :
    (∀ output ∈ streamOutputs pieces, After reversed last output.key) ∧
      InScanOrder reversed (streamOutputs pieces) := by
  induction pieces generalizing last with
  | nil => simp [streamOutputs, InScanOrder]
  | cons piece pieces ih =>
      obtain ⟨hafter, hrest⟩ := h
      obtain ⟨hkeys, hordered⟩ := ih hrest
      cases piece with
      | abandoned key cells cut reset => exact ⟨hkeys, hordered⟩
      | row key cells =>
          have hbeyond : ∀ output ∈ streamOutputs pieces, Beyond reversed key output.key :=
            fun output houtput => after_some.1 (hkeys output houtput)
          refine ⟨List.forall_mem_cons.2 ⟨hafter, fun output houtput => ?_⟩,
            List.pairwise_cons.2 ⟨hbeyond, hordered⟩⟩
          exact after_of_beyond hafter (hbeyond output houtput)
      | marker key =>
          have hbeyond : ∀ output ∈ streamOutputs pieces, Beyond reversed key output.key :=
            fun output houtput => after_some.1 (hkeys output houtput)
          refine ⟨List.forall_mem_cons.2 ⟨hafter, fun output houtput => ?_⟩,
            List.pairwise_cons.2 ⟨hbeyond, hordered⟩⟩
          exact after_of_beyond hafter (hbeyond output houtput)

theorem completeRow_of_mem_streamOutputs {pieces : List Piece} {row : Row}
    (hwell : ∀ piece ∈ pieces, piece.WellFormed) (hrow : .row row ∈ streamOutputs pieces) :
    CompleteRow row := by
  obtain ⟨piece, hpiece, houtput⟩ := List.mem_filterMap.1 hrow
  cases piece with
  | row key cells =>
      obtain rfl : decodeRow key cells = row := by simpa [Piece.output?] using houtput
      exact ⟨cells, hwell _ hpiece, rfl⟩
  | abandoned key cells cut reset => simp [Piece.output?] at houtput
  | marker key => simp [Piece.output?] at houtput

theorem exists_row_of_streamOutputs {pieces : List Piece} {before after : List Output} {row : Row}
    (h : streamOutputs pieces = before ++ .row row :: after) :
    ∃ earlier cells later, pieces = earlier ++ .row row.key cells :: later ∧
      streamOutputs earlier = before ∧ row = decodeRow row.key cells := by
  obtain ⟨earlier, rest, rfl, hbefore, hrest⟩ := List.filterMap_eq_append_iff.1 h
  obtain ⟨silent, piece, later, rfl, hsilent, hpiece, -⟩ := List.filterMap_eq_cons_iff.1 hrest
  cases piece with
  | row key cells =>
      obtain rfl : decodeRow key cells = row := by simpa [Piece.output?] using hpiece
      refine ⟨earlier ++ silent, cells, later, by simp [decodeRow], ?_, rfl⟩
      have hnone : streamOutputs silent = [] := List.filterMap_eq_nil_iff.2 hsilent
      rw [streamOutputs, List.filterMap_append, hbefore]
      show before ++ streamOutputs silent = before
      rw [hnone, List.append_nil]
  | abandoned key cells cut reset => simp [Piece.output?] at hpiece
  | marker key => simp [Piece.output?] at hpiece

end ChunkGrammar

namespace RowMerger

variable {merger next : RowMerger} {reversed : Bool} {last : Option Bytes}
variable {outputs : List Output}

/-! ## Single calls -/

/-- What a call leaves of the direction and the position of the scan. -/
def Frame (merger next : RowMerger) (out : Option Row) : Prop :=
  next.reversed = merger.reversed ∧
    match out with
    | none => next.lastCompleteKey = merger.lastCompleteKey
    | some row => next.lastCompleteKey = some row.key ∧ next.state = .newRow

theorem startCell_frame {chunk : CellChunk} {out : Option Row}
    (h : merger.startCell chunk = (next, .ok out)) : Frame merger next out := by
  cases hreset : chunk.isReset with
  | true =>
      obtain ⟨-, rfl, rfl⟩ := (startCell_reset hreset).1 h
      exact ⟨rfl, rfl⟩
  | false =>
      obtain ⟨-, ⟨-, -, rfl, rfl⟩ | ⟨-, -, rfl, rfl⟩ | ⟨-, -, rfl, rfl⟩⟩ :=
        (startCell_eq_ok hreset).1 h
      · exact ⟨rfl, rfl⟩
      · exact ⟨rfl, rfl, rfl⟩
      · exact ⟨rfl, rfl⟩

theorem push_frame {chunk : CellChunk} {out : Option Row}
    (h : merger.push chunk = (next, .ok out)) : Frame merger next out := by
  unfold push at h
  cases hstate : merger.state with
  | newRow =>
      rw [hstate] at h
      obtain ⟨-, -, -, hstart⟩ := startRow_eq_ok.1 h
      have hframe : Frame (merger.openRow chunk) next out := startCell_frame hstart
      exact hframe
  | newCell =>
      rw [hstate] at h
      exact startCell_frame h
  | cellValue =>
      rw [hstate] at h
      cases hreset : chunk.isReset with
      | true =>
          simp only [continueCell_reset hreset] at h
          exact startCell_frame h
      | false =>
          obtain ⟨-, ⟨-, -, -, rfl, rfl⟩ | ⟨-, -, -, rfl, rfl⟩ | ⟨-, -, -, -, rfl, rfl⟩⟩ :=
            (continueCell_eq_ok hreset).1 h
          · exact ⟨rfl, rfl⟩
          · exact ⟨rfl, rfl, rfl⟩
          · exact ⟨rfl, rfl⟩

theorem betweenRows_discardPartial (merger : RowMerger) :
    merger.discardPartial.BetweenRows merger.reversed merger.lastCompleteKey := by
  unfold discardPartial
  split_ifs with hstate
  · exact betweenRows_clearActiveRow rfl rfl
  · exact ⟨not_not.1 hstate, rfl, rfl⟩

/-- An item gives at most one output, and a row only where no row is open after it. -/
theorem accept_outputs {item : Item} (h : merger.accept item = .ok (next, outputs)) :
    outputs = [] ∨ ∃ output, outputs = [output] ∧ next.state = .newRow := by
  cases item with
  | marker key =>
      obtain ⟨hstate, -, rfl, rfl⟩ := accept_marker_eq_ok.1 h
      exact Or.inr ⟨.marker key, rfl, hstate⟩
  | chunk chunk =>
      obtain ⟨out, hpush, rfl⟩ := accept_chunk_eq_ok.1 h
      cases out with
      | none => exact Or.inl rfl
      | some row => exact Or.inr ⟨.row row, rfl, (push_frame hpush).2.2⟩

/-- An output was reported at the end of a part of the stream. -/
theorem feed_split_output {final : RowMerger} {items : List Item} {before after : List Output}
    {output : Output} (h : merger.feed items = .ok (final, before ++ output :: after)) :
    ∃ taken rest middle, items = taken ++ rest ∧
      merger.feed taken = .ok (middle, before ++ [output]) ∧ middle.state = .newRow := by
  induction items generalizing merger before with
  | nil => simp at h
  | cons item items ih =>
      obtain ⟨next, first, more, haccept, hrest, houtputs⟩ := feed_cons_eq_ok.1 h
      rcases accept_outputs haccept with rfl | ⟨reported, rfl, hstate⟩
      · rw [List.nil_append] at houtputs
        rw [← houtputs] at hrest
        obtain ⟨taken, rest, middle, rfl, hfeed, hmiddle⟩ := ih hrest
        exact ⟨item :: taken, rest, middle, rfl,
          feed_cons_eq_ok.2 ⟨next, [], before ++ [output], haccept, hfeed, rfl⟩, hmiddle⟩
      · cases before with
        | nil =>
            obtain ⟨rfl, rfl⟩ := List.cons.inj houtputs
            exact ⟨[item], items, next, rfl,
              feed_cons_eq_ok.2 ⟨next, [output], [], haccept, rfl, rfl⟩, hstate⟩
        | cons earlier before =>
            obtain ⟨rfl, hmore⟩ := List.cons.inj houtputs
            obtain rfl : before ++ output :: after = more := hmore
            obtain ⟨taken, rest, middle, rfl, hfeed, hmiddle⟩ := ih hrest
            exact ⟨item :: taken, rest, middle, rfl,
              feed_cons_eq_ok.2 ⟨next, [earlier], before ++ [output], haccept, hfeed, rfl⟩,
              hmiddle⟩

/-! ## Fed mergers -/

/-- The merger was between rows, at `last`, before it was fed items that gave these outputs. -/
def Fed (merger : RowMerger) (reversed : Bool) (last : Option Bytes) (outputs : List Output) :
    Prop :=
  ∃ (start : RowMerger) (items : List Item),
    start.BetweenRows reversed last ∧ start.feed items = .ok (merger, outputs)

theorem BetweenRows.fed (h : merger.BetweenRows reversed last) : merger.Fed reversed last [] :=
  ⟨merger, [], h, rfl⟩

theorem Fed.accept {item : Item} {more : List Output} (h : merger.Fed reversed last outputs)
    (haccept : merger.accept item = .ok (next, more)) :
    next.Fed reversed last (outputs ++ more) := by
  obtain ⟨start, items, hstart, hfeed⟩ := h
  have hitem : merger.feed [item] = .ok (next, more) :=
    feed_cons_eq_ok.2 ⟨next, more, [], haccept, rfl, (List.append_nil more).symm⟩
  exact ⟨start, items ++ [item], hstart,
    feed_append_eq_ok.2 ⟨merger, outputs, more, hfeed, hitem, rfl⟩⟩

/-- Between rows, the outputs are those of a legal stream. -/
theorem Fed.pieces (h : merger.Fed reversed last outputs) (hstate : merger.state = .newRow) :
    ∃ pieces : List Piece, (∀ piece ∈ pieces, piece.WellFormed) ∧
      Ordered reversed last pieces ∧ outputs = streamOutputs pieces := by
  obtain ⟨start, items, hstart, hfeed⟩ := h
  obtain ⟨pieces, hwell, hordered, -, houtputs⟩ :=
    hstart.split_items items.length le_rfl hfeed hstate
  exact ⟨pieces, hwell, hordered, houtputs⟩

end RowMerger

end BigtableClient
