import BigtableClient.Proofs.MergeStates

/-!
# The merger accepts exactly the chunk grammar

Completeness feeds the pieces of a legal stream one after the other.  Soundness
reads a stream that was accepted from the left and cuts off one piece at a time;
both go through the three states of the merger.
-/

namespace BigtableClient

open Proto
open ProofSupport.ScanOrder (After)
open ChunkGrammar

namespace RowMerger

variable {merger merger' : RowMerger} {reversed : Bool} {last : Option Bytes} {key : Bytes}
variable {acc : List Received} {family : String} {qualifier : Bytes} {cell : CellChunks}
variable {items : List Item} {outputs : List Output}

/-! ## Single chunks -/

theorem feed_chunk_none {chunk : CellChunk} (h : merger.push chunk = (merger', .ok none)) :
    merger.feed [.chunk chunk] = .ok (merger', []) :=
  feed_cons_eq_ok.2 ⟨merger', [], [], accept_chunk_eq_ok.2 ⟨none, h, rfl⟩, rfl, rfl⟩

theorem feed_chunk_some {chunk : CellChunk} {row : Row}
    (h : merger.push chunk = (merger', .ok (some row))) :
    merger.feed [.chunk chunk] = .ok (merger', [.row row]) :=
  feed_cons_eq_ok.2 ⟨merger', [.row row], [], accept_chunk_eq_ok.2 ⟨some row, h, rfl⟩, rfl, rfl⟩

theorem push_of_newCell (h : merger.state = .newCell) (chunk : CellChunk) :
    merger.push chunk = merger.startCell chunk := by
  simp [push, h]

theorem push_of_cellValue (h : merger.state = .cellValue) (chunk : CellChunk) :
    merger.push chunk = merger.continueCell chunk := by
  simp [push, h]

theorem push_of_newRow (h : merger.state = .newRow) (chunk : CellChunk) :
    merger.push chunk = merger.startRow chunk := by
  simp [push, h]

/-- A row's first chunk acts on the merger with the row opened. -/
theorem BetweenRows.push_openRow (h : merger.BetweenRows reversed last) {chunk : CellChunk}
    (hreset : chunk.isReset = false) (hstarts : StartsRow chunk.rowKey chunk)
    (hafter : After reversed last chunk.rowKey) {result : RowMerger} {out : Option Row} :
    merger.push chunk = (result, .ok out) ↔
      (merger.openRow chunk).push chunk = (result, .ok out) := by
  rw [push_of_newRow h.state, push_of_newCell rfl, startRow_eq_ok, h.reversed, h.last]
  exact ⟨fun hp => hp.2.2.2, fun hp => ⟨hreset, hstarts, hafter, hp⟩⟩

theorem push_bareReset (hstate : merger.state ≠ .newRow) {chunk : CellChunk}
    (hbare : BareReset chunk) : merger.push chunk = (merger.clearActiveRow, .ok none) := by
  have hstart : merger.startCell chunk = (merger.clearActiveRow, .ok none) :=
    (startCell_reset hbare.1).2 ⟨hbare, rfl, rfl⟩
  cases hs : merger.state with
  | newRow => exact absurd hs hstate
  | newCell => rw [push_of_newCell hs, hstart]
  | cellValue => rw [push_of_cellValue hs, continueCell_reset hbare.1, hstart]

/-! ## Feeding one cell -/

/-- The continuations of a split cell keep it open. -/
theorem InCell.feed_continuations
    (h : merger.InCell reversed last key acc family qualifier cell) (more : List CellChunk)
    (hmore : ∀ chunk ∈ more, cell.Continuation chunk) (hplain : ∀ chunk ∈ more, Plain chunk)
    (hfits : ((payload cell.chunks).length : Int) + (payload more).length ≤
      cell.first.valueSize) :
    ∃ next, merger.feed (more.map .chunk) = .ok (next, []) ∧
      next.InCell reversed last key acc family qualifier
        { cell with rest := cell.rest ++ more } := by
  induction more generalizing merger cell with
  | nil => exact ⟨merger, rfl, by simpa using h⟩
  | cons chunk more ih =>
      have hchunk := hmore chunk (by simp)
      have hpos : 0 < chunk.valueSize := by
        rw [hchunk.2]
        exact h.cut.1.1
      have hlength : (payload (chunk :: more)).length =
          chunk.value.length + (payload more).length := by simp [payload]
      have hremaining := h.remaining
      have hexpected := h.expected
      have hroom : chunk.value.length ≤ merger.remainingValueBytes := by omega
      have hpush : merger.push chunk = (merger.extendCell chunk, .ok none) := by
        rw [push_of_cellValue h.state]
        refine (continueCell_eq_ok (hplain chunk (by simp)).1).2 ⟨hchunk.1, Or.inr (Or.inr ?_)⟩
        refine ⟨hpos, hroom, ?_, (hplain chunk (by simp)).2, rfl, rfl⟩
        rw [hchunk.2]
        omega
      have hnext := h.extendCell hchunk hroom
      obtain ⟨next, hfeed, hin⟩ := ih hnext (fun c hc => hmore c (by simp [hc]))
        (fun c hc => hplain c (by simp [hc])) (by
          rw [CellChunks.payload_extend, List.length_append, CellChunks.extend_first]
          omega)
      refine ⟨next, ?_, by simpa [CellChunks.extend] using hin⟩
      exact feed_cons_eq_ok.2
        ⟨_, [], [], accept_chunk_eq_ok.2 ⟨none, hpush, rfl⟩, hfeed, rfl⟩

theorem BetweenCells.feed_cut
    (h : merger.BetweenCells reversed last key acc family qualifier)
    (hcontinues : ContinuesRow key cell.first) (hcut : cell.Cut)
    (hplain : ∀ chunk ∈ cell.chunks, Plain chunk) :
    ∃ next, merger.feed (cell.chunks.map .chunk) = .ok (next, []) ∧
      next.InCell reversed last key acc family qualifier cell := by
  have hfirst := hplain cell.first (by simp [CellChunks.chunks])
  have hpush : merger.push cell.first = (merger.splitCell cell.first, .ok none) := by
    rw [push_of_newCell h.state]
    refine (startCell_eq_ok hfirst.1).2 ⟨by rw [h.row]; exact hcontinues, Or.inr (Or.inr ?_)⟩
    exact ⟨hcut.1, hfirst.2, rfl, rfl⟩
  have hlength : (payload cell.chunks).length =
      cell.first.value.length + (payload cell.rest).length := by
    simp [CellChunks.chunks, payload]
  obtain ⟨next, hfeed, hin⟩ := (h.splitCell cell.first hcut.1).feed_continuations cell.rest
    hcut.2.1 (fun c hc => hplain c (by simp [CellChunks.chunks, hc])) (by
      have hfits := hcut.2.2
      simp only [CellChunks.chunks, payload_singleton] at hfits hlength ⊢
      omega)
  refine ⟨next, ?_, by simpa using hin⟩
  exact feed_cons_eq_ok.2 ⟨_, [], [], accept_chunk_eq_ok.2 ⟨none, hpush, rfl⟩, hfeed, rfl⟩

/-- A complete cell splits into a cut cell and its last chunk, unless it is a single chunk. -/
theorem complete_cases (hcomplete : cell.Complete) :
    (∃ chunk, cell = ⟨chunk, []⟩ ∧ chunk.valueSize = 0) ∨
      ∃ (front : CellChunks) (chunk : CellChunk), cell = front.extend chunk ∧ front.Cut ∧
        MetadataFree chunk ∧ chunk.valueSize = 0 ∧
        ((payload (front.extend chunk).chunks).length : Int) = front.first.valueSize := by
  obtain ⟨first, rest⟩ := cell
  rcases hcomplete with ⟨hzero, hrest⟩ |
    ⟨middle, chunk, hrest, hsplit, hmiddle, hfree, hlast, htotal⟩
  · simp only at hzero hrest
    exact Or.inl ⟨first, by rw [hrest], hzero⟩
  · simp only at hrest
    subst hrest
    refine Or.inr ⟨⟨first, middle⟩, chunk, rfl, ⟨hsplit, hmiddle, ?_⟩, hfree, hlast, htotal⟩
    have hlength := congrArg List.length (CellChunks.payload_extend ⟨first, middle⟩ chunk)
    rw [List.length_append] at hlength
    change ((payload (CellChunks.extend ⟨first, middle⟩ chunk).chunks).length : Int) =
      first.valueSize at htotal
    change _ ≤ first.valueSize
    omega

/-- A complete cell that does not commit its row leaves the merger between cells. -/
theorem BetweenCells.feed_cell
    (h : merger.BetweenCells reversed last key acc family qualifier)
    (hcontinues : ContinuesRow key cell.first) (hcomplete : cell.Complete)
    (hplain : ∀ chunk ∈ cell.chunks, Plain chunk) :
    ∃ next, merger.feed (cell.chunks.map .chunk) = .ok (next, []) ∧
      next.BetweenCells reversed last key (acc ++ [receive family qualifier cell])
        (receive family qualifier cell).family (receive family qualifier cell).qualifier := by
  rcases complete_cases hcomplete with
    ⟨chunk, rfl, hzero⟩ | ⟨front, chunk, rfl, hcut, hfree, hzero, htotal⟩
  · have hchunk := hplain chunk (by simp [CellChunks.chunks])
    refine ⟨_, feed_chunk_none ?_, h.endCell chunk⟩
    rw [push_of_newCell h.state]
    exact (startCell_eq_ok hchunk.1).2
      ⟨by rw [h.row]; exact hcontinues, Or.inl ⟨hzero, hchunk.2, rfl, rfl⟩⟩
  · rw [CellChunks.chunks_extend] at hplain ⊢
    have hchunk := hplain chunk (by simp)
    have hstart : ContinuesRow key front.first := hcontinues
    obtain ⟨next, hfeed, hin⟩ := h.feed_cut hstart hcut (fun c hc => hplain c (by simp [hc]))
    refine ⟨_, ?_, hin.endCell⟩
    rw [List.map_append]
    refine feed_append_eq_ok.2 ⟨next, [], [], hfeed, feed_chunk_none ?_, rfl⟩
    rw [push_of_cellValue hin.state]
    exact (continueCell_eq_ok hchunk.1).2
      ⟨hfree, Or.inl ⟨hzero, hin.total_eq_iff.2 htotal, hchunk.2, rfl, rfl⟩⟩

/-- A complete cell whose last chunk commits ends the row with that cell. -/
theorem BetweenCells.feed_lastCell
    (h : merger.BetweenCells reversed last key acc family qualifier)
    (hcontinues : ContinuesRow key cell.first) (hcomplete : cell.Complete)
    {init : List CellChunk} {final : CellChunk} (hchunks : cell.chunks = init ++ [final])
    (hplain : ∀ chunk ∈ init, Plain chunk) (hcommit : final.isCommit = true) :
    ∃ next, merger.feed (cell.chunks.map .chunk) =
        .ok (next, [.row { key := key
                           families := families (acc ++ [receive family qualifier cell]) }]) ∧
      next.BetweenRows reversed (some key) := by
  have hreset : final.isReset = false := by
    simp only [CellChunk.isCommit, decide_eq_true_eq] at hcommit
    simp [CellChunk.isReset, hcommit]
  rcases complete_cases hcomplete with
    ⟨chunk, rfl, hzero⟩ | ⟨front, chunk, rfl, hcut, hfree, hzero, htotal⟩
  · have hfinal : chunk = final := by
      have hlast := congrArg List.getLast? hchunks
      simpa [CellChunks.chunks] using hlast
    subst hfinal
    refine ⟨_, feed_chunk_some ?_, h.commitRow chunk⟩
    rw [push_of_newCell h.state, ← h.loadCell_row chunk]
    exact (startCell_eq_ok hreset).2
      ⟨by rw [h.row]; exact hcontinues, Or.inr (Or.inl ⟨hzero, hcommit, rfl, rfl⟩)⟩
  · rw [CellChunks.chunks_extend] at hchunks ⊢
    obtain ⟨rfl, hfinal⟩ := List.append_inj' hchunks rfl
    obtain rfl : chunk = final := by simpa using hfinal
    have hstart : ContinuesRow key front.first := hcontinues
    obtain ⟨next, hfeed, hin⟩ := h.feed_cut hstart hcut hplain
    refine ⟨(next.extendCell chunk).finishCell.commitRow.1, ?_, hin.commitRow⟩
    rw [List.map_append]
    refine feed_append_eq_ok.2 ⟨next, [], _, hfeed, feed_chunk_some ?_, rfl⟩
    rw [push_of_cellValue hin.state, ← hin.extendCell_row]
    exact (continueCell_eq_ok hreset).2
      ⟨hfree, Or.inr (Or.inl ⟨hzero, hin.total_eq_iff.2 htotal, hcommit, rfl, rfl⟩)⟩

/-! ## Feeding one row -/

theorem StartsRow.continuesRow {chunk : CellChunk} (h : StartsRow key chunk) :
    ContinuesRow key chunk :=
  ⟨Or.inr h.1, fun _ => h.2.2.2⟩

theorem BetweenCells.feed_cells (cells : List CellChunks)
    (h : merger.BetweenCells reversed last key acc family qualifier)
    (hheads : ∀ cell ∈ cells, ContinuesRow key cell.first)
    (hcomplete : ∀ cell ∈ cells, cell.Complete)
    (hplain : ∀ chunk ∈ cellsChunks cells, Plain chunk) :
    ∃ next family' qualifier', merger.feed ((cellsChunks cells).map .chunk) = .ok (next, []) ∧
      next.BetweenCells reversed last key (acc ++ received family qualifier cells)
        family' qualifier' ∧
      ∀ more, received family qualifier (cells ++ more) =
        received family qualifier cells ++ received family' qualifier' more := by
  induction cells generalizing merger acc family qualifier with
  | nil => exact ⟨merger, family, qualifier, rfl, by simpa [received] using h, fun _ => rfl⟩
  | cons cell cells ih =>
      obtain ⟨middle, hcell, hmiddle⟩ := h.feed_cell (hheads cell (by simp))
        (hcomplete cell (by simp)) (fun c hc => hplain c (by simp [cellsChunks, hc]))
      obtain ⟨next, family', qualifier', hfeed, hnext, hreceived⟩ := ih hmiddle
        (fun c hc => hheads c (by simp [hc])) (fun c hc => hcomplete c (by simp [hc]))
        (fun c hc => hplain c (List.mem_append_right cell.chunks hc))
      refine ⟨next, family', qualifier', ?_, ?_, ?_⟩
      · rw [cellsChunks, List.flatMap_cons, List.map_append]
        exact feed_append_eq_ok.2 ⟨middle, [], [], hcell, hfeed, rfl⟩
      · rw [received_cons, List.append_cons]
        exact hnext
      · intro more
        rw [List.cons_append, received_cons, received_cons, hreceived, List.cons_append]

theorem BetweenCells.feed_row (h : merger.BetweenCells reversed last key acc family qualifier)
    {cells : List CellChunks} (hheads : ∀ cell ∈ cells, ContinuesRow key cell.first)
    (hcomplete : ∀ cell ∈ cells, cell.Complete) {init : List CellChunk} {final : CellChunk}
    (hchunks : cellsChunks cells = init ++ [final]) (hplain : ∀ chunk ∈ init, Plain chunk)
    (hcommit : final.isCommit = true) :
    ∃ next, merger.feed ((cellsChunks cells).map .chunk) =
        .ok (next, [.row { key := key
                           families := families (acc ++ received family qualifier cells) }]) ∧
      next.BetweenRows reversed (some key) := by
  rcases List.eq_nil_or_concat' cells with rfl | ⟨front, cell, rfl⟩
  · simp [cellsChunks] at hchunks
  · have hsplit : cellsChunks (front ++ [cell]) = cellsChunks front ++ cell.chunks := by
      simp [cellsChunks]
    obtain ⟨tail, chunk, htail⟩ : ∃ tail chunk, cell.chunks = tail ++ [chunk] := by
      rcases List.eq_nil_or_concat' cell.chunks with hnil | ⟨tail, chunk, htail⟩
      · simp [CellChunks.chunks] at hnil
      · exact ⟨tail, chunk, htail⟩
    rw [hsplit, htail, ← List.append_assoc] at hchunks
    obtain ⟨rfl, hfinal⟩ := List.append_inj' hchunks rfl
    obtain rfl : chunk = final := by simpa using hfinal
    obtain ⟨middle, family', qualifier', hfront, hmiddle, hreceived⟩ := h.feed_cells front
      (fun c hc => hheads c (by simp [hc])) (fun c hc => hcomplete c (by simp [hc]))
      (fun c hc => hplain c (by simp [hc]))
    obtain ⟨next, hcell, hnext⟩ := hmiddle.feed_lastCell (hheads cell (by simp))
      (hcomplete cell (by simp)) htail (fun c hc => hplain c (by simp [hc])) hcommit
    refine ⟨next, ?_, hnext⟩
    rw [hsplit, List.map_append, hreceived [cell], ← List.append_assoc]
    exact feed_append_eq_ok.2 ⟨middle, [], _, hfront, hcell, rfl⟩

/-- Feeding a row from its first chunk is feeding it into the merger with the row opened. -/
theorem BetweenRows.feed_openRow (h : merger.BetweenRows reversed last) {chunk : CellChunk}
    (hreset : chunk.isReset = false) (hstarts : StartsRow chunk.rowKey chunk)
    (hafter : After reversed last chunk.rowKey) {result : RowMerger} :
    merger.feed (.chunk chunk :: items) = .ok (result, outputs) ↔
      (merger.openRow chunk).feed (.chunk chunk :: items) = .ok (result, outputs) := by
  simp only [feed_cons_eq_ok, accept_chunk_eq_ok, h.push_openRow hreset hstarts hafter]

/-- A row keeps the cells of the merger it was opened in, whatever that merger held. -/
theorem received_of_startsRow {cells : List CellChunks} (hheads : HeadsMatch key cells)
    (family' : String) (qualifier' : Bytes) :
    received family qualifier cells = received family' qualifier' cells := by
  cases cells with
  | nil => rfl
  | cons cell cells =>
      obtain ⟨-, -, hfamily, hqualifier⟩ := hheads.1
      obtain ⟨f, hf⟩ := Option.isSome_iff_exists.1 hfamily
      obtain ⟨q, hq⟩ := Option.isSome_iff_exists.1 hqualifier
      simp only [received, hf, hq, Option.getD_some]

theorem HeadsMatch.continuesRow {cells : List CellChunks} (h : HeadsMatch key cells) :
    ∀ cell ∈ cells, ContinuesRow key cell.first := by
  cases cells with
  | nil => simp
  | cons cell cells =>
      intro other hother
      rcases List.mem_cons.1 hother with rfl | hother
      · exact StartsRow.continuesRow h.1
      · exact h.2 other hother

/-! ## Feeding pieces -/

theorem BetweenRows.feed_rowPiece (h : merger.BetweenRows reversed last)
    {cells : List CellChunks} (hwell : (Piece.row key cells).WellFormed)
    (hafter : After reversed last key) :
    ∃ next, merger.feed (Piece.row key cells).items =
        .ok (next, [.row (decodeRow key cells)]) ∧ next.BetweenRows reversed (some key) := by
  obtain ⟨hheads, hcomplete, init, final, hchunks, hplain, hcommit⟩ := hwell
  cases cells with
  | nil => simp [cellsChunks] at hchunks
  | cons cell cells =>
      have hkey : cell.first.rowKey = key := hheads.1.1
      have hstarts : StartsRow cell.first.rowKey cell.first := by
        rw [hkey]
        exact hheads.1
      have hreset : cell.first.isReset = false := by
        have hmem : cell.first ∈ init ++ [final] := by
          rw [← hchunks]
          simp [cellsChunks, CellChunks.chunks]
        rcases List.mem_append.1 hmem with hmem | hmem
        · exact (hplain _ hmem).1
        · rw [List.mem_singleton.1 hmem]
          simp only [CellChunk.isCommit, decide_eq_true_eq] at hcommit
          simp [CellChunk.isReset, hcommit]
      have hafter' : After reversed last cell.first.rowKey := by
        rw [hkey]
        exact hafter
      have hopen := h.openRow cell.first
      rw [hkey] at hopen
      obtain ⟨next, hfeed, hnext⟩ := hopen.feed_row (HeadsMatch.continuesRow hheads) hcomplete
        hchunks hplain hcommit
      refine ⟨next, ?_, hnext⟩
      rw [List.nil_append, received_of_startsRow hheads "" []] at hfeed
      exact (h.feed_openRow hreset hstarts hafter').2 hfeed

theorem BetweenRows.feed_abandonedPiece (h : merger.BetweenRows reversed last)
    {cells : List CellChunks} {cut : Option CellChunks} {reset : CellChunk}
    (hwell : (Piece.abandoned key cells cut reset).WellFormed)
    (hafter : After reversed last key) :
    ∃ next, merger.feed (Piece.abandoned key cells cut reset).items = .ok (next, []) ∧
      next.BetweenRows reversed last := by
  obtain ⟨hne, hheads, hcomplete, hcut, hplain, hbare⟩ := hwell
  obtain ⟨cell, others, hsome⟩ := List.exists_cons_of_ne_nil hne
  have hstart : StartsRow key cell.first := by
    rw [hsome] at hheads
    exact hheads.1
  have hkey : cell.first.rowKey = key := hstart.1
  have hmem : cell.first ∈ cellsChunks (cells ++ cut.toList) := by
    rw [hsome]
    simp [cellsChunks, CellChunks.chunks]
  have hopen := h.openRow cell.first
  rw [hkey] at hopen
  have hcontinues := HeadsMatch.continuesRow hheads
  have hsplit : cellsChunks (cells ++ cut.toList) =
      cellsChunks cells ++ cellsChunks cut.toList := by
    simp [cellsChunks]
  -- the opened row takes all its chunks and is then somewhere inside the row
  obtain ⟨middle, family', qualifier', hcells, hmiddle, -⟩ := hopen.feed_cells cells
    (fun c hc => hcontinues c (by simp [hc])) hcomplete
    (fun c hc => hplain c (by rw [hsplit]; exact List.mem_append_left _ hc))
  have htail : ∃ next, middle.feed ((cellsChunks cut.toList).map .chunk) = .ok (next, []) ∧
      next.state ≠ .newRow ∧ next.reversed = reversed ∧ next.lastCompleteKey = last := by
    cases cut with
    | none =>
        exact ⟨middle, rfl, by rw [hmiddle.state]; simp, hmiddle.reversed, hmiddle.last⟩
    | some partly =>
        obtain ⟨next, hfeed, hin⟩ := hmiddle.feed_cut (hcontinues partly (by simp))
          (hcut partly rfl) (fun c hc => hplain c (by simp [cellsChunks, hc]))
        exact ⟨next, by simpa [cellsChunks] using hfeed, by rw [hin.state]; simp,
          hin.reversed, hin.last⟩
  obtain ⟨next, htail, hstate, hreversed, hlast⟩ := htail
  refine ⟨next.clearActiveRow, ?_, betweenRows_clearActiveRow hreversed hlast⟩
  have hfeed : (merger.openRow cell.first).feed
      (Piece.abandoned key cells cut reset).items = .ok (next.clearActiveRow, []) := by
    rw [Piece.items, List.map_append, hsplit, List.map_append]
    refine feed_append_eq_ok.2 ⟨next, [], [], ?_, ?_, rfl⟩
    · exact feed_append_eq_ok.2 ⟨middle, [], [], hcells, htail, rfl⟩
    · exact feed_chunk_none (push_bareReset hstate hbare)
  obtain ⟨rest, hrest⟩ : ∃ rest, (Piece.abandoned key cells cut reset).items =
      .chunk cell.first :: rest := by
    rw [Piece.items, hsome]
    exact ⟨_, rfl⟩
  rw [hrest] at hfeed ⊢
  refine (h.feed_openRow (hplain _ hmem).1 ?_ ?_).2 hfeed
  · rw [hkey]
    exact hstart
  · rw [hkey]
    exact hafter

theorem BetweenRows.feed_piece (h : merger.BetweenRows reversed last) {piece : Piece}
    (hwell : piece.WellFormed) (hafter : After reversed last piece.key) :
    ∃ next, merger.feed piece.items = .ok (next, piece.output?.toList) ∧
      next.BetweenRows reversed (piece.latest last) := by
  cases piece with
  | row key cells => exact h.feed_rowPiece hwell hafter
  | abandoned key cells cut reset => exact h.feed_abandonedPiece hwell hafter
  | marker key =>
      refine ⟨{ merger with lastCompleteKey := some key },
        feed_cons_eq_ok.2 ⟨_, [.marker key], [], ?_, rfl, rfl⟩, ⟨h.state, h.reversed, rfl⟩⟩
      exact accept_marker_eq_ok.2 ⟨h.state, by rw [h.reversed, h.last]; exact hafter, rfl, rfl⟩

/-- **Completeness.** A legal stream is accepted, and its rows and markers come out. -/
theorem BetweenRows.feed_pieces (pieces : List Piece) (h : merger.BetweenRows reversed last)
    (hwell : ∀ piece ∈ pieces, piece.WellFormed) (hordered : Ordered reversed last pieces) :
    ∃ next, merger.feed (streamItems pieces) = .ok (next, streamOutputs pieces) ∧
      next.state = .newRow := by
  induction pieces generalizing merger last with
  | nil => exact ⟨merger, rfl, h.state⟩
  | cons piece pieces ih =>
      obtain ⟨middle, hpiece, hmiddle⟩ := h.feed_piece (hwell piece (by simp)) hordered.1
      obtain ⟨next, hfeed, hnext⟩ := ih hmiddle (fun p hp => hwell p (by simp [hp])) hordered.2
      refine ⟨next, ?_, hnext⟩
      rw [streamItems, List.flatMap_cons]
      refine feed_append_eq_ok.2 ⟨middle, _, _, hpiece, hfeed, ?_⟩
      cases hout : piece.output? <;> simp [streamOutputs, hout]

end RowMerger

end BigtableClient
