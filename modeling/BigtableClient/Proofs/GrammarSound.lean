import BigtableClient.Proofs.Grammar

/-!
# Accepted streams are legal

An accepted stream is read from the left.  Inside a split cell the rest of the
cell is cut off first, inside a row the rest of the row, and between rows one
piece after the other.
-/

namespace BigtableClient

open Proto
open ProofSupport.ScanOrder (After)
open ChunkGrammar

namespace RowMerger

variable {merger final : RowMerger} {reversed : Bool} {last : Option Bytes} {key : Bytes}
variable {acc : List Received} {family : String} {qualifier : Bytes} {cell : CellChunks}
variable {items : List Item} {outputs : List Output}

/-- From between two rows, the rest of the stream is accepted. -/
def Resumes (final : RowMerger) (reversed : Bool) (last : Option Bytes) (items : List Item)
    (outputs : List Output) : Prop :=
  ∃ merger : RowMerger, merger.BetweenRows reversed last ∧
    merger.feed items = .ok (final, outputs)

/-! ## The rest of a split cell -/

def CompletesCell (final : RowMerger) (reversed : Bool) (last : Option Bytes) (key : Bytes)
    (acc : List Received) (family : String) (qualifier : Bytes) (cell : CellChunks)
    (items : List Item) (outputs : List Output) : Prop :=
  ∃ (more : List CellChunk) (whole : CellChunks) (rest : List Item) (next : RowMerger),
    whole = { cell with rest := cell.rest ++ more } ∧ whole.Complete ∧
      (∀ chunk ∈ more, Plain chunk) ∧ items = more.map .chunk ++ rest ∧
      next.BetweenCells reversed last key (acc ++ [receive family qualifier whole])
        (receive family qualifier whole).family (receive family qualifier whole).qualifier ∧
      next.feed rest = .ok (final, outputs)

def CommitsCell (final : RowMerger) (reversed : Bool) (key : Bytes) (acc : List Received)
    (family : String) (qualifier : Bytes) (cell : CellChunks) (items : List Item)
    (outputs : List Output) : Prop :=
  ∃ (init : List CellChunk) (commit : CellChunk) (whole : CellChunks) (rest : List Item)
    (tail : List Output),
    whole = { cell with rest := cell.rest ++ (init ++ [commit]) } ∧ whole.Complete ∧
      (∀ chunk ∈ init, Plain chunk) ∧ commit.isCommit = true ∧
      items = (init ++ [commit]).map .chunk ++ rest ∧
      outputs = .row { key := key
                       families := families (acc ++ [receive family qualifier whole]) } :: tail ∧
      Resumes final reversed (some key) rest tail

def CutsCell (final : RowMerger) (reversed : Bool) (last : Option Bytes) (cell : CellChunks)
    (items : List Item) (outputs : List Output) : Prop :=
  ∃ (more : List CellChunk) (reset : CellChunk) (rest : List Item),
    CellChunks.Cut { cell with rest := cell.rest ++ more } ∧ (∀ chunk ∈ more, Plain chunk) ∧
      BareReset reset ∧ items = (more ++ [reset]).map .chunk ++ rest ∧
      Resumes final reversed last rest outputs

theorem extend_rest (cell : CellChunks) (chunk : CellChunk) (more : List CellChunk) :
    ({ cell.extend chunk with rest := (cell.extend chunk).rest ++ more } : CellChunks) =
      { cell with rest := cell.rest ++ chunk :: more } := by
  simp [CellChunks.extend]

theorem InCell.split_items (items : List Item)
    (h : merger.InCell reversed last key acc family qualifier cell)
    (hfeed : merger.feed items = .ok (final, outputs)) (hfinal : final.state = .newRow) :
    CompletesCell final reversed last key acc family qualifier cell items outputs ∨
      CommitsCell final reversed key acc family qualifier cell items outputs ∨
        CutsCell final reversed last cell items outputs := by
  induction items generalizing merger cell with
  | nil =>
      simp only [feed_nil, Except.ok.injEq, Prod.mk.injEq] at hfeed
      rw [← hfeed.1, h.state] at hfinal
      simp at hfinal
  | cons item items ih =>
      obtain ⟨next, first, more, haccept, hrest, rfl⟩ := feed_cons_eq_ok.1 hfeed
      cases item with
      | marker k =>
          rw [accept_marker_eq_ok, h.state] at haccept
          simp at haccept
      | chunk chunk =>
          obtain ⟨out, hpush, rfl⟩ := accept_chunk_eq_ok.1 haccept
          rw [push_of_cellValue h.state] at hpush
          cases hreset : chunk.isReset with
          | true =>
              rw [continueCell_reset hreset, startCell_reset hreset] at hpush
              obtain ⟨hbare, rfl, rfl⟩ := hpush
              refine Or.inr (Or.inr ⟨[], chunk, items, by simpa using h.cut, by simp, hbare, rfl,
                merger.clearActiveRow, betweenRows_clearActiveRow h.reversed h.last, hrest⟩)
          | false =>
              obtain ⟨hfree, hcases⟩ := (continueCell_eq_ok hreset).1 hpush
              rcases hcases with ⟨hzero, hsize, hcommit, rfl, rfl⟩ |
                ⟨hzero, hsize, hcommit, rfl, rfl⟩ | ⟨hpos, hfits, hsize, hcommit, rfl, rfl⟩
              · have hcomplete := h.cut.complete hfree hzero (h.total_eq_iff.1 hsize)
                exact Or.inl ⟨[chunk], _, items, _, rfl, hcomplete,
                  by simpa using ⟨hreset, hcommit⟩, rfl, h.endCell, hrest⟩
              · have hcomplete := h.cut.complete hfree hzero (h.total_eq_iff.1 hsize)
                refine Or.inr (Or.inl ⟨[], chunk, _, items, more, rfl, hcomplete, by simp,
                  hcommit, rfl, ?_, _, h.commitRow, hrest⟩)
                rw [h.extendCell_row]
                rfl
              · have hexpected := h.expected
                have hchunk : cell.Continuation chunk := ⟨hfree, by omega⟩
                rcases ih (h.extendCell hchunk hfits) hrest with
                  ⟨tail, whole, rest, next, hwhole, hcomplete, hplain, rfl, hnext, htail⟩ |
                  ⟨init, commit, whole, rest, tail, hwhole, hcomplete, hplain, hc, rfl, rfl, hr⟩ |
                  ⟨tail, reset, rest, hcut, hplain, hbare, rfl, hr⟩
                · rw [extend_rest] at hwhole
                  exact Or.inl ⟨chunk :: tail, whole, rest, next, hwhole, hcomplete,
                    List.forall_mem_cons.2 ⟨⟨hreset, hcommit⟩, hplain⟩, rfl, hnext, htail⟩
                · rw [extend_rest] at hwhole
                  exact Or.inr (Or.inl ⟨chunk :: init, commit, whole, rest, tail, hwhole,
                    hcomplete, List.forall_mem_cons.2 ⟨⟨hreset, hcommit⟩, hplain⟩, hc, rfl, rfl,
                    hr⟩)
                · rw [extend_rest] at hcut
                  exact Or.inr (Or.inr ⟨chunk :: tail, reset, rest, hcut,
                    List.forall_mem_cons.2 ⟨⟨hreset, hcommit⟩, hplain⟩, hbare, rfl, hr⟩)

/-! ## The rest of a row -/

def CommitsRow (final : RowMerger) (reversed : Bool) (key : Bytes) (acc : List Received)
    (family : String) (qualifier : Bytes) (items : List Item) (outputs : List Output) : Prop :=
  ∃ (cells : List CellChunks) (init : List CellChunk) (commit : CellChunk) (rest : List Item)
    (tail : List Output),
    (∀ cell ∈ cells, ContinuesRow key cell.first) ∧ (∀ cell ∈ cells, cell.Complete) ∧
      cellsChunks cells = init ++ [commit] ∧ (∀ chunk ∈ init, Plain chunk) ∧
      commit.isCommit = true ∧ items = (cellsChunks cells).map .chunk ++ rest ∧
      outputs = .row { key := key
                       families := families (acc ++ received family qualifier cells) } :: tail ∧
      Resumes final reversed (some key) rest tail

def AbandonsRow (final : RowMerger) (reversed : Bool) (last : Option Bytes) (key : Bytes)
    (items : List Item) (outputs : List Output) : Prop :=
  ∃ (cells : List CellChunks) (cut : Option CellChunks) (reset : CellChunk)
    (rest : List Item),
    (∀ cell ∈ cells ++ cut.toList, ContinuesRow key cell.first) ∧
      (∀ cell ∈ cells, cell.Complete) ∧ (∀ cell ∈ cut, cell.Cut) ∧
      (∀ chunk ∈ cellsChunks (cells ++ cut.toList), Plain chunk) ∧ BareReset reset ∧
      items = (cellsChunks (cells ++ cut.toList) ++ [reset]).map .chunk ++ rest ∧
      Resumes final reversed last rest outputs

section Prepend

variable (hcontinues : ContinuesRow key cell.first) (hcomplete : cell.Complete)
  (hplain : ∀ chunk ∈ cell.chunks, Plain chunk)
include hcontinues hcomplete hplain

theorem CommitsRow.prepend
    (h : CommitsRow final reversed key (acc ++ [receive family qualifier cell])
      (receive family qualifier cell).family (receive family qualifier cell).qualifier
      items outputs) :
    CommitsRow final reversed key acc family qualifier
      (cell.chunks.map .chunk ++ items) outputs := by
  obtain ⟨cells, init, commit, rest, tail, hheads, hcells, hchunks, hinit, hcommit, rfl, rfl,
    hresumes⟩ := h
  refine ⟨cell :: cells, cell.chunks ++ init, commit, rest, tail,
    List.forall_mem_cons.2 ⟨hcontinues, hheads⟩, List.forall_mem_cons.2 ⟨hcomplete, hcells⟩,
    ?_, List.forall_mem_append.2 ⟨hplain, hinit⟩, hcommit, ?_, ?_, hresumes⟩
  · rw [List.append_assoc, ← hchunks]
    rfl
  · simp [cellsChunks]
  · rw [received_cons, List.append_assoc, List.singleton_append]

theorem AbandonsRow.prepend (h : AbandonsRow final reversed last key items outputs) :
    AbandonsRow final reversed last key (cell.chunks.map .chunk ++ items) outputs := by
  obtain ⟨cells, cut, reset, rest, hheads, hcells, hcut, hchunks, hbare, rfl, hresumes⟩ := h
  refine ⟨cell :: cells, cut, reset, rest, List.forall_mem_cons.2 ⟨hcontinues, hheads⟩,
    List.forall_mem_cons.2 ⟨hcomplete, hcells⟩, hcut, ?_, hbare, ?_, hresumes⟩
  · rw [List.cons_append, cellsChunks, List.flatMap_cons]
    exact List.forall_mem_append.2 ⟨hplain, hchunks⟩
  · simp [cellsChunks]

end Prepend

/-- A split cell that commits the row is the last cell of the row. -/
theorem CommitsCell.commitsRow {chunk : CellChunk}
    (h : CommitsCell final reversed key acc family qualifier ⟨chunk, []⟩ items outputs)
    (hcontinues : ContinuesRow key chunk) (hplain : Plain chunk) :
    CommitsRow final reversed key acc family qualifier (.chunk chunk :: items) outputs := by
  obtain ⟨init, commit, whole, rest, tail, rfl, hcomplete, hinit, hcommit, rfl, rfl, hresumes⟩ := h
  refine ⟨[_], chunk :: init, commit, rest, tail, ?_, by simpa using hcomplete, ?_,
    List.forall_mem_cons.2 ⟨hplain, hinit⟩, hcommit, ?_, ?_, hresumes⟩
  · simpa using hcontinues
  · simp [cellsChunks, CellChunks.chunks]
  · simp [cellsChunks, CellChunks.chunks]
  · rfl

theorem CutsCell.abandonsRow {chunk : CellChunk}
    (h : CutsCell final reversed last ⟨chunk, []⟩ items outputs)
    (hcontinues : ContinuesRow key chunk) (hplain : Plain chunk) :
    AbandonsRow final reversed last key (.chunk chunk :: items) outputs := by
  obtain ⟨more, reset, rest, hcut, hmore, hbare, rfl, hresumes⟩ := h
  refine ⟨[], some ⟨chunk, more⟩, reset, rest, by simpa using hcontinues, by simp,
    by simpa using hcut, ?_, hbare, ?_, hresumes⟩
  · simpa [cellsChunks, CellChunks.chunks] using ⟨hplain, hmore⟩
  · simp [cellsChunks, CellChunks.chunks]

theorem BetweenCells.split_items (fuel : Nat) (hfuel : items.length ≤ fuel)
    (h : merger.BetweenCells reversed last key acc family qualifier)
    (hfeed : merger.feed items = .ok (final, outputs)) (hfinal : final.state = .newRow) :
    CommitsRow final reversed key acc family qualifier items outputs ∨
      AbandonsRow final reversed last key items outputs := by
  induction fuel generalizing merger acc family qualifier items outputs with
  | zero =>
      obtain rfl : items = [] := List.length_eq_zero_iff.1 (by omega)
      simp only [feed_nil, Except.ok.injEq, Prod.mk.injEq] at hfeed
      rw [← hfeed.1, h.state] at hfinal
      simp at hfinal
  | succ fuel ih =>
      cases items with
      | nil =>
          simp only [feed_nil, Except.ok.injEq, Prod.mk.injEq] at hfeed
          rw [← hfeed.1, h.state] at hfinal
          simp at hfinal
      | cons item items =>
          have hshort : items.length ≤ fuel := by simpa using hfuel
          obtain ⟨next, first, more, haccept, hrest, rfl⟩ := feed_cons_eq_ok.1 hfeed
          cases item with
          | marker k =>
              rw [accept_marker_eq_ok, h.state] at haccept
              simp at haccept
          | chunk chunk =>
              obtain ⟨out, hpush, rfl⟩ := accept_chunk_eq_ok.1 haccept
              rw [push_of_newCell h.state] at hpush
              cases hreset : chunk.isReset with
              | true =>
                  obtain ⟨hbare, rfl, rfl⟩ := (startCell_reset hreset).1 hpush
                  exact Or.inr ⟨[], none, chunk, items, by simp, by simp, by simp,
                    by simp [cellsChunks], hbare, rfl, merger.clearActiveRow,
                    betweenRows_clearActiveRow h.reversed h.last, hrest⟩
              | false =>
                  obtain ⟨hcontinues, hcases⟩ := (startCell_eq_ok hreset).1 hpush
                  rw [h.row] at hcontinues
                  rcases hcases with ⟨hzero, hcommit, rfl, rfl⟩ | ⟨hzero, hcommit, rfl, rfl⟩ |
                    ⟨hsplit, hcommit, rfl, rfl⟩
                  · -- a cell of one chunk, and the row goes on
                    have hwhole : CellChunks.Complete ⟨chunk, []⟩ := Or.inl ⟨hzero, rfl⟩
                    have hplain : ∀ c ∈ CellChunks.chunks ⟨chunk, []⟩, Plain c := by
                      simpa [CellChunks.chunks] using ⟨hreset, hcommit⟩
                    exact (ih hshort (h.endCell chunk) hrest).imp
                      (fun hc => CommitsRow.prepend hcontinues hwhole hplain hc)
                      (fun ha => AbandonsRow.prepend hcontinues hwhole hplain ha)
                  · -- a cell of one chunk that commits the row
                    have hwhole : CellChunks.Complete ⟨chunk, []⟩ := Or.inl ⟨hzero, rfl⟩
                    refine Or.inl ⟨[⟨chunk, []⟩], [], chunk, items, more, by simpa using hcontinues,
                      by simpa using hwhole, rfl, by simp, hcommit, rfl, ?_, _,
                      h.commitRow chunk, hrest⟩
                    rw [h.loadCell_row chunk]
                    rfl
                  · -- the first chunk of a split cell
                    rcases (h.splitCell chunk hsplit).split_items items hrest hfinal with
                      ⟨tail, whole, rest, next, hwhole, hcomplete, hplain, rfl, hnext, htail⟩ |
                      hcommits | hcuts
                    · have hchunks : whole.chunks = chunk :: tail := by
                        rw [hwhole]
                        rfl
                      have hhead : ContinuesRow key whole.first := by
                        rw [hwhole]
                        exact hcontinues
                      have hplain' : ∀ c ∈ whole.chunks, Plain c := by
                        rw [hchunks]
                        exact List.forall_mem_cons.2 ⟨⟨hreset, hcommit⟩, hplain⟩
                      have hitems : Item.chunk chunk :: (tail.map .chunk ++ rest) =
                          whole.chunks.map .chunk ++ rest := by
                        rw [hchunks]
                        rfl
                      have hshort' : rest.length ≤ fuel := by
                        rw [List.length_append] at hshort
                        omega
                      rw [hitems]
                      exact (ih hshort' hnext htail).imp
                        (fun hc => CommitsRow.prepend hhead hcomplete hplain' hc)
                        (fun ha => AbandonsRow.prepend hhead hcomplete hplain' ha)
                    · exact Or.inl (hcommits.commitsRow hcontinues ⟨hreset, hcommit⟩)
                    · exact Or.inr (hcuts.abandonsRow hcontinues ⟨hreset, hcommit⟩)

/-! ## The rest of the stream -/

theorem headsMatch_of_starts {cells : List CellChunks} (hne : cells ≠ [])
    (hheads : ∀ cell ∈ cells, ContinuesRow key cell.first)
    (hstarts : ∀ cell ∈ cells.head?, StartsRow key cell.first) : HeadsMatch key cells := by
  cases cells with
  | nil => exact absurd rfl hne
  | cons cell cells =>
      exact ⟨hstarts cell rfl, fun c hc => hheads c (by simp [hc])⟩

theorem startsRow_head {first : CellChunk} {cells : List CellChunks} {rest : List Item}
    (hstarts : StartsRow key first)
    (hitems : Item.chunk first :: items = (cellsChunks cells).map .chunk ++ rest) :
    ∀ cell ∈ cells.head?, StartsRow key cell.first := by
  cases cells with
  | nil => simp
  | cons cell cells =>
      simp only [cellsChunks, List.flatMap_cons, CellChunks.chunks, List.map_append,
        List.map_cons, List.cons_append, List.cons.injEq, Item.chunk.injEq] at hitems
      simpa [← hitems.1] using hstarts

/-- **Soundness.** An accepted stream that ends between rows is legal. -/
theorem BetweenRows.split_items (fuel : Nat) (hfuel : items.length ≤ fuel)
    (h : merger.BetweenRows reversed last) (hfeed : merger.feed items = .ok (final, outputs))
    (hfinal : final.state = .newRow) :
    ∃ pieces : List Piece, (∀ piece ∈ pieces, piece.WellFormed) ∧
      Ordered reversed last pieces ∧ items = streamItems pieces ∧
      outputs = streamOutputs pieces := by
  induction fuel generalizing merger last items outputs with
  | zero =>
      obtain rfl : items = [] := List.length_eq_zero_iff.1 (by omega)
      simp only [feed_nil, Except.ok.injEq, Prod.mk.injEq] at hfeed
      exact ⟨[], by simp, trivial, rfl, hfeed.2.symm⟩
  | succ fuel ih =>
      cases items with
      | nil =>
          simp only [feed_nil, Except.ok.injEq, Prod.mk.injEq] at hfeed
          exact ⟨[], by simp, trivial, rfl, hfeed.2.symm⟩
      | cons item items =>
          have hshort : items.length ≤ fuel := by simpa using hfuel
          obtain ⟨next, first, more, haccept, hrest, rfl⟩ := feed_cons_eq_ok.1 hfeed
          cases item with
          | marker k =>
              obtain ⟨-, hafter, rfl, rfl⟩ := accept_marker_eq_ok.1 haccept
              rw [h.reversed, h.last] at hafter
              have hnext : { merger with lastCompleteKey := some k }.BetweenRows reversed
                  (some k) := ⟨h.state, h.reversed, rfl⟩
              obtain ⟨pieces, hwell, hordered, rfl, rfl⟩ := ih hshort hnext hrest
              exact ⟨.marker k :: pieces, List.forall_mem_cons.2 ⟨trivial, hwell⟩,
                ⟨hafter, hordered⟩, rfl, rfl⟩
          | chunk chunk =>
              obtain ⟨out, hpush, -⟩ := accept_chunk_eq_ok.1 haccept
              rw [push_of_newRow h.state] at hpush
              obtain ⟨hreset, hstarts, hafter, -⟩ := startRow_eq_ok.1 hpush
              rw [h.reversed, h.last] at hafter
              rw [h.feed_openRow hreset hstarts hafter] at hfeed
              rcases (h.openRow chunk).split_items (items.length + 1) (by simp) hfeed hfinal with
                ⟨cells, init, commit, rest, tail, hheads, hcells, hchunks, hinit, hcommit, hitems,
                  houtputs, middle, hmiddle, htail⟩ |
                ⟨cells, cut, reset, rest, hheads, hcells, hcut, hchunks, hbare, hitems, middle,
                  hmiddle, htail⟩
              · have hne : cells ≠ [] := by
                  rintro rfl
                  simp [cellsChunks] at hchunks
                have hmatch := headsMatch_of_starts hne hheads
                  (startsRow_head hstarts hitems)
                have hlength : rest.length ≤ fuel := by
                  have hlen := congrArg List.length hitems
                  simp only [hchunks, List.length_cons, List.length_append, List.length_map,
                    List.length_nil] at hlen
                  omega
                obtain ⟨pieces, hwell, hordered, rfl, rfl⟩ := ih hlength hmiddle htail
                refine ⟨.row chunk.rowKey cells :: pieces, List.forall_mem_cons.2
                  ⟨⟨hmatch, hcells, init, commit, hchunks, hinit, hcommit⟩, hwell⟩,
                  ⟨hafter, hordered⟩, hitems, ?_⟩
                rw [houtputs, List.nil_append, received_of_startsRow hmatch "" []]
                rfl
              · have hne : cells ++ cut.toList ≠ [] := by
                  intro hnil
                  rw [hnil] at hitems
                  simp only [cellsChunks, List.flatMap_nil, List.nil_append, List.map_cons,
                    List.map_nil, List.singleton_append, List.cons.injEq,
                    Item.chunk.injEq] at hitems
                  rw [hitems.1, hbare.1] at hreset
                  simp at hreset
                have hmatch := headsMatch_of_starts hne hheads
                  (startsRow_head hstarts (by
                    rw [hitems, List.map_append, List.append_assoc]))
                have hlength : rest.length ≤ fuel := by
                  have hlen := congrArg List.length hitems
                  simp only [List.length_cons, List.length_append, List.length_map,
                    List.length_nil] at hlen
                  omega
                obtain ⟨pieces, hwell, hordered, rfl, houtputs⟩ := ih hlength hmiddle htail
                exact ⟨.abandoned chunk.rowKey cells cut reset :: pieces,
                  List.forall_mem_cons.2 ⟨⟨hne, hmatch, hcells, hcut, hchunks, hbare⟩, hwell⟩,
                  ⟨hafter, hordered⟩, hitems, houtputs⟩

/-! ## The equivalence -/

theorem finish_eq_ok : merger.finish = .ok () ↔ merger.state = .newRow := by
  unfold finish
  split_ifs with h <;> simp [h]

/-- A fresh merger takes a stream without failing and finishes exactly when the stream is a
concatenation of committed rows, abandoned rows and markers in scan order, and then it reports
exactly those rows, decoded, and those markers. -/
theorem accepts_iff_grammar (reversed : Bool) (items : List Item) (outputs : List Output) :
    (∃ merger, (RowMerger.new reversed).feed items = .ok (merger, outputs) ∧
        merger.finish = .ok ()) ↔
      ∃ pieces : List Piece, (∀ piece ∈ pieces, piece.WellFormed) ∧
        Ordered reversed none pieces ∧ items = streamItems pieces ∧
        outputs = streamOutputs pieces := by
  constructor
  · rintro ⟨merger, hfeed, hfinish⟩
    exact (betweenRows_new reversed).split_items items.length le_rfl hfeed
      (finish_eq_ok.1 hfinish)
  · rintro ⟨pieces, hwell, hordered, rfl, rfl⟩
    obtain ⟨merger, hfeed, hstate⟩ :=
      (betweenRows_new reversed).feed_pieces pieces hwell hordered
    exact ⟨merger, hfeed, finish_eq_ok.2 hstate⟩

end RowMerger

end BigtableClient
