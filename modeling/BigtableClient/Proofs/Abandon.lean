import BigtableClient.ProofSupport.Observation
import BigtableClient.Proofs.MergeRuns

/-!
# Abandoned rows

A row that is reset, or discarded, may leave another family and qualifier in the
merger than there were before it.  Nothing reads them before the next row overwrites
them, so no caller can tell that the row was ever there.
-/

namespace BigtableClient

open Proto
open ProofSupport.Observation
open ChunkGrammar

inductive MergerCall where
  | push (chunk : CellChunk)
  | scanMarker (key : Bytes)
  | discardPartial
  | finish
  deriving DecidableEq

namespace RowMerger

variable {merger merger' next : RowMerger} {outputs : List Output}

def respond (merger : RowMerger) : MergerCall → Outcome
  | .push chunk => merger.push chunk
  | .scanMarker key => ((merger.scanMarker key).1, (merger.scanMarker key).2.map fun _ => none)
  | .discardPartial => (merger.discardPartial, .ok none)
  | .finish => (merger, merger.finish.map fun _ => none)

/-! ## Stale fields -/

def relabel (merger : RowMerger) (family : String) (qualifier : Bytes) : RowMerger :=
  { merger with family := family, qualifier := qualifier }

/-- The same merger, or the same between rows but for the family and the qualifier. -/
def Agree (merger merger' : RowMerger) : Prop :=
  merger' = merger ∨ merger.state = .newRow ∧
    ∃ family qualifier, merger' = merger.relabel family qualifier

theorem validateOrder_relabel (merger : RowMerger) (family : String) (qualifier key : Bytes) :
    (merger.relabel family qualifier).validateOrder key = merger.validateOrder key := rfl

/-- The first chunk of a row is rejected, or it overwrites both fields. -/
theorem startRow_relabel (merger : RowMerger) (family : String) (qualifier : Bytes)
    (chunk : CellChunk) :
    (merger.relabel family qualifier).startRow chunk = merger.startRow chunk ∨
      ∃ issue, merger.startRow chunk = (merger, .error issue) ∧
        (merger.relabel family qualifier).startRow chunk =
          (merger.relabel family qualifier, .error issue) := by
  unfold startRow
  rw [validateOrder_relabel]
  split_ifs with hreset hkey
  · exact Or.inr ⟨_, rfl, rfl⟩
  · exact Or.inr ⟨_, rfl, rfl⟩
  · cases chunk.familyName with
    | none => exact Or.inr ⟨_, rfl, rfl⟩
    | some name =>
        cases chunk.qualifier with
        | none => exact Or.inr ⟨_, rfl, rfl⟩
        | some column =>
            cases merger.validateOrder chunk.rowKey with
            | error issue => exact Or.inr ⟨issue, rfl, rfl⟩
            | ok _ => exact Or.inl rfl

theorem respond_relabel (hstate : merger.state = .newRow) (family : String) (qualifier : Bytes)
    (call : MergerCall) :
    (merger.respond call).2 = ((merger.relabel family qualifier).respond call).2 ∧
      Agree (merger.respond call).1 ((merger.relabel family qualifier).respond call).1 := by
  have hstate' : (merger.relabel family qualifier).state = .newRow := hstate
  have hagree : Agree merger (merger.relabel family qualifier) :=
    Or.inr ⟨hstate, family, qualifier, rfl⟩
  cases call with
  | push chunk =>
      rw [respond, respond, push_of_newRow hstate, push_of_newRow hstate']
      rcases startRow_relabel merger family qualifier chunk with h | ⟨issue, h, h'⟩
      · rw [h]
        exact ⟨rfl, Or.inl rfl⟩
      · rw [h, h']
        exact ⟨rfl, hagree⟩
  | scanMarker key =>
      simp only [respond, scanMarker, hstate, hstate', validateOrder_relabel, ne_eq,
        not_true_eq_false, if_false]
      cases merger.validateOrder key with
      | error issue => exact ⟨rfl, hagree⟩
      | ok _ => exact ⟨rfl, Or.inr ⟨rfl, family, qualifier, rfl⟩⟩
  | discardPartial =>
      rw [respond, respond, discardPartial, discardPartial, if_neg (not_not.2 hstate),
        if_neg (not_not.2 hstate')]
      exact ⟨rfl, hagree⟩
  | finish =>
      rw [respond, respond, finish, finish, if_pos hstate, if_pos hstate']
      exact ⟨rfl, hagree⟩

theorem bisimulation_agree : Bisimulation respond Agree := by
  rintro merger _ call (rfl | ⟨hstate, family, qualifier, rfl⟩)
  · exact ⟨rfl, Or.inl rfl⟩
  · exact respond_relabel hstate family qualifier call

/-! ## Between rows -/

/-- Between rows nothing but the family and the qualifier is stale. -/
def Tidy (merger : RowMerger) : Prop :=
  merger.state = .newRow →
    merger = merger.clearActiveRow.relabel merger.family merger.qualifier

theorem tidy_clearActiveRow (merger : RowMerger) : merger.clearActiveRow.Tidy := fun _ => rfl

theorem tidy_commitRow (merger : RowMerger) : merger.commitRow.1.Tidy := fun _ => rfl

theorem tidy_of_state_ne (h : merger.state ≠ .newRow) : merger.Tidy :=
  fun hstate => absurd hstate h

theorem tidy_startCell {chunk : CellChunk} {out : Option Row}
    (h : merger.startCell chunk = (next, .ok out)) : next.Tidy := by
  cases hreset : chunk.isReset with
  | true =>
      obtain ⟨-, rfl, -⟩ := (startCell_reset hreset).1 h
      exact tidy_clearActiveRow merger
  | false =>
      obtain ⟨-, ⟨-, -, rfl, -⟩ | ⟨-, -, rfl, -⟩ | ⟨-, -, rfl, -⟩⟩ :=
        (startCell_eq_ok hreset).1 h
      · exact tidy_of_state_ne nofun
      · exact tidy_commitRow _
      · exact tidy_of_state_ne nofun

theorem tidy_continueCell (hstate : merger.state = .cellValue) {chunk : CellChunk}
    {out : Option Row} (h : merger.continueCell chunk = (next, .ok out)) : next.Tidy := by
  cases hreset : chunk.isReset with
  | true =>
      rw [continueCell_reset hreset] at h
      exact tidy_startCell h
  | false =>
      obtain ⟨-, ⟨-, -, -, rfl, -⟩ | ⟨-, -, -, rfl, -⟩ | ⟨-, -, -, -, rfl, -⟩⟩ :=
        (continueCell_eq_ok hreset).1 h
      · exact tidy_of_state_ne nofun
      · exact tidy_commitRow _
      · apply tidy_of_state_ne
        show merger.state ≠ .newRow
        rw [hstate]
        nofun

theorem tidy_push {chunk : CellChunk} {out : Option Row}
    (h : merger.push chunk = (next, .ok out)) : next.Tidy := by
  cases hstate : merger.state with
  | newRow =>
      rw [push_of_newRow hstate] at h
      exact tidy_startCell (startRow_eq_ok.1 h).2.2.2
  | newCell =>
      rw [push_of_newCell hstate] at h
      exact tidy_startCell h
  | cellValue =>
      rw [push_of_cellValue hstate] at h
      exact tidy_continueCell hstate h

theorem tidy_accept {item : Item} (htidy : merger.Tidy)
    (h : merger.accept item = .ok (next, outputs)) : next.Tidy := by
  cases item with
  | marker key =>
      obtain ⟨hstate, -, rfl, -⟩ := accept_marker_eq_ok.1 h
      intro _
      exact congrArg (fun merger : RowMerger => { merger with lastCompleteKey := some key })
        (htidy hstate)
  | chunk chunk =>
      obtain ⟨out, hpush, -⟩ := accept_chunk_eq_ok.1 h
      exact tidy_push hpush

theorem tidy_feed {items : List Item} (htidy : merger.Tidy)
    (h : merger.feed items = .ok (next, outputs)) : next.Tidy := by
  induction items generalizing merger outputs with
  | nil =>
      obtain ⟨rfl, -⟩ := Prod.mk.inj (Except.ok.inj h)
      exact htidy
  | cons item items ih =>
      obtain ⟨middle, first, more, haccept, hrest, -⟩ := feed_cons_eq_ok.1 h
      exact ih (tidy_accept htidy haccept) hrest

/-! ## Chunks that commit no row -/

theorem frame_feed_chunks {chunks : List CellChunk}
    (h : merger.feed (chunks.map .chunk) = .ok (next, [])) : Frame merger next none := by
  induction chunks generalizing merger with
  | nil =>
      obtain ⟨rfl, -⟩ := Prod.mk.inj (Except.ok.inj h)
      exact ⟨rfl, rfl⟩
  | cons chunk chunks ih =>
      obtain ⟨middle, first, more, haccept, hrest, houtputs⟩ := feed_cons_eq_ok.1 h
      obtain ⟨rfl, rfl⟩ := List.append_eq_nil_iff.1 houtputs.symm
      obtain ⟨out, hpush, hout⟩ := accept_chunk_eq_ok.1 haccept
      obtain rfl : out = none := by
        cases out with
        | none => rfl
        | some row => cases hout
      obtain ⟨hreversed, hlast⟩ := push_frame hpush
      obtain ⟨hreversed', hlast'⟩ := ih hrest
      exact ⟨hreversed'.trans hreversed, hlast'.trans hlast⟩

/-- Dropping what was received of a row leads back to where the merger was before it. -/
theorem agree_clearActiveRow (htidy : merger.Tidy) (hstate : merger.state = .newRow)
    (hframe : Frame merger next none) : Agree next.clearActiveRow merger := by
  obtain ⟨hreversed, hlast⟩ := hframe
  have hsame : next.clearActiveRow = merger.clearActiveRow := by
    simp only [clearActiveRow, clearCell, hreversed, show next.lastCompleteKey = _ from hlast]
  refine Or.inr ⟨rfl, merger.family, merger.qualifier, ?_⟩
  rw [hsame]
  exact htidy hstate

/-- Abandoning a row leaves no trace.  When some chunks of a row were accepted, up to any point
between two cells or inside one, and the row is then reset or discarded, no sequence of calls tells
the merger from the one that never saw these chunks. -/
theorem abandoned_row_leaves_no_trace (reversed : Bool) (items : List Item)
    (merger : RowMerger) (outputs : List Output)
    (hreach : (RowMerger.new reversed).feed items = .ok (merger, outputs))
    (hbetween : merger.state = .newRow) (chunks : List CellChunk) (active : RowMerger)
    (haccepted : merger.feed (chunks.map .chunk) = .ok (active, []))
    (hopen : active.state ≠ .newRow) :
    (∀ reset, BareReset reset → ∃ next, active.push reset = (next, .ok none) ∧
        Indistinguishable respond next merger) ∧
      Indistinguishable respond active.discardPartial merger := by
  have htidy : merger.Tidy := tidy_feed (fun _ => rfl) hreach
  have hagree := agree_clearActiveRow htidy hbetween (frame_feed_chunks haccepted)
  have hsame := bisimulation_agree.indistinguishable hagree
  refine ⟨fun reset hreset => ⟨active.clearActiveRow, push_bareReset hopen hreset, hsame⟩, ?_⟩
  rw [discardPartial, if_pos hopen]
  exact hsame

end RowMerger

/-! ### A row abandoned in a split cell -/

/-- A cell of four bytes, of which one was sent. -/
def cutChunk : CellChunk where
  rowKey := [98]
  familyName := some "other"
  qualifier := some [113]
  value := [1]
  valueSize := 4

def committedChunk : CellChunk where
  rowKey := [97]
  familyName := some "family"
  qualifier := some [113]
  rowStatus := some (.commitRow true)

theorem RowMerger.abandoned_row_leaves_no_trace_cutChunk :
    ∃ merger active : RowMerger, merger.family = "family" ∧ active.discardPartial.family = "" ∧
      Indistinguishable RowMerger.respond active.discardPartial merger := by
  have hrun : ∃ merger outputs active,
      (RowMerger.new false).feed [.chunk committedChunk] = .ok (merger, outputs) ∧
        merger.state = .newRow ∧ merger.feed ([cutChunk].map .chunk) = .ok (active, []) ∧
        active.state ≠ .newRow ∧ merger.family = "family" ∧
        active.discardPartial.family = "" :=
    ⟨_, _, _, rfl, rfl, rfl, by decide, rfl, rfl⟩
  obtain ⟨merger, outputs, active, hreach, hbetween, haccepted, hopen, hfamily, hcleared⟩ := hrun
  exact ⟨merger, active, hfamily, hcleared,
    (RowMerger.abandoned_row_leaves_no_trace false [.chunk committedChunk] merger outputs hreach
      hbetween [cutChunk] active haccepted hopen).2⟩

end BigtableClient
