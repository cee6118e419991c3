import Mathlib

/-!
# Numbered brackets

A log of brackets that are opened and closed one after the other and are numbered
from one.  Within a bracket something may be noted once, and after it the next
bracket may be announced once.
-/

namespace BigtableClient.ProofSupport.Brackets

inductive Mark where
  | start
  | note
  | stop
  /-- another bracket is to follow -/
  | again
  deriving DecidableEq, Repr

structure Block where
  noted : Bool
  again : Bool
  deriving DecidableEq, Repr

def openMarks (number : Nat) (noted : Bool) : List (Mark × Nat) :=
  (.start, number) :: if noted then [(.note, number)] else []

def Block.marks (number : Nat) (block : Block) : List (Mark × Nat) :=
  openMarks number block.noted ++
    (.stop, number) :: if block.again then [(.again, number)] else []

def marksFrom (number : Nat) : List Block → List (Mark × Nat)
  | [] => []
  | block :: blocks => block.marks number ++ marksFrom (number + 1) blocks

/-- The log of this many brackets, numbered from one. -/
def Closed (marks : List (Mark × Nat)) (count : Nat) : Prop :=
  ∃ blocks : List Block, blocks.length = count ∧ marks = marksFrom 1 blocks

/-- The last bracket was closed just now. -/
def Fresh (marks : List (Mark × Nat)) (count : Nat) : Prop :=
  ∃ (blocks : List Block) (noted : Bool), blocks.length + 1 = count ∧
    marks = marksFrom 1 (blocks ++ [{ noted := noted, again := false }])

def Open (marks : List (Mark × Nat)) (number : Nat) (noted : Bool) : Prop :=
  ∃ blocks : List Block, blocks.length + 1 = number ∧
    marks = marksFrom 1 blocks ++ openMarks number noted

variable {marks : List (Mark × Nat)} {number count : Nat} {noted : Bool}

theorem marksFrom_append (number : Nat) (blocks more : List Block) :
    marksFrom number (blocks ++ more) =
      marksFrom number blocks ++ marksFrom (number + blocks.length) more := by
  induction blocks generalizing number with
  | nil => rfl
  | cons block blocks ih =>
      rw [List.cons_append, marksFrom, ih, marksFrom, List.append_assoc, List.length_cons,
        Nat.add_right_comm, Nat.add_assoc]

theorem marksFrom_concat (blocks : List Block) (block : Block)
    (h : blocks.length + 1 = number) :
    marksFrom 1 (blocks ++ [block]) = marksFrom 1 blocks ++ block.marks number := by
  rw [marksFrom_append, marksFrom, marksFrom, List.append_nil, Nat.add_comm, h]

/-! ## Growing a log -/

theorem closed_nil : Closed [] 0 := ⟨[], rfl, rfl⟩

theorem Closed.start (h : Closed marks count) :
    Open (marks ++ [(.start, count + 1)]) (count + 1) false := by
  obtain ⟨blocks, rfl, rfl⟩ := h
  exact ⟨blocks, rfl, rfl⟩

theorem Open.note (h : Open marks number false) :
    Open (marks ++ [(.note, number)]) number true := by
  obtain ⟨blocks, hlength, rfl⟩ := h
  exact ⟨blocks, hlength, by simp [openMarks]⟩

theorem Open.stop (h : Open marks number noted) :
    Fresh (marks ++ [(.stop, number)]) number := by
  obtain ⟨blocks, hlength, rfl⟩ := h
  refine ⟨blocks, noted, hlength, ?_⟩
  rw [marksFrom_concat blocks _ hlength, List.append_assoc]
  rfl

theorem Fresh.again (h : Fresh marks count) : Closed (marks ++ [(.again, count)]) count := by
  obtain ⟨blocks, noted, hlength, rfl⟩ := h
  refine ⟨blocks ++ [{ noted := noted, again := true }], ?_, ?_⟩
  · rw [List.length_append, List.length_singleton, hlength]
  · rw [marksFrom_concat blocks _ hlength, marksFrom_concat blocks _ hlength]
    simp [Block.marks]

theorem Fresh.closed (h : Fresh marks count) : Closed marks count := by
  obtain ⟨blocks, noted, hlength, rfl⟩ := h
  exact ⟨_, by rw [List.length_append, List.length_singleton, hlength], rfl⟩

/-! ## Counting -/

theorem countP_start_marksFrom (number : Nat) (blocks : List Block) :
    (marksFrom number blocks).countP (fun mark => mark.1 = .start) = blocks.length := by
  induction blocks generalizing number with
  | nil => rfl
  | cons block blocks ih =>
      obtain ⟨noted, again⟩ := block
      rw [marksFrom, List.countP_append, ih, List.length_cons]
      cases noted <;> cases again <;> simp [Block.marks, openMarks] <;> omega

theorem countP_again_marksFrom_le (number : Nat) (blocks : List Block) :
    (marksFrom number blocks).countP (fun mark => mark.1 = .again) ≤ blocks.length := by
  induction blocks generalizing number with
  | nil => exact Nat.le_refl _
  | cons block blocks ih =>
      have htail := ih (number + 1)
      obtain ⟨noted, again⟩ := block
      rw [marksFrom, List.countP_append, List.length_cons]
      cases noted <;> cases again <;> simp [Block.marks, openMarks] <;> omega

theorem Closed.countP_start (h : Closed marks count) :
    marks.countP (fun mark => mark.1 = .start) = count := by
  obtain ⟨blocks, rfl, rfl⟩ := h
  exact countP_start_marksFrom 1 blocks

theorem Closed.countP_again_le (h : Closed marks count) :
    marks.countP (fun mark => mark.1 = .again) ≤ count := by
  obtain ⟨blocks, rfl, rfl⟩ := h
  exact countP_again_marksFrom_le 1 blocks

end BigtableClient.ProofSupport.Brackets
