import BigtableClient.ProofSupport.Fallible

/-!
# Slots that are filled once

A record is read item by item.  An item may fill a slot of the record, and one for a
slot that is filled already is refused.  So the items that are accepted are those
with distinct slots, and what they brought about can be read back off them.
-/

namespace BigtableClient.ProofSupport.OnceOnly

open ProofSupport.Fallible

/-- A record, and the items that fill its slots. -/
structure Slots (σ ι κ : Type*) where
  slot : ι → Option κ
  Filled : σ → κ → Prop
  fill : σ → ι → σ

namespace Slots

variable {σ ι κ ρ ε : Type*} (slots : Slots σ ι κ) {s t : σ} {item : ι} {items : List ι}

def Lawful : Prop :=
  ∀ s item k, slots.Filled (slots.fill s item) k ↔ slots.Filled s k ∨ slots.slot item = some k

def Fits (s : σ) (item : ι) : Prop :=
  ∀ k, slots.slot item = some k → ¬ slots.Filled s k

/-- The items have distinct slots, which are all free. -/
def Free (s : σ) (items : List ι) : Prop :=
  (items.filterMap slots.slot).Nodup ∧ ∀ item ∈ items, slots.Fits s item

def fillAll (s : σ) (items : List ι) : σ :=
  items.foldl slots.fill s

/-- A reader takes the items that fit. -/
def ReadsWith (step : σ → ρ → Except ε σ) (Says : ρ → ι → Prop) : Prop :=
  ∀ s raw t, step s raw = .ok t ↔
    ∃ item, Says raw item ∧ slots.Fits s item ∧ t = slots.fill s item

variable {slots}

@[simp] theorem fillAll_nil : slots.fillAll s [] = s := rfl

@[simp] theorem fillAll_cons :
    slots.fillAll s (item :: items) = slots.fillAll (slots.fill s item) items := rfl

theorem free_nil : slots.Free s [] :=
  ⟨List.nodup_nil, by simp⟩

theorem fits_fill (hlawful : slots.Lawful) {other : ι} :
    slots.Fits (slots.fill s item) other ↔
      slots.Fits s other ∧ ∀ k, slots.slot other = some k → slots.slot item ≠ some k := by
  unfold Fits
  simp only [hlawful s item, not_or]
  exact ⟨fun h => ⟨fun k hk => (h k hk).1, fun k hk => (h k hk).2⟩,
    fun h k hk => ⟨h.1 k hk, h.2 k hk⟩⟩

theorem free_cons (hlawful : slots.Lawful) :
    slots.Free s (item :: items) ↔
      slots.Fits s item ∧ slots.Free (slots.fill s item) items := by
  unfold Free
  simp only [List.mem_cons, forall_eq_or_imp, fits_fill hlawful]
  cases hslot : slots.slot item with
  | none =>
      simp only [List.filterMap_cons, hslot, reduceCtorEq, ne_eq, not_false_eq_true, implies_true,
        and_true]
      tauto
  | some k =>
      rw [List.filterMap_cons, hslot]
      simp only [List.nodup_cons, List.mem_filterMap, not_exists, not_and]
      constructor
      · rintro ⟨⟨hnew, hnodup⟩, hfits, hall⟩
        refine ⟨hfits, hnodup, fun other hother => ⟨hall other hother, ?_⟩⟩
        intro k' hk' hsame
        exact hnew other hother (hk'.trans hsame.symm)
      · rintro ⟨hfits, hnodup, hall⟩
        refine ⟨⟨fun other hother hk => ?_, hnodup⟩, hfits,
          fun other hother => (hall other hother).1⟩
        exact (hall other hother).2 k hk rfl

/-- What an item that fits brings about holds at the end exactly when one of them did. -/
theorem holds_fillAll (hlawful : slots.Lawful) (P : σ → Prop) (Q : ι → Prop)
    (hfill : ∀ s item, slots.Fits s item → (P (slots.fill s item) ↔ P s ∨ Q item))
    (hfree : slots.Free s items) :
    P (slots.fillAll s items) ↔ P s ∨ ∃ item ∈ items, Q item := by
  induction items generalizing s with
  | nil => simp
  | cons item items ih =>
      obtain ⟨hitem, hitems⟩ := (free_cons hlawful).1 hfree
      rw [fillAll_cons, ih hitems, hfill s item hitem]
      simp [or_assoc]

/-- A reader accepts exactly the items with distinct free slots, and fills them. -/
theorem foldlM_eq_ok (hlawful : slots.Lawful) {step : σ → ρ → Except ε σ} {Says : ρ → ι → Prop}
    (hreads : slots.ReadsWith step Says) {raws : List ρ} :
    raws.foldlM step s = .ok t ↔
      ∃ items, List.Forall₂ Says raws items ∧ slots.Free s items ∧ t = slots.fillAll s items := by
  induction raws generalizing s with
  | nil =>
      constructor
      · intro h
        obtain rfl := Except.ok.inj h
        exact ⟨[], .nil, free_nil, rfl⟩
      · rintro ⟨items, hmeant, -, rfl⟩
        cases hmeant
        rfl
  | cons raw raws ih =>
      rw [List.foldlM_cons, bind_eq_ok]
      constructor
      · rintro ⟨next, hstep, hrest⟩
        obtain ⟨item, hmeant, hfits, rfl⟩ := (hreads s raw next).1 hstep
        obtain ⟨items, hall, hfree, rfl⟩ := ih.1 hrest
        exact ⟨item :: items, .cons hmeant hall, (free_cons hlawful).2 ⟨hfits, hfree⟩, rfl⟩
      · rintro ⟨items, hall, hfree, rfl⟩
        cases hall with
        | cons hmeant hall =>
            obtain ⟨hfits, hrest⟩ := (free_cons hlawful).1 hfree
            exact ⟨_, (hreads s raw _).2 ⟨_, hmeant, hfits, rfl⟩, ih.2 ⟨_, hall, hrest, rfl⟩⟩

end Slots

end BigtableClient.ProofSupport.OnceOnly
