import BigtableClient.ProofSupport.Transition

/-!
# A bounded channel

A producer hands its items one at a time to a consumer, over a first-in first-out
channel with a limited number of places.  The consumer takes items and may hang up.
Nothing is lost, repeated or reordered on the way, the producer is never ahead by
more than the places of the channel, and neither side can get stuck because of it.
-/

namespace BigtableClient.ProofSupport.Channel

open ProofSupport.Transition

variable {σ ι α : Type*}

/-- What an input of the producer needs of the channel. -/
inductive Gate where
  | free
  /-- an item is handed over -/
  | room
  /-- the consumer is gone -/
  | hungUp
  deriving DecidableEq, Repr

structure Producer (σ ι α : Type*) where
  step : σ → ι → Option σ
  gate : ι → Gate
  /-- every item that was handed over -/
  items : σ → List α

structure Producer.Lawful (producer : Producer σ ι α) : Prop where
  adds : ∀ s i s', producer.step s i = some s' → producer.gate i = .room →
    ∃ item, producer.items s' = producer.items s ++ [item]
  keeps : ∀ s i s', producer.step s i = some s' → producer.gate i ≠ .room →
    producer.items s' = producer.items s

structure Link (σ α : Type*) where
  producer : σ
  queue : List α
  /-- every item that the consumer took -/
  taken : List α
  hungUp : Bool
  deriving DecidableEq, Repr

inductive LinkInput (ι : Type*) where
  | produce (input : ι)
  | take
  | hangUp
  deriving DecidableEq, Repr

namespace Link

def start (producer : σ) : Link σ α where
  producer := producer
  queue := []
  taken := []
  hungUp := false

def admits (capacity : Nat) (link : Link σ α) : Gate → Bool
  | .free => true
  | .room => !link.hungUp && decide (link.queue.length < capacity)
  | .hungUp => link.hungUp

/-- A step of the producer puts what it hands over into the channel. -/
def advance (producer : Producer σ ι α) (link : Link σ α) (next : σ) : Link σ α :=
  { link with
    producer := next
    queue := link.queue ++
      (producer.items next).drop (producer.items link.producer).length }

def step (producer : Producer σ ι α) (capacity : Nat) (link : Link σ α) :
    LinkInput ι → Option (Link σ α)
  | .produce input =>
      if link.admits capacity (producer.gate input) then
        (producer.step link.producer input).map (link.advance producer)
      else
        none
  | .take =>
      match link.hungUp, link.queue with
      | false, item :: queue => some { link with queue := queue, taken := link.taken ++ [item] }
      | _, _ => none
  | .hangUp => if link.hungUp then none else some { link with hungUp := true }

/-! ## What a step can do -/

inductive Step (producer : Producer σ ι α) (capacity : Nat) (link : Link σ α) :
    LinkInput ι → Link σ α → Prop
  | produce {input : ι} {next : σ} (hadmits : link.admits capacity (producer.gate input))
      (hstep : producer.step link.producer input = some next) :
      Step producer capacity link (.produce input) (link.advance producer next)
  | take {item : α} {queue : List α} (hopen : link.hungUp = false)
      (hqueue : link.queue = item :: queue) :
      Step producer capacity link .take
        { link with queue := queue, taken := link.taken ++ [item] }
  | hangUp (hopen : link.hungUp = false) :
      Step producer capacity link .hangUp { link with hungUp := true }

variable {producer : Producer σ ι α} {capacity : Nat} {link next : Link σ α}
  {input : LinkInput ι} {init : σ}

theorem step_of_step (h : link.step producer capacity input = some next) :
    Step producer capacity link input next := by
  cases input with
  | produce input =>
      simp only [step] at h
      split_ifs at h with hadmits
      obtain ⟨s, hs, rfl⟩ := Option.map_eq_some_iff.1 h
      exact .produce hadmits hs
  | take =>
      simp only [step] at h
      split at h
      · next hopen hqueue =>
        obtain rfl := Option.some.inj h
        exact .take hopen hqueue
      · cases h
  | hangUp =>
      simp only [step] at h
      split_ifs at h with hopen
      obtain rfl := Option.some.inj h
      exact .hangUp (by simpa using hopen)

/-! ## Order and room -/

structure Conserves (producer : Producer σ ι α) (capacity : Nat) (link : Link σ α) : Prop where
  items : producer.items link.producer = link.taken ++ link.queue
  room : link.queue.length ≤ capacity

theorem Conserves.step (h : Conserves producer capacity link) (hlawful : producer.Lawful)
    (hstep : link.step producer capacity input = some next) :
    Conserves producer capacity next := by
  cases step_of_step hstep with
  | produce hadmits hproduce =>
      rename_i i s
      by_cases hgate : producer.gate i = .room
      · obtain ⟨item, hitem⟩ := hlawful.adds _ _ _ hproduce hgate
        rw [hgate, admits, Bool.and_eq_true, decide_eq_true_eq] at hadmits
        have hqueue : (link.advance producer s).queue = link.queue ++ [item] := by
          rw [advance, hitem, List.drop_left]
        constructor
        · show producer.items s = link.taken ++ (link.advance producer s).queue
          rw [hqueue, hitem, h.items, List.append_assoc]
        · rw [hqueue, List.length_append, List.length_singleton]
          exact hadmits.2
      · have hitems := hlawful.keeps _ _ _ hproduce hgate
        have hqueue : (link.advance producer s).queue = link.queue := by
          rw [advance, hitems, List.drop_length, List.append_nil]
        constructor
        · show producer.items s = link.taken ++ (link.advance producer s).queue
          rw [hqueue, hitems, h.items]
        · rw [hqueue]
          exact h.room
  | take hopen hqueue =>
      have hroom := h.room
      rw [hqueue, List.length_cons] at hroom
      constructor
      · simp [h.items, hqueue]
      · exact Nat.le_of_succ_le hroom
  | hangUp hopen => exact ⟨h.items, h.room⟩

/-! ## Progress -/

/-- The producer can go on by an input of this kind, whether or not the consumer is there. -/
structure Live (producer : Producer σ ι α) (kind : ι → Prop) (s : σ) : Prop where
  attended : ∃ i, kind i ∧ producer.gate i ≠ .hungUp ∧ (producer.step s i).isSome
  deserted : ∃ i, kind i ∧ producer.gate i ≠ .room ∧ (producer.step s i).isSome

theorem isSome_produce {i : ι} (hadmits : link.admits capacity (producer.gate i))
    (hstep : (producer.step link.producer i).isSome) :
    (link.step producer capacity (.produce i)).isSome := by
  rw [step, if_pos hadmits, Option.isSome_map]
  exact hstep

/-- A producer that can go on does, or waits for a consumer that can take an item. -/
theorem progress {kind : ι → Prop} (hcapacity : 0 < capacity)
    (hlive : Live producer kind link.producer) :
    (∃ i, kind i ∧ (link.step producer capacity (.produce i)).isSome) ∨
      (link.step producer capacity .take).isSome := by
  cases hopen : link.hungUp with
  | true =>
      obtain ⟨i, hkind, hgate, hstep⟩ := hlive.deserted
      refine Or.inl ⟨i, hkind, isSome_produce ?_ hstep⟩
      cases hcase : producer.gate i with
      | free => rfl
      | room => exact absurd hcase hgate
      | hungUp => exact hopen
  | false =>
      obtain ⟨i, hkind, hgate, hstep⟩ := hlive.attended
      cases hqueue : link.queue with
      | cons item queue => exact Or.inr (by simp [step, hopen, hqueue])
      | nil =>
          refine Or.inl ⟨i, hkind, isSome_produce ?_ hstep⟩
          cases hcase : producer.gate i with
          | free => rfl
          | room => simp [admits, hopen, hqueue, hcapacity]
          | hungUp => exact absurd hcase hgate

/-! ## Termination -/

def measure (weight : σ → Nat) (link : Link σ α) : Nat :=
  2 * weight link.producer + link.queue.length + if link.hungUp then 0 else 1

theorem length_queue_advance (hlawful : producer.Lawful) {i : ι} {s : σ}
    (hstep : producer.step link.producer i = some s) :
    (link.advance producer s).queue.length ≤ link.queue.length + 1 := by
  by_cases hgate : producer.gate i = .room
  · obtain ⟨item, hitem⟩ := hlawful.adds _ _ _ hstep hgate
    simp [advance, hitem]
  · have hitems := hlawful.keeps _ _ _ hstep hgate
    simp [advance, hitems]

end Link

def LinkInput.gain (gain : ι → Nat) : LinkInput ι → Nat
  | .produce input => 2 * gain input
  | .take => 0
  | .hangUp => 0

namespace Link

variable {producer : Producer σ ι α} {capacity : Nat} {link next : Link σ α}
  {input : LinkInput ι}

/-- Where the producer uses up its credit, so does the link. -/
theorem measure_step {weight : σ → Nat} {gain : ι → Nat} (hlawful : producer.Lawful)
    (hweight : ∀ i s, producer.step link.producer i = some s →
      1 + weight s ≤ weight link.producer + gain i)
    (hstep : link.step producer capacity input = some next) :
    1 + next.measure weight ≤ link.measure weight + input.gain gain := by
  cases step_of_step hstep with
  | produce hadmits hproduce =>
      rename_i i s
      have hone := hweight i s hproduce
      have hlength := length_queue_advance hlawful hproduce
      calc
        _ = 1 + (2 * weight s + (link.advance producer s).queue.length +
              if link.hungUp then 0 else 1) := rfl
        _ ≤ 2 * (weight link.producer + gain i) + link.queue.length +
              if link.hungUp then 0 else 1 := by omega
        _ = link.measure weight + 2 * gain i := by
          unfold measure
          omega
  | take hopen hqueue =>
      simp only [measure, hqueue, List.length_cons, LinkInput.gain]
      omega
  | hangUp hopen =>
      simp only [measure, hopen, LinkInput.gain, if_true, Bool.false_eq_true, if_false]
      omega

end Link

end BigtableClient.ProofSupport.Channel
