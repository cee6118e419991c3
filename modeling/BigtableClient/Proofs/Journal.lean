import BigtableClient.Trace

/-!
# What the trackers write

Every tracker adds marks to one lane and leaves the other lanes as they are.  The
journal of an operation is what holds of its events until it is over.
-/

namespace BigtableClient

open ProofSupport.Brackets

variable {lane other : Option Nat} {number : Nat} {state state' state'' : OperationState}
  {marks marks' : List (Mark × Nat)}

/-! ## Lanes -/

theorem laneMarks_append (lane : Option Nat) (events more : List DiagnosticEvent) :
    laneMarks lane (events ++ more) = laneMarks lane events ++ laneMarks lane more :=
  List.filterMap_append

theorem countMarks_append (mark : Mark) (events more : List DiagnosticEvent) :
    countMarks mark (events ++ more) = countMarks mark events + countMarks mark more :=
  List.countP_append

theorem laneMarks_of_map {events : List DiagnosticEvent}
    (h : events.map DiagnosticEvent.mark? = marks.map fun mark => some (lane, mark)) :
    laneMarks other events = if lane = other then marks else [] := by
  have hmap : laneMarks other events =
      (events.map DiagnosticEvent.mark?).filterMap fun mark => mark.bind (inLane other) := by
    rw [List.filterMap_map]
    rfl
  rw [hmap, h, List.filterMap_map]
  split_ifs with heq
  · simp [heq, inLane]
  · simp [heq, inLane]

theorem countMarks_of_map (mark : Mark) {events : List DiagnosticEvent}
    (h : events.map DiagnosticEvent.mark? = marks.map fun mark => some (lane, mark)) :
    countMarks mark events = marks.countP fun found => found.1 = mark := by
  have hmap : countMarks mark events =
      (events.map DiagnosticEvent.mark?).countP fun found => found.any fun found =>
        found.2.1 = mark := by
    rw [List.countP_map]
    rfl
  rw [hmap, h, List.countP_map]
  rfl

/-- Every mark is in one of the lanes. -/
theorem countMarks_eq_sum {lanes : List (Option Nat)} (hnodup : lanes.Nodup) (mark : Mark)
    {events : List DiagnosticEvent}
    (h : ∀ event ∈ events, ∃ lane ∈ lanes, ∃ mark, event.mark? = some (lane, mark)) :
    countMarks mark events =
      (lanes.map fun lane =>
        (laneMarks lane events).countP fun found => found.1 = mark).sum := by
  induction events with
  | nil => simp [countMarks, laneMarks]
  | cons event events ih =>
      obtain ⟨lane, hlane, found, hfound⟩ := h event List.mem_cons_self
      have htail := ih fun other hother => h other (List.mem_cons_of_mem _ hother)
      have hsplit : ∀ other, (laneMarks other (event :: events)).countP
            (fun found => found.1 = mark) =
          (laneMarks other [event]).countP (fun found => found.1 = mark) +
            (laneMarks other events).countP fun found => found.1 = mark := by
        intro other
        rw [← List.singleton_append, laneMarks_append, List.countP_append]
      have hhead : (lanes.map fun other =>
            (laneMarks other [event]).countP fun found => found.1 = mark).sum =
          countMarks mark [event] := by
        rw [List.sum_map_eq_nsmul_single lane]
        · have hone := @List.count_eq_one_of_mem _ instBEqOfDecidableEq _ lane lanes hnodup hlane
          rw [hone, one_nsmul]
          simp [laneMarks, countMarks, hfound, inLane, List.countP_singleton]
        · intro other hother hmem
          simp [laneMarks, hfound, inLane, Ne.symm hother]
      simp only [hsplit, List.sum_map_add, hhead, ← htail]
      exact countMarks_append mark [event] events

/-! ## What one tracker writes -/

/-- The events that were added are these marks of one lane. -/
structure OperationState.Logs (state : OperationState) (lane : Option Nat)
    (marks : List (Mark × Nat)) (state' : OperationState) : Prop where
  events : ∃ events, state'.events = state.events ++ events ∧
    events.map DiagnosticEvent.mark? = marks.map fun mark => some (lane, mark)
  operation : state'.operation = state.operation
  attempts : state'.attempts =
    state.attempts + .ofNat (marks.countP fun mark => mark.1 = .start)
  retries : state'.retries =
    state.retries + .ofNat (marks.countP fun mark => mark.1 = .again)

namespace OperationState.Logs

theorem refl (state : OperationState) (lane : Option Nat) : state.Logs lane [] state where
  events := ⟨[], by simp, rfl⟩
  operation := rfl
  attempts := by simp
  retries := by simp

theorem trans (h : state.Logs lane marks state') (h' : state'.Logs lane marks' state'') :
    state.Logs lane (marks ++ marks') state'' := by
  obtain ⟨events, hevents, hmap⟩ := h.events
  obtain ⟨events', hevents', hmap'⟩ := h'.events
  refine ⟨⟨events ++ events', ?_, ?_⟩, h'.operation.trans h.operation, ?_, ?_⟩
  · rw [hevents', hevents, List.append_assoc]
  · rw [List.map_append, List.map_append, hmap, hmap']
  · rw [h'.attempts, h.attempts, List.countP_append, UInt32.ofNat_add, UInt32.add_assoc]
  · rw [h'.retries, h.retries, List.countP_append, UInt32.ofNat_add, UInt32.add_assoc]

theorem laneMarks_eq (h : state.Logs lane marks state') :
    laneMarks lane state'.events = laneMarks lane state.events ++ marks := by
  obtain ⟨events, hevents, hmap⟩ := h.events
  rw [hevents, laneMarks_append, laneMarks_of_map hmap, if_pos rfl]

theorem laneMarks_ne (h : state.Logs lane marks state') (hne : lane ≠ other) :
    laneMarks other state'.events = laneMarks other state.events := by
  obtain ⟨events, hevents, hmap⟩ := h.events
  rw [hevents, laneMarks_append, laneMarks_of_map hmap, if_neg hne, List.append_nil]

theorem countMarks_eq (h : state.Logs lane marks state') (mark : Mark) :
    countMarks mark state'.events =
      countMarks mark state.events + marks.countP fun found => found.1 = mark := by
  obtain ⟨events, hevents, hmap⟩ := h.events
  rw [hevents, countMarks_append, countMarks_of_map mark hmap]

end OperationState.Logs

theorem OperationState.logs_retry (state : OperationState) (lane : Option Nat) (number : Nat)
    (code : Code) (delay : Duration) (pendingEntries : Nat) :
    state.Logs lane [(.again, number)] (state.retry lane number code delay pendingEntries) where
  events := ⟨_, rfl, rfl⟩
  operation := rfl
  attempts := by simp [retry, emit]
  retries := by simp [retry, emit]

structure AttemptTracker.IsOpen (telemetry : AttemptTracker) (lane : Option Nat) (number : Nat)
    (state : OperationState) : Prop where
  batch : telemetry.batch = lane
  attempt : telemetry.attempt = number
  unfinished : telemetry.finished = false
  opened : Open (laneMarks lane state.events) number telemetry.firstResponse

theorem OperationState.logs_attempt (h : Closed (laneMarks lane state.events) number)
    (entries : Nat) (timeout : Duration) :
    state.Logs lane [(.start, number + 1)]
        (state.attempt lane (number + 1) entries timeout).2 ∧
      (state.attempt lane (number + 1) entries timeout).1.IsOpen lane (number + 1)
        (state.attempt lane (number + 1) entries timeout).2 := by
  have hlogs : state.Logs lane [(.start, number + 1)]
      (state.attempt lane (number + 1) entries timeout).2 :=
    ⟨⟨_, rfl, rfl⟩, rfl, by simp [attempt, emit], by simp [attempt, emit]⟩
  refine ⟨hlogs, rfl, rfl, rfl, ?_⟩
  rw [hlogs.laneMarks_eq]
  exact h.start

namespace AttemptTracker.IsOpen

variable {telemetry : AttemptTracker}

/-- Other lanes do not matter. -/
theorem frame (h : telemetry.IsOpen lane number state) (hlogs : state.Logs other marks state')
    (hne : other ≠ lane) : telemetry.IsOpen lane number state' where
  batch := h.batch
  attempt := h.attempt
  unfinished := h.unfinished
  opened := by
    rw [hlogs.laneMarks_ne hne]
    exact h.opened

theorem recordFirstResponse (h : telemetry.IsOpen lane number state) :
    (∃ marks, state.Logs lane marks (telemetry.recordFirstResponse state).2) ∧
      (telemetry.recordFirstResponse state).1.IsOpen lane number
        (telemetry.recordFirstResponse state).2 := by
  unfold AttemptTracker.recordFirstResponse
  split_ifs with hfirst
  · exact ⟨⟨[], .refl state lane⟩, h⟩
  · have hlogs : state.Logs lane [(.note, number)]
        (state.emit (.firstResponse state.operation telemetry.batch telemetry.attempt)) :=
      ⟨⟨_, rfl, by rw [h.batch, h.attempt]; rfl⟩, rfl, by simp [OperationState.emit],
        by simp [OperationState.emit]⟩
    have hopened := h.opened
    rw [Bool.not_eq_true] at hfirst
    rw [hfirst] at hopened
    refine ⟨⟨_, hlogs⟩, h.batch, h.attempt, h.unfinished, ?_⟩
    rw [hlogs.laneMarks_eq]
    exact hopened.note

theorem recordFinish (h : telemetry.IsOpen lane number state) (code : Code)
    (summary : AttemptSummary) :
    state.Logs lane [(.stop, number)] (telemetry.recordFinish state code summary) ∧
      Fresh (laneMarks lane (telemetry.recordFinish state code summary).events) number := by
  have hlogs : state.Logs lane [(.stop, number)]
      (telemetry.recordFinish state code summary) :=
    ⟨⟨_, rfl, by rw [h.batch, h.attempt]; rfl⟩, rfl,
      by simp [AttemptTracker.recordFinish, OperationState.emit],
      by simp [AttemptTracker.recordFinish, OperationState.emit]⟩
  refine ⟨hlogs, ?_⟩
  rw [hlogs.laneMarks_eq]
  exact h.opened.stop

theorem finish (h : telemetry.IsOpen lane number state) (code : Code) (summary : AttemptSummary) :
    state.Logs lane [(.stop, number)] (telemetry.finish state code summary).2 ∧
      Fresh (laneMarks lane (telemetry.finish state code summary).2.events) number := by
  rw [AttemptTracker.finish, if_neg (by simp [h.unfinished])]
  exact h.recordFinish code summary

theorem drop (h : telemetry.IsOpen lane number state) :
    state.Logs lane [(.stop, number)] (telemetry.drop state) ∧
      Fresh (laneMarks lane (telemetry.drop state).events) number := by
  rw [AttemptTracker.drop, if_neg (by simp [h.unfinished])]
  exact h.recordFinish .cancelled {}

end AttemptTracker.IsOpen

/-! ## The journal of an operation -/

structure Journal (lanes : List (Option Nat)) (state : OperationState) : Prop where
  events : ∃ tableId entries body,
    state.events = .operationStarted state.operation tableId entries :: body ∧
      ∀ event ∈ body, ∃ lane ∈ lanes, ∃ mark, event.mark? = some (lane, mark)
  attempts : state.attempts = .ofNat (countMarks .start state.events)
  retries : state.retries = .ofNat (countMarks .again state.events)

theorem journal_start (lanes : List (Option Nat)) (operation : BigtableOperation)
    (tableId : String) (entries : Nat) :
    Journal lanes (OperationTracker.start operation tableId entries).state where
  events := ⟨tableId, entries, [], rfl, by simp⟩
  attempts := rfl
  retries := rfl

namespace Journal

variable {lanes : List (Option Nat)}

theorem logs (h : Journal lanes state) (hlane : lane ∈ lanes)
    (hlogs : state.Logs lane marks state') : Journal lanes state' := by
  obtain ⟨tableId, entries, body, hbody, hlanes⟩ := h.events
  obtain ⟨events, hevents, hmap⟩ := hlogs.events
  refine ⟨⟨tableId, entries, body ++ events, ?_, ?_⟩, ?_, ?_⟩
  · rw [hevents, hbody, hlogs.operation, List.cons_append]
  · intro event hevent
    rcases List.mem_append.1 hevent with hevent | hevent
    · exact hlanes event hevent
    · have hmark := List.mem_map_of_mem (f := DiagnosticEvent.mark?) hevent
      rw [hmap] at hmark
      obtain ⟨mark, -, hmark⟩ := List.mem_map.1 hmark
      exact ⟨lane, hlane, mark, hmark.symm⟩
  · rw [hlogs.attempts, h.attempts, hlogs.countMarks_eq, UInt32.ofNat_add]
  · rw [hlogs.retries, h.retries, hlogs.countMarks_eq, UInt32.ofNat_add]

theorem laneMarks_eq_nil (h : Journal lanes state) (hlane : lane ∉ lanes) :
    laneMarks lane state.events = [] := by
  obtain ⟨tableId, entries, body, hbody, hlanes⟩ := h.events
  rw [hbody]
  apply List.filterMap_eq_nil_iff.2
  intro event hevent
  rcases List.mem_cons.1 hevent with rfl | hevent
  · rfl
  · obtain ⟨found, hfound, mark, hmark⟩ := hlanes event hevent
    have hne : found ≠ lane := fun heq => hlane (heq ▸ hfound)
    simp [hmark, inLane, hne]

/-- The end of the operation closes the trace, when all its lanes are closed. -/
theorem recordFinish {tracker : OperationTracker} (h : Journal lanes tracker.state)
    (hclosed : ∀ lane ∈ lanes, ∃ count, Closed (laneMarks lane tracker.state.events) count)
    (code : Code) (summary : OperationSummary) :
    ∃ trace : OperationTrace,
      (tracker.recordFinish code summary).state.events = trace.events ∧
        trace.WellBracketed lanes ∧
        (∀ mark, countMarks mark trace.body = countMarks mark tracker.state.events) ∧
        ∀ lane, laneMarks lane trace.body = laneMarks lane tracker.state.events := by
  obtain ⟨tableId, entries, body, hbody, hlanes⟩ := h.events
  have hcount : ∀ mark, countMarks mark body = countMarks mark tracker.state.events := by
    intro mark
    rw [hbody]
    exact (List.countP_cons_of_neg (by simp [DiagnosticEvent.mark?])).symm
  have hmarks : ∀ lane, laneMarks lane body = laneMarks lane tracker.state.events := by
    intro lane
    rw [hbody]
    rfl
  refine ⟨{ operation := tracker.state.operation
            tableId := tableId
            entries := entries
            body := body
            code := code
            attempts := tracker.state.attempts
            retries := tracker.state.retries
            summary := summary }, ?_, ⟨hlanes, fun lane => ?_, ?_, ?_⟩, hcount, hmarks⟩
  · rw [OperationTrace.events, ← hbody]
    rfl
  · rw [hmarks]
    by_cases hlane : lane ∈ lanes
    · exact hclosed lane hlane
    · exact ⟨0, h.laneMarks_eq_nil hlane ▸ closed_nil⟩
  · rw [hcount, h.attempts, UInt32.toNat_ofNat']
  · rw [hcount, h.retries, UInt32.toNat_ofNat']

end Journal

end BigtableClient
