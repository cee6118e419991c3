import BigtableClient.Proofs.Outcome
import BigtableClient.Proofs.Parcels
import BigtableClient.Proofs.RetrySafe

/-!
# The effect of a bulk mutation

However often an entry is sent and whichever of its parcels arrive, in whatever
order and however late, a row that one entry names is changed as if the entry had
been delivered once, or not at all; and an entry that is reported as a success was
delivered.
-/

namespace BigtableClient

open ProofSupport.Transition

def failuresOf : Except BulkMutationError BulkMutationResult → List MutationFailure
  | .ok _ => []
  | .error error => error.failures

def BulkMutation.Sole (bulk : BulkMutation) (index : Nat) (row : RowMutation) : Prop :=
  bulk.entries[index]? = some row ∧
    ∀ other row', bulk.entries[other]? = some row' → row'.rowKey = row.rowKey → other = index

namespace BulkWorld

/-- The server has got to a parcel with this entry. -/
def Reached (world : BulkWorld) (index : Nat) : Prop :=
  ∃ parcel ∈ world.applied, world.client.rowOf parcel = some index

structure Inv (codec : Codec) (server : RowServer) (initials : List BatchOperation)
    (bulk : BulkMutation) (rows : Bytes → RowServer.Served) (world : BulkWorld) : Prop where
  client : BulkState.Inv codec initials world.client
  known : ∀ parcel ∈ world.applied, ∃ index, world.client.rowOf parcel = some index
  honest : world.client.done ⊆ world.applied
  untouched : ∀ key, (∀ row ∈ bulk.entries, row.rowKey ≠ key) → world.rows key = rows key
  reached : ∀ index row, bulk.Sole index row → world.Reached index →
    world.rows row.rowKey = server.deliver (rows row.rowKey) row.intoProto
  unreached : ∀ index row, bulk.Sole index row → ¬ world.Reached index →
    world.rows row.rowKey = rows row.rowKey

variable {codec : Codec} {server : RowServer} {initials : List BatchOperation}
  {bulk : BulkMutation} {rows : Bytes → RowServer.Served} {world next : BulkWorld}

theorem inv_client {input : BulkInput} {client : BulkState}
    (h : Inv codec server initials bulk rows world)
    (hstep : world.client.step codec input = some client)
    (hhonest : client.done ⊆ world.applied) :
    Inv codec server initials bulk rows { world with client := client } := by
  have hreached : ∀ index, BulkWorld.Reached { world with client := client } index ↔
      world.Reached index := by
    intro index
    constructor
    · rintro ⟨parcel, hparcel, hrow⟩
      obtain ⟨index', hrow'⟩ := h.known parcel hparcel
      have hkept := BulkState.rowOf_step h.client hstep hrow'
      obtain rfl := Option.some.inj (hkept.symm.trans hrow)
      exact ⟨parcel, hparcel, hrow'⟩
    · rintro ⟨parcel, hparcel, hrow⟩
      exact ⟨parcel, hparcel, BulkState.rowOf_step h.client hstep hrow⟩
  refine ⟨BulkState.inv_step h.client hstep, fun parcel hparcel => ?_, hhonest, h.untouched,
    fun index row hsole hreach => ?_, fun index row hsole hnot => ?_⟩
  · obtain ⟨index, hrow⟩ := h.known parcel hparcel
    exact ⟨index, BulkState.rowOf_step h.client hstep hrow⟩
  · exact h.reached index row hsole ((hreached index).1 hreach)
  · exact h.unreached index row hsole fun hreach => hnot ((hreached index).2 hreach)

/-- What a response reports as done has been done. -/
theorem reached_of_confirms
    (h : Inv codec server initials bulk rows world) {index : Nat} {attempt : WriteAttempt}
    (hattempt : attempt ∈ world.client.attemptsOf index) (hconfirms : attempt.Confirms index) :
    world.Reached index := by
  obtain ⟨hmem, hcarried⟩ := List.mem_filter.1 hattempt
  obtain ⟨run, hrun, hmem⟩ := List.mem_flatMap.1 hmem
  obtain ⟨batch, hbatch⟩ := List.getElem?_of_mem hrun
  obtain ⟨request, hrequest⟩ := List.getElem?_of_mem hmem
  obtain ⟨result, hresult, hzero⟩ := hconfirms.ok
  obtain ⟨initial, -, hinv⟩ := BulkState.exists_of_forall₂ h.client.batches hrun
  obtain ⟨entries, -, hindexes, hsent⟩ := hinv.books.sends attempt hmem
  have hposition : result.index = attempt.indexes.idxOf index := by
    simpa using List.find?_some hresult
  have hlt := List.idxOf_lt_length_of_mem hconfirms.carried
  have hlength : attempt.request.entries.length = attempt.indexes.length := by
    rw [hindexes, hsent, mutateRowsRequest, List.length_map, List.length_map]
  have hdone : attempt.indexes.idxOf index ∈ attempt.doneAt := by
    refine List.mem_map.2 ⟨result, List.mem_filter.2 ⟨List.mem_of_find?_eq_some hresult, ?_⟩, ?_⟩
    · rw [decide_eq_true_eq, hlength, hposition]
      omega
    · rw [hposition, Int.toNat_natCast]
  have hsentAt : world.client.sent ⟨batch, request, attempt.indexes.idxOf index⟩ = some attempt :=
    BulkState.sent_eq_some.2 ⟨run, hbatch, hrequest⟩
  refine ⟨_, h.honest (BulkState.mem_done.2 ⟨attempt, hsentAt, hdone⟩), ?_⟩
  exact BulkState.rowOf_eq_some.2 ⟨attempt, hsentAt, List.getElem?_idxOf hconfirms.carried⟩

/-- A row that the server has got to was sent. -/
theorem attemptsOf_ne_nil_of_reached {index : Nat} (h : world.Reached index) :
    world.client.attemptsOf index ≠ [] := by
  obtain ⟨parcel, -, hrow⟩ := h
  obtain ⟨attempt, hsent, hindex⟩ := BulkState.rowOf_eq_some.1 hrow
  obtain ⟨run, hrun, hattempt⟩ := BulkState.sent_eq_some.1 hsent
  refine List.ne_nil_of_mem (a := attempt) (List.mem_filter.2 ⟨?_, ?_⟩)
  · exact List.mem_flatMap.2
      ⟨run, List.mem_of_getElem? hrun, List.mem_of_getElem? hattempt⟩
  · exact decide_eq_true (List.mem_of_getElem? hindex)

section Run

variable (encodedLen : EncodedLen) (config : ClientConfig) (bulk : BulkMutation)
  (options : BulkMutationOptions) (deadline : Instant) (hoptions : options.Valid)

include hoptions

theorem inv_applied {parcel : Parcel} {entry : Proto.MutateRowsEntry}
    (h : Inv codec server (BulkState.initialOperations encodedLen config bulk options deadline)
      bulk rows world)
    (hcontents : world.client.contents parcel = some entry) (hnew : parcel ∉ world.applied) :
    Inv codec server (BulkState.initialOperations encodedLen config bulk options deadline) bulk
      rows (world.apply server parcel entry) := by
  obtain ⟨index, row, hrow, hentry, rfl⟩ := BulkState.contents_eq_some encodedLen config bulk
    options deadline hoptions h.client hcontents
  have hreached : ∀ other, (world.apply server parcel row.intoProto).Reached other ↔
      world.Reached other ∨ other = index := by
    intro other
    simp only [Reached, apply, List.mem_append, List.mem_singleton]
    constructor
    · rintro ⟨found, hfound | rfl, hfoundRow⟩
      · exact Or.inl ⟨found, hfound, hfoundRow⟩
      · exact Or.inr (Option.some.inj (hfoundRow.symm.trans hrow))
    · rintro (⟨found, hfound, hfoundRow⟩ | rfl)
      · exact ⟨found, Or.inl hfound, hfoundRow⟩
      · exact ⟨parcel, Or.inr rfl, hrow⟩
  have hrows : ∀ key, key ≠ row.rowKey →
      (world.apply server parcel row.intoProto).rows key = world.rows key :=
    fun key hne => Function.update_of_ne hne _ _
  have hupdated : (world.apply server parcel row.intoProto).rows row.rowKey =
      server.deliver (world.rows row.rowKey) row.intoProto := Function.update_self _ _ _
  refine ⟨h.client, ?_, fun _ hdone => List.mem_append_left _ (h.honest hdone), ?_, ?_, ?_⟩
  · intro found hfound
    rcases List.mem_append.1 hfound with hfound | hfound
    · exact h.known found hfound
    · rw [List.mem_singleton.1 hfound]
      exact ⟨index, hrow⟩
  · intro key hkey
    rw [hrows key (Ne.symm (hkey row (List.mem_of_getElem? hentry)))]
    exact h.untouched key hkey
  · intro other row' hsole hreach
    by_cases hkey : row.rowKey = row'.rowKey
    · -- the row of the parcel, as no other entry has its key
      obtain rfl := hsole.2 index row hentry hkey
      obtain rfl := Option.some.inj (hentry.symm.trans hsole.1)
      rw [hupdated]
      by_cases hbefore : world.Reached index
      · obtain ⟨found, hfound, hfoundRow⟩ := hbefore
        have hne : parcel ≠ found := fun heq => hnew (heq ▸ hfound)
        have hsafe := BulkState.isRetrySafe_of_two encodedLen config bulk options deadline
          hoptions h.client hrow hfoundRow hne hentry
        rw [h.reached index row hsole ⟨found, hfound, hfoundRow⟩,
          RowMutation.deliver_twice server hsafe]
      · rw [h.unreached index row hsole hbefore]
    · rw [hrows _ (Ne.symm hkey)]
      refine h.reached other row' hsole (((hreached other).1 hreach).resolve_right ?_)
      rintro rfl
      exact hkey (congrArg RowMutation.rowKey (Option.some.inj (hentry.symm.trans hsole.1)))
  · intro other row' hsole hnot
    have hne : row'.rowKey ≠ row.rowKey := by
      intro hkey
      exact hnot ((hreached other).2 (Or.inr (hsole.2 index row hentry hkey.symm).symm))
    rw [hrows _ hne]
    exact h.unreached other row' hsole fun hreach => hnot ((hreached other).2 (Or.inl hreach))

theorem inv_step {input : BulkWorldInput}
    (h : Inv codec server (BulkState.initialOperations encodedLen config bulk options deadline)
      bulk rows world)
    (hstep : world.step codec server input = some next) :
    Inv codec server (BulkState.initialOperations encodedLen config bulk options deadline) bulk
      rows next := by
  cases input with
  | client input =>
      simp only [step] at hstep
      split at hstep
      · cases hstep
      · next client hclient =>
        split_ifs at hstep with hhonest
        obtain rfl := Option.some.inj hstep
        exact inv_client h hclient hhonest
  | applied parcel =>
      simp only [step] at hstep
      split at hstep
      · cases hstep
      · next entry hcontents =>
        split_ifs at hstep with hnew
        obtain rfl := Option.some.inj hstep
        exact inv_applied encodedLen config bulk options deadline hoptions h hcontents hnew

theorem inv_start :
    Inv codec server (BulkState.initialOperations encodedLen config bulk options deadline) bulk
      rows (start (.start encodedLen config bulk options deadline) rows) where
  client := BulkState.inv_start encodedLen config bulk options deadline hoptions
  known := by simp [start]
  honest := by
    intro parcel hdone
    obtain ⟨attempt, hsent, -⟩ := BulkState.mem_done.1 hdone
    obtain ⟨run, hrun, hattempt⟩ := BulkState.sent_eq_some.1 hsent
    obtain ⟨entries, -, rfl⟩ :=
      BulkState.getElem?_start encodedLen config bulk options deadline hrun
    cases hattempt
  untouched _ _ := rfl
  reached _ _ _ hreach := by
    obtain ⟨parcel, hparcel, -⟩ := hreach
    cases hparcel
  unreached _ _ _ _ := rfl

theorem inv_reachable
    (hreach : Reachable (step codec server)
      (start (.start encodedLen config bulk options deadline) rows) world) :
    Inv codec server (BulkState.initialOperations encodedLen config bulk options deadline) bulk
      rows world :=
  hreach.invariant _ (inv_start encodedLen config bulk options deadline hoptions)
    fun _ _ _ hinv hstep => inv_step encodedLen config bulk options deadline hoptions hinv hstep

end Run

/-- What the table does is no step of the client. -/
theorem reachable_client {client : BulkState}
    (hreach : Reachable (step codec server) (start client rows) world) :
    Reachable (BulkState.step codec) client world.client := by
  refine hreach.invariant (fun world => Reachable (BulkState.step codec) client world.client)
    ⟨[], rfl⟩ fun world input next hbefore hstep => ?_
  cases input with
  | client input =>
      simp only [step] at hstep
      split at hstep
      · cases hstep
      · next client' hclient =>
        split_ifs at hstep
        obtain rfl := Option.some.inj hstep
        exact hbefore.snoc hclient
  | applied parcel =>
      simp only [step] at hstep
      split at hstep
      · cases hstep
      · split_ifs at hstep
        obtain rfl := Option.some.inj hstep
        exact hbefore

/-! ## Once, or not at all -/

def Untouched (rows : Bytes → RowServer.Served) (world : BulkWorld) (row : RowMutation) : Prop :=
  world.rows row.rowKey = rows row.rowKey

def Delivered (server : RowServer) (rows : Bytes → RowServer.Served) (world : BulkWorld)
    (row : RowMutation) : Prop :=
  world.rows row.rowKey = server.deliver (rows row.rowKey) row.intoProto

theorem untouched_or_delivered {initials : List BatchOperation} {index : Nat} {row : RowMutation}
    (h : Inv codec server initials bulk rows world) (hsole : bulk.Sole index row) :
    Untouched rows world row ∨ Delivered server rows world row := by
  by_cases hreached : world.Reached index
  · exact Or.inr (h.reached index row hsole hreached)
  · exact Or.inl (h.unreached index row hsole hreached)

variable (encodedLen : EncodedLen) (config : ClientConfig) (bulk : BulkMutation)
  (options : BulkMutationOptions) (deadline : Instant)

/-- The report on an entry that is over, read in the table. -/
theorem delivered_of_reports {index : Nat} {row : RowMutation}
    {result : Except BulkMutationError BulkMutationResult}
    (h : Inv codec server (BulkState.initialOperations encodedLen config bulk options deadline)
      bulk rows world)
    (hreports : Reports bulk world.client result) (hsole : bulk.Sole index row) :
    (index ∉ (failuresOf result).map MutationFailure.index → Delivered server rows world row) ∧
      ∀ failure ∈ failuresOf result, failure.index = index → failure.attempts = 0 →
        Untouched rows world row := by
  have haccounted : ∃ successful rpcAttempts,
      Accounted bulk world.client successful rpcAttempts (failuresOf result) := by
    cases result with
    | ok result => exact ⟨_, _, hreports.2⟩
    | error error => exact ⟨_, _, hreports.2.2⟩
  obtain ⟨successful, rpcAttempts, haccounted⟩ := haccounted
  have hlt : index < bulk.entries.length := (List.getElem?_eq_some_iff.1 hsole.1).1
  constructor
  · intro hnot
    obtain ⟨attempt, hlast, hconfirms⟩ := (haccounted.confirmed index hlt).1 hnot
    exact h.reached index row hsole
      (reached_of_confirms h (List.mem_of_getLast? hlast) hconfirms)
  · rintro failure hfailure rfl hzero
    refine h.unreached _ row hsole fun hreached => attemptsOf_ne_nil_of_reached hreached ?_
    rw [← List.length_eq_zero_iff, ← haccounted.attempts failure hfailure, hzero]

theorem delivered_of_finished {index : Nat} {row : RowMutation}
    {result : Except BulkMutationError BulkMutationResult} (hoptions : options.Valid)
    (hreach : Reachable (step codec server)
      (start (.start encodedLen config bulk options deadline) rows) world)
    (hresult : world.client.phase = .finished result) (hsole : bulk.Sole index row) :
    (index ∉ (failuresOf result).map MutationFailure.index → Delivered server rows world row) ∧
      ∀ failure ∈ failuresOf result, failure.index = index → failure.attempts = 0 →
        Untouched rows world row := by
  have hinv := inv_reachable encodedLen config bulk options deadline hoptions hreach
  have hsizes := BulkState.sameSizes_reachable encodedLen config bulk options deadline
    (reachable_client hreach)
  obtain ⟨rfl, hfinished⟩ := hinv.client.finished result hresult
  exact delivered_of_reports encodedLen config bulk options deadline hinv
    (BulkState.reports_result encodedLen config bulk options deadline hoptions hinv.client
      hsizes.1 hfinished) hsole

/-- The effect of a bulk mutation on a table that nobody else writes to.  Whatever the server
answers, in whatever order the batches run and the parcels arrive, and however late: other rows
stay as they are; a row that exactly one entry names is as it was or as after one delivery of that
entry; it is so delivered once an attempt confirmed the entry, in particular when the operation
ends without a failure for it; and it is as it was when the failure reports no attempt. -/
theorem effect_exactly_once (codec : Codec) (server : RowServer)
    (rows : Bytes → RowServer.Served) (hoptions : validateOptions options = .ok ())
    {inputs : List BulkWorldInput}
    (hrun : run (step codec server) (start (.start encodedLen config bulk options deadline) rows)
      inputs = some world) :
    (∀ key, (∀ row ∈ bulk.entries, row.rowKey ≠ key) → world.rows key = rows key) ∧
      ∀ index row, bulk.Sole index row →
        (Untouched rows world row ∨ Delivered server rows world row) ∧
        (∀ attempt ∈ world.client.attemptsOf index, attempt.Confirms index →
          Delivered server rows world row) ∧
        ∀ result, world.client.phase = .finished result →
          (index ∉ (failuresOf result).map MutationFailure.index →
            Delivered server rows world row) ∧
          ∀ failure ∈ failuresOf result, failure.index = index → failure.attempts = 0 →
            Untouched rows world row := by
  have hvalid := BulkMutationOptions.valid_of_validateOptions hoptions
  have hinv := inv_reachable encodedLen config bulk options deadline hvalid ⟨inputs, hrun⟩
  refine ⟨hinv.untouched, fun index row hsole => ⟨untouched_or_delivered hinv hsole,
    fun attempt hattempt hconfirms => ?_, fun result hresult => ?_⟩⟩
  · exact hinv.reached index row hsole (reached_of_confirms hinv hattempt hconfirms)
  · exact delivered_of_finished encodedLen config bulk options deadline hvalid ⟨inputs, hrun⟩
      hresult hsole

end BulkWorld

/-! ### A row that arrives twice -/

/-- The first request is refused, but the server gets to its first entry all the same, and again
when that is sent once more. -/
def repeatedInputs : List BulkWorldInput :=
  let unavailable : Status := { code := .unavailable, message := "", details := [] }
  let retryTurn : RetryTurn := { draw := 1, now := 10 }
  [.client (.batch 0 (.polled (turnAt 0))), .applied ⟨0, 0, 0⟩,
    .client (.batch 0 (.refused unavailable retryTurn)), .client (.batch 0 (.woke (turnAt 20))),
    .applied ⟨0, 1, 0⟩, .client (.batch 0 .opened),
    .client (.batch 0 (.message { entries := [{ index := 0, status := none }] } retryTurn))]

theorem sole_sampleBulk : sampleBulk.Sole 0 (sampleRow 1 0) := by
  refine ⟨rfl, fun other row hrow hkey => ?_⟩
  have hlt : other < 3 := (List.getElem?_eq_some_iff.1 hrow).1
  interval_cases other
  · rfl
  · obtain rfl := Option.some.inj hrow
    cases hkey
  · obtain rfl := Option.some.inj hrow
    cases hkey

def emptyTable : Bytes → RowServer.Served := fun _ => { row := .empty, tokens := [] }

theorem BulkWorld.effect_exactly_once_repeatedRow :
    ∃ world, run (BulkWorld.step plainCodec idleServer)
        (.start (.start wireLen bulkConfig sampleBulk pairOptions 600000000000) emptyTable)
        repeatedInputs = some world ∧
      BulkWorld.Delivered idleServer emptyTable world (sampleRow 1 0) := by
  have hsome : (run (BulkWorld.step plainCodec idleServer)
      (.start (.start wireLen bulkConfig sampleBulk pairOptions 600000000000) emptyTable)
      repeatedInputs).any fun world =>
        (world.client.attemptsOf 0).any fun attempt => 0 ∈ attempt.confirmed := by
    decide +kernel
  obtain ⟨world, hrun, hconfirmed⟩ := (Option.any_eq_true _ _).1 hsome
  obtain ⟨attempt, hattempt, hmem⟩ := List.any_eq_true.1 hconfirmed
  have heffect := BulkWorld.effect_exactly_once wireLen bulkConfig sampleBulk pairOptions
    600000000000 plainCodec idleServer emptyTable (by decide +kernel) hrun
  exact ⟨world, hrun, (heffect.2 0 (sampleRow 1 0) sole_sampleBulk).2.1 attempt hattempt
    (WriteAttempt.mem_confirmed.1 (of_decide_eq_true hmem))⟩

end BigtableClient
