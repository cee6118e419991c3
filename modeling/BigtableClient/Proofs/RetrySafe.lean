import BigtableClient.RowServer
import BigtableClient.ProofSupport.Overwrite

/-!
# Retry-safe rows

A set with its own timestamp and every delete overwrite cells, so any list of them
does, and applying the list again changes nothing.  What depends on the time of the
server, or on the row, is only safe under a token, or not at all.
-/

namespace BigtableClient

open Proto (MutationKind)
open ProofSupport.Overwrite

/-! ## Kinds of mutations -/

def Proto.MutationKind.atServerTime : MutationKind → Bool
  | .setCell _ _ timestampMicros _ => timestampMicros = -1
  | _ => false

def Proto.MutationKind.isAggregate : MutationKind → Bool
  | .addToCell _ => true
  | .mergeToCell _ => true
  | _ => false

theorem Mutation.exists_kind (mutation : Mutation) :
    ∃ kind, mutation.inner.mutation = some kind :=
  Option.isSome_iff_exists.1 mutation.operation_isSome

theorem Mutation.isRetrySafe_eq {mutation : Mutation} {kind : MutationKind}
    (h : mutation.inner.mutation = some kind) (hasIdempotency : Bool) :
    mutation.isRetrySafe hasIdempotency =
      (!kind.atServerTime && (!kind.isAggregate || hasIdempotency)) := by
  rw [isRetrySafe, h]
  cases kind <;> simp [MutationKind.atServerTime, MutationKind.isAggregate]

/-! ## Overwriting cells -/

namespace RowServer

variable {server : RowServer}

theorem overwrites_set (key : CellKey) (bytes : Bytes) :
    Overwrites RowCells.value fun row => row.set key bytes := by
  refine ⟨fun other => if other = key then some (some bytes) else none, fun row other => ?_⟩
  simp only [RowCells.set]
  split_ifs
  · rfl
  · rfl

theorem overwrites_deleteWhere (deleted : CellKey → Bool) :
    Overwrites RowCells.value fun row => row.deleteWhere deleted := by
  refine ⟨fun key => if deleted key then some none else none, fun row key => ?_⟩
  simp only [RowCells.deleteWhere]
  split_ifs
  · rfl
  · rfl

theorem overwrites_mutate {kind : MutationKind} (htime : kind.atServerTime = false)
    (haggregate : kind.isAggregate = false) :
    Overwrites RowCells.value fun row => server.mutate row kind := by
  cases kind with
  | setCell familyName columnQualifier timestampMicros value =>
      have hne : timestampMicros ≠ -1 := of_decide_eq_false htime
      simp only [mutate, if_neg hne]
      exact overwrites_set _ _
  | deleteFromColumn familyName columnQualifier timeRange => exact overwrites_deleteWhere _
  | deleteFromFamily familyName => exact overwrites_deleteWhere _
  | deleteFromRow => exact overwrites_deleteWhere _
  | addToCell encoded => cases haggregate
  | mergeToCell encoded => cases haggregate

/-- Sets with their own timestamps and deletes, in any order. -/
theorem mutateAll_twice (server : RowServer) {mutations : List Mutation}
    (h : ∀ mutation ∈ mutations, mutation.isRetrySafe false) (row : RowCells) :
    server.mutateAll (server.mutateAll row (mutations.map Mutation.inner))
        (mutations.map Mutation.inner) =
      server.mutateAll row (mutations.map Mutation.inner) := by
  have hoverwrites : Overwrites RowCells.value fun row =>
      server.mutateAll row (mutations.map Mutation.inner) := by
    apply Overwrites.foldl
    intro inner hinner
    obtain ⟨mutation, hmutation, rfl⟩ := List.mem_map.1 hinner
    obtain ⟨kind, hkind⟩ := mutation.exists_kind
    have hsafe := h mutation hmutation
    rw [Mutation.isRetrySafe_eq hkind] at hsafe
    simp only [Bool.or_false, Bool.and_eq_true, Bool.not_eq_true'] at hsafe
    simp only [hkind, Option.elim_some]
    exact overwrites_mutate hsafe.1 hsafe.2
  exact RowCells.ext (hoverwrites.idempotent row)

/-- A set at the time of the server adds a cell each time. -/
theorem mutate_serverTime_twice (server : RowServer) (row : RowCells) (familyName : String)
    (columnQualifier value : Bytes) :
    let kind := MutationKind.setCell familyName columnQualifier (-1) value
    server.mutate (server.mutate row kind) kind ≠ server.mutate row kind := by
  intro kind
  generalize server.mutate row kind = once
  intro heq
  have hfresh := server.serverTime_fresh once familyName columnQualifier
  have hset : (server.mutate once kind).value
      ⟨familyName, columnQualifier, server.serverTime once familyName columnQualifier⟩ =
        some value := by
    simp [mutate, kind, RowCells.set]
  rw [heq, hfresh] at hset
  cases hset

/-- An entry with a token that was delivered is known. -/
theorem token_mem_deliver (server : RowServer) (served : Served)
    {entry : Proto.MutateRowsEntry} {idempotency : Proto.Idempotency}
    (h : entry.idempotency = some idempotency) :
    idempotency.token ∈ (server.deliver served entry).tokens := by
  simp only [deliver, h]
  split_ifs with hknown
  · exact hknown
  · simp

theorem deliver_twice_of_token {entry : Proto.MutateRowsEntry} (h : entry.idempotency.isSome)
    (served : Served) :
    server.deliver (server.deliver served entry) entry = server.deliver served entry := by
  obtain ⟨idempotency, hidempotency⟩ := Option.isSome_iff_exists.1 h
  have hknown := token_mem_deliver server served hidempotency
  generalize server.deliver served entry = delivered at hknown
  simp only [deliver, hidempotency, if_pos hknown]

end RowServer

/-! ## Rows -/

namespace RowMutation

variable {row : RowMutation}

/-- A row without a token is safe when each of its mutations is, without one. -/
theorem deliver_twice (server : RowServer) (h : row.isRetrySafe) (served : RowServer.Served) :
    server.deliver (server.deliver served row.intoProto) row.intoProto =
      server.deliver served row.intoProto := by
  cases hidempotency : row.idempotency with
  | some idempotency =>
      refine RowServer.deliver_twice_of_token ?_ served
      rw [intoProto, hidempotency]
      rfl
  | none =>
      rw [isRetrySafe, hidempotency, List.all_eq_true] at h
      have htwice := server.mutateAll_twice h served.row
      simp only [RowServer.deliver, intoProto, hidempotency, htwice]

theorem isRetrySafe_eq_false {mutation : Mutation} (hmutation : mutation ∈ row.mutations)
    (h : mutation.isRetrySafe row.idempotency.isSome = false) : row.isRetrySafe = false := by
  rw [isRetrySafe, List.all_eq_false]
  exact ⟨mutation, hmutation, by simp [h]⟩

/-- A row that is reported as retry-safe may be sent twice: its sets and deletes alone change a row
once, in any order, and whatever else it holds is delivered once under its token.  A row with a
set at server time, or with an aggregate operation and no token, is reported as not retry-safe. -/
theorem retry_safe_is_idempotent (server : RowServer) (row : RowMutation) :
    (row.isRetrySafe →
      ((∀ mutation ∈ row.mutations, ∀ kind ∈ mutation.inner.mutation, kind.isAggregate = false) →
        ∀ cells, server.mutateAll (server.mutateAll cells row.intoProto.mutations)
            row.intoProto.mutations =
          server.mutateAll cells row.intoProto.mutations) ∧
      ∀ served, (server.deliver (server.deliver served row.intoProto) row.intoProto).row =
        (server.deliver served row.intoProto).row) ∧
    ∀ mutation ∈ row.mutations, ∀ kind ∈ mutation.inner.mutation,
      kind.atServerTime ∨ (kind.isAggregate ∧ row.idempotency = none) →
        row.isRetrySafe = false := by
  refine ⟨fun hsafe => ⟨fun haggregates cells => ?_, fun served => ?_⟩,
    fun mutation hmutation kind hkind hunsafe => ?_⟩
  · refine server.mutateAll_twice (fun mutation hmutation => ?_) cells
    obtain ⟨kind, hkind⟩ := mutation.exists_kind
    have hone := List.all_eq_true.1 hsafe mutation hmutation
    have haggregate := haggregates mutation hmutation kind hkind
    rw [Mutation.isRetrySafe_eq hkind] at hone ⊢
    simpa [haggregate] using hone
  · rw [deliver_twice server hsafe served]
  · apply isRetrySafe_eq_false hmutation
    rw [Mutation.isRetrySafe_eq hkind]
    rcases hunsafe with htime | ⟨haggregate, hnone⟩
    · simp [htime]
    · simp [haggregate, hnone]

end RowMutation

/-! ### A cell that is set, deleted and set again -/

/-- A server whose own timestamps are unused ones and whose aggregates change nothing. -/
noncomputable def idleServer : RowServer where
  serverTime row familyName columnQualifier :=
    (row.exists_fresh familyName columnQualifier).choose
  addToCell _ row := row
  mergeToCell _ row := row
  serverTime_fresh row familyName columnQualifier :=
    (row.exists_fresh familyName columnQualifier).choose_spec

def rewrittenRow : RowMutation where
  rowKey := [7]
  mutations :=
    [.new (.setCell "f" [1] 5000 [1]),
      .new (.deleteFromColumn "f" [1]
        (some { startTimestampMicros := 1000, endTimestampMicros := 0 })),
      .new (.setCell "f" [1] 5000 [2])]
  idempotency := none
  rowKey_valid := by decide
  length_le := by decide

theorem RowMutation.retry_safe_is_idempotent_rewrittenRow :
    let mutations := rewrittenRow.intoProto.mutations
    idleServer.mutateAll (idleServer.mutateAll .empty mutations) mutations =
      idleServer.mutateAll .empty mutations :=
  ((RowMutation.retry_safe_is_idempotent idleServer rewrittenRow).1 (by decide)).1
    (by decide) .empty

end BigtableClient
