import BigtableClient.Batching

/-!
# Lengths on the wire

What `split_batches` relies on about the protobuf encoder, as a property of the
lengths it reports, and the lengths of the wire format, which have it.
-/

namespace BigtableClient

open Proto (MutationKind MutateRowsEntry MutateRowsRequest)

/-- A repeated message field adds to a request, for each of its messages, a tag byte, the
length in base 128 and the message. -/
def EncodedLen.Repeated (encodedLen : EncodedLen) : Prop :=
  ∀ request : MutateRowsRequest,
    encodedLen.request request =
      encodedLen.request { request with entries := [] } +
        (request.entries.map fun entry =>
          1 + (Nat.log 128 (encodedLen.entry entry) + 1) + encodedLen.entry entry).sum

namespace WireLen

/-- A length-delimited field with a one-byte tag. -/
def delimited (len : Nat) : Nat := 1 + (Nat.log 128 len + 1) + len

/-- A string or bytes field is left out when it is empty. -/
def bytes (len : Nat) : Nat := if len = 0 then 0 else delimited len

/-- An integer field is left out when it is zero; a negative integer is sent as 64 bits. -/
def int (value : Int) : Nat :=
  if value = 0 then 0 else 1 + (Nat.log 128 (value % 2 ^ 64).toNat + 1)

def mutationKind : MutationKind → Nat
  | .setCell familyName columnQualifier timestampMicros value =>
      delimited (bytes familyName.utf8ByteSize + bytes columnQualifier.length +
        int timestampMicros + bytes value.length)
  | .deleteFromColumn familyName columnQualifier timeRange =>
      delimited (bytes familyName.utf8ByteSize + bytes columnQualifier.length +
        (timeRange.map fun range =>
          delimited (int range.startTimestampMicros + int range.endTimestampMicros)).getD 0)
  | .deleteFromFamily familyName => delimited (bytes familyName.utf8ByteSize)
  | .deleteFromRow => delimited 0
  | .addToCell encoded => delimited encoded.length
  | .mergeToCell encoded => delimited encoded.length

def idempotency (token : Proto.Idempotency) : Nat :=
  bytes token.token.length +
    (token.startTime.map fun time => delimited (int time.seconds + int time.nanos)).getD 0

def entry (entry : MutateRowsEntry) : Nat :=
  bytes entry.rowKey.length +
    (entry.mutations.map fun mutation =>
      delimited ((mutation.mutation.map mutationKind).getD 0)).sum +
    (entry.idempotency.map fun token => delimited (idempotency token)).getD 0

def request (request : MutateRowsRequest) : Nat :=
  bytes request.tableName.utf8ByteSize + bytes request.appProfileId.utf8ByteSize +
    (request.entries.map fun message => delimited (entry message)).sum

end WireLen

def wireLen : EncodedLen where
  request := WireLen.request
  entry := WireLen.entry

theorem wireLen_repeated : wireLen.Repeated := by
  intro request
  simp [wireLen, WireLen.request, WireLen.delimited]

end BigtableClient
