import BigtableClient.Proofs.MergeRuns
import BigtableClient.Proofs.Resume

/-!
# What a failed attempt leaves to read

A request that resumes a read is not sent without something left to read, if what
is left is measured by keys: some requested key is beyond the latest row or marker.
`trim_range` compares the bounds of a range with the latest key and asks no more, so
a range that goes on to the very next key, and a range that holds no key at all, are
still requested.
-/

namespace BigtableClient

open Proto Selection
open ProofSupport.ScanOrder (After Beyond after_none after_some beyond_false beyond_true)
open ChunkGrammar (Output lastKey outputRows)

/-! ## The next key -/

variable {range : Proto.RowRange} {key latest : Bytes}

def LeftBefore (original : ReadRowsRequest) (left : List Output → Prop) : Prop :=
  ∀ earlier request, (∀ output ∈ earlier, output.key ≠ []) →
    resumeRequest original (lastKey none earlier) (outputRows earlier).length = some request →
      left earlier

variable {original : ReadRowsRequest}

end BigtableClient
