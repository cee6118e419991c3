import BigtableClient.Proto

/-!
# Resuming a read

The request for the part of a read that comes after the progress key.
-/

namespace BigtableClient

open Proto

def startAtOrBefore : Option StartKey → Bytes → Bool
  | none, _ => true
  | some (.startKeyClosed start), key => start ≤ key
  | some (.startKeyOpen start), key => start ≤ key

def startAtOrAfter : Option StartKey → Bytes → Bool
  | none, _ => false
  | some (.startKeyClosed start), key => start ≥ key
  | some (.startKeyOpen start), key => start ≥ key

def endAtOrBefore : Option EndKey → Bytes → Bool
  | none, _ => false
  | some (.endKeyOpen stop), key => stop ≤ key
  | some (.endKeyClosed stop), key => stop ≤ key

def endAtOrAfter : Option EndKey → Bytes → Bool
  | none, _ => true
  | some (.endKeyOpen stop), key => stop ≥ key
  | some (.endKeyClosed stop), key => stop ≥ key

def trimRange (range : Proto.RowRange) (progress : Bytes) (reversed : Bool) :
    Option Proto.RowRange :=
  if reversed then
    if startAtOrAfter range.startKey progress then
      none
    else if endAtOrAfter range.endKey progress then
      some { range with endKey := some (.endKeyOpen progress) }
    else
      some range
  else
    if endAtOrBefore range.endKey progress then
      none
    else if startAtOrBefore range.startKey progress then
      some { range with startKey := some (.startKeyOpen progress) }
    else
      some range

def trimRowSet (rows : RowSet) (progress : Bytes) (reversed : Bool) : Option RowSet :=
  let rowKeys := rows.rowKeys.filter fun key =>
    if reversed then key < progress else key > progress
  let rowRanges := rows.rowRanges.filterMap fun range => trimRange range progress reversed
  if rowKeys = [] ∧ rowRanges = [] then
    none
  else
    some { rowKeys := rowKeys, rowRanges := rowRanges }

def resumeRequest (original : ReadRowsRequest) (progress : Option Bytes) (rowsReturned : Int) :
    Option ReadRowsRequest :=
  if original.rowsLimit > 0 ∧ rowsReturned ≥ original.rowsLimit then
    none
  else
    let request :=
      if original.rowsLimit > 0 then
        { original with rowsLimit := original.rowsLimit - rowsReturned }
      else
        original
    match progress with
    | none => some request
    | some progress =>
        let rows := original.rows.getD { rowKeys := [], rowRanges := [{}] }
        match trimRowSet rows progress original.reversed with
        | none => none
        | some rows => some { request with rows := some rows }

end BigtableClient
