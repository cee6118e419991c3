import Mathlib

/-!
# Tables and their names

Checks on table identifiers, and the resource name a request is routed by.
-/

namespace BigtableClient

/-- The parts of the client configuration that requests are built from. -/
structure ClientConfig where
  projectId : String
  instanceId : String
  appProfileId : String
  deriving DecidableEq, Repr

def maxTableIdChars : Nat := 50

def maxRowKeyBytes : Nat := 4 * 1024

inductive TableIdIssue where
  | empty
  | tooLong
  | containsSlash
  deriving DecidableEq, Repr

def validateTableId (tableId : String) : Except TableIdIssue Unit :=
  if tableId.isEmpty then
    .error .empty
  else if tableId.length > maxTableIdChars then
    .error .tooLong
  else if tableId.toList.contains '/' then
    .error .containsSlash
  else
    .ok ()

def TableId := { id : String // validateTableId id = .ok () }
  deriving DecidableEq, Repr

def tableName (config : ClientConfig) (tableId : String) : String :=
  "projects/" ++ config.projectId ++ "/instances/" ++ config.instanceId ++ "/tables/" ++ tableId

/-! ## Headers -/

/-- `MetadataValue<Ascii>` -/
structure MetadataValue where
  text : String
  deriving DecidableEq, Repr

/-- `str::parse::<MetadataValue<Ascii>>`, which belongs to another package. -/
abbrev MetadataParser := String → Option MetadataValue

/-- A parsed header value is the text it was parsed from. -/
def MetadataParser.KeepsText (parse : MetadataParser) : Prop :=
  ∀ text value, parse text = some value → value.text = text

def routingHeader (parse : MetadataParser) (tableName : String) : Option MetadataValue :=
  parse ("table_name=" ++ tableName)

end BigtableClient
