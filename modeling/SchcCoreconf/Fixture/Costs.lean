import SchcCoreconf.Fixture.CborReader
import SchcCoreconf.Fixture.Duplicates

/-!
# The cost of concrete requests

ciborium on all items of the example, and instances decoded member by member, binary
values as arrays of bytes. One request copies 20/8 as 64/8 with two override maps; another
one has a RuleID of 40 bits.
-/

namespace SchcCoreconf.Fixture

open Fallible

-- ---------------------------------------------------------------------------
-- Members
-- ---------------------------------------------------------------------------

def bytesJson (bytes : Bytes) : Json := .array (bytes.map fun byte => .ofNat byte.toNat)

def operationJson : Cbor → Option Json
  | .map [(.integer 1, .map [(.integer 1, source), (.integer 4, .bytes sequence),
      (.integer 5, destination)])] => do
    return .object [("input", .object [("from", ← selectorObject source),
      ("ipatch-sequence", bytesJson sequence), ("to", ← selectorObject destination)])]
  | _ => none

def decodeMember (member : Cbor × Cbor) : Option Instance :=
  if member.1 = .integer 2906 then
    (operationJson member.2).map fun value =>
      { path := { components := [.sidDelta 2906] }, value := some value }
  else targetInstance bytesJson member

def decodeMembers (bytes : Bytes) : Except String (List Instance) := do
  let (value, _) ← cborCrate.fromReader bytes
  match value with
  | .map entries =>
    collect (fun member => need (decodeMember member) "not an instance of this example") entries
  | _ => .error "not a map"

def emptyWorld : World where
  complete := []
  digests := []
  requests := []

def costModel (world : World) : CoreconfModel :=
  { coreconfModel world with
    compositeModel := { compositeModel world with
      decodeInstancesToIdentifierAtPath := decodeMembers } }

def costDeps (world : World) : Deps :=
  { deps world with
    ciborium := cborCrate
    rustconf := { (deps world).rustconf with
      coreconfModel := fun text =>
        if text = sidText then .ok (costModel world) else .error "not a SID file" } }

theorem costModel_ok (h : (costDeps world).rustconf.coreconfModel sidText = .ok model) :
    model = costModel world := by
  cases h
  rfl

-- ---------------------------------------------------------------------------
-- Requests
-- ---------------------------------------------------------------------------

def otherMap : Cbor := .map [(serdeValueToCbor (pathToCborValue otherPath), .bytes (iidBytes 8))]

/-- The RPC that duplicates 20/8 as 64/8 with a map for each of two entries. -/
def costCbor : Cbor :=
  .map [(.integer 2906, .map [(.integer 1, .map [(.integer 1, selectorCbor 20),
    (.integer 4, .bytes (cborBytes overrideMap ++ cborBytes otherMap)),
    (.integer 5, selectorCbor 64)])])]

def wideCbor : Cbor := .map [(.integer 1, .integer 40), (.integer 2, .integer (2 ^ 32))]

/-- The RPC that duplicates it as 64/8, with one map. -/
def wideCostCbor : Cbor :=
  .map [(.integer 2906, .map [(.integer 1, .map [(.integer 1, wideCbor),
    (.integer 4, .bytes (cborBytes overrideMap)), (.integer 5, selectorCbor 64)])])]

end SchcCoreconf.Fixture
