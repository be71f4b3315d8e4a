import SchcCoreconf.Fixture.Costs

/-!
# Concrete requests that are read back

The crates of the costs, with the operation also without overrides, and with the
identities of matching operators and CDAs. A request copies 20/8 as 64/8, for another
interface identifier that is ignored.
-/

namespace SchcCoreconf.Fixture

open Fallible

-- ---------------------------------------------------------------------------
-- Identities
-- ---------------------------------------------------------------------------

/-- The SID of an identity, whose name may be qualified. -/
def identityNumber (name : String) : Except String Int :=
  need ((identities.find? fun identity =>
    decide (identity.1 = name) || decide ("ietf-schc:" ++ identity.1 = name)).map
      (·.2)) "not an identity"

def identityJson (sid : Int) : Json :=
  qualified (((identities.find? (·.2 = sid)).map (·.1)).getD "")

theorem identityNumber_json (h : identityNumber name = .ok sid) :
    ∃ text, identityJson sid = .string text ∧ identityNumber text = .ok sid := by
  obtain ⟨identity, hidentity, rfl⟩ := Option.map_eq_some_iff.mp (need_ok.mp h)
  have hall : ∀ identity ∈ identities, identityNumber
      ("ietf-schc:" ++ ((identities.find? (·.2 = identity.2)).map (·.1)).getD "") =
        .ok identity.2 := by
    decide +kernel
  exact ⟨_, rfl, hall identity (List.mem_of_find?_eq_some hidentity)⟩

-- ---------------------------------------------------------------------------
-- Members
-- ---------------------------------------------------------------------------

/-- The value of the duplicate-rule operation, with overrides or without. -/
def requestJson : Cbor → Option Json
  | .map [(.integer 1, .map [(.integer 1, source), (.integer 5, destination)])] => do
    return .object
      [("input", .object [("from", ← selectorObject source), ("to", ← selectorObject destination)])]
  | .map [(.integer 1, .map [(.integer 1, source), (.integer 4, .bytes sequence),
      (.integer 5, destination)])] => do
    return .object [("input", .object [("from", ← selectorObject source),
      ("ipatch-sequence", bytesJson sequence), ("to", ← selectorObject destination)])]
  | _ => none

/-- The path of a matching operator or a CDA. -/
def identityPath : List Cbor → Option InstancePath
  | [.integer root, .integer rule, .integer value, .integer bits, .integer entry,
      .integer index, .integer leaf] =>
    if root + rule + entry + leaf = 2858 ∨ root + rule + entry + leaf = 2862 then
      some
        { components := [.sidDelta root, .sidDelta rule,
          .keyValue (.int value), .keyValue (.int bits),
        .sidDelta entry, .keyValue (.int index), .sidDelta leaf] }
    else none
  | _ => none

def requestMember (member : Cbor × Cbor) : Option Instance :=
  match member with
  | (.integer key, raw) =>
    if key = 2906 then
      (requestJson raw).map fun value =>
        { path := { components := [.sidDelta 2906] }, value := some value }
    else none
  | (.array items, .integer sid) =>
    (identityPath items).map fun path => { path, value := some (identityJson sid) }
  | member => targetInstance bytesJson member

def requestMembers (bytes : Bytes) : Except String (List Instance) := do
  let (value, _) ← cborCrate.fromReader bytes
  match value with
  | .map entries =>
    collect (fun member => need (requestMember member) "not an instance of this example") entries
  | _ => .error "not a map"

def requestModel : CoreconfModel :=
  { coreconfModel emptyWorld with
    compositeModel := { compositeModel emptyWorld with
      identitySidForValue := fun
        | .string name => identityNumber name
        | _ => .error "not an identity"
      decodeInstancesToIdentifierAtPath := requestMembers } }

def requestDeps : Deps :=
  { deps emptyWorld with
    ciborium := cborCrate
    rustconf := { (deps emptyWorld).rustconf with
      coreconfModel := fun text => if text = sidText then .ok requestModel
        else .error "not a SID file" } }

theorem requestModel_ok (h : requestDeps.rustconf.coreconfModel sidText = .ok model) :
    model = requestModel := by
  cases h
  rfl

theorem requestMembers_written {entries : List (Cbor × Cbor)}
    (h : cborCrate.intoWriter (.map entries) = .ok bytes) :
    requestMembers bytes =
      collect (fun member => need (requestMember member) "not an instance of this example")
        entries := by
  obtain ⟨hreadable, rfl⟩ := cborCrate_written h
  rw [requestMembers, cborCrate_read hreadable]
  rfl

theorem cborCrate_reads {value : Cbor} (h : cborCrate.intoWriter value = .ok bytes) (rest : Bytes) :
    cborCrate.fromReader (bytes ++ rest) = .ok (value, bytes.length) := by
  obtain ⟨hreadable, rfl⟩ := cborCrate_written h
  have hread := readItem_cborBytes value hreadable (cborBytes value ++ rest).length (by simp) rest
  simp only [cborCrate, hread]
  rw [List.length_append, Nat.add_sub_cancel]

-- ---------------------------------------------------------------------------
-- The request
-- ---------------------------------------------------------------------------

def requestService : InspectionService where
  model := requestModel
  sidRegistry := { ruleContext := ruleContext emptyWorld }
  handler := handler

def ignoredRequest : RuleDuplicateRequest where
  source := { value := 20, bits := 8 }
  destination := { value := 64, bits := 8 }
  overrides := [{
    entryIndex := 9
    targetValue := some "7"
    matchingOperator := some "ignore"
    cda := none }]

end SchcCoreconf.Fixture
