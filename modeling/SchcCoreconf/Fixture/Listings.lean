import SchcCoreconf.Inspection
import SchcCoreconf.Fixture.Duplicates

/-!
# A device that lists its rules

The crates on concrete contexts, with a handler that answers the FETCH of the root
by the root of its tree, as an instance. An application rule of 16 bits is after
those of 8 bits in a tree, whatever its value.
-/

namespace SchcCoreconf.Fixture

open Fallible

-- ---------------------------------------------------------------------------
-- The root as an instance
-- ---------------------------------------------------------------------------

mutual
def sidValue : Cbor → Json
  | .integer value => .int value
  | .bytes value => .array (value.map fun byte => .ofNat byte.toNat)
  | .text value => .string value
  | .array items => .array (sidItems items)
  | .map entries => .object (sidMembers entries)
  | .tag _ value => sidValue value
  | .bool value => .bool value
  | .null => .null
  | .float bits =>
    if finite : bits &&& 0x7ff0000000000000 ≠ 0x7ff0000000000000 then .float
      { bits, finite } else .null
def sidItems : List Cbor → List Json
  | [] => []
  | item :: rest => sidValue item :: sidItems rest
def sidMembers : List (Cbor × Cbor) → List (String × Json)
  | [] => []
  | (.integer sid, value) :: rest =>
    Json.insertMember (sidMembers rest) (toString sid) (sidValue value)
  | _ :: rest => sidMembers rest
end

def sidRoot (rules : List Rule) : Json :=
  sidValue (.map [(.integer 23, .array (rules.map ruleCbor))])

def identifierRoot (rules : List Rule) : Json := .object [("rule", .array (rules.map ruleJson))]

def rootInstances (world : World) (bytes : Bytes) : Except String (List Instance) :=
  match world.complete.find? (sorBytes · = bytes) with
  | some rules =>
    .ok [{ path := { components := [.sidDelta 2800] }, value := some (sidRoot rules) }]
  | none => decodeInstances world sidInstances bytes

def rootValue (world : World) (value : Json) (path : String) : Except String Json :=
  if path = "/ietf-schc:schc" then
    need ((world.complete.find? (sidRoot · = value)).map identifierRoot)
      "not a root of this example"
  else toIdentifierValue value

def listingModel (world : World) : CoreconfModel :=
  { coreconfModel world with
    compositeModel := { compositeModel world with
      decodeInstancesWithModel := rootInstances world
      sidValueToIdentifierValueAtPath := rootValue world } }

def rootHandler (world : World) (request : Request) : BackendProgram Response :=
  if request.method = .get ∨ request.method = .fetch then
    .readTree fun tree => .done (match world.ofTree tree with
      | some rules => .content (sorBytes rules) .yangInstancesCborSeq
      | none => .error .internalServerError noDocument)
  else .done (.methodNotAllowed .get)

def listingDeps (world : World) : Deps :=
  { deps world with
    rustconf := { (deps world).rustconf with
      coreconfModel := fun text =>
        if text = sidText then .ok (listingModel world) else .error "not a SID file"
      requestHandler := fun _ => .ok (rootHandler world) } }

def inspectorCrates : InspectorCrates where
  validateIdentifierValue _ tree :=
    ensure (tree.get "ietf-schc:schc").isSome "not a tree of this example"
  encodeIdentifiers
    | [{ components := [.sidDelta sid] }] =>
      if 0 ≤ sid then .ok (cborHead 0 sid.toNat) else .error noDocument
    | _ => .error noDocument
  parseNature
    | "compression" => some .compression
    | "management" => some .management
    | _ => none

-- ---------------------------------------------------------------------------
-- Worlds
-- ---------------------------------------------------------------------------

def listingWorld (rules : List Rule) (digest : Digest) : World where
  complete := [rules]
  digests := [digest]
  requests := []

def wideRule : Rule := { application 5 6 with id := { value := 5, bitLen := 16 } }

def wideRules : List Rule := [application 20 5, management, wideRule]

def wideWorld : World := listingWorld wideRules
  ⟨#[2, 218, 251, 12, 138, 116, 179, 116, 249, 232, 133, 6, 237, 112, 225, 100, 214, 181, 215, 145,
    205, 159, 126, 55, 41, 49, 93, 231, 212, 240, 211, 100], rfl⟩

def narrowWorld : World := listingWorld rulesBefore digestBefore

theorem narrowWorld_checked : narrowWorld.Checked :=
  .of_checks (by decide +kernel) (by decide +kernel) (by decide +kernel) (by decide +kernel)

theorem narrowWorld_separated : LoadsSeparated (deps narrowWorld) sidText :=
  loadsSeparated narrowWorld_checked (by decide +kernel)

end SchcCoreconf.Fixture
