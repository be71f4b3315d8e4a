import SchcCoreconf.Assumptions
import SchcCoreconf.Leaves

/-!
# Concrete contexts

Rules on the scheme of the repository's fixtures, application 20/8 and management
224/8, with their trees, their Sets-of-Rules and the bytes of both. A world is a
list of contexts, and of what else is written in CBOR.
-/

namespace SchcCoreconf.Fixture

open Fallible

-- ---------------------------------------------------------------------------
-- The rules
-- ---------------------------------------------------------------------------

/-- An entry that sends its field, and compares it first where it has a target. -/
def entry (entryIndex : Nat) (field : FieldRef) (length : FieldLength) (target : Option Bytes) :
    FieldRule where
  entryIndex
  field
  fieldPosition := 1
  direction := .bidirectional
  length
  target := target.elim .none .bytes
  matching := if target.isSome then .equal else .ignore
  action := .valueSent

def iidBytes (iid : UInt8) : Bytes := [0, 0, 0, 0, 0, 0, 0, iid]

def application (value : Nat) (iid : UInt8) : Rule where
  id := { value, bitLen := 8 }
  nature := .compression
  fields := [entry 9 (.ipv6 "fid-ipv6-appiid") (.fixedBits 64) (some (iidBytes iid))]

def portBytes : Bytes := [0x22, 0x14]

def managementId : RuleId := { value := 224, bitLen := 8 }

def management : Rule where
  id := managementId
  nature := .management
  fields := [entry 11 (.udp "fid-udp-app-port") (.fixedBits 16) (some portBytes)]

def completeManagement : Rule where
  id := managementId
  nature := .management
  fields :=
    [entry 0 (.ipv6 "fid-ipv6-version") (.fixedBits 4) none,
      entry 1 (.ipv6 "fid-ipv6-trafficclass") (.fixedBits 8) none,
      entry 2 (.ipv6 "fid-ipv6-flowlabel") (.fixedBits 20) none,
      entry 3 (.ipv6 "fid-ipv6-payload-length") (.fixedBits 16) none,
      entry 4 (.ipv6 "fid-ipv6-nextheader") (.fixedBits 8) none,
      entry 5 (.ipv6 "fid-ipv6-hoplimit") (.fixedBits 8) none,
      entry 6 (.ipv6 "fid-ipv6-devprefix") (.fixedBits 64) none,
      entry 7 (.ipv6 "fid-ipv6-deviid") (.fixedBits 64) none,
      entry 8 (.ipv6 "fid-ipv6-appprefix") (.fixedBits 64) none,
      entry 9 (.ipv6 "fid-ipv6-appiid") (.fixedBits 64) none,
      entry 10 (.udp "fid-udp-dev-port") (.fixedBits 16) (some portBytes),
      entry 11 (.udp "fid-udp-app-port") (.fixedBits 16) (some portBytes),
      entry 12 (.udp "fid-udp-length") (.fixedBits 16) none,
      entry 13 (.udp "fid-udp-checksum") (.fixedBits 16) none,
      entry 14 .payload .remaining none]

/-- The complete contexts there are, with their digests, and other CBOR documents. -/
structure World where
  complete : List (List Rule)
  digests : List Digest
  requests : List Cbor

def applications (rules : List Rule) : List Rule := rules.filter (·.nature ≠ .management)

def World.contexts (world : World) : List (List Rule) :=
  world.complete ++ world.complete.map applications

-- ---------------------------------------------------------------------------
-- Identities
-- ---------------------------------------------------------------------------

def identities : List (String × Int) :=
  [("fid-ipv6-version", 2590), ("fid-ipv6-trafficclass", 2591), ("fid-ipv6-flowlabel", 2594),
    ("fid-ipv6-payload-length", 2595), ("fid-ipv6-nextheader", 2596), ("fid-ipv6-hoplimit", 2597),
    ("fid-ipv6-deviid", 2598), ("fid-ipv6-devprefix", 2599), ("fid-ipv6-appiid", 2600),
    ("fid-ipv6-appprefix", 2601), ("fid-udp-dev-port", 2605), ("fid-udp-app-port", 2606),
    ("fid-udp-length", 2607), ("fid-udp-checksum", 2608), ("fid-payload", 2611),
    ("fl-remaining", 2567), ("di-bidirectional", 2562), ("mo-equal", 2551), ("mo-ignore", 2552),
    ("cda-value-sent", 2556), ("nature-compression", 2570), ("nature-management", 2573)]

def identitySid (name : String) : Int := ((identities.find? (·.1 = name)).map (·.2)).getD 0

def qualified (name : String) : Json := .string ("ietf-schc:" ++ name)

def matchingIdentity : MatchingOperator → String
  | .equal => "mo-equal"
  | _ => "mo-ignore"

def natureIdentity : RuleNature → String
  | .management => "nature-management"
  | _ => "nature-compression"

-- ---------------------------------------------------------------------------
-- Trees
-- ---------------------------------------------------------------------------

def base64Text (bytes : Bytes) : String :=
  .ofList ((base64Encode bytes).map fun byte => Char.ofNat byte.toNat)

def lengthJson : FieldLength → Json
  | .fixedBits bits => .ofNat bits
  | _ => qualified "fl-remaining"

def entryJson (field : FieldRule) : Json :=
  .object ([("comp-decomp-action", qualified "cda-value-sent"),
    ("direction-indicator", qualified "di-bidirectional"),
    ("entry-index", .ofNat field.entryIndex),
    ("field-id", qualified (fieldName field.field)),
    ("field-length", lengthJson field.length),
    ("field-position", .ofNat 1),
    ("matching-operator", qualified (matchingIdentity field.matching))] ++
    match field.target with
    | .bytes target =>
      [("target-value", .array [.object [("index", .ofNat 0),
        ("value", .string (base64Text target))]])]
    | _ => [])

def ruleJson (rule : Rule) : Json :=
  .object [("entry-universal", .array (rule.fields.map entryJson)),
    ("rule-id-length", .ofNat rule.id.bitLen), ("rule-id-value", .ofNat rule.id.value),
    ("rule-nature", qualified (natureIdentity rule.nature))]

def tree (rules : List Rule) : Json :=
  .object [("ietf-schc:schc", .object [("rule", .array (rules.map ruleJson))])]

-- ---------------------------------------------------------------------------
-- Sets of Rules
-- ---------------------------------------------------------------------------

def lengthCbor : FieldLength → Cbor
  | .fixedBits bits => .integer bits
  | _ => .tag 45 (.integer (identitySid "fl-remaining"))

def entryCbor (field : FieldRule) : Cbor :=
  .map ([(.integer 1, .integer field.entryIndex),
    (.integer 2, .integer (identitySid (fieldName field.field))),
    (.integer 5, lengthCbor field.length),
    (.integer 7, .integer (identitySid "di-bidirectional")),
    (.integer 8, .integer 1)] ++
    (match field.target with
    | .bytes target =>
      [(.integer 9, .array [.map [(.integer 1, .integer 0), (.integer 2, .bytes target)]])]
    | _ => []) ++
    [(.integer 12, .integer (identitySid (matchingIdentity field.matching))),
      (.integer 16, .integer (identitySid "cda-value-sent"))])

def ruleCbor (rule : Rule) : Cbor :=
  .map [(.integer 1, .integer rule.id.bitLen), (.integer 2, .integer rule.id.value),
    (.integer 3, .integer (identitySid (natureIdentity rule.nature))),
    (.integer 23, .array (rule.fields.map entryCbor))]

def sor (rules : List Rule) : Cbor :=
  .map [(.integer 2800, .map [(.integer 23, .array (rules.map ruleCbor))])]

def patch (iid : UInt8) : Cbor :=
  .map [(.array ([2800, 23, 20, 8, 23, 9, 9, 0, 2].map .integer), .bytes (iidBytes iid))]

-- ---------------------------------------------------------------------------
-- Bytes and texts
-- ---------------------------------------------------------------------------

def cborHead (major n : Nat) : Bytes :=
  if n < 24 then [UInt8.ofNat (major * 32 + n)]
  else if n < 2 ^ 8 then UInt8.ofNat (major * 32 + 24) :: bigEndian 1 n
  else if n < 2 ^ 16 then UInt8.ofNat (major * 32 + 25) :: bigEndian 2 n
  else if n < 2 ^ 32 then UInt8.ofNat (major * 32 + 26) :: bigEndian 4 n
  else UInt8.ofNat (major * 32 + 27) :: bigEndian 8 n

mutual
def cborBytes : Cbor → Bytes
  | .integer value =>
    if 0 ≤ value then cborHead 0 value.toNat else cborHead 1 (-1 - value).toNat
  | .bytes value => cborHead 2 value.length ++ value
  | .text value => cborHead 3 value.toUTF8.size ++ value.toUTF8.toList
  | .array items => cborHead 4 items.length ++ cborItems items
  | .map entries => cborHead 5 entries.length ++ cborEntries entries
  | .tag tag value => cborHead 6 tag.toNat ++ cborBytes value
  | .bool value => [if value then 0xf5 else 0xf4]
  | .null => [0xf6]
  | .float bits => 0xfb :: bigEndian 8 bits.toNat
def cborItems : List Cbor → Bytes
  | [] => []
  | item :: rest => cborBytes item ++ cborItems rest
def cborEntries : List (Cbor × Cbor) → Bytes
  | [] => []
  | (key, value) :: rest => cborBytes key ++ cborBytes value ++ cborEntries rest
end

def commas : List Bytes → Bytes
  | [] => []
  | [item] => item
  | item :: rest => item ++ 44 :: commas rest

def quoted (text : String) : Bytes := 34 :: text.toUTF8.toList ++ [34]

mutual
/-- The JSON text of a tree; its strings need no escapes, and it has no floats. -/
def jsonBytes : Json → Bytes
  | .null => "null".toUTF8.toList
  | .bool value => (if value then "true" else "false").toUTF8.toList
  | .int value => (toString value).toUTF8.toList
  | .float _ => []
  | .string value => quoted value
  | .array items => 91 :: commas (jsonItems items) ++ [93]
  | .object members => 123 :: commas (jsonMembers members) ++ [125]
def jsonItems : List Json → List Bytes
  | [] => []
  | item :: rest => jsonBytes item :: jsonItems rest
def jsonMembers : List (String × Json) → List Bytes
  | [] => []
  | (key, value) :: rest => (quoted key ++ 58 :: jsonBytes value) :: jsonMembers rest
end

def sorBytes (rules : List Rule) : Bytes := cborBytes (sor rules)

def identityBytes (rules : List Rule) : Bytes :=
  let text := jsonBytes (tree rules)
  let bytes := sorBytes rules
  digestDomain ++ toBeBytes64 text.length ++ text ++ toBeBytes64 bytes.length ++ bytes

end SchcCoreconf.Fixture
