import SchcCoreconf.Selectors

/-!
# The duplicate-rule operation

`duplicate.rs`: a rule is copied under a new RuleID, with some leaves of some
entries replaced. The request is a modeled RPC whose `ipatch-sequence` holds one
CBOR map for each entry; the receiver rebuilds the tree it describes.
-/

namespace SchcCoreconf

open Fallible

structure RuleDuplicateOverride where
  entryIndex : Nat
  targetValue : Option String
  matchingOperator : Option String
  cda : Option String
  deriving DecidableEq, Repr

/-- A parsed atomic duplicate-rule request. -/
structure RuleDuplicateRequest where
  source : RuleSelector
  destination : RuleSelector
  overrides : List RuleDuplicateOverride
  deriving DecidableEq, Repr

inductive DuplicateLeaf
  | target
  | matchingOperator
  | cda
  deriving DecidableEq, Repr

def DuplicateLeaf.debug : DuplicateLeaf → String
  | .target => "Target"
  | .matchingOperator => "MatchingOperator"
  | .cda => "Cda"

structure DecodedDuplicateOperation where
  request : RuleDuplicateRequest
  instances : List Instance
  innerPayload : Bytes
  deriving DecidableEq, Repr

def invalidDuplicate (message : String) : InspectionError :=
  .invalidUpdate s!"duplicate-rule: {message}"

-- ---------------------------------------------------------------------------
-- The model's shape and the tree's keys
-- ---------------------------------------------------------------------------

def checkIdentifier (model : CompositeModel) (sid : Int) : Except InspectionError Unit :=
  ensure (model.getIdentifier sid).isSome
    (invalidDuplicate s!"SID model is missing identifier {sid}")

def validateDuplicateModelShape (model : CompositeModel) : Except InspectionError ModelSids := do
  let sids ← ModelSids.resolve model
  let _ ← collect (checkIdentifier model)
    [sids.duplicateRule, sids.duplicateInput, sids.duplicateFrom, sids.duplicateFromLength,
      sids.duplicateFromValue, sids.duplicateIpatch, sids.duplicateTo, sids.duplicateToLength,
      sids.duplicateToValue, sids.matchingOperator, sids.cda]
  return sids

def ruleKey (model : CompositeModel) (sid : Int) : Except InspectionError String :=
  need (((model.getIdentifier sid).map lastSegment).filter (!·.isEmpty))
    (invalidDuplicate s!"SID model is missing rule key {sid}")

/-- The tree keys of the rule list and of a rule's identity. -/
structure RuleKeys where
  root : String
  list : String
  value : String
  length : String
  deriving DecidableEq, Repr

def ruleKeys (model : CompositeModel) (sids : ModelSids) : Except InspectionError RuleKeys :=
  return {
    root := ← ruleKey model sids.root
    list := ← ruleKey model sids.rule
    value := ← ruleKey model sids.ruleIdValue
    length := ← ruleKey model sids.ruleIdLength }

namespace RuleKeys

def selects (keys : RuleKeys) (selector : RuleSelector) (rule : Json) : Bool :=
  (rule.get keys.value).bind Json.asU64 = some selector.value &&
    (rule.get keys.length).bind Json.asU64 = some selector.bits

def rules (keys : RuleKeys) (tree : Json) : Option (List Json) := do
  let root ← (tree.get keys.root).bind Json.asObject
  (Json.lookup root keys.list).bind Json.asArray

def setRules (keys : RuleKeys) (tree : Json) (rules : List Json) : Json :=
  match tree with
  | .object members =>
    match (Json.lookup members keys.root).bind Json.asObject with
    | none => tree
    | some root =>
      .object (Json.setMember members keys.root
        (.object (Json.setMember root keys.list (.array rules))))
  | _ => tree

def sortKey (keys : RuleKeys) (rule : Json) : ℕ ×ₗ ℕ :=
  toLex (((rule.get keys.length).bind Json.asU64).getD 0,
    ((rule.get keys.value).bind Json.asU64).getD 0)

end RuleKeys

def findTreeRule (tree : Json) (model : CompositeModel) (selector : RuleSelector) :
    Except InspectionError (Option Json) := do
  let sids ← ModelSids.resolve model
  let keys ← ruleKeys model sids
  return (keys.rules tree).bind (·.find? (keys.selects selector))

def setTreeRuleKey (rule : Json) (model : CompositeModel) (sid : Int) (value : Json) :
    Except InspectionError Json := do
  let key ← ruleKey model sid
  let object ← need rule.asObject (invalidDuplicate "source rule is not an object")
  return .object (Json.insertMember object key value)

-- ---------------------------------------------------------------------------
-- Override paths
-- ---------------------------------------------------------------------------

/-- The absolute SIDs along a path. -/
def InstancePath.absoluteSids (path : InstancePath) : List Int :=
  let deltas := path.components.filterMap fun
    | .sidDelta delta => some delta
    | .keyValue _ => none
  (deltas.scanl (· + ·) 0).tail

def duplicateLeafFromPath (path : InstancePath) (destination : RuleSelector) (sids : ModelSids) :
    Except InspectionError (Nat × DuplicateLeaf) := do
  let keys := path.keys
  let value ← need (keys[0]?.bind Json.asU64)
    (invalidDuplicate "override path is missing destination value")
  let bits ← need (keys[1]?.bind Json.asU64)
    (invalidDuplicate "override path is missing destination length")
  ensure (value = destination.value && bits = destination.bits)
    (invalidDuplicate "override path destination does not match RPC destination")
  let entry ← need (keys[2]?.bind Json.asU64)
    (invalidDuplicate "override path is missing entry-index")
  let pathSids := path.absoluteSids
  if pathSids = [sids.root, sids.rule, sids.entry, sids.matchingOperator] then
    return (entry, .matchingOperator)
  if pathSids = [sids.root, sids.rule, sids.entry, sids.cda] then
    return (entry, .cda)
  ensure (pathSids = [sids.root, sids.rule, sids.entry, sids.target, sids.targetValue] &&
      keys.length = 4) (invalidDuplicate "override path names an unsupported field")
  ensure (keys[3]?.bind Json.asU64 = some 0) (invalidDuplicate "target-value index must be zero")
  return (entry, .target)

def duplicateOverridePath (deps : Deps) (destination : RuleSelector) (entryIndex : Nat)
    (leaf : DuplicateLeaf) (sids : ModelSids) : Except InspectionError InstancePath := do
  let path ← pushSid deps { components := [] } 0 sids.root
  let path ← pushSid deps path sids.root sids.rule
  let path := (path.pushKey (.ofNat destination.value)).pushKey (.ofNat destination.bits)
  let path ← pushSid deps path sids.rule sids.entry
  let path := path.pushKey (.ofNat entryIndex)
  match leaf with
  | .target => do
    let path ← pushSid deps path sids.entry sids.target
    let path := path.pushKey (.ofNat 0)
    pushSid deps path sids.target sids.targetValue
  | .matchingOperator => pushSid deps path sids.entry sids.matchingOperator
  | .cda => pushSid deps path sids.entry sids.cda

-- ---------------------------------------------------------------------------
-- The tree a request describes
-- ---------------------------------------------------------------------------

def checkDuplicateRules (snapshot : ContextSnapshot) (request : RuleDuplicateRequest) :
    Except InspectionError Unit := do
  let sourceTyped ← need (snapshot.data.rules.find? (·.id = request.source.ruleId))
    (invalidDuplicate "source rule is absent from the typed snapshot")
  ensure (!(sourceTyped.nature = .management ||
      snapshot.data.protectedRules.contains request.source.ruleId))
    (invalidDuplicate "source RuleID is protected or management")
  ensure (!snapshot.data.protectedRules.contains request.destination.ruleId)
    (invalidDuplicate "destination RuleID is protected")
  ensure (request.source ≠ request.destination)
    (invalidDuplicate "source and destination RuleIDs must differ")

def placeRule (keys : RuleKeys) (destination : RuleSelector) (rules : List Json) (rule : Json) :
    List Json :=
  (rules.filter (!keys.selects destination ·) ++ [rule]).insertionSort (Sorted.byKey keys.sortKey)

def applyOverride (deps : Deps) (model : CoreconfModel) (destination : RuleSelector)
    (sids : ModelSids) (seen : List (Nat × DuplicateLeaf)) (datastore : Datastore)
    (entry : Instance) : Except InspectionError (List (Nat × DuplicateLeaf) × Datastore) := do
  let (entryIndex, leaf) ← duplicateLeafFromPath entry.path destination sids
  ensure (!seen.contains (entryIndex, leaf))
    (invalidDuplicate s!"duplicate override for entry {entryIndex} leaf {leaf.debug}")
  let value ← need entry.value (invalidDuplicate "override values cannot delete leaves")
  let sid ← need (deps.rustconf.absoluteSid entry.path)
    (invalidDuplicate "override path has no leaf SID")
  let xpath ← (model.createXpath datastore sid entry.path.keys).mapError invalidDuplicate
  let datastore ← (model.setPath datastore xpath value).mapError invalidDuplicate
  return ((entryIndex, leaf) :: seen, datastore)

def applyOverrides (deps : Deps) (model : CoreconfModel) (destination : RuleSelector)
    (sids : ModelSids) (seen : List (Nat × DuplicateLeaf)) (datastore : Datastore) :
    List Instance → Except InspectionError Datastore
  | [] => .ok datastore
  | entry :: rest => do
    let (seen, datastore) ← applyOverride deps model destination sids seen datastore entry
    applyOverrides deps model destination sids seen datastore rest

def expectedDuplicateTree (deps : Deps) (model : CoreconfModel) (snapshot : ContextSnapshot)
    (request : RuleDuplicateRequest) (instances : List Instance) : Except InspectionError Json := do
  let composite := model.compositeModel
  let sids ← validateDuplicateModelShape composite
  let found ← findTreeRule snapshot.data.tree composite request.source
  let sourceRule ← need found (.missingRule request.source.value request.source.bits)
  checkDuplicateRules snapshot request
  let keys ← ruleKeys composite sids
  let rule ← setTreeRuleKey sourceRule composite sids.ruleIdValue (.ofNat request.destination.value)
  let rule ← setTreeRuleKey rule composite sids.ruleIdLength (.ofNat request.destination.bits)
  let rules ← need (keys.rules snapshot.data.tree)
    (invalidDuplicate "active tree is missing the rule list")
  let candidate := keys.setRules snapshot.data.tree (placeRule keys request.destination rules rule)
  let datastore ← (model.withData candidate).mapError fun error =>
    invalidDuplicate s!"candidate tree is invalid: {error}"
  let datastore ← applyOverrides deps model request.destination sids [] datastore instances
  return datastore.getAll

-- ---------------------------------------------------------------------------
-- Encoding a request
-- ---------------------------------------------------------------------------

def matchingIdentities : List String :=
  ["equal", "ignore", "match-mapping", "mo-equal", "mo-ignore", "mo-match-mapping"]

def cdaIdentities : List String :=
  ["not-sent", "value-sent", "mapping-sent", "lsb", "compute", "deviid", "appiid", "cda-not-sent",
    "cda-value-sent", "cda-mapping-sent", "cda-lsb", "cda-compute", "cda-deviid", "cda-appiid"]

def duplicateIdentitySid (model : CompositeModel) (input : String) (matching : Bool) :
    Except InspectionError Int := do
  let kind := if matching then "matching operator" else "CDA"
  ensure ((if matching then matchingIdentities else cdaIdentities).contains input)
    (invalidDuplicate (s!"invalid {kind} identity '{input}'"))
  let lead := if matching then "mo-" else "cda-"
  let canonical := if lead.toList.isPrefixOf input.toList then input else lead ++ input
  (model.identitySidForValue (.string canonical)).mapError invalidDuplicate

/-- `str::parse::<u64>` of a decimal spelling. -/
def parseU64 (text : String) : Option Nat :=
  let number := Nat.ofDigitChars 10 text.toList 0
  if !text.isEmpty && text.toList.all Char.isDigit && number < 2 ^ 64 then some number else none

/-- The bytes of a target override, in the width of the source's own target. -/
def targetOverrideBytes (sourceRule : Rule) (entry : RuleEntry) (target : String) :
    Except InspectionError Bytes := do
  let current ← need
    ((sourceRule.fields.find? (·.entryIndex = entry.entryIndex)).bind fun field =>
      match field.target with
      | .bytes value => some value
      | _ => none)
    (invalidDuplicate "target override requires one binary source target")
  let fieldLength ← need (parseU64 entry.length)
    (invalidDuplicate "target override requires a fixed numeric field length")
  binaryBytes (← numericTargetValue target current (.ofNat fieldLength))

def overrideKey (deps : Deps) (model : CompositeModel) (path : InstancePath) :
    Except InspectionError Cbor :=
  (model.jsonToCborValue (deps.rustconf.pathToCborValue path)).mapError invalidDuplicate

def overrideFields (deps : Deps) (model : CompositeModel) (sids : ModelSids) (sourceRule : Rule)
    (destination : RuleSelector) (item : RuleDuplicateOverride) (entry : RuleEntry) :
    Except InspectionError (List (InstancePath × Cbor)) := do
  let path (leaf : DuplicateLeaf) :=
    duplicateOverridePath deps destination item.entryIndex leaf sids
  let target ← match item.targetValue with
    | none => pure []
    | some target => do
      let bytes ← targetOverrideBytes sourceRule entry target
      pure [(← path .target, Cbor.bytes bytes)]
  let matching ← match item.matchingOperator with
    | none => pure []
    | some matching => do
      let identity ← duplicateIdentitySid model matching true
      pure [(← path .matchingOperator, Cbor.integer identity)]
  let cda ← match item.cda with
    | none => pure []
    | some cda => do
      let identity ← duplicateIdentitySid model cda false
      pure [(← path .cda, Cbor.integer identity)]
  return target ++ matching ++ cda

/-- One CBOR map of the `ipatch-sequence`. -/
def overrideMember (deps : Deps) (model : CompositeModel) (sids : ModelSids) (sourceRule : Rule)
    (destination : RuleSelector) (item : RuleDuplicateOverride) : Except InspectionError Bytes := do
  let entry ← need ((detailFromRule sourceRule).entries.find? (·.entryIndex = item.entryIndex))
    (invalidDuplicate s!"unknown entry-index {item.entryIndex}")
  ensure (!(item.targetValue.isNone && item.matchingOperator.isNone && item.cda.isNone))
    (invalidDuplicate s!"entry {item.entryIndex} has no override leaves")
  let fields ← overrideFields deps model sids sourceRule destination item entry
  let entries ← collect (fun field : InstancePath × Cbor =>
    return (← overrideKey deps model field.1, field.2)) fields
  (deps.ciborium.intoWriter (.map entries)).mapError fun error =>
    invalidDuplicate s!"override encoding failed: {error}"

def duplicateInnerPayload (deps : Deps) (model : CompositeModel) (snapshot : ContextSnapshot)
    (request : RuleDuplicateRequest) : Except InspectionError Bytes := do
  let sids ← validateDuplicateModelShape model
  let found ← findTreeRule snapshot.data.tree model request.source
  let _ ← need found (.missingRule request.source.value request.source.bits)
  let sourceRule ← need (snapshot.data.rules.find? (·.id = request.source.ruleId))
    (invalidDuplicate "source rule is absent")
  ensure (!(sourceRule.nature = .management ||
      snapshot.data.protectedRules.contains request.source.ruleId))
    (invalidDuplicate "source RuleID is protected or management")
  ensure (!snapshot.data.protectedRules.contains request.destination.ruleId)
    (invalidDuplicate "destination RuleID is protected")
  let members ← collect (overrideMember deps model sids sourceRule request.destination)
    request.overrides
  return members.flatten

def sidDelta (child parent : Int) (name : String) : Except InspectionError Int :=
  need (checkedSub child parent) (invalidDuplicate s!"{name} SID delta overflows")

def encodeDuplicateRpcPayload (deps : Deps) (model : CoreconfModel) (request : RuleDuplicateRequest)
    (inner : Bytes) : Except InspectionError Bytes := do
  let sids ← validateDuplicateModelShape model.compositeModel
  let uint (value : Nat) := Cbor.integer value
  ensure (request.source.value < 2 ^ 32 && request.destination.value < 2 ^ 32)
    (invalidDuplicate "duplicate-rule RuleID values must fit the modeled uint32 selectors")
  let inputKey ← sidDelta sids.duplicateInput sids.duplicateRule "input"
  let fromKey ← sidDelta sids.duplicateFrom sids.duplicateInput "from"
  let fromLengthKey ← sidDelta sids.duplicateFromLength sids.duplicateFrom "from/rule-id-length"
  let fromValueKey ← sidDelta sids.duplicateFromValue sids.duplicateFrom "from/rule-id-value"
  let ipatchKey ← sidDelta sids.duplicateIpatch sids.duplicateInput "ipatch-sequence"
  let toKey ← sidDelta sids.duplicateTo sids.duplicateInput "to"
  let toLengthKey ← sidDelta sids.duplicateToLength sids.duplicateTo "to/rule-id-length"
  let toValueKey ← sidDelta sids.duplicateToValue sids.duplicateTo "to/rule-id-value"
  let selector (lengthKey valueKey : Int) (selector : RuleSelector) := Cbor.map
    [(.integer lengthKey, uint selector.bits), (.integer valueKey, uint selector.value)]
  let sequence := if inner.isEmpty then [] else [(Cbor.integer ipatchKey, Cbor.bytes inner)]
  let input := [(Cbor.integer fromKey, selector fromLengthKey fromValueKey request.source)] ++
    sequence ++ [(Cbor.integer toKey, selector toLengthKey toValueKey request.destination)]
  let root := Cbor.map [(.integer sids.duplicateRule, .map [(.integer inputKey, .map input)])]
  (deps.ciborium.intoWriter root).mapError fun error =>
    invalidDuplicate s!"modeled RPC encoding failed: {error}"

-- ---------------------------------------------------------------------------
-- Canonical base64
-- ---------------------------------------------------------------------------

def base64Alphabet : Bytes :=
  "ABCDEFGHIJKLMNOPQRSTUVWXYZabcdefghijklmnopqrstuvwxyz0123456789+/".toUTF8.toList

def base64Pad : UInt8 := 61

def base64Digit (index : UInt8) : UInt8 := base64Alphabet[index.toNat]?.getD base64Pad

def base64Encode : Bytes → Bytes
  | first :: second :: third :: rest =>
    [base64Digit (first >>> 2), base64Digit ((first &&& 0x03) <<< 4 ||| second >>> 4),
      base64Digit ((second &&& 0x0f) <<< 2 ||| third >>> 6), base64Digit (third &&& 0x3f)] ++
      base64Encode rest
  | [first, second] =>
    [base64Digit (first >>> 2), base64Digit ((first &&& 0x03) <<< 4 ||| second >>> 4),
      base64Digit ((second &&& 0x0f) <<< 2), base64Pad]
  | [first] =>
    [base64Digit (first >>> 2), base64Digit ((first &&& 0x03) <<< 4), base64Pad, base64Pad]
  | [] => []

def base64Value (byte : UInt8) : Option UInt8 :=
  (base64Alphabet.findIdx? (· = byte)).map UInt8.ofNat

def base64DecodeChunk (first second third fourth : UInt8) : Except InspectionError Bytes := do
  let invalid := invalidDuplicate "ipatch-sequence contains invalid base64"
  let invalidPadding := invalidDuplicate "ipatch-sequence contains invalid base64 padding"
  let a ← need (base64Value first) invalid
  let b ← need (base64Value second) invalid
  let c ← need (if third = base64Pad then some 0 else base64Value third) invalidPadding
  let d ← need (if fourth = base64Pad then some 0 else base64Value fourth) invalidPadding
  ensure (!(third = base64Pad && fourth ≠ base64Pad)) invalidPadding
  return [a <<< 2 ||| b >>> 4] ++ (if third = base64Pad then [] else [b <<< 4 ||| c >>> 2]) ++
    (if fourth = base64Pad then [] else [c <<< 6 ||| d])

def base64DecodeChunks : Bytes → Except InspectionError Bytes
  | first :: second :: third :: fourth :: rest => do
    let chunk ← base64DecodeChunk first second third fourth
    return chunk ++ (← base64DecodeChunks rest)
  | _ => .ok []

def base64Decode (input : String) : Except InspectionError Bytes := do
  let bytes := input.toUTF8.toList
  ensure (bytes.length % 4 = 0) (invalidDuplicate "ipatch-sequence is not canonical base64")
  let output ← base64DecodeChunks bytes
  ensure (base64Encode output = bytes) (invalidDuplicate "ipatch-sequence is not canonical base64")
  return output

-- ---------------------------------------------------------------------------
-- Decoding a request
-- ---------------------------------------------------------------------------

def rejectDuplicateCborKeys : Cbor → Except InspectionError Unit :=
  rejectDuplicateKeys (invalidDuplicate "duplicate CBOR map key")

def strictOneCborMap (ciborium : Ciborium) (bytes : Bytes) : Except InspectionError Cbor := do
  let (value, position) ← (ciborium.fromReader bytes).mapError fun error =>
    invalidDuplicate s!"invalid RPC CBOR: {error}"
  ensure (position = bytes.length) (invalidDuplicate "trailing values after RPC instance")
  let .map _ := value
    | throw (invalidDuplicate "RPC payload root must be a map")
  let canonical ← (ciborium.intoWriter value).mapError fun error =>
    invalidDuplicate s!"RPC canonical encoding failed: {error}"
  ensure (canonical = bytes) (invalidDuplicate "noncanonical RPC CBOR")
  return value

/-- The instances of one override map, each with its entry; no leaf occurs twice. -/
def memberLeaves (destination : RuleSelector) (sids : ModelSids)
    (seen : List (Nat × DuplicateLeaf)) :
    List Instance → Except InspectionError (List (Instance × Nat))
  | [] => .ok []
  | entry :: rest => do
    let (index, leaf) ← duplicateLeafFromPath entry.path destination sids
    ensure (!seen.contains (index, leaf)) (invalidDuplicate "duplicate override leaf")
    return (entry, index) :: (← memberLeaves destination sids ((index, leaf) :: seen) rest)

def decodeInnerMember (deps : Deps) (model : CompositeModel) (destination : RuleSelector)
    (sids : ModelSids) (value : Cbor) (member : Bytes) :
    Except InspectionError (List (Instance × Nat)) := do
  let .map entries := value
    | throw (invalidDuplicate "ipatch-sequence members must be maps")
  ensure (1 ≤ entries.length ∧ entries.length ≤ 3)
    (invalidDuplicate "each override map must contain one to three leaves")
  rejectDuplicateCborKeys value
  let canonical ← (deps.ciborium.intoWriter value).mapError invalidDuplicate
  ensure (canonical = member) (invalidDuplicate "noncanonical ipatch-sequence map")
  let decoded ← (model.decodeInstancesToIdentifierAtPath member).mapError fun error =>
    invalidDuplicate s!"invalid override value: {error}"
  ensure (decoded.length = entries.length)
    (invalidDuplicate "override map did not decode completely")
  memberLeaves destination sids [] decoded

/-- The members from a position on; an item takes at least a byte, so the bytes outlast none. -/
def decodeInnerMembers (deps : Deps) (model : CompositeModel) (destination : RuleSelector)
    (sids : ModelSids) (groups : List Nat) : Nat → Bytes → Except InspectionError (List Instance)
  | 0, _ => .ok []
  | fuel + 1, bytes =>
    if bytes.isEmpty then .ok []
    else do
      let (value, consumed) ← (deps.ciborium.fromReader bytes).mapError fun error =>
        invalidDuplicate s!"invalid ipatch-sequence CBOR: {error}"
      let member ← decodeInnerMember deps model destination sids value (bytes.take consumed)
      -- a second map for the same entry would make its override ambiguous
      ensure (!member.any (groups.contains ·.2))
        (invalidDuplicate "duplicate entry-index override group")
      let rest ← decodeInnerMembers deps model destination sids (member.map (·.2) ++ groups) fuel
        (bytes.drop consumed)
      return member.map (·.1) ++ rest

def decodeDuplicateInner (deps : Deps) (model : CompositeModel) (bytes : Bytes)
    (destination : RuleSelector) (sids : ModelSids) : Except InspectionError (List Instance) :=
  decodeInnerMembers deps model destination sids [] bytes.length bytes

def rpcSelector (object : List (String × Json)) (label : String) :
    Except InspectionError RuleSelector := do
  ensure (object.length = 2 && (Json.lookup object "rule-id-value").isSome &&
      (Json.lookup object "rule-id-length").isSome)
    (invalidDuplicate s!"RPC {label} selector has unsupported fields")
  let value ← need ((Json.lookup object "rule-id-value").bind Json.asU64)
    (invalidDuplicate s!"RPC {label} value is invalid")
  let bits ← need ((Json.lookup object "rule-id-length").bind Json.asU64)
    (invalidDuplicate s!"RPC {label} length is invalid")
  return { value, bits }

def rpcInput (rschc : RSchc) (sids : ModelSids) (instances : List Instance) :
    Except InspectionError (RuleSelector × RuleSelector × Bytes) := do
  let [entry] := instances
    | throw (invalidDuplicate "RPC payload must contain exactly one duplicate-rule instance")
  ensure (entry.path.components = [.sidDelta sids.duplicateRule])
    (invalidDuplicate "RPC payload must contain exactly one duplicate-rule instance")
  let value ← need entry.value (invalidDuplicate "RPC input cannot be deleted")
  let operation ← need value.asObject (invalidDuplicate "RPC operation value is not an object")
  ensure (operation.length = 1 && (Json.lookup operation "input").isSome)
    (invalidDuplicate "RPC operation must contain exactly the input container")
  let input ← need ((Json.lookup operation "input").bind Json.asObject)
    (invalidDuplicate "RPC input container is missing")
  ensure (input.all fun member => ["from", "to", "ipatch-sequence"].contains member.1)
    (invalidDuplicate "RPC input contains an unknown field")
  let source ← need ((Json.lookup input "from").bind Json.asObject)
    (invalidDuplicate "RPC source selector is missing")
  let destination ← need ((Json.lookup input "to").bind Json.asObject)
    (invalidDuplicate "RPC destination selector is missing")
  let checked (object : List (String × Json)) (label : String) :
      Except InspectionError RuleSelector := do
    let stated ← rpcSelector object label
    (RuleSelector.new stated.value stated.bits).mapError fun error =>
      invalidDuplicate (error.text rschc)
  let source ← checked source "source"
  let destination ← checked destination "destination"
  let inner ← match Json.lookup input "ipatch-sequence" with
    | none => .ok []
    | some (.string encoded) => base64Decode encoded
    | some value => binaryBytes value
  return (source, destination, inner)

/-- The overrides of a decoded operation: its entries, in order. -/
def decodedOverrides (entries : List Nat) : List RuleDuplicateOverride :=
  (Sorted.sortDedup (· ≤ ·) entries).map fun entryIndex =>
    { entryIndex, targetValue := none, matchingOperator := none, cda := none }

def decodeDuplicateOperation (deps : Deps) (model : CoreconfModel) (payload : Bytes) :
    Except InspectionError DecodedDuplicateOperation := do
  let composite := model.compositeModel
  let sids ← validateDuplicateModelShape composite
  let outer ← strictOneCborMap deps.ciborium payload
  rejectDuplicateCborKeys outer
  let instances ← (composite.decodeInstancesToIdentifierAtPath payload).mapError fun error =>
    invalidDuplicate s!"RPC payload decode failed: {error}"
  let (source, destination, inner) ← rpcInput deps.rschc sids instances
  let innerInstances ← decodeDuplicateInner deps composite inner destination sids
  let leaves ← collect
    (fun entry : Instance => duplicateLeafFromPath entry.path destination sids) innerInstances
  return {
    request := { source, destination, overrides := decodedOverrides (leaves.map (·.1)) }
    instances := innerInstances
    innerPayload := inner }

end SchcCoreconf
