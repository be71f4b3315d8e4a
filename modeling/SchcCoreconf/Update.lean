import SchcCoreconf.Commands
import SchcCoreconf.Management

/-!
# Targeted updates, from the command to the datagram

The core resolves an update against one snapshot: the rule and entry it selects,
the target value it replaces, the instance path of that value. What it sends,
and later applies itself, is one iPATCH datagram.
-/

namespace SchcCoreconf

open Fallible

def detailFromSnapshot (snapshot : ContextSnapshot) (selector : RuleSelector) :
    Except InspectionError RuleDetail :=
  match snapshot.data.rules.filter (·.id = selector.ruleId) with
  | [] => .error (.missingRule selector.value selector.bits)
  | [rule] => .ok (detailFromRule rule)
  | _ => .error (.ambiguousRule selector.value selector.bits 2)

def RuleUpdateRequest.resolveEntryIndex (self : RuleUpdateRequest) (detail : RuleDetail) :
    Except InspectionError Nat := do
  ensure (detail.id = self.rule) (.invalidUpdate
    (s!"rule detail is {detail.id.value}/{detail.id.bits} but update targets " ++
      s!"{self.rule.value}/{self.rule.bits}"))
  detail.resolveEntryIndex self.entry

/-- One resolved target-value update in generic CORECONF instance form. -/
structure ResolvedRuleUpdate where
  request : RuleUpdateRequest
  entryIndex : Nat
  targetValueIndex : Nat
  path : InstancePath
  value : Json
  deriving DecidableEq

mutual
/-- `serde_value_to_cbor`; every number of a `Value` has a CBOR form. -/
def serdeValueToCbor : Json → Cbor
  | .null => .null
  | .bool value => .bool value
  | .int value => .integer value
  | .float value => .float value.bits
  | .string value => .text value
  | .array items => .array (serdeItemsToCbor items)
  | .object members => .map (serdeMembersToCbor members)
def serdeItemsToCbor : List Json → List Cbor
  | [] => []
  | item :: rest => serdeValueToCbor item :: serdeItemsToCbor rest
def serdeMembersToCbor : List (String × Json) → List (Cbor × Cbor)
  | [] => []
  | (key, value) :: rest => (.text key, serdeValueToCbor value) :: serdeMembersToCbor rest
end

/-- The tree keys an update looks up, in the order they are read. -/
structure UpdateKeys where
  root : String
  rule : String
  entry : String
  targetValue : String
  ruleValue : String
  ruleLength : String
  entryIndex : String
  targetIndex : String
  targetValueLeaf : String
  deriving DecidableEq, Repr

def updateKeys (model : CompositeModel) (sids : ModelSids) : Except InspectionError UpdateKeys :=
  return {
    root := ← treeKeyForSid model sids.root
    rule := ← treeKeyForSid model sids.rule
    entry := ← treeKeyForSid model sids.entry
    targetValue := ← treeKeyForSid model sids.target
    ruleValue := ← treeKeyForSid model sids.ruleIdValue
    ruleLength := ← treeKeyForSid model sids.ruleIdLength
    entryIndex := ← treeKeyForSid model sids.entryIndex
    targetIndex := ← treeKeyForSid model sids.targetIndex
    targetValueLeaf := ← treeKeyForSid model sids.targetValue }

def exactlyOne (items : List α) (missing : ε) (ambiguous : Nat → ε) : Except ε α :=
  match items with
  | [] => .error missing
  | [item] => .ok item
  | _ => .error (ambiguous items.length)

def hasU64 (value : Json) (key : String) (number : Nat) : Bool :=
  (value.get key).bind Json.asU64 = some number

namespace UpdateKeys

def selectedEntry (keys : UpdateKeys) (tree : Json) (rule : RuleSelector) (entryIndex : Nat) :
    Except InspectionError Json := do
  let root ← need ((tree.get keys.root).filter (·.asObject.isSome))
    (invalidTarget "complete tree is missing the SCHC root")
  let rules ← need ((root.get keys.rule).bind Json.asArray)
    (invalidTarget "complete tree is missing the rule list")
  let selected ← exactlyOne
    (rules.filter fun item =>
      hasU64 item keys.ruleValue rule.value && hasU64 item keys.ruleLength rule.bits)
    (.missingRule rule.value rule.bits) (.ambiguousRule rule.value rule.bits)
  let entries ← need ((selected.get keys.entry).bind Json.asArray)
    (invalidTarget "selected rule is missing the entry list")
  exactlyOne (entries.filter (hasU64 · keys.entryIndex entryIndex))
    (.missingEntry rule s!"entry={entryIndex}")
    fun _ => .invalidTarget s!"entry {entryIndex} occurs more than once in RuleID {rule}"

def targetMember (keys : UpdateKeys) (entry : Json) (entryIndex : Nat) :
    Except InspectionError Json := do
  let targetValues ← need ((entry.get keys.targetValue).bind Json.asArray)
    (invalidTarget s!"entry {entryIndex} is missing its target-value list")
  let [member] := targetValues
    | throw (invalidTarget (s!"entry {entryIndex} target-value list has {targetValues.length} " ++
        "members; exactly one is required"))
  return member

end UpdateKeys

namespace ResolvedRuleUpdate

def fromRequest (deps : Deps) (request : RuleUpdateRequest) (entryIndex : Nat) (tree : Json)
    (model : CoreconfModel) : Except InspectionError ResolvedRuleUpdate := do
  let composite := model.compositeModel
  let sids ← validateUpdateModelShape composite
  let keys ← updateKeys composite sids
  let entry ← keys.selectedEntry tree request.rule entryIndex
  let member ← keys.targetMember entry entryIndex
  let targetValueIndex ← need ((member.get keys.targetIndex).bind Json.asU64)
    (invalidTarget "target-value member has no numeric index")
  let currentIdentifierValue ← need (member.get keys.targetValueLeaf)
    (invalidTarget "target-value member has no value")
  let valuePath ← need (composite.getIdentifier sids.targetValue)
    (invalidTarget "target-value/value SID is unavailable")
  let currentWireValue ←
    (composite.identifierValueToSidValueAtPath currentIdentifierValue valuePath).mapError
      fun error => invalidTarget s!"current target value is invalid: {error}"
  let currentBytes ← binaryBytes currentWireValue
  let fieldLength ← need (entry.get (← treeKeyForSid composite sids.fieldLength))
    (invalidTarget "selected entry has no field-length")
  let replacement ← numericTargetValue request.targetValue currentBytes fieldLength
  let _ ← (composite.sidValueToIdentifierValueAtPath replacement valuePath).mapError
    fun error => invalidTarget s!"replacement target value is invalid: {error}"
  let path ← targetValuePath deps sids request.rule entryIndex targetValueIndex
  return { request, entryIndex, targetValueIndex, path, value := replacement }

/-- `ipatch_payload`: one instance, its path mapped to its bytes. -/
def ipatchPayload (deps : Deps) (self : ResolvedRuleUpdate) : Except InspectionError Bytes := do
  let path := serdeValueToCbor (deps.rustconf.pathToCborValue self.path)
  let value ← binaryBytes self.value
  (deps.ciborium.intoWriter (.map [(path, .bytes value)])).mapError
    fun error => invalidTarget s!"iPATCH instance encoding failed: {error}"

def ipatchPacket (coap : CoapLite) (messageId : Nat) (baseTag : Option ContextTag)
    (payload : Bytes) : Packet :=
  let packet : Packet := {
    messageId
    messageType := .confirmable
    code := .request .iPatch
    token := []
    options := []
    payload }
  let packet := coap.addOption packet CoapOption.uriPath schcSegment
  let packet := coap.addOption packet CoapOption.contentFormat [142]
  match baseTag with
  | none => packet
  | some tag => coap.addOption packet CoapOption.ifMatch tag.bytes.toList

def ipatchDatagram (deps : Deps) (self : ResolvedRuleUpdate) (messageId : Nat)
    (baseTag : Option ContextTag) : Except InspectionError Bytes := do
  ensure (!(self.request.ifMatch && baseTag.isNone))
    (invalidTarget "--if-match requires a base context tag")
  ensure (!(!self.request.ifMatch && baseTag.isSome))
    (invalidTarget "a base context tag requires --if-match")
  let payload ← self.ipatchPayload deps
  (deps.coap.toBytes (ipatchPacket deps.coap messageId baseTag payload)).mapError .coap

end ResolvedRuleUpdate

def RuleUpdateRequest.resolveTargetValue (deps : Deps) (self : RuleUpdateRequest)
    (detail : RuleDetail) (tree : Json) (model : CoreconfModel) :
    Except InspectionError ResolvedRuleUpdate := do
  let entryIndex ← self.resolveEntryIndex detail
  ResolvedRuleUpdate.fromRequest deps self entryIndex tree model

end SchcCoreconf
