import SchcCoreconf.Management

/-!
# The rule list, locally and over the link

`management.rs`: the core asks a device for the SCHC root and summarizes the
rules of the answer; a service summarizes the rules of its own snapshot. The
remote summaries are collected in a map keyed by RuleID, so they come in the
order of value and then length; the local ones are in the order of the tree, by
length and then value.
-/

namespace SchcCoreconf

open Fallible

-- ---------------------------------------------------------------------------
-- Summaries
-- ---------------------------------------------------------------------------

structure RuleSummary where
  id : RuleSelector
  nature : String
  deriving DecidableEq, Repr

def ruleSummary (rule : Rule) : RuleSummary where
  id := { value := rule.id.value, bits := rule.id.bitLen }
  nature := rule.nature.asStr

def summariesFromRules (rules : List Rule) : List RuleSummary := rules.map ruleSummary

def InspectionService.summaries (state : BackendState) : List RuleSummary :=
  summariesFromRules state.active.snapshot.data.rules

/-- What the inspector calls besides the rest of the crates. -/
structure InspectorCrates where
  /-- `CompositeModel::validate_identifier_value`. -/
  validateIdentifierValue : CompositeModel → Json → Except String Unit
  /-- `encode_identifiers`. -/
  encodeIdentifiers : List InstancePath → Except String Bytes
  /-- `RuleNature::parse_identifier`. -/
  parseNature : String → Option RuleNature

-- ---------------------------------------------------------------------------
-- The request
-- ---------------------------------------------------------------------------

def managementInstancePath (deps : Deps) (rootSid ruleSid : Int) (selector : Option RuleSelector) :
    Except InspectionError InstancePath := do
  let path ← (deps.rustconf.pushDelta { components := [] } rootSid).mapError .datastore
  match selector with
  | none => return path
  | some selector => do
    let ruleDelta ← need (checkedSub ruleSid rootSid) (.datastore "rule-list SID delta overflows")
    let path ← (deps.rustconf.pushDelta path ruleDelta).mapError .datastore
    return (path.pushKey (.ofNat selector.value)).pushKey (.ofNat selector.bits)

def modelRequestSids (deps : Deps) (sidJson : String) : Except InspectionError (Int × Int) := do
  let model ← (deps.rustconf.coreconfModel sidJson).mapError .datastore
  let root ← need (model.compositeModel.getSid "/ietf-schc:schc")
    (invalidTarget "SID model is missing identifier /ietf-schc:schc")
  let rule ← need (model.compositeModel.getSid "/ietf-schc:schc/rule")
    (invalidTarget "SID model is missing identifier /ietf-schc:schc/rule")
  return (root, rule)

def baseRequest (coap : CoapLite) (method : RequestType) (messageId : Nat) : Packet :=
  let packet : Packet := {
    messageId
    messageType := .confirmable
    code := .request method
    token := []
    options := []
    payload := [] }
  coap.addOption packet CoapOption.uriPath schcSegment

def ruleRequest (deps : Deps) (crates : InspectorCrates) (rootSid ruleSid : Int)
    (selector : Option RuleSelector) (messageId : Nat) : Except InspectionError Bytes := do
  let path ← managementInstancePath deps rootSid ruleSid selector
  let packet :=
    deps.coap.addOption (baseRequest deps.coap .fetch messageId) CoapOption.contentFormat [141]
  let payload ← (crates.encodeIdentifiers [path]).mapError .datastore
  (deps.coap.toBytes { packet with payload }).mapError .coap

def ruleListRequest (deps : Deps) (crates : InspectorCrates) (sidJson : String) (messageId : Nat) :
    Except InspectionError Bytes := do
  let (rootSid, ruleSid) ← modelRequestSids deps sidJson
  ruleRequest deps crates rootSid ruleSid none messageId

-- ---------------------------------------------------------------------------
-- Decoding the answer
-- ---------------------------------------------------------------------------

def validateRootInstancePath (path : InstancePath) (rootSid : Int) : Except InspectionError Unit :=
  ensure (path.components = [.sidDelta rootSid])
    (.unexpectedResponse "rule-list response did not contain the canonical SCHC root instance")

/-- An identifier without its module and the `nature-` of its name. -/
def natureName (identifier : String) : String :=
  .ofList (dropLeading "nature-".toList
    (identifier.toList.reverse.takeWhile (· ≠ ':')).reverse)

def Json.asI64 : Json → Option Int
  | .int value => if -(2 ^ 63) ≤ value ∧ value < 2 ^ 63 then some value else none
  | _ => none

def natureIdentifier (model : CompositeModel) (value : Json) : Except InspectionError String := do
  let value ←
    if value.isString then pure value
    else (model.sidValueToIdentifierValueAtPath value
      "/ietf-schc:schc/rule/rule-nature").mapError InspectionError.unexpectedResponse
  match value with
  | .string identifier => return identifier
  | .int number => do
    let sid ← need (Json.int number).asI64 (.unexpectedResponse "rule-nature SID is not an integer")
    need (model.getIdentifier sid) (.unexpectedResponse "unknown rule-nature SID")
  | .float _ => .error (.unexpectedResponse "rule-nature SID is not an integer")
  | _ => .error (.unexpectedResponse "rule-nature is not an identity value")

def decodeNatureValue (crates : InspectorCrates) (model : CompositeModel) (value : Json) :
    Except InspectionError String := do
  let identifier ← natureIdentifier model value
  let nature := natureName identifier
  ensure (crates.parseNature nature).isSome
    (.unexpectedResponse s!"unknown rule nature '{identifier}'")
  return nature

def decodeRuleSummary (crates : InspectorCrates) (model : CompositeModel) (rule : Json) :
    Except InspectionError RuleSummary := do
  let rule ← need rule.asObject
    (.unexpectedResponse "rule-list response contained a non-object rule")
  let value ← need ((Json.lookup rule "rule-id-value").bind Json.asU64)
    (.unexpectedResponse "rule-list response rule-id-value is not numeric")
  let bits ← need ((Json.lookup rule "rule-id-length").bind Json.asU64)
    (.unexpectedResponse "rule-list response rule-id-length is not numeric")
  let id ← RuleSelector.new value bits
  let nature ← decodeNatureValue crates model (← need (Json.lookup rule "rule-nature")
    (.unexpectedResponse "rule-list response is missing rule-nature"))
  return { id, nature }

/-- The order of the map the summaries are collected in. -/
abbrev RuleSummary.byId : RuleSummary → RuleSummary → Prop := Sorted.byKey (·.id.orderKey)

def insertSummaries (crates : InspectorCrates) (model : CompositeModel)
    (summaries : List RuleSummary) : List Json → Except InspectionError (List RuleSummary)
  | [] => .ok summaries
  | rule :: rest => do
    let summary ← decodeRuleSummary crates model rule
    ensure (!summaries.any (·.id = summary.id))
      (.unexpectedResponse s!"rule-list response duplicated RuleID {summary.id}")
    insertSummaries crates model (summaries.orderedInsert RuleSummary.byId summary) rest

def rootInstance (instances : List Instance) (rootSid : Int) : Except InspectionError Json :=
  match instances with
  | [entry] => do
    validateRootInstancePath entry.path rootSid
    let raw ← need entry.value (.unexpectedResponse "rule-list response contained a deleted root")
    ensure (raw ≠ .null) (.unexpectedResponse "rule-list response contained a null root")
    return raw
  | _ => .error (.unexpectedResponse
      s!"rule-list response contained {instances.length} instances, expected one root container")

def decodeRuleListPayload (crates : InspectorCrates) (payload : Bytes) (model : CoreconfModel) :
    Except InspectionError (List RuleSummary) := do
  let composite := model.compositeModel
  let sids ← ModelSids.resolve composite
  let instances ← (composite.decodeInstancesWithModel payload).mapError .unexpectedResponse
  let raw ← rootInstance instances sids.root
  let root ← (composite.sidValueToIdentifierValueAtPath raw "/ietf-schc:schc").mapError
    .unexpectedResponse
  let tree := Json.object [("ietf-schc:schc", root)]
  (crates.validateIdentifierValue composite tree).mapError .unexpectedResponse
  let rules ← need ((root.get "rule").bind Json.asArray)
    (.unexpectedResponse "rule-list response root did not contain a rule array")
  insertSummaries crates composite [] rules

end SchcCoreconf
