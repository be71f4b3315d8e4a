import SchcCoreconf.Exchange
import SchcCoreconf.Lib.BigEndian
import SchcCoreconf.Lib.Loads

/-!
# Planning a flow change

`duplicate.rs` and `management.rs`: the rule that carries a flow is found, or a
duplicate of a parent rule is planned that does. The planner reads the fields of
a rule against the packet, lets a parent's duplicate be encoded, built and tried
out, and takes the candidate that is cheapest to send. It loads the active
snapshot several times; each load is a step of its own.
-/

namespace SchcCoreconf

open Fallible

inductive FlowDirection
  | uplink
  | downlink
  deriving DecidableEq, Repr

namespace FlowDirection

def schcDirection : FlowDirection → Direction
  | .uplink => .up
  | .downlink => .down

def linkRole : FlowDirection → NodeRole
  | .uplink => .device
  | .downlink => .core

end FlowDirection

-- ---------------------------------------------------------------------------
-- The fields of a flow
-- ---------------------------------------------------------------------------

def TargetValue.asBytes : TargetValue → Option Bytes
  | .bytes value => some value
  | _ => Option.none

def FieldLength.asFixedBits : FieldLength → Option Nat
  | .fixedBits bits => some bits
  | _ => none

def hasApplicationPayload (rule : Rule) : Bool :=
  rule.fields.any fun field => field.field = .payload || field.field = .udp "fid-udp-payload"

/-- The seven fields that identify a flow. -/
def flowFields : List FieldRef :=
  [.ipv6 "fid-ipv6-flowlabel", .ipv6 "fid-ipv6-devprefix", .ipv6 "fid-ipv6-deviid",
    .ipv6 "fid-ipv6-appprefix", .ipv6 "fid-ipv6-appiid", .udp "fid-udp-dev-port",
    .udp "fid-udp-app-port"]

def hasCompleteFlowFields (rule : Rule) : Bool :=
  flowFields.all fun name => rule.fields.any fun field =>
    field.matching ≠ .ignore && field.target.asBytes.isSome && field.field = name

/-- The last bytes of a `u64`, as many as the bits take. -/
def integerBytes (value bits : Nat) : Bytes :=
  let bytes := toBeBytes64 value
  bytes.drop (bytes.length - (bits + 7) / 8)

def bytesToU64 (bytes : Bytes) : Option Nat :=
  if bytes.length > 8 then none else some (BigEndian.toNat bytes)

def logicalFieldValue (packet : Ipv6UdpPacket) (direction : FlowDirection) (field : FieldRef) :
    Option (Bytes × Nat) :=
  let uplink := direction = .uplink
  let device := if uplink then packet.source else packet.destination
  let application := if uplink then packet.destination else packet.source
  let devicePort := if uplink then packet.sourcePort else packet.destinationPort
  let applicationPort := if uplink then packet.destinationPort else packet.sourcePort
  let integer (value bits : Nat) := some (integerBytes value bits, bits)
  match field with
  | .ipv6 "fid-ipv6-version" => integer 6 4
  | .ipv6 "fid-ipv6-trafficclass" => integer packet.trafficClass 8
  | .ipv6 "fid-ipv6-flowlabel" => integer packet.flowLabel 20
  | .ipv6 "fid-ipv6-payload-length" => integer packet.ipv6PayloadLength 16
  | .ipv6 "fid-ipv6-nextheader" => integer packet.nextHeader 8
  | .ipv6 "fid-ipv6-hoplimit" => integer packet.hopLimit 8
  | .ipv6 "fid-ipv6-devprefix" => some (device.take 8, 64)
  | .ipv6 "fid-ipv6-deviid" => some (device.drop 8, 64)
  | .ipv6 "fid-ipv6-appprefix" => some (application.take 8, 64)
  | .ipv6 "fid-ipv6-appiid" => some (application.drop 8, 64)
  | .udp "fid-udp-dev-port" => integer devicePort 16
  | .udp "fid-udp-app-port" => integer applicationPort 16
  | .udp "fid-udp-length" => integer packet.udpLength 16
  | .udp "fid-udp-checksum" => integer packet.udpChecksum 16
  | _ => none

/-- The bit at an index, the most significant first; past the end it is zero. -/
def bitAt (bytes : Bytes) (index : Nat) : Bool :=
  bytes[index / 8]?.any fun byte => byte &&& (0x80 >>> UInt8.ofNat (index % 8)) ≠ 0

def targetMatches (actual target : Bytes) (bits : Nat) (matching : MatchingOperator) : Bool :=
  if matching = .equal then bytesToU64 actual = bytesToU64 target
  else
    let compareBits := match matching with
      | .msb size => min size bits
      | _ => bits
    (List.range compareBits).all fun index => bitAt actual index = bitAt target index

def fieldMatches (field : FieldRule) (actual : Bytes) (bits : Nat) : Bool :=
  match field.target with
  | .none => false
  | .bytes target => targetMatches actual target bits field.matching
  | .mapping targets => targets.any fun target => targetMatches actual target bits field.matching

/-- The packet's value is compared with the field's target. -/
def FieldRule.compared (rschc : RSchc) (field : FieldRule) (direction : FlowDirection) : Bool :=
  rschc.accepts field.direction direction.schcDirection && field.matching ≠ .ignore

-- ---------------------------------------------------------------------------
-- The overrides of a parent
-- ---------------------------------------------------------------------------

/-- What one field of a parent asks of its duplicate. -/
inductive FlowField
  | keep
  | replace (item : RuleDuplicateOverride)
  | unrepresentable
  deriving DecidableEq, Repr

def flowField (rschc : RSchc) (packet : Ipv6UdpPacket) (direction : FlowDirection)
    (field : FieldRule) : Except InspectionError FlowField :=
  if !field.compared rschc direction then .ok .keep
  else match logicalFieldValue packet direction field.field with
    | none => .ok (if field.target = .none then .keep else .unrepresentable)
    | some (actual, bits) =>
      if fieldMatches field actual bits then .ok .keep
      else if field.target.asBytes.isNone || field.length.asFixedBits.isNone || bits > 64 then
        .ok .unrepresentable
      else do
        let value ← need (bytesToU64 actual)
          (.unrepresentableFlow s!"entry {field.entryIndex} exceeds 64 bits")
        return .replace {
          entryIndex := field.entryIndex
          targetValue := some (toString value)
          matchingOperator := none
          cda := none }

/-- The fields in turn; the first that no duplicate can represent ends it. -/
def collectOverrides (rschc : RSchc) (packet : Ipv6UdpPacket) (direction : FlowDirection) :
    List FieldRule → Except InspectionError (Option (List RuleDuplicateOverride))
  | [] => .ok (some [])
  | field :: rest => do
    match ← flowField rschc packet direction field with
    | .keep => collectOverrides rschc packet direction rest
    | .unrepresentable => return none
    | .replace item => return (← collectOverrides rschc packet direction rest).map (item :: ·)

def flowOverrides (rschc : RSchc) (parent : Rule) (packet : Ipv6UdpPacket)
    (direction : FlowDirection) : Except InspectionError (Option (List RuleDuplicateOverride)) := do
  let overrides ← collectOverrides rschc packet direction parent.fields
  return overrides.map (·.insertionSort (Sorted.byKey (·.entryIndex)))

-- ---------------------------------------------------------------------------
-- Computations that load the active snapshot
-- ---------------------------------------------------------------------------

/-- A fallible computation that loads the active snapshot. -/
abbrev SnapshotReads := ExceptT InspectionError (Loads ContextSnapshot)

def loadSnapshot : SnapshotReads ContextSnapshot := ExceptT.lift Loads.current

def SnapshotReads.ofResult (x : Except InspectionError α) : SnapshotReads α := ExceptT.mk (pure x)

/-- `let Ok(value) = computation else ..`. -/
def SnapshotReads.attempt (x : SnapshotReads α) : SnapshotReads (Option α) :=
  ExceptT.mk (x.run >>= fun result => pure (.ok result.toOption))

/-- The result where every load finds this snapshot. -/
def SnapshotReads.alone (snapshot : ContextSnapshot) (x : SnapshotReads α) :
    Except InspectionError α :=
  Loads.alone snapshot x.run

@[simp] theorem SnapshotReads.alone_bind (snapshot : ContextSnapshot) (x : SnapshotReads α)
    (f : α → SnapshotReads β) :
    (x >>= f).alone snapshot = x.alone snapshot >>= fun a => (f a).alone snapshot := by
  simp only [SnapshotReads.alone, ExceptT.run_bind, Loads.alone_bind]
  cases Loads.alone snapshot x.run <;> rfl

@[simp] theorem SnapshotReads.alone_ofResult (snapshot : ContextSnapshot)
    (x : Except InspectionError α) : (SnapshotReads.ofResult x).alone snapshot = x := rfl

@[simp] theorem SnapshotReads.alone_loadSnapshot (snapshot : ContextSnapshot) :
    loadSnapshot.alone snapshot = .ok snapshot := rfl

open SnapshotReads (ofResult attempt)

def ContextSnapshot.asActive (snapshot : ContextSnapshot) (recipe : ContextRecipe) :
    ActiveContext :=
  { snapshots := .fromPointee snapshot, recipe }

def loadLink (recipe : ContextRecipe) (role : NodeRole) : SnapshotReads SchcLink := do
  return SchcLink.new ((← loadSnapshot).asActive recipe) role

def duplicateRulePacket (coap : CoapLite) (messageId : Nat) (payload : Bytes) : Packet :=
  let packet : Packet := {
    messageId
    messageType := .nonConfirmable
    code := .request .post
    token := []
    options := []
    payload }
  let packet := coap.addOption packet CoapOption.uriPath schcSegment
  coap.addOption packet CoapOption.contentFormat [142]

namespace InspectionService

def duplicateRulePayload (deps : Deps) (self : InspectionService) (request : RuleDuplicateRequest) :
    SnapshotReads Bytes := do
  let snapshot ← loadSnapshot
  ofResult do
    let inner ← duplicateInnerPayload deps self.model.compositeModel snapshot request
    encodeDuplicateRpcPayload deps self.model request inner

def duplicateRuleDatagram (deps : Deps) (self : InspectionService) (request : RuleDuplicateRequest)
    (messageId : Nat) : SnapshotReads Bytes := do
  let payload ← self.duplicateRulePayload deps request
  ofResult ((deps.coap.toBytes (duplicateRulePacket deps.coap messageId payload)).mapError .coap)

/-- The bytes of a frame the link makes of a management packet. -/
def managementFrameBytes (deps : Deps) (recipe : ContextRecipe) (link : SchcLink)
    (packet : Ipv6UdpCoapPacket) : SnapshotReads Nat := do
  let snapshot ← loadSnapshot
  ofResult do
    let encoded ← (link.encode deps (snapshot.asActive recipe) .management packet).mapError .link
    return encoded.frame.bytes.length

def duplicateRuleWireBytes (deps : Deps) (self : InspectionService) (recipe : ContextRecipe)
    (request : RuleDuplicateRequest) : SnapshotReads Nat := do
  let datagram ← self.duplicateRuleDatagram deps request 0
  let packet ← ofResult ((deps.rschc.newCoapPacket coreLogicalAddress deviceLogicalAddress
    managementPort managementPort datagram).mapError fun error =>
      .coap (deps.rschc.packetErrorText error))
  let link ← loadLink recipe .core
  managementFrameBytes deps recipe link packet

-- ---------------------------------------------------------------------------
-- An existing match
-- ---------------------------------------------------------------------------

/-- The parents the planner considers. -/
def isFlowParent (snapshot : ContextSnapshot) (parent : Rule) : Bool :=
  parent.nature = .compression && !snapshot.data.protectedRules.contains parent.id &&
    hasApplicationPayload parent && hasCompleteFlowFields parent

def selectedRule (deps : Deps) (recipe : ContextRecipe) (link : SchcLink) (packet : Bytes) :
    SnapshotReads RuleId := do
  let parsed ← ofResult ((deps.rschc.parsePacket packet).mapError (.link ∘ .packet))
  let snapshot ← loadSnapshot
  ofResult do
    let encoded ← (link.encodeValidated deps (snapshot.asActive recipe) .application parsed.bytes
      parsed.udpPayload).mapError .link
    return encoded.report.ruleId

def findApplicationMatch (deps : Deps) (recipe : ContextRecipe) (snapshot : ContextSnapshot)
    (link : SchcLink) (packet : Ipv6UdpPacket) (direction : FlowDirection) :
    List Rule → SnapshotReads (Option RuleSelector)
  | [] => return none
  | parent :: rest => do
    if !isFlowParent snapshot parent then
      findApplicationMatch deps recipe snapshot link packet direction rest
    else match ← ofResult (flowOverrides deps.rschc parent packet direction) with
      | some [] => do
        let source ← ofResult (RuleSelector.new parent.id.value parent.id.bitLen)
        if (← attempt (selectedRule deps recipe link packet.bytes)) = some source.ruleId then
          return some source
        else findApplicationMatch deps recipe snapshot link packet direction rest
      | _ => findApplicationMatch deps recipe snapshot link packet direction rest

def existingApplicationMatch (deps : Deps) (recipe : ContextRecipe) (snapshot : ContextSnapshot)
    (packet : Ipv6UdpPacket) (direction : FlowDirection) : SnapshotReads (Option RuleSelector) := do
  let link ← loadLink recipe direction.linkRole
  findApplicationMatch deps recipe snapshot link packet direction snapshot.data.rules

-- ---------------------------------------------------------------------------
-- Candidates
-- ---------------------------------------------------------------------------

structure FlowChangeCandidate where
  request : RuleDuplicateRequest
  managementWireBytes : Nat
  deriving DecidableEq, Repr

/-- The context a duplicate makes of the snapshot, if it decodes, builds and loads. -/
def candidateContext (deps : Deps) (self : InspectionService) (recipe : ContextRecipe)
    (snapshot : ContextSnapshot) (payload : Bytes) : Option PreparedContext := do
  let operation ← (decodeDuplicateOperation deps self.model payload).toOption
  let tree ← (expectedDuplicateTree deps self.model snapshot operation.request
    operation.instances).toOption
  (PreparedContext.fromTreeForRecipe deps recipe tree).toOption

def candidateEncodes (deps : Deps) (prepared : PreparedContext) (packet : Ipv6UdpPacket)
    (direction : FlowDirection) : Bool :=
  let active := ActiveContext.new prepared
  ((SchcLink.new active direction.linkRole).encodeBytes deps active .application
    packet.bytes).isOk

def planCandidate (deps : Deps) (self : InspectionService) (recipe : ContextRecipe)
    (snapshot : ContextSnapshot) (packet : Ipv6UdpPacket) (direction : FlowDirection)
    (destinationId : RuleId) (parent : Rule) : SnapshotReads (Option FlowChangeCandidate) := do
  if !isFlowParent snapshot parent then return none
  let some overrides ← ofResult (flowOverrides deps.rschc parent packet direction) | return none
  let source ← ofResult (RuleSelector.new parent.id.value parent.id.bitLen)
  if overrides.isEmpty then return none
  let destination ← ofResult (RuleSelector.new destinationId.value destinationId.bitLen)
  let request : RuleDuplicateRequest := { source, destination, overrides }
  let some managementWireBytes ← attempt (self.duplicateRuleWireBytes deps recipe request)
    | return none
  let some payload ← attempt (self.duplicateRulePayload deps request) | return none
  if (candidateContext deps self recipe snapshot payload).any
      (candidateEncodes deps · packet direction) then
    return some { request, managementWireBytes }
  else return none

def planCandidates (deps : Deps) (self : InspectionService) (recipe : ContextRecipe)
    (snapshot : ContextSnapshot) (packet : Ipv6UdpPacket) (direction : FlowDirection)
    (destinationId : RuleId) : List Rule → SnapshotReads (List FlowChangeCandidate)
  | [] => return []
  | parent :: rest => do
    let candidate ← planCandidate deps self recipe snapshot packet direction destinationId parent
    let candidates ← planCandidates deps self recipe snapshot packet direction destinationId rest
    return candidate.toList ++ candidates

/-- By wire length, then by entries, then by source RuleID. -/
def FlowChangeCandidate.rank (candidate : FlowChangeCandidate) : ℕ ×ₗ ℕ ×ₗ (ℕ ×ₗ ℕ) :=
  toLex (candidate.managementWireBytes,
    toLex (candidate.request.overrides.length, candidate.request.source.orderKey))

-- ---------------------------------------------------------------------------
-- The planner
-- ---------------------------------------------------------------------------

inductive FlowChange
  | alreadyMatches (rule : RuleSelector)
  | duplicate (parent : RuleSelector) (request : RuleDuplicateRequest)
  deriving DecidableEq, Repr

def flowChangeImpl (deps : Deps) (self : InspectionService) (recipe : ContextRecipe)
    (packet : Ipv6UdpPacket) (direction : FlowDirection) (dynamicRuleIds : DynamicRuleIdNamespace) :
    SnapshotReads FlowChange := do
  let snapshot ← loadSnapshot
  match ← existingApplicationMatch deps recipe snapshot packet direction with
  | some rule => return .alreadyMatches rule
  | none => do
    let destination ← ofResult ((dynamicRuleIds.allocate
      (snapshot.data.rules.map (·.id))).mapError .ruleIdTree)
    let candidates ← planCandidates deps self recipe snapshot packet direction destination
      snapshot.data.rules
    match candidates.insertionSort (Sorted.byKey FlowChangeCandidate.rank) with
    | [] => throw (.unrepresentableFlow "no application parent can represent the IPv6/UDP fields")
    | candidate :: _ => return .duplicate candidate.request.source candidate.request

def flowChange (deps : Deps) (self : InspectionService) (recipe : ContextRecipe)
    (packet : Ipv6UdpPacket) (direction : FlowDirection) : SnapshotReads FlowChange := do
  match (← loadSnapshot).dynamicRuleIds with
  | none => throw .missingDynamicRuleIdNamespace
  | some dynamicRuleIds => flowChangeImpl deps self recipe packet direction dynamicRuleIds

end InspectionService

end SchcCoreconf
