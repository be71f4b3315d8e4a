import SchcCoreconf.Context

/-!
# The SCHC link

`link.rs`: a logical packet is encoded with the runtime its declared origin
allows, and a received frame gets its route from the RuleID it was decoded with.
A link reads one snapshot per call; the model passes the active context to it.
-/

namespace SchcCoreconf

open Fallible

-- ---------------------------------------------------------------------------
-- The duplicate-rule request (duplicate.rs)
-- ---------------------------------------------------------------------------

def schcSegment : Bytes := "schc".toUTF8.toList

def isDuplicateRuleCoapShape (packet : Packet) : Bool :=
  packet.code = .request .post && packet.messageType = .nonConfirmable && packet.token.isEmpty
    && packet.getOption CoapOption.uriPath = some [schcSegment]
    && packet.getOption CoapOption.contentFormat = some [[142]]

def isDuplicateRuleDatagram (coap : CoapLite) (datagram : Bytes) : Bool :=
  match coap.fromBytes datagram with
  | .ok packet => isDuplicateRuleCoapShape packet
  | .error _ => false

-- ---------------------------------------------------------------------------
-- Origins, classes and routes
-- ---------------------------------------------------------------------------

inductive TrafficOrigin
  | application
  | management
  deriving DecidableEq, Repr

inductive TrafficClass
  | ordinary
  | protectedManagement
  deriving DecidableEq, Repr

inductive TrafficRoute
  | application
  | protectedManagement
  deriving DecidableEq, Repr

def TrafficClass.route : TrafficClass → TrafficRoute
  | .ordinary => .application
  | .protectedManagement => .protectedManagement

inductive LinkOperation
  | encode
  | decode
  deriving DecidableEq, Repr

structure LinkReport where
  operation : LinkOperation
  ruleId : RuleId
  generation : Nat
  trafficClass : TrafficClass
  packetBytes : Bytes
  frameBytes : Bytes
  packetSize : Nat
  schcBitLen : Option Nat
  paddedByteLen : Nat
  managementRule : Option Rule
  managementRpcSid : Option String
  deriving DecidableEq, Repr

structure LinkEncoding where
  frame : SchcFrame
  report : LinkReport
  deriving DecidableEq, Repr

/-- `DecodedPacket`, and `LinkDecodedBytes` with the packet's bytes. -/
structure DecodedPacket where
  packet : Ipv6UdpPacket
  ruleId : RuleId
  trafficClass : TrafficClass
  route : TrafficRoute
  report : LinkReport
  deriving DecidableEq, Repr

structure LinkDecoded where
  packet : Ipv6UdpCoapPacket
  ruleId : RuleId
  trafficClass : TrafficClass
  route : TrafficRoute
  report : LinkReport
  deriving DecidableEq, Repr

inductive LinkError
  | runtime (text : String)
  | packet (error : PacketError)
  | unknownRuleId (value bitLen : Nat)
  | originRuleMismatch (origin : TrafficOrigin) (value bitLen : Nat) (selected : TrafficClass)
  | shortSend (expected actual : Nat)
  | emptyFrame
  | frameMismatch (expected actual : Bytes)
  | io (text : String)
  deriving DecidableEq, Repr

def TrafficOrigin.debug : TrafficOrigin → String
  | .application => "Application"
  | .management => "Management"

def TrafficClass.debug : TrafficClass → String
  | .ordinary => "Ordinary"
  | .protectedManagement => "ProtectedManagement"

def LinkError.text (rschc : RSchc) : LinkError → String
  | .runtime text => s!"SCHC runtime operation failed: {text}"
  | .packet error => s!"logical packet validation failed: {rschc.packetErrorText error}"
  | .unknownRuleId value bitLen => s!"matched unknown RuleID {value}/{bitLen}"
  | .originRuleMismatch origin value bitLen selected =>
    s!"{origin.debug} origin selected {value}/{bitLen}, classified as {selected.debug}"
  | .shortSend expected actual =>
    s!"short raw SCHC datagram send: expected {expected} bytes, sent {actual}"
  | .emptyFrame => "empty SCHC link datagram"
  | .frameMismatch .. => "decoded frame is not canonical for its reconstructed packet"
  | .io text => s!"raw SCHC UDP socket operation failed: {text}"

def classify (snapshot : ContextSnapshot) (ruleId : RuleId) : Except LinkError TrafficClass :=
  if !snapshot.data.ruleIds.contains ruleId && !snapshot.containsApplicationRuleId ruleId then
    .error (.unknownRuleId ruleId.value ruleId.bitLen)
  else if snapshot.data.protectedRules.contains ruleId then .ok .protectedManagement
  else .ok .ordinary

def enforceOrigin (origin : TrafficOrigin) (ruleId : RuleId) (trafficClass : TrafficClass) :
    Except LinkError Unit :=
  match origin, trafficClass with
  | .application, .ordinary => .ok ()
  | .management, .protectedManagement => .ok ()
  | _, _ => .error (.originRuleMismatch origin ruleId.value ruleId.bitLen trafficClass)

-- ---------------------------------------------------------------------------
-- The link
-- ---------------------------------------------------------------------------

structure SchcLink where
  device : DeviceId
  role : NodeRole
  deriving DecidableEq, Repr

namespace SchcLink

def new (active : ActiveContext) (role : NodeRole) : SchcLink :=
  { device := active.snapshot.data.runtime.deviceId, role }

def managementRule (snapshot : ContextSnapshot) (trafficClass : TrafficClass) (ruleId : RuleId) :
    Option Rule :=
  if trafficClass = .protectedManagement then snapshot.data.rules.find? (·.id = ruleId) else none

/-- The SID document of a duplicate-rule request under a protected rule. -/
def managementRpcSid (deps : Deps) (active : ActiveContext) (trafficClass : TrafficClass)
    (udpPayload : Bytes) : Option String :=
  if trafficClass = .protectedManagement && isDuplicateRuleDatagram deps.coap udpPayload then
    some active.recipe.sidJson
  else none

def encodeValidated (deps : Deps) (active : ActiveContext) (self : SchcLink)
    (origin : TrafficOrigin) (packet udpPayload : Bytes) : Except LinkError LinkEncoding := do
  let snapshot := active.snapshot
  let runtime := match origin with
    | .application => snapshot.data.applicationRuntime
    | .management => snapshot.data.runtime
  let encoded ← (runtime.encodeDetailed self.device (.outbound self.role) packet).mapError .runtime
  let trafficClass ← classify snapshot encoded.ruleId
  enforceOrigin origin encoded.ruleId trafficClass
  return {
    frame := encoded.frame
    report := {
      operation := .encode
      ruleId := encoded.ruleId
      generation := snapshot.generation
      trafficClass
      packetBytes := packet
      frameBytes := encoded.frame.bytes
      packetSize := packet.length
      schcBitLen := some encoded.frame.bitLen
      paddedByteLen := encoded.frame.bytes.length
      managementRule := managementRule snapshot trafficClass encoded.ruleId
      managementRpcSid := managementRpcSid deps active trafficClass udpPayload } }

def encode (deps : Deps) (active : ActiveContext) (self : SchcLink) (origin : TrafficOrigin)
    (packet : Ipv6UdpCoapPacket) : Except LinkError LinkEncoding :=
  self.encodeValidated deps active origin packet.udp.bytes packet.coapDatagram

def encodeBytes (deps : Deps) (active : ActiveContext) (self : SchcLink) (origin : TrafficOrigin)
    (packet : Bytes) : Except LinkError LinkEncoding := do
  let parsed ← (deps.rschc.parsePacket packet).mapError .packet
  self.encodeValidated deps active origin parsed.bytes parsed.udpPayload

/-- The full runtime decodes; where it fails, the application runtime is tried. -/
def decodeFrame (active : ActiveContext) (self : SchcLink) (frame : Bytes) :
    Except LinkError DecodedFrame :=
  let data := active.snapshot.data
  match data.runtime.decodePaddedDetailed self.device (.inbound self.role) frame with
  | .ok decoded => .ok decoded
  | .error fullError =>
    match data.applicationRuntime.decodePaddedDetailed self.device (.inbound self.role) frame with
    | .ok decoded => .ok decoded
    | .error _ => .error (.runtime fullError)

def peerRole (self : SchcLink) : NodeRole :=
  match self.role with
  | .core => .device
  | .device => .core

def decodePacket (deps : Deps) (active : ActiveContext) (self : SchcLink) (frame : Bytes) :
    Except LinkError DecodedPacket := do
  ensure (!frame.isEmpty) .emptyFrame
  let snapshot := active.snapshot
  let decoded ← self.decodeFrame active frame
  let trafficClass ← classify snapshot decoded.ruleId
  let packet ← (deps.rschc.parsePacket decoded.packet).mapError .packet
  let canonicalRuntime :=
    if snapshot.data.protectedRules.contains decoded.ruleId then snapshot.data.runtime
    else snapshot.data.applicationRuntime
  let canonical ← (canonicalRuntime.encodeDetailed self.device (.outbound self.peerRole)
    packet.bytes).mapError .runtime
  ensure (canonical.ruleId = decoded.ruleId && canonical.frame.bytes = frame)
    (.frameMismatch canonical.frame.bytes frame)
  return {
    packet
    ruleId := decoded.ruleId
    trafficClass
    route := trafficClass.route
    report := {
      operation := .decode
      ruleId := decoded.ruleId
      generation := snapshot.generation
      trafficClass
      packetBytes := packet.bytes
      frameBytes := frame
      packetSize := packet.bytes.length
      schcBitLen := some canonical.frame.bitLen
      paddedByteLen := frame.length
      managementRule := managementRule snapshot trafficClass decoded.ruleId
      managementRpcSid := managementRpcSid deps active trafficClass packet.udpPayload } }

def decode (deps : Deps) (active : ActiveContext) (self : SchcLink) (frame : Bytes) :
    Except LinkError LinkDecoded := do
  let decoded ← self.decodePacket deps active frame
  let packet ← (deps.rschc.fromUdpPacket decoded.packet).mapError .packet
  return { packet, ruleId := decoded.ruleId, trafficClass := decoded.trafficClass,
           route := decoded.route, report := decoded.report }

end SchcLink

-- ---------------------------------------------------------------------------
-- What a success says
-- ---------------------------------------------------------------------------

theorem classify_ok (h : classify snapshot ruleId = .ok trafficClass) :
    (ruleId ∈ snapshot.data.ruleIds ∨ ruleId ∈ snapshot.data.applicationRuleIds) ∧
      (trafficClass = .protectedManagement ↔ ruleId ∈ snapshot.data.protectedRules.ids) := by
  unfold classify at h
  split at h
  · cases h
  · next hknown =>
    have hmem : ruleId ∈ snapshot.data.ruleIds ∨ ruleId ∈ snapshot.data.applicationRuleIds := by
      simpa [ContextSnapshot.containsApplicationRuleId, -not_and, not_and_or] using hknown
    split at h
    · next hprotected =>
      cases h
      exact ⟨hmem, by simpa using ProtectedRules.contains_iff.mp hprotected⟩
    · next hprotected =>
      cases h
      exact ⟨hmem, by simpa using mt ProtectedRules.contains_iff.mpr hprotected⟩

theorem enforceOrigin_ok (h : enforceOrigin origin ruleId trafficClass = .ok u) :
    origin = .management ↔ trafficClass = .protectedManagement := by
  cases origin <;> cases trafficClass <;> simp_all [enforceOrigin]

def ContextData.runtimeFor (data : ContextData) : TrafficOrigin → Runtime
  | .application => data.applicationRuntime
  | .management => data.runtime

namespace SchcLink

theorem encodeValidated_ok {self : SchcLink} {packet : Bytes}
    (h : self.encodeValidated deps active origin packet udpPayload = .ok encoding) :
    ∃ encoded, (active.snapshot.data.runtimeFor origin).encodeDetailed self.device
        (.outbound self.role) packet = .ok encoded ∧
      encoding.frame = encoded.frame ∧ encoding.report.ruleId = encoded.ruleId ∧
      (encoded.ruleId ∈ active.snapshot.data.ruleIds ∨
        encoded.ruleId ∈ active.snapshot.data.applicationRuleIds) ∧
      (origin = .management ↔ encoded.ruleId ∈ active.snapshot.data.protectedRules.ids) := by
  simp only [encodeValidated, bind_ok, mapError_ok, pure_ok] at h
  obtain ⟨encoded, hencoded, trafficClass, hclass, _, horigin, rfl⟩ := h
  obtain ⟨hknown, hprotected⟩ := classify_ok hclass
  refine ⟨encoded, ?_, rfl, rfl, hknown, (enforceOrigin_ok horigin).trans hprotected⟩
  cases origin <;> exact hencoded

theorem decodeFrame_ok {self : SchcLink} (h : self.decodeFrame active frame = .ok decoded) :
    active.snapshot.data.runtime.decodePaddedDetailed self.device (.inbound self.role) frame =
        .ok decoded ∨
      active.snapshot.data.applicationRuntime.decodePaddedDetailed self.device
        (.inbound self.role) frame = .ok decoded := by
  simp only [decodeFrame] at h
  split at h
  · next hfull =>
    cases h
    exact .inl hfull
  · split at h
    · next happ =>
      cases h
      exact .inr happ
    · cases h

theorem decodePacket_ok {self : SchcLink} (h : self.decodePacket deps active frame = .ok decoded) :
    (∃ inner, self.decodeFrame active frame = .ok inner ∧ decoded.ruleId = inner.ruleId) ∧
      (decoded.ruleId ∈ active.snapshot.data.ruleIds ∨
        decoded.ruleId ∈ active.snapshot.data.applicationRuleIds) ∧
      (decoded.route = .protectedManagement ↔
        decoded.ruleId ∈ active.snapshot.data.protectedRules.ids) := by
  simp only [decodePacket, bind_ok, mapError_ok, pure_ok] at h
  obtain ⟨_, -, inner, hinner, trafficClass, hclass, _, -, _, -, _, -, rfl⟩ := h
  obtain ⟨hknown, hprotected⟩ := classify_ok hclass
  refine ⟨⟨inner, hinner, rfl⟩, hknown, ?_⟩
  rw [← hprotected]
  cases trafficClass <;> simp [TrafficClass.route]

end SchcLink

end SchcCoreconf
