import SchcCoreconf.Update

/-!
# Management exchanges of the core

A management request is encoded once and correlated with its response by token
and message ID. The `rule update` command resolves its update against the
current snapshot, sends it to the device, and applies the same datagram locally
once the device has answered 2.04.
-/

namespace SchcCoreconf

open Fallible

-- ---------------------------------------------------------------------------
-- Logical endpoints
-- ---------------------------------------------------------------------------

def coreLogicalAddress : Bytes := [0x20, 0x01, 0x0d, 0xb8, 0, 0, 0, 0, 0, 0, 0, 0, 0, 0, 0, 2]
def deviceLogicalAddress : Bytes := [0x20, 0x01, 0x0d, 0xb8, 0, 0, 0, 0, 0, 0, 0, 0, 0, 0, 0, 1]
def applicationPort : Nat := 5683
def managementPort : Nat := 8724

/-- The packet goes from one logical endpoint to the other, with one port at both. -/
def oriented (packet : Ipv6UdpPacket) (source destination : Bytes) (port : Nat) : Bool :=
  packet.source = source && packet.destination = destination && packet.sourcePort = port
    && packet.destinationPort = port

-- ---------------------------------------------------------------------------
-- Correlation
-- ---------------------------------------------------------------------------

structure CoapToken where
  bytes : Bytes
  short : bytes.length ≤ 8
  deriving DecidableEq

def CoapToken.new (bytes : Bytes) : Except InspectionError CoapToken :=
  if h : bytes.length ≤ 8 then .ok { bytes, short := h }
  else .error (.invalidToken s!"length must be at most 8 bytes, got {bytes.length}")

structure ExchangeId where
  messageId : Nat
  token : CoapToken
  deriving DecidableEq

namespace ExchangeId

def fromMessage (message : CoapMessage) : Except InspectionError ExchangeId :=
  return { messageId := message.messageId, token := ← CoapToken.new message.token }

/-- Separate responses may use a new message ID; an acknowledgement keeps it. -/
def matchesResponse (self response : ExchangeId) (messageType : Nat) : Bool :=
  self.token = response.token && match messageType with
    | 0 | 1 => true
    | 2 => self.messageId = response.messageId
    | _ => false

end ExchangeId

/-- The token policy of a request; a generated token is a counter's value. -/
inductive TokenPolicy
  | empty
  | generated (sequence : Nat)
  deriving DecidableEq, Repr

def TokenPolicy.token : TokenPolicy → Bytes
  | .empty => []
  | .generated sequence => toBeBytes64 sequence

def applyTokenPolicy (coap : CoapLite) (datagram : Bytes) (policy : TokenPolicy) :
    Except InspectionError Bytes := do
  let packet ← (coap.fromBytes datagram).mapError .coap
  (coap.toBytes { packet with token := policy.token }).mapError .coap

structure PreparedManagementRequest where
  frame : SchcFrame
  report : LinkReport
  exchangeId : ExchangeId
  deriving DecidableEq

/-- The datagram a request has on the wire, and the packet that carries it. -/
def managementRequest (deps : Deps) (datagram : Bytes) (policy : TokenPolicy) :
    Except InspectionError (Bytes × Ipv6UdpCoapPacket) := do
  ensure (!isDuplicateRuleDatagram deps.coap datagram) (.unexpectedResponse
    "duplicate-rule NON POST is one-way and is not prepared for response tracking")
  let wireDatagram ← applyTokenPolicy deps.coap datagram policy
  let request ← (deps.rschc.newCoapPacket coreLogicalAddress deviceLogicalAddress managementPort
    managementPort wireDatagram).mapError fun error => .coap (deps.rschc.packetErrorText error)
  return (wireDatagram, request)

def prepareManagementRequest (deps : Deps) (active : ActiveContext) (link : SchcLink)
    (datagram : Bytes) (policy : TokenPolicy) :
    Except InspectionError PreparedManagementRequest := do
  let (_, request) ← managementRequest deps datagram policy
  let encoded ← (link.encode deps active .management request).mapError .link
  ensure (encoded.report.trafficClass = .protectedManagement) (.unexpectedResponse
    (s!"management request selected unsupported protected RuleID " ++
      s!"{encoded.report.ruleId.value}/{encoded.report.ruleId.bitLen}"))
  let exchangeId ← ExchangeId.fromMessage request.coapMessage
  return { frame := encoded.frame, report := encoded.report, exchangeId }

structure ManagementExchange where
  payload : Bytes
  requestReport : LinkReport
  responseReport : LinkReport
  deriving DecidableEq, Repr

def RuleId.debug (id : RuleId) : String :=
  s!"RuleId \x7b value: {id.value}, bit_len: {id.bitLen} \x7d"

/-- The checks on the packet of a response; its CoAP code. -/
def responseCode (exchangeId : ExchangeId) (packet : Ipv6UdpCoapPacket) :
    Except InspectionError Nat := do
  ensure (oriented packet.udp deviceLogicalAddress coreLogicalAddress managementPort)
    (.unexpectedResponse "management response logical orientation is invalid")
  let message := packet.coapMessage
  ensure (2 ≤ message.code >>> 5 && message.code >>> 5 ≤ 5) (.unexpectedResponse
    s!"management response has non-response CoAP code {message.code}")
  let responseExchange ← ExchangeId.fromMessage message
  ensure (message.messageType ≤ 2) (.unexpectedResponse
    s!"management response has unsupported CoAP message type {message.messageType}")
  ensure (exchangeId.matchesResponse responseExchange message.messageType)
    (.correlation "CoAP message ID or token mismatch")
  return message.code

def validateManagementResponse (prepared : PreparedManagementRequest) (decoded : LinkDecoded) :
    Except InspectionError (Nat × ManagementExchange) := do
  ensure (decoded.route = .protectedManagement) (.unexpectedResponse
    s!"management response selected {decoded.ruleId.debug} instead of protected management")
  let code ← responseCode prepared.exchangeId decoded.packet
  return (code, {
    payload := decoded.packet.coapMessage.payload
    requestReport := prepared.report
    responseReport := decoded.report })

def managementMidModulus : Nat := 128

def nextManagementMessageId (next : Nat) : Nat × Nat :=
  let messageId := if next ≥ managementMidModulus then 0 else next
  (messageId, (messageId + 1) % managementMidModulus)

-- ---------------------------------------------------------------------------
-- rule update
-- ---------------------------------------------------------------------------

/-- What a `rule update` command reports, with its text, when it does not succeed. -/
inductive UpdateError
  | notSent (message : String)
  | exchangeFailed (message : String)
  | deviceRejected (rule : RuleSelector) (entryIndex code : Nat)
  | possibleDivergence (message : String)
  deriving DecidableEq, Repr

def twoDigits (n : Nat) : String := if n < 10 then s!"0{n}" else toString n

def formatCoapCode (code : Nat) : String := s!"{code >>> 5}.{twoDigits (code &&& 0x1f)}"

def UpdateError.text : UpdateError → String
  | .notSent message => message ++ "; device=not-sent; local=unchanged"
  | .exchangeFailed message => message ++ "; local=unchanged"
  | .deviceRejected rule entryIndex code =>
    s!"rule update {rule} entry={entryIndex} device={formatCoapCode code} rejected; " ++
      "local=not-attempted; local=unchanged"
  | .possibleDivergence message => message ++ "; possible divergence - run context check"

/-- The core: its context, the handle of its service, and the next message ID. -/
structure CoreState where
  backend : BackendState
  nextMessageId : Nat

def resolveRuleUpdate (deps : Deps) (service : InspectionService) (snapshot : ContextSnapshot)
    (command : String) : Except UpdateError ResolvedRuleUpdate := do
  let request ← (parseRuleUpdateCommand deps command).mapError fun error =>
    .notSent s!"rule update rejected: {error.text deps.rschc}"
  ensure (!snapshot.data.protectedRules.contains request.rule.ruleId)
    (.notSent s!"rule update {request.rule} rejected: protected RuleID")
  let rejected (error : InspectionError) : UpdateError :=
    .notSent s!"rule update {request.rule} rejected: {error.text deps.rschc}"
  let detail ← (detailFromSnapshot snapshot request.rule).mapError rejected
  (request.resolveTargetValue deps detail snapshot.data.tree service.model).mapError rejected

/-- The datagram of an update, on the base of the snapshot it was resolved on. -/
def updateDatagram (deps : Deps) (snapshot : ContextSnapshot) (update : ResolvedRuleUpdate)
    (messageId : Nat) : Except UpdateError Bytes :=
  let baseTag := if update.request.ifMatch then some snapshot.data.tag else none
  (update.ipatchDatagram deps messageId baseTag).mapError fun error => .notSent
    (s!"rule update {update.request.rule} entry={update.entryIndex} rejected: " ++
      error.text deps.rschc)

def validateChangedResponse (coap : CoapLite) (requestDatagram responseDatagram : Bytes) :
    Except String Unit := do
  let request ← (coap.fromBytes requestDatagram).mapError fun error =>
    s!"malformed local request correlation: {error}"
  let response ← (coap.fromBytes responseDatagram).mapError fun error =>
    s!"malformed local CoAP response: {error}"
  ensure (response.code = .response .changed)
    s!"expected local CoAP 2.04 Changed, got {coap.codeText response.code}"
  ensure (response.messageId = request.messageId && response.token = request.token)
    "local CoAP response did not correlate"

def checkLocalUpdate (deps : Deps) (before after : ContextSnapshot) (update : ResolvedRuleUpdate)
    (datagram : Bytes) (answer : Except InspectionError Bytes) : Except UpdateError Unit := do
  let diverged (cause : String) : UpdateError := .possibleDivergence
    s!"rule update {update.request.rule} entry={update.entryIndex} device=2.04; {cause}"
  let localDatagram ← answer.mapError fun error =>
    diverged s!"local application failed: {error.text deps.rschc}"
  (validateChangedResponse deps.coap datagram localDatagram).mapError fun error =>
    diverged s!"local response failed: {error}"
  ensure (before.generation + 1 < 2 ^ 64) (diverged "local generation overflow")
  ensure (after.generation = before.generation + 1) (diverged
    (s!"local acknowledgement did not publish exactly once (generation={after.generation})"))

def completeRuleUpdate (deps : Deps) (service : InspectionService) (state : BackendState)
    (update : ResolvedRuleUpdate) (datagram : Bytes) (deviceAnswer : Except String Nat) :
    Outcome BackendState (Except UpdateError Unit) :=
  match deviceAnswer with
  | .error error => InspectionService.answer state (.error (.exchangeFailed
      (s!"rule update {update.request.rule} entry={update.entryIndex} " ++
        s!"device exchange failed: {error}")))
  | .ok deviceCode =>
    -- 68 is 2.04 Changed
    if deviceCode ≠ 68 then
      InspectionService.answer state
        (.error (.deviceRejected update.request.rule update.entryIndex deviceCode))
    else
      let outcome := service.handleDatagram deps state datagram
      { result := outcome.result.map
          (checkLocalUpdate deps state.active.snapshot
            outcome.state.active.snapshot update datagram)
        state := outcome.state }

def planRuleUpdate (deps : Deps) (service : InspectionService) (state : CoreState)
    (command : String) : Except UpdateError (ResolvedRuleUpdate × Bytes) × Nat :=
  let snapshot := state.backend.active.snapshot
  match resolveRuleUpdate deps service snapshot command with
  | .error error => (.error error, state.nextMessageId)
  | .ok update =>
    let (messageId, nextMessageId) := nextManagementMessageId state.nextMessageId
    ((updateDatagram deps snapshot update messageId).map fun datagram => (update, datagram),
      nextMessageId)

/-- `execute_rule_update`, given how the device answers a datagram. -/
def executeRuleUpdate (deps : Deps) (service : InspectionService) (state : CoreState)
    (command : String) (sendDevice : Bytes → Except String Nat) :
    Outcome CoreState (Except UpdateError Unit) :=
  match planRuleUpdate deps service state command with
  | (.error error, nextMessageId) =>
    { result := some (.error error), state := { state with nextMessageId } }
  | (.ok (update, datagram), nextMessageId) =>
    let outcome := completeRuleUpdate deps service state.backend update
      datagram (sendDevice datagram)
    { result := outcome.result, state := { backend := outcome.state, nextMessageId } }

end SchcCoreconf
