import SchcCoreconf.Duplicate

/-!
# Packet reports

`report.rs`: the concise line of one SCHC operation and, in debug mode, a second
dissection of its packet with byte costs. A duplicate-rule request is charged by
decoding its payload once more. The text of the debug lines is left out: writing
it to a string does not fail.
-/

namespace SchcCoreconf

open Fallible

inductive ReportDirection
  | tx
  | rx
  deriving DecidableEq, Repr

def ReportDirection.label : ReportDirection → String
  | .tx => "TX"
  | .rx => "RX"

inductive ReportError
  | invalidPacket (message : String)
  | invalidSchc (message : String)
  deriving DecidableEq, Repr

def ReportError.text : ReportError → String
  | .invalidPacket message => s!"packet report rejected: {message}"
  | .invalidSchc message => s!"packet report SCHC accounting failed: {message}"

-- ---------------------------------------------------------------------------
-- The cost of a duplicate-rule request (duplicate.rs)
-- ---------------------------------------------------------------------------

structure DuplicateRpcOverride where
  entryIndex : Nat
  targetValue : Option String
  matchingOperator : Option String
  cda : Option String
  deriving DecidableEq, Repr

structure DuplicateRpcCost where
  source : RuleSelector
  destination : RuleSelector
  payloadBytes : Nat
  fixedBytes : Nat
  variableFramingBytes : Nat
  targetValueBytes : Nat
  overrides : List DuplicateRpcOverride
  deriving DecidableEq, Repr

def jsonValueLabel (deps : Deps) : Json → String
  | .string value => value
  | value => deps.jsonText value

/-- A short target as its number; up to eight bytes do not saturate a `u64`. -/
def targetBytesLabel (bytes : Bytes) : String :=
  if bytes.length ≤ 8 then toString (bytes.foldl (fun value byte => value * 256 + byte.toNat) 0)
  else s!"{bytes.length} B"

/-- `descriptions.entry(entry_index).or_insert_with(..)`, then changed; in entry order. -/
def describeOverride (entryIndex : Nat) (change : DuplicateRpcOverride → DuplicateRpcOverride) :
    List DuplicateRpcOverride → List DuplicateRpcOverride
  | [] => [change { entryIndex, targetValue := none, matchingOperator := none, cda := none }]
  | first :: rest =>
    if first.entryIndex = entryIndex then change first :: rest
    else if entryIndex < first.entryIndex then
      change { entryIndex, targetValue := none, matchingOperator := none, cda := none } ::
        first :: rest
    else first :: describeOverride entryIndex change rest

/-- What the walk over the override framing has accounted for. -/
structure RpcCharge where
  remaining : List Instance
  targetValueBytes : Nat
  descriptions : List DuplicateRpcOverride

/-- One raw value of the framing, with the next decoded instance. -/
def chargeValue (deps : Deps) (destination : RuleSelector) (sids : ModelSids) (charge : RpcCharge)
    (rawValue : Cbor) : Except InspectionError RpcCharge := do
  let entry :: remaining := charge.remaining
    | throw (invalidDuplicate "override framing and decoded instances disagree")
  let (entryIndex, leaf) ← duplicateLeafFromPath entry.path destination sids
  let describe (change : DuplicateRpcOverride → DuplicateRpcOverride) :=
    describeOverride entryIndex change charge.descriptions
  match leaf with
  | .target => do
    let .bytes bytes := rawValue
      | throw (invalidDuplicate "target override is not a CBOR byte string")
    return {
      remaining
      targetValueBytes := charge.targetValueBytes + bytes.length
      descriptions := describe fun d => { d with targetValue := some (targetBytesLabel bytes) } }
  | .matchingOperator => return { charge with
      remaining
      descriptions := describe fun d =>
        { d with matchingOperator := entry.value.map (jsonValueLabel deps) } }
  | .cda => return { charge with
      remaining
      descriptions := describe fun d => { d with cda := entry.value.map (jsonValueLabel deps) } }

def chargeValues (deps : Deps) (destination : RuleSelector) (sids : ModelSids)
    (charge : RpcCharge) : List Cbor → Except InspectionError RpcCharge
  | [] => .ok charge
  | rawValue :: rest => do
    chargeValues deps destination sids (← chargeValue deps destination sids charge rawValue) rest

/-- The framing from a position on; a member takes at least a byte, so the bytes outlast none. -/
def chargeFraming (deps : Deps) (destination : RuleSelector) (sids : ModelSids)
    (charge : RpcCharge) : Nat → Bytes → Except InspectionError RpcCharge
  | 0, _ => .ok charge
  | fuel + 1, bytes =>
    if bytes.isEmpty then .ok charge
    else do
      let (value, consumed) ← (deps.ciborium.fromReader bytes).mapError fun error =>
        invalidDuplicate s!"invalid override framing: {error}"
      let .map entries := value
        | throw (invalidDuplicate "override framing member is not a map")
      let charge ← chargeValues deps destination sids charge (entries.map (·.2))
      chargeFraming deps destination sids charge fuel (bytes.drop consumed)

def duplicateRpcCost (deps : Deps) (sidJson : String) (payload : Bytes) :
    Except InspectionError DuplicateRpcCost := do
  let model ← (deps.rustconf.coreconfModel sidJson).mapError .datastore
  let sids ← validateDuplicateModelShape model.compositeModel
  let operation ← decodeDuplicateOperation deps model payload
  let fixedRequest : RuleDuplicateRequest := { operation.request with overrides := [] }
  let fixedPayload ← encodeDuplicateRpcPayload deps model fixedRequest []
  let charge ← chargeFraming deps operation.request.destination sids
    { remaining := operation.instances, targetValueBytes := 0, descriptions := [] }
    operation.innerPayload.length operation.innerPayload
  ensure charge.remaining.isEmpty
    (invalidDuplicate "decoded override instances were not fully accounted")
  ensure (fixedPayload.length + charge.targetValueBytes ≤ payload.length)
    (invalidDuplicate "duplicate RPC payload is smaller than fixed and target costs")
  return {
    source := operation.request.source
    destination := operation.request.destination
    payloadBytes := payload.length
    fixedBytes := fixedPayload.length
    variableFramingBytes := payload.length - (fixedPayload.length + charge.targetValueBytes)
    targetValueBytes := charge.targetValueBytes
    overrides := charge.descriptions }

-- ---------------------------------------------------------------------------
-- The cost of a CoAP datagram
-- ---------------------------------------------------------------------------

structure CoapOptionCost where
  number : Nat
  valueBytes : Nat
  headerBytes : Nat
  deltaExtensionBytes : Nat
  lengthExtensionBytes : Nat
  encodedBytes : Nat
  deriving DecidableEq, Repr

structure CoapCost where
  baseHeaderBytes : Nat
  tokenBytes : Nat
  options : List CoapOptionCost
  payloadMarkerBytes : Nat
  payloadBytes : Nat
  totalBytes : Nat
  deriving DecidableEq, Repr

def CoapCost.sum (cost : CoapCost) : Nat :=
  cost.baseHeaderBytes + cost.tokenBytes + (cost.options.map (·.encodedBytes)).sum +
    cost.payloadMarkerBytes + cost.payloadBytes

def readCoapExtended (nibble : Nat) (bytes : Bytes) (label : String) :
    Except ReportError (Nat × Bytes) :=
  if nibble ≤ 12 then .ok (nibble, bytes)
  else if nibble = 13 then
    match bytes with
    | byte :: rest => .ok (byte.toNat + 13, rest)
    | [] => .error (.invalidPacket s!"CoAP {label} extension is truncated")
  else if nibble = 14 then
    match bytes with
    | high :: low :: rest => .ok (high.toNat * 256 + low.toNat + 269, rest)
    | _ => .error (.invalidPacket s!"CoAP {label} extension is truncated")
  else .error (.invalidPacket s!"CoAP {label} uses reserved nibble")

def extendedBytes (nibble : Nat) : Nat :=
  if nibble = 13 then 1 else if nibble = 14 then 2 else 0

/-- The options from an offset on, and the payload behind them; an option takes at
least a byte, so the bytes outlast none. -/
def inspectCoapOptions : Nat → Nat → Bytes → Except ReportError (List CoapOptionCost × Bytes)
  | 0, _, bytes => .ok ([], bytes)
  | _, _, [] => .ok ([], [])
  | fuel + 1, previousNumber, header :: bytes =>
    if header = 0xff then
      if bytes.isEmpty then .error (.invalidPacket "CoAP payload marker has no payload")
      else .ok ([], bytes)
    else do
      let (delta, bytes) ← readCoapExtended (header.toNat >>> 4) bytes "delta"
      let (length, bytes) ← readCoapExtended (header.toNat &&& 0x0f) bytes "length"
      ensure (previousNumber + delta < 2 ^ 32) (.invalidPacket "CoAP option number overflow")
      ensure (length ≤ bytes.length) (.invalidPacket "CoAP option exceeds datagram")
      let deltaExtensionBytes := extendedBytes (header.toNat >>> 4)
      let lengthExtensionBytes := extendedBytes (header.toNat &&& 0x0f)
      let (options, payload) ← inspectCoapOptions fuel (previousNumber + delta) (bytes.drop length)
      return ({
        number := previousNumber + delta
        valueBytes := length
        headerBytes := 1
        deltaExtensionBytes, lengthExtensionBytes
        encodedBytes := 1 + deltaExtensionBytes + lengthExtensionBytes + length } :: options,
        payload)

def CoapOptionCost.matchesOption (cost : CoapOptionCost) (option : CoapOptionValue) : Bool :=
  cost.number = option.number && cost.valueBytes = option.value.length

def inspectCoap (bytes : Bytes) (message : CoapMessage) : Except ReportError CoapCost := do
  let first :: _ :: _ :: _ :: afterHeader := bytes
    | throw (.invalidPacket "CoAP datagram is shorter than four bytes")
  let tokenLen := first.toNat &&& 0x0f
  ensure (tokenLen ≤ afterHeader.length && tokenLen = message.token.length)
    (.invalidPacket "CoAP token length is inconsistent")
  let afterToken := afterHeader.drop tokenLen
  let (options, payload) ← inspectCoapOptions afterToken.length 0 afterToken
  ensure (options.length = message.options.length && payload.length = message.payload.length)
    (.invalidPacket "CoAP parsed fields do not match encoded datagram")
  ensure ((options.zip message.options).all fun pair => pair.1.matchesOption pair.2)
    (.invalidPacket "CoAP option cost does not match parsed option")
  return {
    baseHeaderBytes := 4
    tokenBytes := tokenLen
    options
    payloadMarkerBytes := if payload.isEmpty then 0 else 1
    payloadBytes := payload.length
    totalBytes := bytes.length }

-- ---------------------------------------------------------------------------
-- Reports
-- ---------------------------------------------------------------------------

structure PacketLayerCost where
  ipv6HeaderBytes : Nat
  udpHeaderBytes : Nat
  coap : CoapCost
  packetBytes : Nat
  deriving DecidableEq, Repr

structure SchcCost where
  meaningfulBits : Nat
  paddedBytes : Nat
  paddingBits : Nat
  deriving DecidableEq, Repr

/-- A report's parsed data; the packet stands for its IPv6, UDP and CoAP fields. -/
structure PacketReport where
  version : Nat
  packet : Ipv6UdpCoapPacket
  layers : PacketLayerCost
  schc : SchcCost
  rpc : Option DuplicateRpcCost
  deriving DecidableEq, Repr

def ipv6HeaderLen : Nat := 40
def udpHeaderLen : Nat := 8
def ipv6Version : Nat := 6

def validateLineReport (report : LinkReport) : Except ReportError Unit := do
  ensure (report.packetSize = report.packetBytes.length) (.invalidPacket
    s!"packet_size={report.packetSize} but packet_bytes has {report.packetBytes.length} bytes")
  ensure (report.paddedByteLen = report.frameBytes.length) (.invalidSchc
    s!"padded_byte_len={report.paddedByteLen} but frame_bytes has {report.frameBytes.length} bytes")

def inspectLayers (deps : Deps) (bytes : Bytes) :
    Except ReportError (Nat × Ipv6UdpCoapPacket × PacketLayerCost) := do
  ensure (ipv6HeaderLen ≤ bytes.length)
    (.invalidPacket s!"IPv6 packet is shorter than {ipv6HeaderLen} bytes")
  let version := bytes.head?.elim 0 (·.toNat >>> 4)
  ensure (version = ipv6Version)
    (.invalidPacket s!"IPv6 version is {version}, expected {ipv6Version}")
  let packet ← (deps.rschc.parseCoapPacket bytes).mapError fun error =>
    .invalidPacket (deps.rschc.packetErrorText error)
  let expected := bytes.length - ipv6HeaderLen
  ensure (packet.udp.ipv6PayloadLength = expected) (.invalidPacket
    (s!"IPv6 payload length is {packet.udp.ipv6PayloadLength}, " ++
      s!"packet contains {expected}"))
  ensure (packet.udp.udpLength = expected && udpHeaderLen ≤ packet.udp.udpLength) (.invalidPacket
    (s!"UDP length is {packet.udp.udpLength}, expected {expected} " ++
      s!"and at least {udpHeaderLen}"))
  let coap ← inspectCoap packet.coapDatagram packet.coapMessage
  ensure (coap.sum = packet.coapDatagram.length) (.invalidPacket
    s!"CoAP cost is {coap.sum}, datagram has {packet.coapDatagram.length} bytes")
  let layerSum := ipv6HeaderLen + udpHeaderLen + coap.sum
  ensure (layerSum = bytes.length)
    (.invalidPacket s!"packet cost is {layerSum}, packet has {bytes.length} bytes")
  return (version, packet, {
    ipv6HeaderBytes := ipv6HeaderLen
    udpHeaderBytes := udpHeaderLen
    coap := { coap with totalBytes := coap.sum }
    packetBytes := bytes.length })

def inspectSchc (report : LinkReport) : Except ReportError SchcCost := do
  let meaningfulBits ← need report.schcBitLen
    (.invalidSchc "meaningful SCHC bit length is unavailable")
  let paddedBits := report.paddedByteLen * 8
  ensure (meaningfulBits ≤ paddedBits)
    (.invalidSchc s!"meaningful bits {meaningfulBits} exceed padded bits {paddedBits}")
  return { meaningfulBits, paddedBytes := report.paddedByteLen,
           paddingBits := paddedBits - meaningfulBits }

def inspectRpc (deps : Deps) (report : LinkReport) (payload : Bytes) :
    Except ReportError (Option DuplicateRpcCost) :=
  match report.managementRpcSid with
  | none => .ok none
  | some sidJson => do
    let cost ← (duplicateRpcCost deps sidJson payload).mapError fun error =>
      ReportError.invalidPacket (error.text deps.rschc)
    return some cost

def inspectReport (deps : Deps) (report : LinkReport) : Except ReportError PacketReport := do
  validateLineReport report
  let (version, packet, layers) ← inspectLayers deps report.packetBytes
  let schc ← inspectSchc report
  let rpc ← inspectRpc deps report packet.coapMessage.payload
  return { version, packet, layers, schc, rpc }

def TrafficClass.label : TrafficClass → String
  | .ordinary => "APP "
  | .protectedManagement => "MGMT"

/-- The first line; in debug mode the inspection that the other lines render. -/
def formatReport (deps : Deps) (direction : ReportDirection) (report : LinkReport) (debug : Bool) :
    Except ReportError (String × Option PacketReport) := do
  validateLineReport report
  let line := s!"{direction.label} {report.trafficClass.label}  {report.ruleId.value}/" ++
    s!"{report.ruleId.bitLen}  {report.packetSize} B -> {report.paddedByteLen} B\n"
  if debug then return (line, some (← inspectReport deps report))
  return (line, none)

/-- `print_report`; the console takes what it is given. -/
def printReport (deps : Deps) (direction : ReportDirection) (report : LinkReport) (debug : Bool) :
    Except String Unit := do
  let _ ← (formatReport deps direction report debug).mapError ReportError.text

end SchcCoreconf
