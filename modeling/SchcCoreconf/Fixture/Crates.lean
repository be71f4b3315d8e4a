import SchcCoreconf.Fixture.Documents

/-!
# The crates on concrete contexts

Each crate is a function that does on the documents of a world what the real one
does: tables for CBOR, the model and the digests; a reader and a writer of CoAP;
a store of the leaves that are changed; a runtime for the rules that send every
field of a packet, whose frame is the byte of the RuleID and the packet with its
addresses in device order. Other inputs are errors.
-/

namespace SchcCoreconf.Fixture

open Fallible

def noDocument : String := "not a document of this example"

-- ---------------------------------------------------------------------------
-- ciborium and sha2
-- ---------------------------------------------------------------------------

namespace World

def sha256 (world : World) (bytes : Bytes) : Digest :=
  (((world.complete.zip world.digests).find? (identityBytes ·.1 = bytes)).map (·.2)).getD
    (.replicate 32 0)

def documents (world : World) : List Cbor := world.contexts.map sor ++ world.requests

def ofTree (world : World) (tree : Json) : Option (List Rule) :=
  world.complete.find? (Fixture.tree · = tree)

end World

scoped instance : DecidableEq Cbor := Cbor.decEq

def ciborium (world : World) : Ciborium where
  fromReader bytes :=
    match world.documents.find? (cborBytes · = bytes) with
    | some value => .ok (value, bytes.length)
    | none => .error noDocument
  intoWriter value :=
    if world.documents.any (· = value) then .ok (cborBytes value) else .error noDocument

-- ---------------------------------------------------------------------------
-- coap-lite
-- ---------------------------------------------------------------------------

def requestNumber : RequestType → Nat
  | .unknown => 0
  | .get => 1
  | .post => 2
  | .put => 3
  | .delete => 4
  | .fetch => 5
  | .patch => 6
  | .iPatch => 7

/-- The code of a response; an unnamed one that is no response code is 5.01. -/
def responseNumber : ResponseType → Nat
  | .changed => 68
  | .content => 69
  | .badRequest => 128
  | .notFound => 132
  | .methodNotAllowed => 133
  | .conflict => 137
  | .preconditionFailed => 140
  | .internalServerError => 160
  | .other code => if 64 ≤ code ∧ code < 192 ∧ code ≠ 68 then code else 161

def classNumber : MessageClass → Nat
  | .empty => 0
  | .request type => requestNumber type
  | .response type => responseNumber type
  | .reserved code => code

def responseOf (code : Nat) : ResponseType :=
  if code = 68 then .changed else if code = 69 then .content else if code = 128 then .badRequest
  else if code = 132 then .notFound else if code = 133 then .methodNotAllowed
  else if code = 137 then .conflict else if code = 140 then .preconditionFailed
  else if code = 160 then .internalServerError else .other code

def classOf (code : Nat) : MessageClass :=
  if code = 0 then .empty
  else if code < 8 then
    .request ([.get, .post, .put, .delete, .fetch, .patch, .iPatch].getD (code - 1) .unknown)
  else if 64 ≤ code ∧ code < 192 then .response (responseOf code)
  else .reserved code

def typeNumber : MessageType → Nat
  | .confirmable => 0
  | .nonConfirmable => 1
  | .acknowledgement => 2
  | .reset => 3

def typeOf (number : Nat) : MessageType :=
  if number = 0 then .confirmable else if number = 1 then .nonConfirmable
  else if number = 2 then .acknowledgement else .reset

def wireOf (packet : Packet) : CoapWire.Message where
  version := 1
  messageType := typeNumber packet.messageType
  code := classNumber packet.code
  messageId := packet.messageId
  token := packet.token
  options := packet.options.flatMap fun (number, values) => values.map (number, ·)
  payload := packet.payload

def groupOptions (options : List (Nat × Bytes)) : List (Nat × List Bytes) :=
  options.foldl (fun groups option => insertOption option.1 option.2 groups) []

def packetOf (message : CoapWire.Message) : Packet where
  messageId := message.messageId
  messageType := typeOf message.messageType
  code := classOf message.code
  token := message.token
  options := groupOptions message.options
  payload := message.payload

def readPacket (bytes : Bytes) : Except String Packet := do
  let message ← need (CoapWire.decode bytes) "invalid packet"
  ensure (message.version = 1) "invalid version"
  return packetOf message

/-- A packet of up to 1280 bytes, if it is read back as it is. -/
def writePacket (packet : Packet) : Except String Bytes := do
  let bytes := CoapWire.encode (wireOf packet)
  ensure (bytes.length ≤ 1280 && readPacket bytes = .ok packet) "invalid packet"
  return bytes

def coapLite : CoapLite where
  codeText code := toString (classNumber code)
  addOption packet number value :=
    { packet with options := insertOption number value packet.options }
  clearOption packet number := { packet with
    options := packet.options.map fun (n, values) => (n, if n = number then [] else values) }
  fromBytes := readPacket
  toBytes := writePacket
  toBytesUnlimited packet := .ok (CoapWire.encode (wireOf packet))

-- ---------------------------------------------------------------------------
-- r-schc: packets
-- ---------------------------------------------------------------------------

def nat16 (bytes : Bytes) (offset : Nat) : Nat :=
  match bytes.drop offset with
  | high :: low :: _ => high.toNat * 256 + low.toNat
  | _ => 0

/-- A complete IPv6/UDP packet, of the lengths it declares. -/
def parsePacket (bytes : Bytes) : Except PacketError Ipv6UdpPacket := do
  let first := bytes.head?.elim 0 (·.toNat)
  let nextHeader := nat16 bytes 6 / 256
  ensure (48 ≤ bytes.length && first >>> 4 = 6) (.other "invalid IPv6 packet")
  ensure (nextHeader = 17) (.unsupportedNextHeader nextHeader)
  ensure (nat16 bytes 4 = bytes.length - 40 && nat16 bytes 44 = bytes.length - 40)
    (.other "inconsistent lengths")
  return {
    bytes
    trafficClass := nat16 bytes 0 / 16 % 256
    flowLabel := nat16 bytes 0 % 16 * 65536 + nat16 bytes 2
    ipv6PayloadLength := nat16 bytes 4
    nextHeader
    hopLimit := nat16 bytes 6 % 256
    source := (bytes.drop 8).take 16
    destination := (bytes.drop 24).take 16
    sourcePort := nat16 bytes 40
    destinationPort := nat16 bytes 42
    udpLength := nat16 bytes 44
    udpChecksum := nat16 bytes 46
    udpPayload := bytes.drop 48 }

instance (message : CoapWire.Message) : Decidable message.WellFormed :=
  decidable_of_iff (message.version < 4 ∧ message.messageType < 4 ∧ message.code < 256 ∧
      message.messageId < 65536 ∧ message.token.length ≤ 8 ∧ CoapWire.OptionsFit 0 message.options)
    ⟨fun ⟨hv, ht, hc, hid, hk, ho⟩ => ⟨hv, ht, hc, hid, hk, ho⟩,
      fun ⟨hv, ht, hc, hid, hk, ho⟩ => ⟨hv, ht, hc, hid, hk, ho⟩⟩

/-- A CoAP message in the only form it can be encoded in. -/
def fromUdpPacket (udp : Ipv6UdpPacket) : Except PacketError Ipv6UdpCoapPacket := do
  let message ← need (CoapWire.decode udp.udpPayload) (.other "invalid CoAP message")
  ensure (decide message.WellFormed && message.options.all (·.1 < 2 ^ 32) &&
    CoapWire.encode message = udp.udpPayload) (.other "invalid CoAP message")
  return {
    udp
    coapMessage := {
      version := message.version
      messageType := message.messageType
      code := message.code
      messageId := message.messageId
      token := message.token
      options := message.options.map fun option => { number := option.1, value := option.2 }
      payload := message.payload } }

def wordSum : Bytes → Nat
  | high :: low :: rest => high.toNat * 256 + low.toNat + wordSum rest
  | [high] => high.toNat * 256
  | [] => 0

/-- The UDP checksum over the pseudo-header; zero is sent as ones. -/
def udpChecksum (source destination segment : Bytes) : Nat :=
  let sum := wordSum source + wordSum destination + segment.length + 17 + wordSum segment
  let folded := sum % 65536 + sum / 65536
  let folded := folded % 65536 + folded / 65536
  if folded = 65535 then 65535 else 65535 - folded

def buildPacket (source destination : Bytes) (sourcePort destinationPort : Nat) (payload : Bytes) :
    Bytes :=
  let length := 8 + payload.length
  let segment (checksum : Nat) := bigEndian 2 sourcePort ++ bigEndian 2 destinationPort ++
    bigEndian 2 length ++ bigEndian 2 checksum ++ payload
  [0x60, 0, 0, 0] ++ bigEndian 2 length ++ [17, 64] ++ source ++ destination ++
    segment (udpChecksum source destination (segment 0))

/-- A packet that was built, if its bytes are read back as this payload. -/
def newCoapPacket (source destination : Bytes) (sourcePort destinationPort : Nat)
    (datagram : Bytes) : Except PacketError Ipv6UdpCoapPacket := do
  let udp ← parsePacket (buildPacket source destination sourcePort destinationPort datagram)
  let packet ← fromUdpPacket udp
  ensure (packet.udp.udpPayload = datagram) (.other "invalid CoAP message")
  return packet

-- ---------------------------------------------------------------------------
-- r-schc: the runtime
-- ---------------------------------------------------------------------------

def swapEndpoints (packet : Bytes) : Bytes :=
  packet.take 8 ++ (packet.drop 24).take 16 ++ (packet.drop 8).take 16 ++
    (packet.drop 42).take 2 ++ (packet.drop 40).take 2 ++ packet.drop 44

/-- A packet with the addresses of the device first, or back from that order. -/
def deviceOrder (leg : Leg) (packet : Bytes) : Bytes :=
  match leg with
  | .outbound .device | .inbound .core => packet
  | .outbound .core | .inbound .device => swapEndpoints packet

def fieldPlace : FieldRef → Option (Nat × Nat)
  | .ipv6 "fid-ipv6-devprefix" => some (8, 8)
  | .ipv6 "fid-ipv6-deviid" => some (16, 8)
  | .ipv6 "fid-ipv6-appprefix" => some (24, 8)
  | .ipv6 "fid-ipv6-appiid" => some (32, 8)
  | .udp "fid-udp-dev-port" => some (40, 2)
  | .udp "fid-udp-app-port" => some (42, 2)
  | _ => none

def sendsAll (rule : Rule) : Bool :=
  rule.id.bitLen = 8 && rule.id.value < 256 &&
    rule.fields.map (fun field => (field.field, field.length)) =
      completeManagement.fields.map fun field => (field.field, field.length)

def matchesPacket (rule : Rule) (ordered : Bytes) : Bool :=
  rule.fields.all fun field =>
    match field.target, fieldPlace field.field with
    | .bytes target, some (offset, size) => (ordered.drop offset).take size = target
    | _, _ => true

def encodePacket (deviceId : DeviceId) (context : RuleContext) (device : DeviceId) (leg : Leg)
    (packet : Bytes) : Except String EncodedPacket := do
  ensure (device = deviceId && 48 ≤ packet.length) "unknown device or packet"
  let ordered := deviceOrder leg packet
  let rule ← need (context.rules.find? fun rule => sendsAll rule && matchesPacket rule ordered)
    "no rule matches the packet"
  let bytes := UInt8.ofNat rule.id.value :: ordered
  return { ruleId := rule.id, frame := { bytes, bitLen := 8 * bytes.length } }

def decodeFrame (deviceId : DeviceId) (context : RuleContext) (device : DeviceId) (leg : Leg)
    (frame : Bytes) : Except String DecodedFrame := do
  let first :: ordered := frame
    | throw "empty frame"
  ensure (device = deviceId && 48 ≤ ordered.length) "unknown device or frame"
  let rule ← need (context.rules.find? fun rule => sendsAll rule && rule.id.value = first.toNat)
    "unknown RuleID"
  return { ruleId := rule.id, packet := deviceOrder leg ordered }

def runtime (deviceId : DeviceId) (context : RuleContext) (_ : DeviceProfile) :
    Except String Runtime :=
  .ok {
    deviceId
    encodeDetailed := encodePacket deviceId context
    decodePaddedDetailed := decodeFrame deviceId context }

-- ---------------------------------------------------------------------------
-- rustconf: instances
-- ---------------------------------------------------------------------------

def sids : List (String × Int) :=
  [("/ietf-schc:schc", 2800), ("/ietf-schc:schc/rule", 2823),
    ("/ietf-schc:schc/rule/rule-id-length", 2824), ("/ietf-schc:schc/rule/rule-id-value", 2825),
    ("/ietf-schc:schc/rule/entry-universal", 2846),
    ("/ietf-schc:schc/rule/entry-universal/entry-index", 2847),
    ("/ietf-schc:schc/rule/entry-universal/field-length", 2851),
    ("/ietf-schc:schc/rule/entry-universal/target-value", 2855),
    ("/ietf-schc:schc/rule/entry-universal/target-value/index", 2856),
    ("/ietf-schc:schc/rule/entry-universal/target-value/value", 2857),
    ("/ietf-schc:schc/rule/entry-universal/matching-operator", 2858),
    ("/ietf-schc:schc/rule/entry-universal/comp-decomp-action", 2862),
    ("/ietf-schc:duplicate-rule", 2906), ("/ietf-schc:duplicate-rule/input", 2907),
    ("/ietf-schc:duplicate-rule/input/from", 2908),
    ("/ietf-schc:duplicate-rule/input/from/rule-id-length", 2909),
    ("/ietf-schc:duplicate-rule/input/from/rule-id-value", 2910),
    ("/ietf-schc:duplicate-rule/input/ipatch-sequence", 2911),
    ("/ietf-schc:duplicate-rule/input/to", 2912),
    ("/ietf-schc:duplicate-rule/input/to/rule-id-length", 2913),
    ("/ietf-schc:duplicate-rule/input/to/rule-id-value", 2914)]

/-- A target value is base64 text in a tree, and its bytes on the wire. -/
def toSidValue : Json → Except String Json
  | .string text => do
    let bytes ← (base64Decode text).mapError fun _ => "invalid base64"
    return .array (bytes.map fun byte => .ofNat byte.toNat)
  | _ => .error "not a binary leaf"

def toIdentifierValue (value : Json) : Except String Json := do
  let bytes ← (binaryBytes value).mapError fun _ => "not a binary value"
  return .string (base64Text bytes)

def pathComponents : List Cbor → Option InstancePath
  | [.integer root, .integer rule, .integer value, .integer bits, .integer entry, .integer index,
      .integer target, .integer position, .integer leaf] =>
    some { components := [.sidDelta root, .sidDelta rule, .keyValue (.int value),
      .keyValue (.int bits), .sidDelta entry, .keyValue (.int index), .sidDelta target,
      .keyValue (.int position), .sidDelta leaf] }
  | _ => none

def pathToCborValue (path : InstancePath) : Json :=
  .array (path.components.map fun
    | .sidDelta delta => .int delta
    | .keyValue value => value)

def targetInstance (read : Bytes → Json) : Cbor × Cbor → Option Instance
  | (.array items, .bytes target) => do
    return { path := ← pathComponents items, value := some (read target) }
  | _ => none

def selectorObject : Cbor → Option Json
  | .map [(.integer 1, .integer bits), (.integer 2, .integer value)] =>
    some (.object [("rule-id-length", .int bits), ("rule-id-value", .int value)])
  | _ => none

def operationInput : List (Cbor × Cbor) → Option Json
  | [(.integer 1, source), (.integer 4, .bytes sequence), (.integer 5, destination)] => do
    return .object [("from", ← selectorObject source),
      ("ipatch-sequence", .string (base64Text sequence)), ("to", ← selectorObject destination)]
  | _ => none

def identifierInstances : Cbor → Option (List Instance)
  | .map [(.integer 2906, .map [(.integer 1, .map input)])] => do
    return [{ path := { components := [.sidDelta 2906] },
              value := some (.object [("input", ← operationInput input)]) }]
  | .map entries => entries.mapM (targetInstance fun bytes => .string (base64Text bytes))
  | _ => none

def sidInstances : Cbor → Option (List Instance)
  | .map entries =>
    entries.mapM (targetInstance fun bytes => .array (bytes.map fun byte => .ofNat byte.toNat))
  | _ => none

def decodeInstances (world : World) (instances : Cbor → Option (List Instance)) (bytes : Bytes) :
    Except String (List Instance) := do
  let (value, _) ← (ciborium world).fromReader bytes
  need (instances value) "not an instance of this example"

def compositeModel (world : World) : CompositeModel where
  getSid path := (sids.find? (·.1 = path)).map (·.2)
  getIdentifier sid := (sids.find? (·.2 = sid)).map (·.1)
  getKeys sid :=
    if sid = 2823 then some [2825, 2824] else if sid = 2846 then some [2847]
    else if sid = 2855 then some [2856] else none
  identifierValueToSidValueAtPath value _ := toSidValue value
  sidValueToIdentifierValueAtPath value _ := toIdentifierValue value
  identitySidForValue
    | .string name => .ok (identitySid name)
    | _ => .error "not an identity"
  jsonToCborValue value := .ok (serdeValueToCbor value)
  identifierJsonToCborValue tree := need ((world.ofTree tree).map sor) (.other noDocument)
  decodeInstancesWithModel := decodeInstances world sidInstances
  decodeInstancesToIdentifierAtPath := decodeInstances world identifierInstances

-- ---------------------------------------------------------------------------
-- rustconf: the datastore
-- ---------------------------------------------------------------------------

def entryXpath (address : EntryAddress) : String :=
  s!"/ietf-schc:schc/rule[rule-id-value='{address.rule.value}']" ++
    s!"[rule-id-length='{address.rule.bits}']/entry-universal[entry-index='{address.entryIndex}']"

def leafXpath (address : LeafAddress) : String :=
  entryXpath address.entry ++ match address.leaf with
    | .target index => s!"/target-value[index='{index}']/value"
    | .matchingOperator => "/matching-operator"
    | .cda => "/comp-decomp-action"

def appIidLeaf (value : Nat) : LeafAddress :=
  { entry := { rule := { value, bits := 8 }, entryIndex := 9 }, leaf := .target 0 }

def leaves : List LeafAddress := [appIidLeaf 20, appIidLeaf 64, appIidLeaf 65]

def createXpath (sid : Int) (keys : List Json) : Except String String :=
  if sid = 2846 then
    need ((leaves.find? (EntryAddress.keys ·.entry = keys)).map (entryXpath ·.entry)) "no path"
  else if sid = 2857 then
    need ((leaves.find? (EntryAddress.keys ·.entry ++ [.ofNat 0] = keys)).map leafXpath) "no path"
  else .error "no path"

def dropPredicates (inside : Bool) : List Char → List Char
  | [] => []
  | '[' :: rest => dropPredicates true rest
  | ']' :: rest => dropPredicates false rest
  | c :: rest => if inside then dropPredicates inside rest else c :: dropPredicates inside rest

def getPath (tree : Json) (xpath : String) : Except String (Option Json) :=
  match leaves.find? (leafXpath · = xpath), leaves.find? (entryXpath ·.entry = xpath) with
  | some address, _ => .ok (address.read tree)
  | none, some address => .ok (address.entry.read tree)
  | none, none => .error "no path"

def setPath (tree : Json) (xpath : String) (value : Json) : Except String Datastore := do
  let address ← need (leaves.find? (leafXpath · = xpath)) "no path"
  ensure (address.read tree).isSome "no leaf"
  return { tree := address.write value tree }

def coreconfModel (world : World) : CoreconfModel where
  compositeModel := compositeModel world
  toValue bytes := need ((world.complete.find? (sorBytes · = bytes)).map tree) noDocument
  withData tree := .ok { tree }
  createXpath _ := createXpath
  getPath store := getPath store.tree
  setPath store := setPath store.tree

-- ---------------------------------------------------------------------------
-- rustconf: requests and responses
-- ---------------------------------------------------------------------------

def methodOf : MessageClass → Method
  | .request .get => .get
  | .request .fetch => .fetch
  | .request .iPatch => .iPatch
  | _ => .other

def formatOf (code : Nat) : ContentFormat :=
  if code = 140 then .yangDataCborSid else if code = 141 then .yangIdentifiersCborSeq
  else if code = 142 then .yangInstancesCborSeq else .other code

/-- A request at the root of the management interface. -/
def packetToRequest (packet : Packet) (_ : String) : Except Response Request :=
  let format := (packet.getOption CoapOption.contentFormat).bind fun values =>
    values.head?.map fun bytes => bytes.foldl (fun value byte => value * 256 + byte.toNat) 0
  .ok {
    method := methodOf packet.code
    path := ""
    interface := some .management
    contentFormat := format.map formatOf
    rawContentFormat := format
    payload := packet.payload }

def formatNumber : ContentFormat → Nat
  | .yangDataCborSid => 140
  | .yangIdentifiersCborSeq => 141
  | .yangInstancesCborSeq => 142
  | .other code => code

def responseCode : Response → ResponseCode
  | .changed => .changed
  | .content .. => .content
  | .methodNotAllowed _ => .methodNotAllowed
  | .notFound _ => .notFound
  | .error code _ => code

def responseType : ResponseCode → ResponseType
  | .changed => .changed
  | .content => .content
  | .badRequest => .badRequest
  | .notFound => .notFound
  | .methodNotAllowed => .methodNotAllowed
  | .conflict => .conflict
  | .internalServerError => .internalServerError
  | .other code => .other code

def responseToPacket (request : Packet) (response : Response) : Packet where
  messageId := request.messageId
  messageType := if request.messageType = .confirmable then .acknowledgement else .nonConfirmable
  code := .response (responseType (responseCode response))
  token := request.token
  options := match response with
    | .content _ format => [(CoapOption.contentFormat, [bigEndian 2 (formatNumber format)])]
    | _ => []
  payload := match response with
    | .content payload _ => payload
    | .error _ message => message.toUTF8.toList
    | _ => []

/-- GET and FETCH are answered with the tree. -/
def handler (request : Request) : BackendProgram Response :=
  if request.method = .get ∨ request.method = .fetch then
    .readTree fun tree => .done (.content (jsonBytes tree) .yangDataCborSid)
  else .done (.methodNotAllowed .get)

-- ---------------------------------------------------------------------------
-- The crates together
-- ---------------------------------------------------------------------------

/-- Stands for the text of the SID file. -/
def sidText : String := "ietf-schc@2026-09-22.sid"

def ruleContext (world : World) (bytes : Bytes) : Except String RuleContext := do
  let rules ← need (world.contexts.find? (sorBytes · = bytes)) noDocument
  return { rules }

def accepts : DirectionSelector → Direction → Bool
  | .bidirectional, _ => true
  | .up, direction => direction = .up
  | .down, direction => direction = .down

def deps (world : World) : Deps where
  ciborium := ciborium world
  coap := coapLite
  rustconf := {
    errorText := fun
      | .validationError message => message
      | .other text => text
    responseCodeText := fun code => toString (responseNumber (responseType code))
    responseCode
    asU16 := formatNumber
    coreconfModel := fun text =>
      if text = sidText then .ok (coreconfModel world) else .error "not a SID file"
    pushDelta := fun path delta => .ok { components := path.components ++ [.sidDelta delta] }
    absoluteSid := fun path => path.absoluteSids.getLast?
    pathToCborValue
    predicatePath := fun xpath => .ok (.ofList (dropPredicates false xpath.toList))
    packetToRequest
    responseToPacket
    requestHandler := fun _ => .ok handler }
  rschc := {
    packetErrorText := fun
      | .unsupportedNextHeader nextHeader => s!"unsupported next header {nextHeader}"
      | .other text => text
    accepts := accepts
    findRule := fun context id => context.rules.find? (·.id = id)
    sidRegistry := fun text =>
      if text = sidText then .ok { ruleContext := ruleContext world } else .error "not a SID file"
    runtime
    parsePacket
    fromUdpPacket
    newCoapPacket }
  serdeToVec tree := .ok (jsonBytes tree)
  jsonText tree := .ofList ((jsonBytes tree).map fun byte => Char.ofNat byte.toNat)
  sha256 := world.sha256

end SchcCoreconf.Fixture
