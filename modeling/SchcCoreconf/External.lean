import SchcCoreconf.Values

/-!
# The crates this crate calls

rustconf, r-schc, coap-lite, ciborium, serde_json and sha2 are not part of the
repository. Their data types are those the code matches on; their functions are
parameters, gathered in `Deps`. A loaded object with methods (a model, a
registry, a runtime) is the record of the methods the code calls. A fallible
function gives the text of its error.
-/

namespace SchcCoreconf

-- ---------------------------------------------------------------------------
-- r-schc: rules
-- ---------------------------------------------------------------------------

structure RuleId where
  value : Nat
  bitLen : Nat
  deriving DecidableEq, Repr, Inhabited

inductive RuleNature
  | compression
  | management
  | other (identifier : String)
  deriving DecidableEq, Repr

inductive FieldRef
  | ipv6 (name : String)
  | udp (name : String)
  | coap (name : String)
  | icmpv6 (name : String)
  | coapOption (number : Nat)
  | unused
  | payload
  | syntheticCoapMarker
  | unknownSid (sid : Nat)
  deriving DecidableEq, Repr

inductive Direction
  | up
  | down
  deriving DecidableEq, Repr

inductive DirectionSelector
  | bidirectional
  | up
  | down
  deriving DecidableEq, Repr

inductive LengthUnit
  | bytes
  | bits
  deriving DecidableEq, Repr

inductive FieldLength
  | fixedBits (bits : Nat)
  | variableBytes
  | variableBits
  | remaining
  | tokenLength
  | fromPreviousField (entryIndex : Nat) (unit : LengthUnit)
  | functionSid (sid : Nat)
  deriving DecidableEq, Repr

inductive TargetValue
  | none
  | bytes (value : Bytes)
  | mapping (values : List Bytes)
  deriving DecidableEq, Repr

inductive MatchingOperator
  | equal
  | ignore
  | msb (bits : Nat)
  | matchMapping
  deriving DecidableEq, Repr

inductive Cda
  | notSent
  | valueSent
  | mappingSent
  | lsb
  | compute
  | deviceIid
  | appIid
  deriving DecidableEq, Repr

structure FieldRule where
  entryIndex : Nat
  field : FieldRef
  fieldPosition : Nat
  direction : DirectionSelector
  length : FieldLength
  target : TargetValue
  matching : MatchingOperator
  action : Cda
  deriving DecidableEq, Repr

structure Rule where
  id : RuleId
  nature : RuleNature
  fields : List FieldRule
  deriving DecidableEq, Repr

/-- `RuleContext`, with the rules in the order of the SoR they were read from. -/
structure RuleContext where
  rules : List Rule
  deriving DecidableEq, Repr

structure SidRegistry where
  ruleContext : Bytes → Except String RuleContext

-- ---------------------------------------------------------------------------
-- r-schc: packets, frames and the endpoint runtime
-- ---------------------------------------------------------------------------

structure DeviceId where
  name : String
  deriving DecidableEq, Repr

/-- `DeviceProfile`; the code only stores, passes on and compares it. -/
structure DeviceProfile where
  settings : String
  deriving DecidableEq, Repr

inductive NodeRole
  | core
  | device
  deriving DecidableEq, Repr

/-- The `(endpoint, flow)` pair that `NodeRole::outbound` and `NodeRole::inbound` return. -/
inductive Leg
  | outbound (role : NodeRole)
  | inbound (role : NodeRole)
  deriving DecidableEq, Repr

/-- A frame: its meaningful bits, and the bytes they are padded to. -/
structure SchcFrame where
  bytes : Bytes
  bitLen : Nat
  deriving DecidableEq, Repr

structure EncodedPacket where
  ruleId : RuleId
  frame : SchcFrame
  deriving DecidableEq, Repr

structure DecodedFrame where
  ruleId : RuleId
  packet : Bytes
  deriving DecidableEq, Repr

structure Runtime where
  deviceId : DeviceId
  encodeDetailed : DeviceId → Leg → Bytes → Except String EncodedPacket
  decodePaddedDetailed : DeviceId → Leg → Bytes → Except String DecodedFrame

inductive PacketError
  | unsupportedNextHeader (nextHeader : Nat)
  | other (text : String)
  deriving DecidableEq, Repr

/-- A complete IPv6/UDP packet as `Ipv6UdpPacket::parse` leaves it. -/
structure Ipv6UdpPacket where
  bytes : Bytes
  trafficClass : Nat
  flowLabel : Nat
  ipv6PayloadLength : Nat
  nextHeader : Nat
  hopLimit : Nat
  source : Bytes
  destination : Bytes
  sourcePort : Nat
  destinationPort : Nat
  udpLength : Nat
  udpChecksum : Nat
  udpPayload : Bytes
  deriving DecidableEq, Repr

structure CoapOptionValue where
  number : Nat
  value : Bytes
  deriving DecidableEq, Repr

structure CoapMessage where
  version : Nat
  messageType : Nat
  code : Nat
  messageId : Nat
  token : Bytes
  options : List CoapOptionValue
  payload : Bytes
  deriving DecidableEq, Repr

structure Ipv6UdpCoapPacket where
  udp : Ipv6UdpPacket
  coapMessage : CoapMessage
  deriving DecidableEq, Repr

def Ipv6UdpCoapPacket.coapDatagram (packet : Ipv6UdpCoapPacket) : Bytes := packet.udp.udpPayload

-- ---------------------------------------------------------------------------
-- coap-lite
-- ---------------------------------------------------------------------------

inductive MessageType
  | confirmable
  | nonConfirmable
  | acknowledgement
  | reset
  deriving DecidableEq, Repr

inductive RequestType
  | get
  | post
  | put
  | delete
  | fetch
  | patch
  | iPatch
  | unknown
  deriving DecidableEq, Repr

inductive ResponseType
  | changed
  | content
  | badRequest
  | notFound
  | methodNotAllowed
  | conflict
  | preconditionFailed
  | internalServerError
  | other (code : Nat)
  deriving DecidableEq, Repr

inductive MessageClass
  | empty
  | request (type : RequestType)
  | response (type : ResponseType)
  | reserved (code : Nat)
  deriving DecidableEq, Repr

/-- `coap_lite::Packet`: options by number, each with its values in order. -/
structure Packet where
  messageId : Nat
  messageType : MessageType
  code : MessageClass
  token : Bytes
  options : List (Nat × List Bytes)
  payload : Bytes
  deriving DecidableEq, Repr

namespace CoapOption

def ifMatch : Nat := 1
def uriPath : Nat := 11
def contentFormat : Nat := 12

end CoapOption

def Packet.getOption (packet : Packet) (number : Nat) : Option (List Bytes) :=
  packet.options.lookup number

-- ---------------------------------------------------------------------------
-- rustconf: model, instances and datastore
-- ---------------------------------------------------------------------------

inductive CoreconfError
  | validationError (message : String)
  | other (text : String)
  deriving DecidableEq, Repr

inductive PathComponent
  | sidDelta (delta : Int)
  | keyValue (value : Json)
  deriving DecidableEq, Repr

structure InstancePath where
  components : List PathComponent
  deriving DecidableEq, Repr

structure Instance where
  path : InstancePath
  value : Option Json
  deriving DecidableEq, Repr

structure CompositeModel where
  getSid : String → Option Int
  getIdentifier : Int → Option String
  getKeys : Int → Option (List Int)
  identifierValueToSidValueAtPath : Json → String → Except String Json
  sidValueToIdentifierValueAtPath : Json → String → Except String Json
  identitySidForValue : Json → Except String Int
  /-- `codec::json_to_cbor_value(model, value, 0)`. -/
  jsonToCborValue : Json → Except String Cbor
  /-- `codec::identifier_json_to_cbor_value`. -/
  identifierJsonToCborValue : Json → Except CoreconfError Cbor
  decodeInstancesWithModel : Bytes → Except String (List Instance)
  /-- `decode_instances_with_model_to_identifier_at_path(model, bytes, false)`. -/
  decodeInstancesToIdentifierAtPath : Bytes → Except String (List Instance)

structure Datastore where
  tree : Json

def Datastore.getAll (store : Datastore) : Json := store.tree

structure CoreconfModel where
  compositeModel : CompositeModel
  /-- `model.to_value`: the identifier-keyed tree of CBOR bytes. -/
  toValue : Bytes → Except String Json
  /-- `Datastore::with_data`. -/
  withData : Json → Except String Datastore
  createXpath : Datastore → Int → List Json → Except String String
  getPath : Datastore → String → Except String (Option Json)
  setPath : Datastore → String → Json → Except String Datastore

-- ---------------------------------------------------------------------------
-- rustconf: requests and the request handler
-- ---------------------------------------------------------------------------

inductive Method
  | get
  | fetch
  | iPatch
  | other
  deriving DecidableEq, Repr

inductive Interface
  | management
  | other
  deriving DecidableEq, Repr

inductive ContentFormat
  | yangDataCborSid
  | yangIdentifiersCborSeq
  | yangInstancesCborSeq
  | other (code : Nat)
  deriving DecidableEq, Repr

structure Request where
  method : Method
  path : String
  interface : Option Interface
  contentFormat : Option ContentFormat
  rawContentFormat : Option Nat
  payload : Bytes
  deriving DecidableEq, Repr

inductive ResponseCode
  | changed
  | content
  | badRequest
  | notFound
  | methodNotAllowed
  | conflict
  | internalServerError
  | other (code : Nat)
  deriving DecidableEq, Repr

/-- A rustconf response: its constructor, and what that was given. -/
inductive Response
  | changed
  | content (payload : Bytes) (format : ContentFormat)
  | methodNotAllowed (allowed : Method)
  | notFound (path : String)
  | error (code : ResponseCode) (message : String)
  deriving DecidableEq, Repr

/-- A computation over a `Backend`: the calls it makes, in order, and its answer. -/
inductive BackendProgram (α : Type) where
  | done (value : α)
  | readTree (next : Json → BackendProgram α)
  | replaceTree (tree : Json) (next : Except CoreconfError Unit → BackendProgram α)

inductive BackendProgram.ReadOnly : BackendProgram α → Prop
  | done : ReadOnly (.done value)
  | readTree : (∀ tree, ReadOnly (next tree)) → ReadOnly (.readTree next)

inductive BackendProgram.Answers : BackendProgram α → α → Prop
  | done : Answers (.done value) value
  | readTree : Answers (next tree) value → Answers (.readTree next) value
  | replaceTree : Answers (next result) value → Answers (.replaceTree tree next) value

-- ---------------------------------------------------------------------------
-- The functions themselves
-- ---------------------------------------------------------------------------

structure Ciborium where
  /-- `de::from_reader` over a cursor: the value and the position after it. -/
  fromReader : Bytes → Except String (Cbor × Nat)
  /-- `ser::into_writer` into an empty buffer. -/
  intoWriter : Cbor → Except String Bytes

structure CoapLite where
  /-- The derived `Debug` text of a code. -/
  codeText : MessageClass → String
  addOption : Packet → Nat → Bytes → Packet
  clearOption : Packet → Nat → Packet
  fromBytes : Bytes → Except String Packet
  toBytes : Packet → Except String Bytes
  toBytesUnlimited : Packet → Except String Bytes

structure Rustconf where
  /-- `CoreconfError::to_string`. -/
  errorText : CoreconfError → String
  /-- `ResponseCode::to_string`. -/
  responseCodeText : ResponseCode → String
  /-- The public field `code` of a response. -/
  responseCode : Response → ResponseCode
  /-- `ContentFormat::as_u16`. -/
  asU16 : ContentFormat → Nat
  coreconfModel : String → Except String CoreconfModel
  pushDelta : InstancePath → Int → Except String InstancePath
  absoluteSid : InstancePath → Option Int
  /-- `InstancePath::to_cbor_value`. -/
  pathToCborValue : InstancePath → Json
  /-- `PredicatePath::parse(xpath)`, by its `canonical_path`. -/
  predicatePath : String → Except String String
  packetToRequest : Packet → String → Except Response Request
  responseToPacket : Packet → Response → Packet
  /-- `RequestHandler::new(Datastore::with_backend(model, backend))`. -/
  requestHandler : CompositeModel → Except String (Request → BackendProgram Response)

structure RSchc where
  /-- `PacketError::to_string`. -/
  packetErrorText : PacketError → String
  /-- `DirectionSelector::accepts`. -/
  accepts : DirectionSelector → Direction → Bool
  /-- `RuleContext::find_rule`. -/
  findRule : RuleContext → RuleId → Option Rule
  sidRegistry : String → Except String SidRegistry
  runtime : DeviceId → RuleContext → DeviceProfile → Except String Runtime
  /-- `Ipv6UdpPacket::parse`. -/
  parsePacket : Bytes → Except PacketError Ipv6UdpPacket
  /-- `Ipv6UdpCoapPacket::from_udp_packet`. -/
  fromUdpPacket : Ipv6UdpPacket → Except PacketError Ipv6UdpCoapPacket
  /-- `Ipv6UdpCoapPacket::new(source, destination, source_port, destination_port, datagram)`. -/
  newCoapPacket : Bytes → Bytes → Nat → Nat → Bytes → Except PacketError Ipv6UdpCoapPacket

structure Deps where
  ciborium : Ciborium
  coap : CoapLite
  rustconf : Rustconf
  rschc : RSchc
  /-- `serde_json::to_vec`. -/
  serdeToVec : Json → Except String Bytes
  /-- `Value::to_string`. -/
  jsonText : Json → String
  /-- `Sha256::digest`, with its 32 bytes. -/
  sha256 : Bytes → Vector UInt8 32

def RSchc.parseCoapPacket (rschc : RSchc) (bytes : Bytes) : Except PacketError Ipv6UdpCoapPacket :=
  do rschc.fromUdpPacket (← rschc.parsePacket bytes)

end SchcCoreconf
