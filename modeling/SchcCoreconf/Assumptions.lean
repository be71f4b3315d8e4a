import SchcCoreconf.Exchange
import SchcCoreconf.Lib.CoapWire
import SchcCoreconf.Report
import SchcCoreconf.TreeRules

/-!
# What is known of the crates

The results take these as hypotheses, each only those it needs: how r-schc loads
rules, frames packets and parses them, how rustconf stores leaves and answers,
how coap-lite writes and reads messages.
-/

namespace SchcCoreconf

-- ---------------------------------------------------------------------------
-- r-schc: loading rules
-- ---------------------------------------------------------------------------

/-- r-schc reads a rule context from the rule list of the bytes, one rule from
each member; ciborium reads back a SoR it read and wrote again without some of
its rules. -/
structure ReadsRuleByRule (deps : Deps) (sidJson : String) : Prop where
  memberwise : ∀ {model registry sids}, deps.rustconf.coreconfModel sidJson = .ok model →
    deps.rschc.sidRegistry sidJson = .ok registry → ruleSids model.compositeModel = .ok sids →
    ∃ readRule : Cbor → Option Rule,
      (∀ member rule, readRule member = some rule → sids.memberId member = some rule.id) ∧
      ∀ bytes context, registry.ruleContext bytes = .ok context →
        ∃ value position members, deps.ciborium.fromReader bytes = .ok (value, position) ∧
          sids.rules value = .ok members ∧
          List.Forall₂ (fun member rule => readRule member = some rule) members context.rules
  reread : ∀ {model sids bytes value position members bytes'} (keep : Cbor → Bool),
    deps.rustconf.coreconfModel sidJson = .ok model → ruleSids model.compositeModel = .ok sids →
    deps.ciborium.fromReader bytes = .ok (value, position) → sids.rules value = .ok members →
    deps.ciborium.intoWriter (sids.setRules value (members.filter keep)) = .ok bytes' →
    ∃ position', deps.ciborium.fromReader bytes' =
      .ok (sids.setRules value (members.filter keep), position')

/-- r-schc rejects a context one of whose RuleIDs starts another. -/
def LoadsPrefixFree (deps : Deps) (sidJson : String) : Prop :=
  ∀ {registry bytes context}, deps.rschc.sidRegistry sidJson = .ok registry →
    registry.ruleContext bytes = .ok context → RuleId.PrefixFree (context.rules.map (·.id))

def RuleContext.Separated (context : RuleContext) : Prop :=
  context.rules.Pairwise fun left right => ¬RuleId.Overlap left.id right.id

/-- r-schc rejects a context with two rules one of whose RuleIDs starts the other's. -/
def LoadsSeparated (deps : Deps) (sidJson : String) : Prop :=
  ∀ {registry bytes context}, deps.rschc.sidRegistry sidJson = .ok registry →
    registry.ruleContext bytes = .ok context → context.Separated

/-- r-schc loads rules with RuleIDs of 1 to 32 bits. -/
def LoadsExplicit (deps : Deps) (sidJson : String) : Prop :=
  ∀ {registry bytes context}, deps.rschc.sidRegistry sidJson = .ok registry →
    registry.ruleContext bytes = .ok context → ∀ rule ∈ context.rules, rule.id.Explicit

/-- r-schc loads a Set-of-Rules from the root of the SCHC module. -/
def LoadsRooted (deps : Deps) (sidJson : String) : Prop :=
  ∀ {model registry rootSid bytes value context},
    deps.rustconf.coreconfModel sidJson = .ok model →
    deps.rschc.sidRegistry sidJson = .ok registry →
    model.compositeModel.getSid "/ietf-schc:schc" = some rootSid →
    strictCborValue deps.ciborium bytes = .ok value → registry.ruleContext bytes = .ok context →
      ensureSchcRoot value rootSid = .ok ()

/-- r-schc loads every rule the tree states, from the bytes of the tree. -/
def LoadsTreeRules (deps : Deps) (sidJson : String) : Prop :=
  ∀ {model registry tree sor context selector rule},
    deps.rustconf.coreconfModel sidJson = .ok model →
    deps.rschc.sidRegistry sidJson = .ok registry →
    EncodedAs deps.ciborium model tree sor → registry.ruleContext sor = .ok context →
    findTreeRule tree model.compositeModel selector = .ok (some rule) →
      ∃ rule ∈ context.rules, rule.id = selector.ruleId

/-- Every entry of the rule has a field-id, as the YANG model demands. -/
def Json.Identified (rule : Json) : Prop :=
  ∀ entries, rule.items "entry-universal" = some entries →
    ∀ entry ∈ entries, (entry.get "field-id").isSome = true

/-- r-schc loads the rules the tree states, in their order, from the bytes of the
tree; it refuses entries without a field-id. -/
structure LoadsStatedRules (deps : Deps) (sidJson : String) : Prop where
  stated : ∀ {model registry tree sor context},
    deps.rustconf.coreconfModel sidJson = .ok model →
    deps.rschc.sidRegistry sidJson = .ok registry →
    EncodedAs deps.ciborium model tree sor → registry.ruleContext sor = .ok context →
      ∃ members, RuleKeys.yang.rules tree = some members ∧
        List.Forall₂ (fun member rule => RuleKeys.yang.selects rule.id.selector member = true)
          members context.rules
  identified : ∀ {model registry tree sor context members},
    deps.rustconf.coreconfModel sidJson = .ok model →
    deps.rschc.sidRegistry sidJson = .ok registry →
    EncodedAs deps.ciborium model tree sor → registry.ruleContext sor = .ok context →
    RuleKeys.yang.rules tree = some members → ∀ member ∈ members, member.Identified

-- ---------------------------------------------------------------------------
-- r-schc: frames and packets
-- ---------------------------------------------------------------------------

/-- r-schc starts a frame with the bits of the selected RuleID, and decodes a
frame with a rule whose id starts it. -/
structure FramesCarryRuleIds (deps : Deps) : Prop where
  encode : ∀ {deviceId context profile runtime device leg packet encoded},
    deps.rschc.runtime deviceId context profile = .ok runtime →
      runtime.encodeDetailed device leg packet = .ok encoded →
        encoded.ruleId.bits <+: BitString.ofBytes encoded.frame.bytes
  decode : ∀ {deviceId context profile runtime device leg frame decoded},
    deps.rschc.runtime deviceId context profile = .ok runtime →
      runtime.decodePaddedDetailed device leg frame = .ok decoded →
        decoded.ruleId.bits <+: BitString.ofBytes frame

/-- r-schc encodes frames whose meaningful bits are among their bytes. -/
def PadsFrames (deps : Deps) : Prop :=
  ∀ {deviceId context profile runtime device leg packet encoded},
    deps.rschc.runtime deviceId context profile = .ok runtime →
      runtime.encodeDetailed device leg packet = .ok encoded →
        encoded.frame.bitLen ≤ 8 * encoded.frame.bytes.length

def NodeRole.peer : NodeRole → NodeRole
  | .core => .device
  | .device => .core

/-- A runtime decodes at one end what it encoded at the other, and what it makes of
a frame depends only on the rule whose id starts it. -/
structure RuntimesInvert (deps : Deps) : Prop where
  inverse : ∀ {deviceId context profile runtime device role packet encoded},
    deps.rschc.runtime deviceId context profile = .ok runtime →
      runtime.encodeDetailed device (.outbound role) packet = .ok encoded →
        runtime.decodePaddedDetailed device (.inbound role.peer) encoded.frame.bytes =
          .ok { ruleId := encoded.ruleId, packet }
  matched : ∀ {deviceId profile context context' runtime runtime' rule device leg frame},
    deps.rschc.runtime deviceId context profile = .ok runtime →
    deps.rschc.runtime deviceId context' profile = .ok runtime' →
    context.Separated → context'.Separated → rule ∈ context.rules → rule ∈ context'.rules →
    rule.id.bits <+: BitString.ofBytes frame →
      runtime.decodePaddedDetailed device leg frame = runtime'.decodePaddedDetailed device leg frame

def FlowLabelsFit (rschc : RSchc) : Prop :=
  ∀ {bytes packet}, rschc.parsePacket bytes = .ok packet → packet.flowLabel < 2 ^ 20

def CoapMessage.wire (message : CoapMessage) : CoapWire.Message where
  version := message.version
  messageType := message.messageType
  code := message.code
  messageId := message.messageId
  token := message.token
  options := message.options.map fun option => (option.number, option.value)
  payload := message.payload

structure CoapMessage.CarriedBy (message : CoapMessage) (datagram : Bytes) : Prop where
  wellFormed : message.wire.WellFormed
  numbers : ∀ option ∈ message.options, option.number < 2 ^ 32
  encoded : datagram = CoapWire.encode message.wire

/-- r-schc parses complete IPv6/UDP packets whose lengths are those they declare,
and CoAP messages as they are encoded; it parses the packets it builds. -/
structure PacketLaws (rschc : RSchc) : Prop where
  bytes : ∀ {bytes packet}, rschc.parsePacket bytes = .ok packet → packet.bytes = bytes
  header : ∀ {bytes packet}, rschc.parsePacket bytes = .ok packet →
    bytes.head?.map (·.toNat >>> 4) = some ipv6Version
  lengths : ∀ {bytes packet}, rschc.parsePacket bytes = .ok packet →
    bytes.length = ipv6HeaderLen + udpHeaderLen + packet.udpPayload.length ∧
      packet.ipv6PayloadLength = udpHeaderLen + packet.udpPayload.length ∧
      packet.udpLength = udpHeaderLen + packet.udpPayload.length
  coap : ∀ {udp packet}, rschc.fromUdpPacket udp = .ok packet →
    packet.udp = udp ∧ packet.coapMessage.CarriedBy udp.udpPayload
  built : ∀ {source destination sourcePort destinationPort datagram packet},
    rschc.newCoapPacket source destination sourcePort destinationPort datagram = .ok packet →
      rschc.parseCoapPacket packet.udp.bytes = .ok packet ∧ packet.udp.udpPayload = datagram

-- ---------------------------------------------------------------------------
-- coap-lite and rustconf: requests and responses
-- ---------------------------------------------------------------------------

/-- A response packet as the service serialises it. -/
def replyPacket (deps : Deps) (request : Packet) (response : Response) (type : ResponseType) :
    Packet :=
  { deps.coap.clearOption (deps.rustconf.responseToPacket request response)
      CoapOption.contentFormat with code := .response type }

def ReadsAs (coap : CoapLite) (bytes : Bytes) (type : ResponseType) : Prop :=
  ∃ packet, coap.fromBytes bytes = .ok packet ∧ packet.code = .response type

def Response.IsChanged (response : Response) : Prop :=
  response = .changed ∨ ∃ message, response = .error .changed message

/-- Response packets have the code of their response; they can be serialised without an
option, and are read back as responses of their type. -/
structure ReplyLaws (deps : Deps) : Prop where
  code : ∀ packet response, ∃ type,
    (deps.rustconf.responseToPacket packet response).code = .response type ∧
      (type = .changed ↔ response.IsChanged)
  cleared : ∀ (packet : Packet) number code, deps.coap.clearOption { packet with code } number =
    { deps.coap.clearOption packet number with code }
  written : ∀ {datagram request} response type, deps.coap.fromBytes datagram = .ok request →
    ∃ bytes kind, deps.coap.toBytesUnlimited (replyPacket deps request response type) = .ok bytes ∧
      ReadsAs deps.coap bytes kind ∧
      (kind = type ∨ (∃ code, type = .other code) ∧ kind ≠ .changed)

/-- The payload of a content answer is read back from its bytes. -/
def PayloadsReturn (deps : Deps) : Prop :=
  ∀ {datagram request payload format bytes response}, deps.coap.fromBytes datagram = .ok request →
    deps.coap.toBytesUnlimited (deps.coap.clearOption
      (deps.rustconf.responseToPacket request (.content payload format))
      CoapOption.contentFormat) = .ok bytes →
    deps.coap.fromBytes bytes = .ok response → response.payload = payload

/-- rustconf answers GET and FETCH by reading, and never with 2.04. -/
structure ManagementLaws (deps : Deps) (handler : Request → BackendProgram Response) : Prop
    extends ReplyLaws deps where
  get : ∀ {packet request}, deps.rustconf.packetToRequest packet "schc" = .ok request →
    packet.code = .request .get → request.method = .get
  fetch : ∀ {packet request}, deps.rustconf.packetToRequest packet "schc" = .ok request →
    packet.code = .request .fetch → request.method = .fetch
  rejection : ∀ {packet response}, deps.rustconf.packetToRequest packet "schc" = .error response →
    ¬response.IsChanged
  readOnly : ∀ {request}, request.method = .get ∨ request.method = .fetch →
    (handler request).ReadOnly
  inspection : ∀ {request response}, request.method = .get ∨ request.method = .fetch →
    (handler request).Answers response → ¬response.IsChanged

/-- The request packets coap-lite reads back as they were written: known method,
token, message ID and values in range, and every option number once, in order. -/
structure Packet.Serializable (packet : Packet) : Prop where
  request : ∃ type, type ≠ .unknown ∧ packet.code = .request type
  messageId : packet.messageId < 2 ^ 16
  token : packet.token.length ≤ 8
  ordered : packet.options.Pairwise fun left right => left.1 < right.1
  values : ∀ option ∈ packet.options, option.2 ≠ [] ∧ ∀ value ∈ option.2, value.length < 2 ^ 16

/-- The options with one more value of that number, in the order of the numbers. -/
def insertOption (number : Nat) (value : Bytes) :
    List (Nat × List Bytes) → List (Nat × List Bytes)
  | [] => [(number, [value])]
  | (n, values) :: rest =>
    if n = number then (n, values ++ [value]) :: rest
    else if number < n then (number, [value]) :: (n, values) :: rest
    else (n, values) :: insertOption number value rest

def AddsOptions (coap : CoapLite) : Prop :=
  ∀ packet number value, coap.addOption packet number value =
    { packet with options := insertOption number value packet.options }

/-- coap-lite builds request packets, and reads back those it writes. -/
structure RequestsRoundTrip (coap : CoapLite) : Prop where
  added : AddsOptions coap
  read : ∀ {packet bytes}, packet.Serializable → coap.toBytes packet = .ok bytes →
    coap.fromBytes bytes = .ok packet

/-- coap-lite and r-schc read one code from a response datagram. -/
structure CodesAgree (deps : Deps) : Prop where
  changed : ∀ {source destination sourcePort destinationPort datagram packet type},
    deps.rschc.newCoapPacket source destination sourcePort destinationPort datagram = .ok packet →
      ReadsAs deps.coap datagram type → (packet.coapMessage.code = 68 ↔ type = .changed)
  preconditionFailed : ∀ {source destination sourcePort destinationPort datagram packet type},
    deps.rschc.newCoapPacket source destination sourcePort destinationPort datagram = .ok packet →
      ReadsAs deps.coap datagram type → (packet.coapMessage.code = 140 ↔ type = .preconditionFailed)

/-- coap-lite writes the message ID and the token where r-schc reads them. -/
def HeadersAgree (deps : Deps) : Prop :=
  ∀ {packet : Packet} {source destination sourcePort destinationPort datagram carried},
    packet.messageId < 2 ^ 16 → packet.token.length ≤ 8 →
    deps.coap.toBytes packet = .ok datagram →
    deps.rschc.newCoapPacket source destination sourcePort destinationPort datagram = .ok carried →
      carried.coapMessage.messageId = packet.messageId ∧ carried.coapMessage.token = packet.token

-- ---------------------------------------------------------------------------
-- rustconf: the datastore
-- ---------------------------------------------------------------------------

/-- The trees rustconf reads have no floats: the numbers of YANG are integers, and its
decimals are strings in JSON. -/
def ReadsNoFloats (deps : Deps) (sidJson : String) : Prop :=
  ∀ model bytes tree, deps.rustconf.coreconfModel sidJson = .ok model →
    model.toValue bytes = .ok tree → tree.FloatFree

/-- What was written to a rustconf datastore can be loaded again; neither the text of an
XPath nor whether it can be read depends on the data, and a target value that was set
can be set once more. -/
structure DatastoreLaws (deps : Deps) (sidJson : String) : Prop where
  reload : ∀ {model store store' xpath value}, deps.rustconf.coreconfModel sidJson = .ok model →
    model.setPath store xpath value = .ok store' → model.withData store'.tree = .ok store'
  xpath : ∀ {model store sid keys xpath} store', deps.rustconf.coreconfModel sidJson = .ok model →
    model.createXpath store sid keys = .ok xpath → model.createXpath store' sid keys = .ok xpath
  readable : ∀ {model store store' xpath other value found},
    deps.rustconf.coreconfModel sidJson = .ok model → model.setPath store xpath value = .ok store' →
    model.getPath store other = .ok found → ∃ found', model.getPath store' other = .ok found'
  again : ∀ {model store store' sid keys xpath value address index},
    deps.rustconf.coreconfModel sidJson = .ok model → model.createXpath store sid keys = .ok xpath →
    LeafAddress.NamedBy address model.compositeModel sid keys → address.leaf = .target index →
    model.setPath store xpath value = .ok store' →
    ∃ again, model.setPath store' xpath value = .ok again

/-- rustconf stores leaves in the rules of a tree, where their paths name them: what
it makes of a rule does not depend on the rest of the tree. A leaf that is there is
replaced; where it is not, it may be added to its entry, and an entry that is not
there added without a field-id. -/
structure SetsLeaves (deps : Deps) (sidJson : String)
    (put : LeafAddress → Json → Json → Option Json) :
    Prop where
  names : ∀ {model}, deps.rustconf.coreconfModel sidJson = .ok model → SidNames model.compositeModel
  floatFree : ReadsNoFloats deps sidJson
  leafSid : ∀ {path sid}, deps.rustconf.absoluteSid path = some sid →
    path.absoluteSids.getLast? = some sid
  tree : ∀ {model tree store}, deps.rustconf.coreconfModel sidJson = .ok model →
    model.withData tree = .ok store → store.tree = tree
  set : ∀ {model store sid keys xpath address rule} value,
    deps.rustconf.coreconfModel sidJson = .ok model → model.createXpath store sid keys = .ok xpath →
    address.NamedBy model.compositeModel sid keys →
    RuleKeys.yang.find store.tree address.entry.rule = some rule →
      (model.setPath store xpath value).toOption.map Datastore.tree =
        (put address value rule).map fun next =>
          RuleKeys.yang.updateRule address.entry.rule (fun _ => next) store.tree
  members : ∀ {address value rule next}, put address value rule = some next →
    ∀ key, key ≠ "entry-universal" → next.get key = rule.get key
  replaced : ∀ {address value rule next}, put address value rule = some next →
    (address.readRule rule).isSome = true → next = address.writeRule value rule
  added : ∀ {address value rule next entry}, put address value rule = some next →
    address.entry.readRule rule = some entry →
      ∃ entry', address.leaf.Sets value entry entry' ∧
        next = rule.updateIn "entry-universal" (hasU64 · "entry-index" address.entry.entryIndex)
          fun _ => entry'
  unidentified : ∀ {address value rule next}, put address value rule = some next →
    address.entry.readRule rule = none → ¬next.Identified

/-- rustconf reads the leaf, or the entry, that a path names. -/
structure ReadsLeaves (deps : Deps) (sidJson : String) : Prop where
  leaf : ∀ {model store sid keys xpath address found},
    deps.rustconf.coreconfModel sidJson = .ok model →
    model.createXpath store sid keys = .ok xpath →
    LeafAddress.NamedBy address model.compositeModel sid keys →
    model.getPath store xpath = .ok found → found = address.read store.tree
  entry : ∀ {model store sid keys xpath address found},
    deps.rustconf.coreconfModel sidJson = .ok model →
    model.createXpath store sid keys = .ok xpath →
    model.compositeModel.getSid "/ietf-schc:schc/rule/entry-universal" = some sid →
    EntryAddress.keys address = keys →
    model.getPath store xpath = .ok found → found = address.read store.tree

/-- rustconf accepts a tree for what is outside its rule list and for each of its rules. -/
def AcceptsRules (deps : Deps) (sidJson : String) : Prop :=
  ∀ {model}, deps.rustconf.coreconfModel sidJson = .ok model → ∃ accepts : Json → Prop,
    ∀ {tree rules}, RuleKeys.yang.rules tree = some rules → RuleKeys.Ordered rules →
      ((∃ store, model.withData tree = .ok store) ↔
        (∃ store, model.withData (RuleKeys.yang.setRules tree []) = .ok store) ∧
          ∀ rule ∈ rules, accepts rule)

end SchcCoreconf
