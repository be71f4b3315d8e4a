import SchcCoreconf.Atomicity
import SchcCoreconf.Frames
import SchcCoreconf.Lib.CoapWire
import SchcCoreconf.RpcCost

/-!
# Which frames end the process

Every error of a received frame is a drop, but for one: in debug mode the report
of a duplicate-rule request decodes its payload, and a payload it rejects makes
the outcome fatal. The other checks of a report pass on every packet that was
parsed, since they ask again what parsing has established.
-/

namespace SchcCoreconf

open Fallible

-- ---------------------------------------------------------------------------
-- The dissection of a CoAP datagram
-- ---------------------------------------------------------------------------

theorem readCoapExtended_of_readExtended
    (h : CoapWire.readExtended nibble bytes = some (n, rest)) (label : String) :
    readCoapExtended nibble bytes label = .ok (n, rest) := by
  unfold CoapWire.readExtended at h
  unfold readCoapExtended
  split at h
  · rw [if_pos (by omega)]
    simpa using h
  · rw [if_neg (by omega)]
    split at h
    · rw [if_pos ‹_›]
      split at h
      · simpa using h
      · cases h
    · rw [if_neg ‹_›]
      split at h
      · rw [if_pos ‹_›]
        split at h
        · simpa using h
        · cases h
      · cases h

theorem nat_shiftRight_four (n : Nat) : n >>> 4 = n / 16 := Nat.shiftRight_eq_div_pow n 4

theorem nat_and_fifteen (n : Nat) : n &&& 0x0f = n % 16 := Nat.and_two_pow_sub_one_eq_mod n 4

theorem extendedBytes_nibble (n : Nat) :
    extendedBytes (CoapWire.nibble n) = (CoapWire.extension n).length := by
  unfold extendedBytes CoapWire.nibble CoapWire.extension
  split
  · rw [if_neg (by omega), if_neg (by omega)]
    rfl
  · split <;> rfl

def encodedOptionCost (previous number : Nat) (value : Bytes) : CoapOptionCost where
  number
  valueBytes := value.length
  headerBytes := 1
  deltaExtensionBytes := (CoapWire.extension (number - previous)).length
  lengthExtensionBytes := (CoapWire.extension value.length).length
  encodedBytes := (CoapWire.encodeOption (number - previous) value).length

theorem inspectCoapOptions_option (hle : previous ≤ number)
    (hdelta : number - previous < CoapWire.extendedLimit)
    (hlength : value.length < CoapWire.extendedLimit) (hnumber : number < 2 ^ 32) :
    inspectCoapOptions (fuel + 1) previous
        (CoapWire.encodeOption (number - previous) value ++ bytes) =
      (inspectCoapOptions fuel number bytes).map fun (costs, payload) =>
        (encodedOptionCost previous number value :: costs, payload) := by
  obtain ⟨hhigh, hlow, hmarker⟩ := CoapWire.header_nibbles (number - previous) value.length
  have hsum : previous + (number - previous) = number := by omega
  have hdeltaRead (rest : Bytes) :=
    readCoapExtended_of_readExtended (CoapWire.readExtended_extension hdelta rest) "delta"
  have hlengthRead (rest : Bytes) :=
    readCoapExtended_of_readExtended (CoapWire.readExtended_extension hlength rest) "length"
  have hcost : (CoapWire.encodeOption (number - previous) value).length =
      1 + (CoapWire.extension (number - previous)).length +
        (CoapWire.extension value.length).length + value.length := by
    simp only [CoapWire.encodeOption, List.length_cons, List.length_append]
    omega
  simp only [CoapWire.encodeOption, List.cons_append, List.append_assoc, inspectCoapOptions]
  have hheader : UInt8.ofNat (CoapWire.nibble (number - previous) * 16 +
      CoapWire.nibble value.length) ≠ 0xff := hmarker
  rw [if_neg hheader]
  simp only [nat_shiftRight_four, nat_and_fifteen, hhigh, hlow, hdeltaRead, hlengthRead, hsum,
    bind, Except.bind, ensure, hnumber, decide_true, if_true]
  rw [if_pos (by simp)]
  cases hrest : inspectCoapOptions fuel number bytes with
  | error error => simp [hrest, Except.map]
  | ok pair =>
    simp [hrest, Except.map, pure, Except.pure, encodedOptionCost, extendedBytes_nibble, hcost]

structure CostsOf (costs : List CoapOptionCost) (previous : Nat) (encoded : List (Nat × Bytes)) :
    Prop where
  options : costs.map (fun cost => (cost.number, cost.valueBytes)) =
    encoded.map fun option => (option.1, option.2.length)
  bytes : (costs.map (·.encodedBytes)).sum = (CoapWire.encodeOptions previous encoded).length

theorem inspectCoapOptions_encode (payload : Bytes)
    (hfit : CoapWire.OptionsFit previous options)
    (hnumbers : ∀ option ∈ options, option.1 < 2 ^ 32)
    (hfuel : (CoapWire.encodeOptions previous options ++
      CoapWire.encodePayload payload).length ≤ fuel) :
    ∃ costs, inspectCoapOptions fuel previous
        (CoapWire.encodeOptions previous options ++ CoapWire.encodePayload payload) =
      .ok (costs, payload) ∧ CostsOf costs previous options := by
  induction options generalizing previous fuel with
  | nil =>
    refine ⟨[], ?_, rfl, rfl⟩
    cases payload with
    | nil => cases fuel <;> rfl
    | cons byte rest =>
      cases fuel with
      | zero => simp [CoapWire.encodeOptions, CoapWire.encodePayload] at hfuel
      | succ fuel => rfl
  | cons option rest ih =>
    obtain ⟨number, value⟩ := option
    obtain ⟨hle, hdelta, hlength, hrest⟩ := hfit
    have hnumber : number < 2 ^ 32 := hnumbers (number, value) List.mem_cons_self
    simp only [CoapWire.encodeOptions, List.append_assoc, List.length_append] at hfuel ⊢
    obtain ⟨fuel, rfl⟩ : ∃ smaller, fuel = smaller + 1 :=
      Nat.exists_eq_add_one.mpr (by simp only [CoapWire.encodeOption,
        List.length_cons] at hfuel; omega)
    have hbytes : (CoapWire.encodeOptions number rest ++
        CoapWire.encodePayload payload).length ≤ fuel := by
      simp only [CoapWire.encodeOption, List.length_cons] at hfuel
      rw [List.length_append]
      omega
    obtain ⟨costs, hcosts, hof⟩ := ih hrest
      (fun other hother => hnumbers other (List.mem_cons_of_mem _ hother)) hbytes
    refine ⟨encodedOptionCost previous number value :: costs, ?_, ?_, ?_⟩
    · rw [inspectCoapOptions_option hle hdelta hlength hnumber, hcosts]
      rfl
    · simp [encodedOptionCost, hof.options]
    · simp [encodedOptionCost, hof.bytes, CoapWire.encodeOptions]

theorem all_matchesOption {costs : List CoapOptionCost} {options : List CoapOptionValue}
    (h : costs.map (fun cost => (cost.number, cost.valueBytes)) =
      options.map fun option => (option.number, option.value.length)) :
    (costs.zip options).all (fun pair => pair.1.matchesOption pair.2) = true := by
  induction costs generalizing options with
  | nil => rfl
  | cons cost rest ih =>
    cases options with
    | nil => rfl
    | cons option others =>
      obtain ⟨hfirst, hrest⟩ := List.cons.inj h
      obtain ⟨hnumber, hvalue⟩ := Prod.mk.inj hfirst
      rw [List.zip_cons_cons, List.all_cons, ih hrest]
      simp [CoapOptionCost.matchesOption, hnumber, hvalue]

/-- A datagram that carries a message is charged all its bytes. -/
theorem inspectCoap_ok {message : CoapMessage} (h : message.CarriedBy datagram) :
    ∃ cost, inspectCoap datagram message = .ok cost ∧ cost.sum = datagram.length := by
  obtain ⟨hwell, hnumbers, rfl⟩ := h
  obtain ⟨costs, hcosts, hof⟩ := inspectCoapOptions_encode message.payload hwell.options
    (by simpa [CoapMessage.wire] using hnumbers) le_rfl
  have hversion := hwell.version
  have htype := hwell.messageType
  have htoken := hwell.token
  have hpairs : costs.map (fun cost => (cost.number, cost.valueBytes)) =
      message.options.map fun option => (option.number, option.value.length) := by
    rw [hof.options, CoapMessage.wire, List.map_map]
    rfl
  have hlength : costs.length = message.options.length := by
    simpa using congrArg List.length hpairs
  have hfirst : (UInt8.ofNat (message.wire.version * 64 + message.wire.messageType * 16 +
      message.wire.token.length)).toNat &&& 0x0f = message.token.length := by
    rw [CoapWire.toNat_ofNat (by omega), nat_and_fifteen]
    change _ % 16 = message.wire.token.length
    omega
  have hinside : message.token.length ≤ (message.wire.token ++
      (CoapWire.encodeOptions 0 message.wire.options ++
        CoapWire.encodePayload message.wire.payload)).length := by
    simp [CoapMessage.wire]
  have hdrop : (message.wire.token ++ (CoapWire.encodeOptions 0 message.wire.options ++
      CoapWire.encodePayload message.wire.payload)).drop message.token.length =
      CoapWire.encodeOptions 0 message.wire.options ++ CoapWire.encodePayload message.payload :=
    List.drop_left
  refine ⟨{
    baseHeaderBytes := 4
    tokenBytes := message.token.length
    options := costs
    payloadMarkerBytes := if message.payload.isEmpty then 0 else 1
    payloadBytes := message.payload.length
    totalBytes := (CoapWire.encode message.wire).length }, ?_, ?_⟩
  · simp only [CoapWire.encode, inspectCoap, hfirst, hdrop, bind_ok, ensure_ok, pure_ok]
    exact ⟨(), by simpa using hinside, (costs, message.payload), hcosts, (), by simp [hlength], (),
      all_matchesOption hpairs, rfl⟩
  · simp only [CoapCost.sum, hof.bytes, CoapWire.encode, List.length_cons, List.length_append]
    cases hpayload : message.payload <;>
      simp [CoapMessage.wire, CoapWire.encodePayload, hpayload] <;> omega

-- ---------------------------------------------------------------------------
-- Reports of parsed packets
-- ---------------------------------------------------------------------------

theorem RSchc.parseCoapPacket_ok {rschc : RSchc} (laws : PacketLaws rschc)
    (h : rschc.parseCoapPacket bytes = .ok packet) :
    rschc.parsePacket bytes = .ok packet.udp ∧ rschc.fromUdpPacket packet.udp = .ok packet := by
  simp only [parseCoapPacket, bind_ok] at h
  obtain ⟨udp, hudp, hpacket⟩ := h
  obtain ⟨rfl, -⟩ := laws.coap hpacket
  exact ⟨hudp, hpacket⟩

theorem inspectLayers_ok (laws : PacketLaws deps.rschc)
    (h : deps.rschc.parseCoapPacket bytes = .ok packet) :
    ∃ version layers, inspectLayers deps bytes = .ok (version, packet, layers) := by
  obtain ⟨hudp, hpacket⟩ := RSchc.parseCoapPacket_ok laws h
  obtain ⟨hlength, hpayloadLength, hudpLength⟩ := laws.lengths hudp
  obtain ⟨cost, hcost, hsum⟩ := inspectCoap_ok (laws.coap hpacket).2
  have hversion : bytes.head?.elim 0 (·.toNat >>> 4) = ipv6Version := by
    obtain ⟨first, hfirst, hnibble⟩ := Option.map_eq_some_iff.mp (laws.header hudp)
    rw [hfirst]
    exact hnibble
  have hdatagram : packet.coapDatagram.length = packet.udp.udpPayload.length := rfl
  simp only [inspectLayers, hversion, h, bind_ok, ensure_ok, mapError_ok, pure_ok,
    decide_eq_true_eq, Bool.and_eq_true]
  exact ⟨_, _, (), by omega, (), trivial, packet, rfl, (), by omega, (), by omega, cost, hcost, (),
    hsum, (), by omega, rfl⟩

/-- The report of one operation on a packet: what the link states of it. -/
structure ReportsPacket (rschc : RSchc) (report : LinkReport) (packet : Ipv6UdpCoapPacket) :
    Prop where
  parsed : rschc.parseCoapPacket report.packetBytes = .ok packet
  packetSize : report.packetSize = report.packetBytes.length
  paddedByteLen : report.paddedByteLen = report.frameBytes.length
  schcBitLen : ∃ bits, report.schcBitLen = some bits ∧ bits ≤ report.paddedByteLen * 8

/-- In debug mode, the payload of a duplicate-rule request is one the report can charge. -/
def Reportable (deps : Deps) (report : LinkReport) (payload : Bytes) (debug : Bool) : Prop :=
  debug = true → ∀ sidJson, report.managementRpcSid = some sidJson →
    ∃ cost, duplicateRpcCost deps sidJson payload = .ok cost

theorem inspectRpc_ok_iff {report : LinkReport} {payload : Bytes} :
    (∃ rpc, inspectRpc deps report payload = .ok rpc) ↔ Reportable deps report payload true := by
  unfold inspectRpc Reportable
  split
  · next hnone => simp [hnone]
  · next sidJson hsome => simp [hsome, map_ok, mapError_ok]

theorem validateLineReport_ok {report : LinkReport} (h : ReportsPacket rschc report packet) :
    validateLineReport report = .ok () := by
  simp [validateLineReport, bind_ok, ensure_ok, h.packetSize, h.paddedByteLen]

/-- Of all the checks of a report only the one on a request's payload can fail. -/
theorem inspectReport_ok_iff (laws : PacketLaws deps.rschc)
    (h : ReportsPacket deps.rschc report packet) :
    (∃ inspected, inspectReport deps report = .ok inspected) ↔
      Reportable deps report packet.coapMessage.payload true := by
  obtain ⟨version, layers, hlayers⟩ := inspectLayers_ok laws h.parsed
  obtain ⟨bits, hbits, hpadded⟩ := h.schcBitLen
  rw [← inspectRpc_ok_iff]
  simp only [inspectReport, validateLineReport_ok h, hlayers, inspectSchc, hbits, need, ensure,
    hpadded, decide_true, bind, Except.bind, if_true]
  cases inspectRpc deps report packet.coapMessage.payload <;> simp [pure, Except.pure]

theorem printReport_ok_iff (laws : PacketLaws deps.rschc)
    (h : ReportsPacket deps.rschc report packet) (direction : ReportDirection) (debug : Bool) :
    printReport deps direction report debug = .ok () ↔
      Reportable deps report packet.coapMessage.payload debug := by
  have hprint : printReport deps direction report debug = .ok () ↔
      ∃ formatted, formatReport deps direction report debug = .ok formatted := by
    simp [printReport, map_ok, mapError_ok]
  rw [hprint]
  cases debug with
  | false => simp [formatReport, validateLineReport_ok h, Reportable]
  | true =>
    rw [← inspectReport_ok_iff laws h]
    simp [formatReport, validateLineReport_ok h, bind_ok, map_ok]

-- ---------------------------------------------------------------------------
-- Reports of the link
-- ---------------------------------------------------------------------------

def ContextData.PadsFrames (data : ContextData) : Prop :=
  ∀ origin device leg packet encoded,
    (data.runtimeFor origin).encodeDetailed device leg packet = .ok encoded →
      encoded.frame.bitLen ≤ 8 * encoded.frame.bytes.length

theorem ContextData.Derived.padsFrames {recipe : ContextRecipe} {data : ContextData}
    (hpads : SchcCoreconf.PadsFrames deps) (h : data.Derived deps recipe) : data.PadsFrames := by
  intro origin device leg packet encoded hencode
  obtain ⟨_, _, -, -, -, -, hruntime⟩ := h.full
  obtain ⟨_, happlication⟩ := h.application
  cases origin with
  | application => exact hpads happlication hencode
  | management => exact hpads hruntime hencode

namespace SchcLink

theorem decode_reports (laws : PacketLaws deps.rschc) {self : SchcLink}
    (hpads : active.snapshot.data.PadsFrames) (h : self.decode deps active frame = .ok decoded) :
    ReportsPacket deps.rschc decoded.report decoded.packet := by
  simp only [decode, decodePacket, bind_ok, mapError_ok, pure_ok, ensure_ok] at h
  obtain ⟨_, ⟨_, -, inner, -, trafficClass, -, udp, hudp, canonical, hencode, _, hcanonical, rfl⟩,
    packet, hpacket, rfl⟩ := h
  have hframe : canonical.frame.bytes = frame := by
    simp only [Bool.and_eq_true, decide_eq_true_eq] at hcanonical
    exact hcanonical.2
  refine ⟨?_, rfl, rfl, canonical.frame.bitLen, rfl, ?_⟩
  · rw [RSchc.parseCoapPacket, laws.bytes hudp, hudp]
    exact hpacket
  · have hpadded : canonical.frame.bitLen ≤ 8 * canonical.frame.bytes.length := by
      split at hencode
      · exact hpads .management _ _ _ _ hencode
      · exact hpads .application _ _ _ _ hencode
    rw [hframe] at hpadded
    simpa [Nat.mul_comm] using hpadded

theorem encode_reports (laws : PacketLaws deps.rschc) {self : SchcLink} {packet : Ipv6UdpCoapPacket}
    (hpads : active.snapshot.data.PadsFrames)
    (hbuilt : deps.rschc.newCoapPacket source destination sourcePort destinationPort datagram =
      .ok packet)
    (h : self.encode deps active origin packet = .ok encoding) :
    ReportsPacket deps.rschc encoding.report packet ∧
      encoding.report.managementRpcSid =
        managementRpcSid deps active encoding.report.trafficClass datagram := by
  obtain ⟨hparsed, rfl⟩ := laws.built hbuilt
  obtain ⟨padded, hencode, hframe, -⟩ := encodeValidated_ok h
  have hpadded := hpads _ _ _ _ _ hencode
  rw [← hframe] at hpadded
  simp only [encode, encodeValidated, bind_ok, mapError_ok, pure_ok] at h
  obtain ⟨encoded, -, trafficClass, -, _, -, rfl⟩ := h
  exact ⟨⟨hparsed, rfl, rfl, encoded.frame.bitLen, rfl, Nat.mul_comm 8 _ ▸ hpadded⟩, rfl⟩

end SchcLink

/-- The report can charge the duplicate-rule request a frame carries, if it carries one. -/
def ChargesDuplicate (deps : Deps) (active : ActiveContext) (link : SchcLink) (frame : Bytes) :
    Prop :=
  ∀ decoded, link.decode deps active frame = .ok decoded → decoded.route = .protectedManagement →
    isDuplicateRuleDatagram deps.coap decoded.packet.coapDatagram = true →
    ∃ cost, duplicateRpcCost deps active.recipe.sidJson
      decoded.packet.coapMessage.payload = .ok cost

theorem SchcLink.decode_reportable_iff {self : SchcLink} (packets : PacketLaws deps.rschc)
    (h : self.decode deps active frame = .ok decoded) (debug : Bool) :
    Reportable deps decoded.report decoded.packet.coapMessage.payload debug ↔
      (debug = true → ChargesDuplicate deps active self frame) := by
  have hsid : decoded.report.managementRpcSid =
      if decoded.route = .protectedManagement ∧
          isDuplicateRuleDatagram deps.coap decoded.packet.coapDatagram = true then
        some active.recipe.sidJson else none := by
    simp only [decode, decodePacket, bind_ok, mapError_ok, pure_ok, ensure_ok] at h
    obtain ⟨_, ⟨_, -, _, -, trafficClass, -, udp, -, _, -, _, -, rfl⟩, packet, hpacket, rfl⟩ := h
    obtain ⟨rfl, -⟩ := packets.coap hpacket
    cases trafficClass <;> simp [managementRpcSid, TrafficClass.route,
      Ipv6UdpCoapPacket.coapDatagram]
  constructor
  · intro hreportable hdebug other hother hroute hshape
    cases h.symm.trans hother
    exact hreportable hdebug _ (by rw [hsid, if_pos ⟨hroute, hshape⟩])
  · intro hcharges hdebug sidJson hsome
    rw [hsid] at hsome
    split at hsome
    · next hcarries =>
      cases hsome
      exact hcharges hdebug decoded h hcarries.1 hcarries.2
    · cases hsome

-- ---------------------------------------------------------------------------
-- Answers are never duplicate-rule requests
-- ---------------------------------------------------------------------------

theorem ReadsAs.not_duplicate (h : ReadsAs coap bytes type) :
    isDuplicateRuleDatagram coap bytes = false := by
  obtain ⟨packet, hpacket, hcode⟩ := h
  simp [isDuplicateRuleDatagram, hpacket, isDuplicateRuleCoapShape, hcode]

theorem InspectionService.handleDatagram_reply {self : InspectionService}
    (laws : ManagementLaws deps self.handler) {state : BackendState}
    (h : (self.handleDatagram deps state datagram).result = some (.ok bytes)) :
    ∃ type, ReadsAs deps.coap bytes type := by
  cases hpacket : deps.coap.fromBytes datagram with
  | error error => simp [handleDatagram, hpacket, answer] at h
  | ok packet =>
    obtain ⟨type, hreply⟩ : ∃ type, IsReply deps packet type (.ok bytes) := by
      rcases handleDatagram_cases laws state hpacket with hrefused | hpatched
      · obtain ⟨type, -, hreply⟩ := hrefused.2 bytes h
        exact ⟨type, hreply⟩
      · obtain ⟨-, -, result, hresult, hreply⟩ := hpatched
        cases hresult.symm.trans h
        exact ⟨.changed, hreply⟩
    obtain ⟨_, kind, hbytes, hreads, -⟩ := hreply.ok laws.toReplyLaws hpacket
    cases hbytes
    exact ⟨kind, hreads⟩

theorem sendManagementResponse_not_fatal (packets : PacketLaws deps.rschc) {active : ActiveContext}
    (hpads : active.snapshot.data.PadsFrames)
    {result : Except InspectionError Bytes} {link : SchcLink} {debug : Bool}
    (hreply : ∀ bytes, result = .ok bytes → ∃ type, ReadsAs deps.coap bytes type) :
    ¬PacketOutcomeError.Fatal (sendManagementResponse deps active link debug result) := by
  rintro ⟨message, hfatal⟩
  simp only [sendManagementResponse, managementResponse, bind_error, mapError_error, bind_ok,
    mapError_ok] at hfatal
  rcases hfatal with (⟨_, -, hdrop⟩ | ⟨_, -, _, -, hdrop⟩) | ⟨response, ⟨bytes, hbytes, hbuilt⟩,
    ⟨_, -, hdrop⟩ | ⟨encoding, hencoding, ⟨error, hprint, -⟩ | ⟨_, -, hdone⟩⟩⟩
  · cases hdrop
  · cases hdrop
  · cases hdrop
  · obtain ⟨type, hreads⟩ := hreply bytes hbytes
    obtain ⟨hreports, hsid⟩ := SchcLink.encode_reports packets hpads hbuilt hencoding
    have hok : printReport deps .tx encoding.report debug = .ok () := by
      refine (printReport_ok_iff packets hreports .tx debug).mpr fun _ sidJson hsome => ?_
      rw [hsid, SchcLink.managementRpcSid, hreads.not_duplicate, Bool.and_false,
        if_neg Bool.false_ne_true] at hsome
      cases hsome
    rw [hok] at hprint
    cases hprint
  · cases hdone

theorem handleDeviceRequest_not_fatal {service : InspectionService}
    (laws : ManagementLaws deps service.handler) (packets : PacketLaws deps.rschc)
    (hpads : PadsFrames deps) {state : BackendState}
    (hsound : ActiveContext.Sound deps initial state.active)
    (h : (handleDeviceRequest deps link service state debug datagram).result = some result) :
    ¬PacketOutcomeError.Fatal result := by
  unfold handleDeviceRequest at h
  split at h
  · obtain ⟨_, -, rfl⟩ := Option.map_eq_some_iff.mp h
    rintro ⟨_, hfatal⟩
    cases hfatal
  · obtain ⟨answer, hanswer, rfl⟩ := Option.map_eq_some_iff.mp h
    have hafter := (service.handleDatagram_writes deps state datagram).sound hsound
    exact sendManagementResponse_not_fatal packets (hafter.current.padsFrames hpads)
      fun bytes hbytes => InspectionService.handleDatagram_reply laws (hbytes ▸ hanswer)

-- ---------------------------------------------------------------------------
-- A call ends without a panic while generations last
-- ---------------------------------------------------------------------------

theorem ActiveContext.publishLocked_isSome {self : ActiveContext}
    (h : self.snapshot.generation + 1 < 2 ^ 64) (prepared : PreparedContext) :
    ∃ active', self.publishLocked prepared = some active' := by
  simp only [publishLocked, if_pos h]
  exact ⟨_, rfl⟩

theorem ActiveContext.commit_isSome {self : ActiveContext}
    (h : self.snapshot.generation + 1 < 2 ^ 64) (answer : α)
    (candidate : Except ε PreparedContext) :
    (self.commit answer candidate).result.isSome = true := by
  cases candidate with
  | error error => rfl
  | ok prepared =>
    obtain ⟨active', hpublish⟩ := publishLocked_isSome h prepared
    simp [commit, hpublish]

theorem applyDuplicateOperation_isSome {active : ActiveContext}
    (h : active.snapshot.generation + 1 < 2 ^ 64) (deps : Deps) (model : CoreconfModel)
    (operation : DecodedDuplicateOperation) :
    (applyDuplicateOperation deps model active operation).result.isSome = true := by
  unfold applyDuplicateOperation
  split
  · rfl
  · rfl
  · next prepared _ =>
    obtain ⟨active', hpublish⟩ := ActiveContext.publishLocked_isSome h prepared
    simp [hpublish]

namespace InspectionService

theorem handleTargetIpatch_isSome {self : InspectionService} {state : BackendState}
    (h : state.active.snapshot.generation + 1 < 2 ^ 64) (packet : Packet) :
    (self.handleTargetIpatch deps state packet).result.isSome = true := by
  unfold handleTargetIpatch
  split
  · rfl
  · split
    · rfl
    · simpa [applyTargetIpatch] using ActiveContext.commit_isSome h _ _

theorem handleInspection_isSome {self : InspectionService}
    (laws : ManagementLaws deps self.handler) {state : BackendState}
    (hcode : packet.code = .request .get ∨ packet.code = .request .fetch) :
    (self.handleInspection deps state packet).result.isSome = true := by
  unfold handleInspection
  split
  · rfl
  · split
    · rfl
    · split
      · rfl
      · next request hrequest =>
        obtain ⟨⟨response, -, hresult⟩, -⟩ := (laws.readOnly
          (hcode.imp (laws.get hrequest) (laws.fetch hrequest))).run_eq deps state
        simp [hresult]

theorem handleDatagram_isSome {self : InspectionService}
    (laws : ManagementLaws deps self.handler) {state : BackendState}
    (h : state.active.snapshot.generation + 1 < 2 ^ 64) (datagram : Bytes) :
    (self.handleDatagram deps state datagram).result.isSome = true := by
  unfold handleDatagram
  split
  · rfl
  · split
    · rfl
    · split
      · split
        · rfl
        · exact handleTargetIpatch_isSome h _
      · split
        · rfl
        · split
          · next hcode => exact handleInspection_isSome laws (by simpa using hcode)
          · rfl

theorem handleDatagramNoResponse_isSome {self : InspectionService}
    (laws : ManagementLaws deps self.handler) {state : BackendState}
    (h : state.active.snapshot.generation + 1 < 2 ^ 64) (datagram : Bytes) :
    (self.handleDatagramNoResponse deps state datagram).result.isSome = true := by
  unfold handleDatagramNoResponse
  split
  · rfl
  · split
    · split
      · rfl
      · simpa using applyDuplicateOperation_isSome h deps self.model _
    · simpa using handleDatagram_isSome laws h datagram

end InspectionService

theorem receiveDeviceFrame_isSome {service : InspectionService}
    (laws : ManagementLaws deps service.handler) {state : BackendState}
    (h : state.active.snapshot.generation + 1 < 2 ^ 64) (link : SchcLink) (frame : Bytes)
    (debug : Bool) :
    (receiveDeviceFrame deps link service state frame debug).result.isSome = true := by
  unfold receiveDeviceFrame handleDeviceRequest
  split
  · rfl
  · split
    · rfl
    · split
      · split
        · split
          · simpa using InspectionService.handleDatagramNoResponse_isSome laws h _
          · simpa using InspectionService.handleDatagram_isSome laws h _
        · rfl
      · rfl

-- ---------------------------------------------------------------------------
-- The outcome of a frame
-- ---------------------------------------------------------------------------

theorem receiveDeviceFrame_fatal_iff {service : InspectionService}
    (laws : ManagementLaws deps service.handler) (packets : PacketLaws deps.rschc)
    (hpads : PadsFrames deps) {state : BackendState}
    (hsound : ActiveContext.Sound deps initial state.active)
    (link : SchcLink) (frame : Bytes) (debug : Bool) :
    (∀ result, (receiveDeviceFrame deps link service state frame debug).result = some result →
      ¬PacketOutcomeError.Fatal result) ↔
      (debug = true → ChargesDuplicate deps state.active link frame) := by
  unfold receiveDeviceFrame
  split
  · next error hdecode =>
    refine iff_of_true (fun result hresult => ?_) fun _ decoded hdecoded => ?_
    · cases hresult
      rintro ⟨_, hfatal⟩
      cases hfatal
    · simp [hdecode] at hdecoded
  · next decoded hdecode =>
    rw [← SchcLink.decode_reportable_iff packets hdecode,
      ← printReport_ok_iff packets (SchcLink.decode_reports packets
        (hsound.current.padsFrames hpads) hdecode) .rx]
    split
    · next error hprint =>
      refine iff_of_false (fun hnever => hnever _ rfl ⟨error, rfl⟩) ?_
      rw [hprint]
      simp
    · next hprint =>
      refine iff_of_true (fun result hresult => ?_) hprint
      split at hresult
      · split at hresult
        · exact handleDeviceRequest_not_fatal laws packets hpads hsound hresult
        · cases hresult
          rintro ⟨_, hfatal⟩
          cases hfatal
      · cases hresult
        rintro ⟨_, hfatal⟩
        split at hfatal <;> cases hfatal

theorem processCoreApplication_not_fatal (decoded : LinkDecoded) :
    ¬PacketOutcomeError.Fatal (processCoreApplication decoded) := by
  rintro ⟨_, hfatal⟩
  simp only [processCoreApplication, bind_error, ensure_error] at hfatal
  rcases hfatal with ⟨-, hdrop⟩ | ⟨_, -, ⟨-, hdrop⟩ | ⟨_, -, hdone⟩⟩
  · cases hdrop
  · cases hdrop
  · cases hdone

theorem processCoreRawFrame_fatal_iff (packets : PacketLaws deps.rschc) {active : ActiveContext}
    (hpads : active.snapshot.data.PadsFrames) (link : SchcLink) (frame : Bytes) (debug : Bool)
    (prepared : Option PreparedManagementRequest) :
    ¬PacketOutcomeError.Fatal (processCoreRawFrame deps active link frame debug prepared) ↔
      (debug = true → ChargesDuplicate deps active link frame) := by
  cases hdecode : link.decode deps active frame with
  | error error =>
    refine iff_of_true ?_ fun _ decoded hdecoded => by simp [hdecode] at hdecoded
    rintro ⟨_, hfatal⟩
    simp [processCoreRawFrame, hdecode, Except.mapError, bind, Except.bind] at hfatal
  | ok decoded =>
    rw [← SchcLink.decode_reportable_iff packets hdecode,
      ← printReport_ok_iff packets (SchcLink.decode_reports packets hpads hdecode) .rx]
    cases hprint : printReport deps .rx decoded.report debug with
    | error error =>
      refine iff_of_false (fun hnever => hnever ⟨error, ?_⟩) (by simp)
      simp [processCoreRawFrame, hdecode, hprint, Except.mapError, bind, Except.bind]
    | ok _ =>
      refine iff_of_true ?_ rfl
      simp only [processCoreRawFrame, hdecode, hprint, Except.mapError, bind, Except.bind]
      split
      · -- a management response that does not match is dropped
        rintro ⟨_, hfatal⟩
        split at hfatal
        · next hvalid =>
          split at hvalid <;> cases hvalid
          cases hfatal
        · cases hfatal
      · exact processCoreApplication_not_fatal decoded

/-- The duplicate-rule request a frame carries, if it carries one, has a payload that the
decoder accepts, with RuleIDs of up to 32 bits. -/
def CarriesNarrowDuplicate (deps : Deps) (active : ActiveContext)
    (link : SchcLink) (frame : Bytes) : Prop :=
  ∀ decoded, link.decode deps active frame = .ok decoded → decoded.route = .protectedManagement →
    isDuplicateRuleDatagram deps.coap decoded.packet.coapDatagram = true →
    ∃ model operation, deps.rustconf.coreconfModel active.recipe.sidJson = .ok model ∧
      decodeDuplicateOperation deps model decoded.packet.coapMessage.payload = .ok operation ∧
      StatesNarrowIds deps model decoded.packet.coapMessage.payload

theorem chargesDuplicate_iff {active : ActiveContext} {link : SchcLink}
    (hconsumes : Items.Consumes deps.ciborium.fromReader) (hwriter : WritesShortest deps.ciborium)
    (members : DecodesMembers deps active.recipe.sidJson decodeMember) :
    ChargesDuplicate deps active link frame ↔ CarriesNarrowDuplicate deps active link frame := by
  refine forall_congr' fun decoded => forall_congr' fun _ => forall_congr' fun _ => ?_
  exact forall_congr' fun _ => duplicateRpcCost_ok_iff hconsumes hwriter members

/-- A frame ends the process exactly if, in debug mode, it carries a protected duplicate-rule
request whose payload the decoder rejects or that states a RuleID of more than 32 bits; while
generations last, nothing else does. -/
theorem frame_fatal_iff {recipe : ContextRecipe} {service : InspectionService}
    {state : BackendState} (laws : ManagementLaws deps service.handler)
    (packets : PacketLaws deps.rschc) (hpads : PadsFrames deps)
    (hconsumes : Items.Consumes deps.ciborium.fromReader) (hwriter : WritesShortest deps.ciborium)
    (members : DecodesMembers deps recipe.sidJson decodeMember)
    (hreached : Reached deps recipe source prepared state.active) (link : SchcLink)
    (frame : Bytes) (debug : Bool) (awaited : Option PreparedManagementRequest) :
    ((∀ result, (receiveDeviceFrame deps link service state frame debug).result = some result →
        ¬PacketOutcomeError.Fatal result) ↔
      (debug = true → CarriesNarrowDuplicate deps state.active link frame)) ∧
    (¬PacketOutcomeError.Fatal
        (processCoreRawFrame deps state.active link frame debug awaited) ↔
      (debug = true → CarriesNarrowDuplicate deps state.active link frame)) ∧
    (state.active.snapshot.generation + 1 < 2 ^ 64 →
      (receiveDeviceFrame deps link service state frame debug).result.isSome = true) := by
  rw [← hreached.sidJson] at members
  rw [← chargesDuplicate_iff hconsumes hwriter members]
  have hsound := hreached.sound
  exact ⟨receiveDeviceFrame_fatal_iff laws packets hpads hsound link frame debug,
    processCoreRawFrame_fatal_iff packets (hsound.current.padsFrames hpads)
      link frame debug awaited,
    fun h => receiveDeviceFrame_isSome laws h link frame debug⟩

section
open Fallible Fixture

/-- A duplicate-rule request whose payload is the CBOR break byte. -/
def brokenDuplicate : Packet where
  messageId := 0
  messageType := .nonConfirmable
  code := .request .post
  token := []
  options := [(CoapOption.uriPath, [schcSegment]), (CoapOption.contentFormat, [[142]])]
  payload := [0xff]

def brokenFrame (prepared : PreparedContext) (role : NodeRole) : Except LinkError LinkEncoding :=
  let datagram := CoapWire.encode (wireOf brokenDuplicate)
  (link role).encodeValidated (deps linkWorld) (.new prepared) .management (requestPacket datagram)
    datagram

def isFatal : Except PacketOutcomeError α → Bool
  | .error (.fatal _) => true
  | _ => false

theorem isFatal_iff {result : Except PacketOutcomeError α} :
    isFatal result = true ↔ PacketOutcomeError.Fatal result := by
  unfold isFatal PacketOutcomeError.Fatal
  split
  · simp
  · next hother => exact ⟨nofun, fun ⟨message, hfatal⟩ => absurd hfatal (hother message)⟩

theorem broken_evaluated : holds (loaded linkWorld linkRules) (fun prepared =>
    holds (brokenFrame prepared .core) (fun encoding =>
      (receiveDeviceFrame (deps linkWorld) (link .device) (service linkWorld) (start prepared)
        encoding.frame.bytes true).result.any isFatal) &&
    holds (brokenFrame prepared .device) fun encoding =>
      isFatal (processCoreRawFrame (deps linkWorld) (.new prepared) (link .core)
        encoding.frame.bytes true none)) = true := by
  decide +kernel

/-- In debug mode such a frame ends the device, and ends the core. -/
theorem debug_frame_fatal : ∃ prepared, loaded linkWorld linkRules = .ok prepared ∧
    (∃ frame result, (receiveDeviceFrame (deps linkWorld) (link .device) (service linkWorld)
      (start prepared) frame true).result = some result ∧ PacketOutcomeError.Fatal result) ∧
    ∃ frame, PacketOutcomeError.Fatal (processCoreRawFrame (deps linkWorld) (.new prepared)
      (link .core) frame true none) := by
  obtain ⟨prepared, hprepared, hbroken⟩ := holds_iff.mp broken_evaluated
  obtain ⟨hdevice, hcore⟩ := Bool.and_eq_true_iff.mp hbroken
  obtain ⟨toDevice, -, hdevice⟩ := holds_iff.mp hdevice
  obtain ⟨toCore, -, hcore⟩ := holds_iff.mp hcore
  obtain ⟨result, hresult, hfatal⟩ := (Option.any_eq_true _ _).mp hdevice
  exact ⟨prepared, hprepared, ⟨_, result, hresult, isFatal_iff.mp hfatal⟩, _, isFatal_iff.mp hcore⟩

def costRequest (payload : Bytes) : Packet := { brokenDuplicate with payload }

def costFrame (prepared : PreparedContext) (payload : Bytes) : Except LinkError LinkEncoding :=
  let datagram := CoapWire.encode (wireOf (costRequest payload))
  (link .core).encodeValidated (costDeps linkWorld) (.new prepared) .management
    (requestPacket datagram) datagram

theorem costManagementLaws : ManagementLaws (costDeps linkWorld) handler := by
  have laws : ManagementLaws (deps linkWorld) handler := managementLaws
  exact {
    code := laws.code
    cleared := laws.cleared
    written := laws.written
    get := laws.get
    fetch := laws.fetch
    rejection := laws.rejection
    readOnly := laws.readOnly
    inspection := laws.inspection }

theorem cost_evaluated : holds (PreparedContext.fromSource (costDeps linkWorld) recipe
    (.sor (sorBytes linkRules))) (fun prepared =>
      prepared.recipe.sidJson = sidText &&
      holds (costFrame prepared (cborBytes costCbor)) (fun encoding =>
        holds ((link .device).decode (costDeps linkWorld) (.new prepared) encoding.frame.bytes)
          fun decoded => decoded.packet.coapMessage.payload = cborBytes costCbor) &&
      holds (costFrame prepared (cborBytes wideCostCbor)) fun encoding =>
        (receiveDeviceFrame (costDeps linkWorld) (link .device) (service linkWorld)
          (start prepared) encoding.frame.bytes true).result.any isFatal) = true := by
  decide +kernel

theorem costRequest_narrow : ∃ operation,
    decodeDuplicateOperation (costDeps linkWorld) (costModel linkWorld) (cborBytes costCbor) =
      .ok operation ∧
    StatesNarrowIds (costDeps linkWorld) (costModel linkWorld) (cborBytes costCbor) := by
  have heval : holds (decodeDuplicateOperation (costDeps linkWorld) (costModel linkWorld)
      (cborBytes costCbor)) (fun _ => true) = true := by decide +kernel
  have hstated : statedSequence (costDeps linkWorld) (costModel linkWorld) (cborBytes costCbor) =
      .ok (⟨20, 8⟩, ⟨64, 8⟩, cborBytes overrideMap ++ cborBytes otherMap) := by decide +kernel
  obtain ⟨operation, hdecoded, -⟩ := holds_iff.mp heval
  refine ⟨operation, hdecoded, ?_⟩
  intro source destination sequence hsequence
  cases hstated.symm.trans hsequence
  exact ⟨by decide, by decide⟩

/-- In debug mode the core's request to duplicate 20/8 ends no device; the one with a RuleID
of 40 bits does, and is outside the condition. -/
theorem frame_fatal_iff_debug : ∃ prepared narrow wide,
    costFrame prepared (cborBytes costCbor) = .ok narrow ∧
    costFrame prepared (cborBytes wideCostCbor) = .ok wide ∧
    (∀ result, (receiveDeviceFrame (costDeps linkWorld) (link .device) (service linkWorld)
        (start prepared) narrow.frame.bytes true).result = some result →
      ¬PacketOutcomeError.Fatal result) ∧
    ¬CarriesNarrowDuplicate (costDeps linkWorld) (.new prepared) (link .device)
      wide.frame.bytes := by
  obtain ⟨prepared, hprepared, heval⟩ := holds_iff.mp cost_evaluated
  simp only [Bool.and_eq_true, decide_eq_true_eq] at heval
  obtain ⟨⟨hsidJson, hnarrow⟩, hwide⟩ := heval
  obtain ⟨narrow, hframe, hnarrow⟩ := holds_iff.mp hnarrow
  obtain ⟨wide, hother, hwide⟩ := holds_iff.mp hwide
  obtain ⟨decoded, hdecoded, hpayload⟩ := holds_iff.mp hnarrow
  obtain ⟨result, hresult, hfatal⟩ := (Option.any_eq_true _ _).mp hwide
  obtain ⟨operation, hoperation, hids⟩ := costRequest_narrow
  have laws : ManagementLaws (costDeps linkWorld) (service linkWorld).handler := costManagementLaws
  have hmodel : (costDeps linkWorld).rustconf.coreconfModel (start prepared).active.recipe.sidJson =
      .ok (costModel linkWorld) := if_pos hsidJson
  have hpads : PadsFrames (costDeps linkWorld) :=
    show PadsFrames (deps linkWorld) from padsFrames
  have hreached : Reached (costDeps linkWorld) recipe (.sor (sorBytes linkRules)) prepared
      (start prepared).active := .of_source (service linkWorld) hprepared
  have hexact (frame : Bytes) := (frame_fatal_iff laws packetLaws hpads cborCrate_consumes
    cborCrate_shortest decodesMembers_example hreached (link .device) frame true none).1
  refine ⟨prepared, narrow, wide, hframe, hother, (hexact _).mpr fun _ => ?_, fun hcarries => ?_⟩
  · intro other hother _ _
    cases hdecoded.symm.trans hother
    rw [of_decide_eq_true hpayload]
    exact ⟨_, operation, hmodel, hoperation, hids⟩
  · exact (hexact _).mpr (fun _ => hcarries) result hresult (isFatal_iff.mp hfatal)

end

end SchcCoreconf
