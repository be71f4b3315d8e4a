import SchcCoreconf.Fixture.Crates

/-!
# The crates on concrete contexts satisfy what is assumed of crates

The facts about a world that depend on its documents are checked once for each
world; the rest holds of all of them.
-/

namespace SchcCoreconf.Fixture

open Fallible

variable {world : World}

def World.readRule (world : World) (member : Cbor) : Option Rule :=
  world.contexts.flatten.find? (ruleCbor · = member)

/-- Bytes tell the documents of the world apart, members their rules, and the rules
of a context have RuleIDs none of which starts another. -/
structure World.Checked (world : World) : Prop where
  documents : (world.documents.map cborBytes).Nodup
  members : ∀ rule ∈ world.contexts.flatten, world.readRule (ruleCbor rule) = some rule
  explicit : ∀ rule ∈ world.contexts.flatten, rule.id.Explicit
  prefixFree : ∀ rules ∈ world.contexts, RuleId.PrefixFree (rules.map (·.id))

-- ---------------------------------------------------------------------------
-- Documents
-- ---------------------------------------------------------------------------

theorem fromReader_ok {bytes : Bytes}
    (h : (ciborium world).fromReader bytes = .ok (value, position)) :
    value ∈ world.documents ∧ cborBytes value = bytes ∧ position = bytes.length := by
  simp only [ciborium] at h
  split at h
  · next found hfound =>
    cases h
    exact ⟨List.mem_of_find?_eq_some hfound, by simpa using List.find?_some hfound, rfl⟩
  · cases h

theorem intoWriter_ok (h : (ciborium world).intoWriter value = .ok bytes) :
    value ∈ world.documents ∧ bytes = cborBytes value := by
  simp only [ciborium] at h
  split at h
  · next hany =>
    cases h
    exact ⟨by simpa using hany, rfl⟩
  · cases h

namespace World.Checked

theorem document_eq (h : world.Checked) (hl : left ∈ world.documents) (hr : right ∈ world.documents)
    (hbytes : cborBytes left = cborBytes right) : left = right :=
  List.inj_on_of_nodup_map h.documents hl hr hbytes

theorem fromReader (h : world.Checked) (hvalue : value ∈ world.documents) :
    (ciborium world).fromReader (cborBytes value) = .ok (value, (cborBytes value).length) := by
  simp only [ciborium]
  cases hfind : world.documents.find? (cborBytes · = cborBytes value) with
  | none => simpa using List.find?_eq_none.mp hfind value hvalue
  | some found =>
    have hbytes : cborBytes found = cborBytes value := by simpa using List.find?_some hfind
    rw [h.document_eq (List.mem_of_find?_eq_some hfind) hvalue hbytes]

end World.Checked

theorem sor_mem {rules : List Rule} (h : rules ∈ world.contexts) : sor rules ∈ world.documents :=
  List.mem_append_left _ (List.mem_map_of_mem h)

theorem mem_contexts {rules : List Rule} (h : rules ∈ world.complete) : rules ∈ world.contexts :=
  List.mem_append_left _ h

theorem ruleContext_ok {bytes : Bytes} (h : ruleContext world bytes = .ok context) :
    context.rules ∈ world.contexts ∧ sorBytes context.rules = bytes := by
  simp only [ruleContext, bind_ok, need_ok, pure_ok] at h
  obtain ⟨rules, hrules, rfl⟩ := h
  exact ⟨List.mem_of_find?_eq_some hrules, by simpa using List.find?_some hrules⟩

theorem coreconfModel_ok (h : (deps world).rustconf.coreconfModel sidJson = .ok model) :
    model = coreconfModel world := by
  simp only [deps] at h
  split at h <;> cases h
  rfl

theorem sidRegistry_ok (h : (deps world).rschc.sidRegistry sidJson = .ok registry) :
    registry.ruleContext = ruleContext world := by
  simp only [deps] at h
  split at h <;> cases h
  rfl

-- ---------------------------------------------------------------------------
-- Rules
-- ---------------------------------------------------------------------------

def schcSids : RuleSids := { root := 2800, ruleDelta := 23, lengthDelta := 1, valueDelta := 2 }

theorem getSid_eq (path : String) :
    (compositeModel world).getSid path = (sids.find? (·.1 = path)).map (·.2) := rfl

theorem getSid_of (h : (sids.find? (·.1 = path)).map (·.2) = some sid) :
    (compositeModel world).getSid path = some sid := h

theorem ruleSids_eq (h : ruleSids (compositeModel world) = .ok found) : found = schcSids := by
  have hroot : (sids.find? (·.1 = "/ietf-schc:schc")).map (·.2) = some 2800 := by simp [sids]
  have hrule : (sids.find? (·.1 = "/ietf-schc:schc/rule")).map (·.2) = some 2823 := by simp [sids]
  have hlength : (sids.find? (·.1 = "/ietf-schc:schc/rule/rule-id-length")).map (·.2) =
      some 2824 := by simp [sids]
  have hvalue : (sids.find? (·.1 = "/ietf-schc:schc/rule/rule-id-value")).map (·.2) =
      some 2825 := by simp [sids]
  simp only [ruleSids, getSid_eq, hroot, hrule, hlength, hvalue, bind_ok, need_ok, pure_ok,
    Option.some.injEq, exists_eq_left'] at h
  obtain ⟨_, hdelta, _, hlengthDelta, _, hvalueDelta, rfl⟩ := h
  cases hdelta
  cases hlengthDelta
  cases hvalueDelta
  rfl

theorem asI64_integer (hlower : -(2 ^ 63) ≤ value) (hupper : value < 2 ^ 63) :
    (Cbor.integer value).asI64 = some value := by
  rw [Cbor.asI64, if_pos ⟨hlower, hupper⟩]

theorem cborMapValue_cons_self (hlower : -(2 ^ 63) ≤ sid) (hupper : sid < 2 ^ 63) :
    cborMapValue (.map ((.integer sid, value) :: rest)) sid = some value := by
  simp [cborMapValue, asI64_integer hlower hupper]

theorem rules_sor (rules : List Rule) : schcSids.rules (sor rules) = .ok (rules.map ruleCbor) := by
  have hroot : cborMapValue (sor rules) 2800 =
      some (.map [(.integer 23, .array (rules.map ruleCbor))]) :=
    cborMapValue_cons_self (by omega) (by omega)
  have hlist : cborMapValue (.map [(.integer 23, .array (rules.map ruleCbor))]) 23 =
      some (.array (rules.map ruleCbor)) := cborMapValue_cons_self (by omega) (by omega)
  simp only [RuleSids.rules, bind_ok, need_ok]
  refine ⟨_, hroot, ?_⟩
  simp only [schcSids, hlist]
  rfl

theorem asU64_natCast {n : Nat} (h : n < 2 ^ 64) : (Cbor.integer n).asU64 = some n := by
  rw [Cbor.asU64, if_pos (by omega), Int.toNat_natCast]

theorem cborMapValue_length (rule : Rule) :
    cborMapValue (ruleCbor rule) 1 = some (.integer rule.id.bitLen) :=
  cborMapValue_cons_self (by omega) (by omega)

theorem cborMapValue_value (rule : Rule) :
    cborMapValue (ruleCbor rule) 2 = some (.integer rule.id.value) := by
  have hfirst : (Cbor.integer 1).asI64 = some 1 := asI64_integer (by omega) (by omega)
  have hsecond : (Cbor.integer 2).asI64 = some 2 := asI64_integer (by omega) (by omega)
  simp [ruleCbor, cborMapValue, hfirst, hsecond]

theorem explicit_value_lt {id : RuleId} (h : id.Explicit) : id.value < 2 ^ 64 :=
  h.2.2.trans_le (Nat.pow_le_pow_right (by decide) (h.2.1.trans (by decide)))

theorem explicit_bitLen_lt {id : RuleId} (h : id.Explicit) : id.bitLen < 2 ^ 64 :=
  h.2.1.trans_lt (by decide)

theorem memberId_ruleCbor (h : rule.id.Explicit) :
    schcSids.memberId (ruleCbor rule) = some rule.id := by
  have hvalue : (cborMapValue (ruleCbor rule) schcSids.valueDelta).bind Cbor.asU64 =
      some rule.id.value := by
    rw [schcSids, cborMapValue_value, Option.bind_some, asU64_natCast (explicit_value_lt h)]
  have hlength : (cborMapValue (ruleCbor rule) schcSids.lengthDelta).bind Cbor.asU64 =
      some rule.id.bitLen := by
    rw [schcSids, cborMapValue_length, Option.bind_some, asU64_natCast (explicit_bitLen_lt h)]
  simp [RuleSids.memberId, hvalue, hlength]

theorem readRule_some (h : world.readRule member = some rule) :
    ruleCbor rule = member ∧ rule ∈ world.contexts.flatten :=
  ⟨by simpa using List.find?_some h, List.mem_of_find?_eq_some h⟩

theorem readsRuleByRule (h : world.Checked) : ReadsRuleByRule (deps world) sidText where
  memberwise hmodel hregistry hsids := by
    cases coreconfModel_ok hmodel
    cases ruleSids_eq hsids
    refine ⟨world.readRule, fun member rule hrule => ?_, fun bytes context hcontext => ?_⟩
    · obtain ⟨rfl, hmem⟩ := readRule_some hrule
      exact memberId_ruleCbor (h.explicit rule hmem)
    · rw [sidRegistry_ok hregistry] at hcontext
      obtain ⟨hmem, rfl⟩ := ruleContext_ok hcontext
      refine ⟨sor context.rules, _, _, h.fromReader (sor_mem hmem), rules_sor _, ?_⟩
      rw [List.forall₂_map_left_iff]
      exact List.forall₂_same.mpr fun rule hrule =>
        h.members rule (List.mem_flatten.mpr ⟨_, hmem, hrule⟩)
  reread keep hmodel hsids hread hrules hwritten := by
    obtain ⟨hmem, rfl⟩ := intoWriter_ok hwritten
    exact ⟨_, h.fromReader hmem⟩

theorem loadsPrefixFree (h : world.Checked) : LoadsPrefixFree (deps world) sidText := by
  intro registry bytes context hregistry hcontext
  rw [sidRegistry_ok hregistry] at hcontext
  exact h.prefixFree _ (ruleContext_ok hcontext).1

theorem loadsExplicit (h : world.Checked) : LoadsExplicit (deps world) sidText := by
  intro registry bytes context hregistry hcontext rule hrule
  rw [sidRegistry_ok hregistry] at hcontext
  exact h.explicit rule (List.mem_flatten.mpr ⟨_, (ruleContext_ok hcontext).1, hrule⟩)

theorem loadsRooted (h : world.Checked) : LoadsRooted (deps world) sidText := by
  intro model registry rootSid bytes value context hmodel hregistry hroot hvalue hcontext
  cases coreconfModel_ok hmodel
  rw [sidRegistry_ok hregistry] at hcontext
  obtain ⟨hmem, rfl⟩ := ruleContext_ok hcontext
  simp only [strictCborValue, bind_ok, mapError_ok, pure_ok] at hvalue
  obtain ⟨⟨_, _⟩, hread, _, -, _, -, rfl⟩ := hvalue
  obtain ⟨hdocument, hbytes, -⟩ := fromReader_ok hread
  cases h.document_eq hdocument (sor_mem hmem) hbytes
  have hsid : (sids.find? (·.1 = "/ietf-schc:schc")).map (·.2) = some 2800 := by simp [sids]
  cases hsid.symm.trans hroot
  simp [ensureSchcRoot, sor, ensure]

theorem World.Checked.context_eq (h : world.Checked) {left right : List Rule}
    (hl : left ∈ world.contexts) (hr : right ∈ world.contexts)
    (hbytes : sorBytes left = sorBytes right) : left = right := by
  have hsor : sor left = sor right := h.document_eq (sor_mem hl) (sor_mem hr) hbytes
  have hmembers : left.map ruleCbor = right.map ruleCbor :=
    Except.ok.inj ((rules_sor left).symm.trans (hsor ▸ rules_sor right))
  have hread {rules : List Rule} (hmem : rules ∈ world.contexts) :
      (rules.map ruleCbor).map world.readRule = rules.map some := by
    rw [List.map_map]
    exact List.map_congr_left fun rule hrule =>
      h.members rule (List.mem_flatten.mpr ⟨rules, hmem, hrule⟩)
  have hsome := (hread hl).symm.trans ((congrArg _ hmembers).trans (hread hr))
  exact List.map_injective_iff.mpr (Option.some_injective Rule) hsome

-- ---------------------------------------------------------------------------
-- Trees
-- ---------------------------------------------------------------------------

theorem sidNames : SidNames (compositeModel world) := by
  have htable : ∀ pair ∈ sids, (sids.find? (·.2 = pair.2)).map (·.1) = some pair.1 := by
    decide +kernel
  intro path sid hsid
  obtain ⟨pair, hpair, rfl⟩ := Option.map_eq_some_iff.mp hsid
  have hpath : pair.1 = path := by simpa using List.find?_some hpair
  exact hpath ▸ htable pair (List.mem_of_find?_eq_some hpair)

theorem rules_tree (rules : List Rule) :
    RuleKeys.yang.rules (tree rules) = some (rules.map ruleJson) :=
  rfl

theorem asU64_ofNat_eq {n m : Nat} (h : (Json.ofNat n).asU64 = some m) : n = m := by
  simp only [Json.ofNat, Json.asU64] at h
  split at h <;> simp at h
  exact h

theorem get_value (rule : Rule) :
    (ruleJson rule).get "rule-id-value" = some (.ofNat rule.id.value) := by
  simp [ruleJson, Json.get, Json.lookup]

theorem get_length (rule : Rule) :
    (ruleJson rule).get "rule-id-length" = some (.ofNat rule.id.bitLen) := by
  simp [ruleJson, Json.get, Json.lookup]

theorem ruleJson_selected {selector : RuleSelector}
    (h : RuleKeys.yang.selects selector (ruleJson rule) = true) : rule.id = selector.ruleId := by
  rw [RuleKeys.yang_selects, Bool.and_eq_true, hasU64, hasU64, decide_eq_true_eq,
    decide_eq_true_eq, get_value, get_length, Option.bind_some, Option.bind_some] at h
  have hvalue : rule.id.value = selector.value := asU64_ofNat_eq h.1
  have hbits : rule.id.bitLen = selector.bits := asU64_ofNat_eq h.2
  rw [RuleSelector.ruleId, ← hvalue, ← hbits]

theorem encodeTree_ok {bytes : Bytes}
    (h : encodeTree (ciborium world) (coreconfModel world) json = .ok bytes) :
    ∃ rules ∈ world.complete, tree rules = json ∧ bytes = sorBytes rules := by
  simp only [encodeTree, bind_ok, mapError_ok, pure_ok] at h
  obtain ⟨value, hvalue, _, hwritten, _, -, rfl⟩ := h
  obtain ⟨rules, hrules, rfl⟩ := Option.map_eq_some_iff.mp (need_ok.mp hvalue)
  exact ⟨rules, List.mem_of_find?_eq_some hrules, by simpa using List.find?_some hrules,
    (intoWriter_ok hwritten).2⟩

theorem allFloatsItems_map {f : α → Json} (h : ∀ a, (f a).allFloats p = true) (as : List α) :
    Json.allFloatsItems p (as.map f) = true := by
  induction as with
  | nil => rfl
  | cons a rest ih => rw [List.map_cons, Json.allFloatsItems, h a, ih]; rfl

theorem floatFree_entryJson (field : FieldRule) : (entryJson field).FloatFree := by
  unfold Json.FloatFree entryJson lengthJson
  split <;> split <;> rfl

theorem floatFree_ruleJson (rule : Rule) : (ruleJson rule).FloatFree := by
  simp only [Json.FloatFree, ruleJson, Json.allFloats, Json.allFloatsMembers,
    allFloatsItems_map floatFree_entryJson, qualified, Json.ofNat]
  rfl

theorem floatFree_tree (rules : List Rule) : (tree rules).FloatFree := by
  simp only [Json.FloatFree, tree, Json.allFloats, Json.allFloatsMembers,
    allFloatsItems_map floatFree_ruleJson]
  rfl

theorem encodedAs_ok {bytes : Bytes}
    (h : EncodedAs (ciborium world) (coreconfModel world) json bytes) :
    ∃ rules ∈ world.complete, tree rules = json ∧ bytes = sorBytes rules := by
  obtain ⟨initial, hinitial, hencoded⟩ := h
  obtain ⟨rules, hrules, rfl, hbytes⟩ := encodeTree_ok hencoded
  exact ⟨rules, hrules,
    ((floatFree_tree rules).zeroFree.eq_of_beq (Json.beq_symm hinitial)).symm, hbytes⟩

theorem find_tree_ok {selector : RuleSelector} {rules : List Rule}
    (h : (RuleKeys.yang.rules (tree rules)).bind
      (·.find? (RuleKeys.yang.selects selector)) = some found) :
    ∃ rule ∈ rules, rule.id = selector.ruleId := by
  rw [rules_tree, Option.bind_some] at h
  obtain ⟨rule, hrule, rfl⟩ := List.mem_map.mp (List.mem_of_find?_eq_some h)
  exact ⟨rule, hrule, ruleJson_selected (List.find?_some h)⟩

theorem loadsTreeRules (h : world.Checked) : LoadsTreeRules (deps world) sidText := by
  intro model registry json bytes context selector found hmodel hregistry hencoded hcontext hfound
  cases coreconfModel_ok hmodel
  rw [sidRegistry_ok hregistry] at hcontext
  obtain ⟨rules, hrules, rfl, rfl⟩ := encodedAs_ok hencoded
  obtain ⟨hmem, hbytes⟩ := ruleContext_ok hcontext
  rw [h.context_eq hmem (mem_contexts hrules) hbytes]
  exact find_tree_ok (findTreeRule_yang sidNames hfound).symm

-- ---------------------------------------------------------------------------
-- Frames
-- ---------------------------------------------------------------------------

theorem sendsAll_ok {rule : Rule} (h : sendsAll rule = true) :
    rule.id.bitLen = 8 ∧ rule.id.value < 256 := by
  simp only [sendsAll, Bool.and_eq_true, decide_eq_true_eq] at h
  exact h.1

theorem bits_starts {id : RuleId} (hlength : id.bitLen = 8) (hbyte : byte.toNat = id.value)
    (rest : Bytes) : id.bits <+: BitString.ofBytes (byte :: rest) := by
  rw [RuleId.bits, hlength, ← hbyte, BitString.ofBytes, List.flatMap_cons]
  exact List.prefix_append _ _

theorem encodePacket_ok {deviceId : DeviceId}
    (h : encodePacket deviceId context device leg packet = .ok encoded) :
    ∃ rule ∈ context.rules, sendsAll rule = true ∧ encoded.ruleId = rule.id ∧
      encoded.frame.bytes = UInt8.ofNat rule.id.value :: deviceOrder leg packet := by
  simp only [encodePacket, bind_ok, need_ok, pure_ok] at h
  obtain ⟨_, -, rule, hrule, rfl⟩ := h
  have hmatches := List.find?_some hrule
  rw [Bool.and_eq_true] at hmatches
  exact ⟨rule, List.mem_of_find?_eq_some hrule, hmatches.1, rfl, rfl⟩

theorem decodeFrame_ok {deviceId : DeviceId}
    (h : decodeFrame deviceId context device leg frame = .ok decoded) :
    ∃ first ordered rule, frame = first :: ordered ∧ rule ∈ context.rules ∧ sendsAll rule = true ∧
      rule.id.value = first.toNat ∧ decoded.ruleId = rule.id ∧
      decoded.packet = deviceOrder leg ordered := by
  unfold decodeFrame at h
  split at h
  · next first ordered =>
    simp only [bind_ok, need_ok, pure_ok] at h
    obtain ⟨_, -, rule, hrule, rfl⟩ := h
    have hmatches := List.find?_some hrule
    simp only [Bool.and_eq_true, decide_eq_true_eq] at hmatches
    exact ⟨first, ordered, rule, rfl, List.mem_of_find?_eq_some hrule,
      hmatches.1, hmatches.2, rfl, rfl⟩
  · cases h

theorem framesCarryRuleIds : FramesCarryRuleIds (deps world) where
  encode hruntime hencode := by
    cases hruntime
    obtain ⟨rule, -, hsends, hid, hbytes⟩ := encodePacket_ok hencode
    obtain ⟨hlength, hvalue⟩ := sendsAll_ok hsends
    rw [hid, hbytes]
    exact bits_starts hlength (CoapWire.toNat_ofNat hvalue) _
  decode hruntime hdecode := by
    cases hruntime
    obtain ⟨first, ordered, rule, rfl, -, hsends, hvalue, hid, -⟩ := decodeFrame_ok hdecode
    rw [hid]
    exact bits_starts (sendsAll_ok hsends).1 hvalue.symm _

theorem padsFrames : PadsFrames (deps world) := by
  intro deviceId context profile runtime device leg packet encoded hruntime hencode
  cases hruntime
  simp only [encodePacket, bind_ok, pure_ok] at hencode
  obtain ⟨_, -, rule, -, rfl⟩ := hencode
  exact Nat.le_refl _

-- ---------------------------------------------------------------------------
-- Packets
-- ---------------------------------------------------------------------------

theorem parsePacket_ok {bytes : Bytes} (h : parsePacket bytes = .ok packet) :
    packet.bytes = bytes ∧ bytes.head?.map (·.toNat >>> 4) = some ipv6Version ∧
      bytes.length = ipv6HeaderLen + udpHeaderLen + packet.udpPayload.length ∧
      packet.ipv6PayloadLength = udpHeaderLen + packet.udpPayload.length ∧
      packet.udpLength = udpHeaderLen + packet.udpPayload.length := by
  simp only [parsePacket, bind_ok, ensure_ok, pure_ok, Bool.and_eq_true, decide_eq_true_eq] at h
  obtain ⟨_, ⟨hlength, hversion⟩, _, -, _, ⟨hpayload, hudp⟩, rfl⟩ := h
  refine ⟨rfl, ?_, ?_, ?_, ?_⟩
  · cases bytes with
    | nil => cases hlength
    | cons first rest => exact congrArg some hversion
  all_goals simp only [List.length_drop, ipv6HeaderLen, udpHeaderLen]; omega

theorem wire_coapMessage (h : fromUdpPacket udp = .ok packet) :
    packet.udp = udp ∧ CoapWire.decode udp.udpPayload = some packet.coapMessage.wire ∧
      packet.coapMessage.CarriedBy udp.udpPayload := by
  simp only [fromUdpPacket, bind_ok, need_ok, ensure_ok, pure_ok, Bool.and_eq_true,
    decide_eq_true_eq, List.all_eq_true] at h
  obtain ⟨message, hdecode, _, ⟨⟨hwell, hnumbers⟩, hencode⟩, rfl⟩ := h
  have hwire : CoapMessage.wire {
      version := message.version, messageType := message.messageType, code := message.code,
      messageId := message.messageId, token := message.token,
      options := message.options.map fun option => { number := option.1, value := option.2 },
      payload := message.payload } = message := by
    simp [CoapMessage.wire, Function.comp_def]
  refine ⟨rfl, hdecode.trans (congrArg some hwire.symm), ?_, ?_, ?_⟩
  · rw [hwire]
    exact hwell
  · intro option hoption
    obtain ⟨pair, hpair, rfl⟩ := List.mem_map.mp hoption
    exact hnumbers pair hpair
  · rw [hwire, hencode]

theorem newCoapPacket_ok {source destination : Bytes}
    (h : newCoapPacket source destination sourcePort destinationPort datagram = .ok packet) :
    ∃ udp, parsePacket (buildPacket source destination sourcePort destinationPort datagram) =
      .ok udp ∧ fromUdpPacket udp = .ok packet ∧ packet.udp.udpPayload = datagram := by
  simp only [newCoapPacket, bind_ok, ensure_ok, pure_ok, decide_eq_true_eq] at h
  obtain ⟨udp, hudp, found, hfound, _, hpayload, rfl⟩ := h
  exact ⟨udp, hudp, hfound, hpayload⟩

theorem packetLaws : PacketLaws (deps world).rschc where
  bytes h := (parsePacket_ok h).1
  header h := (parsePacket_ok h).2.1
  lengths h := (parsePacket_ok h).2.2
  coap h := ⟨(wire_coapMessage h).1, (wire_coapMessage h).2.2⟩
  built h := by
    obtain ⟨udp, hudp, hpacket, hpayload⟩ := newCoapPacket_ok h
    refine ⟨bind_ok.mpr ⟨udp, ?_, hpacket⟩, hpayload⟩
    rw [(wire_coapMessage hpacket).1, (parsePacket_ok hudp).1]
    exact hudp

-- ---------------------------------------------------------------------------
-- Requests and responses
-- ---------------------------------------------------------------------------

theorem decode_bounds (h : CoapWire.decode bytes = some message) :
    message.messageId < 65536 ∧ message.token.length ≤ 8 := by
  unfold CoapWire.decode at h
  split at h
  · next first code high low rest =>
    dsimp only at h
    split at h
    · cases h
    · next hlength =>
      simp only [Bool.or_eq_true, decide_eq_true_eq, not_or, not_lt] at hlength
      obtain ⟨⟨options, payload⟩, -, hmessage⟩ := Option.bind_eq_some_iff.mp h
      cases hmessage
      have hhigh := high.toNat_lt
      have hlow := low.toNat_lt
      exact ⟨by simp only; omega, by simp only [List.length_take]; omega⟩
  · cases h

theorem readPacket_ok {bytes : Bytes} (h : readPacket bytes = .ok packet) :
    ∃ message, CoapWire.decode bytes = some message ∧ packet = packetOf message := by
  simp only [readPacket, bind_ok, need_ok, pure_ok] at h
  obtain ⟨message, hmessage, _, -, rfl⟩ := h
  exact ⟨message, hmessage, rfl⟩

theorem readPacket_encode (h : message.WellFormed) (hversion : message.version = 1) :
    readPacket (CoapWire.encode message) = .ok (packetOf message) := by
  simp [readPacket, CoapWire.decode_encode h, need, ensure, hversion, bind, Except.bind, pure,
    Except.pure]

theorem responseNumber_range (type : ResponseType) :
    64 ≤ responseNumber type ∧ responseNumber type < 192 := by
  cases type with
  | other code =>
    simp only [responseNumber]
    split
    · next h => exact ⟨h.1, h.2.1⟩
    · decide
  | _ => decide

theorem responseOf_changed_iff : responseOf code = .changed ↔ code = 68 := by
  unfold responseOf
  split
  · simpa
  · repeat' split
    all_goals simp_all

theorem responseOf_preconditionFailed_iff : responseOf code = .preconditionFailed ↔ code = 140 := by
  unfold responseOf
  repeat' split
  all_goals simp_all

theorem responseOf_responseNumber (type : ResponseType) :
    responseOf (responseNumber type) = type ∨
      (∃ code, type = .other code) ∧ responseOf (responseNumber type) ≠ .changed := by
  cases type with
  | other code =>
    refine .inr ⟨⟨code, rfl⟩, mt responseOf_changed_iff.mp ?_⟩
    simp only [responseNumber]
    split
    · next h => exact h.2.2
    · decide
  | _ => exact .inl (by decide)

theorem classOf_response (hlower : 64 ≤ code) (hupper : code < 192) :
    classOf code = .response (responseOf code) := by
  rw [classOf, if_neg (by omega), if_neg (by omega), if_pos ⟨hlower, hupper⟩]

theorem classOf_response_iff :
    classOf code = .response type ↔ 64 ≤ code ∧ code < 192 ∧ responseOf code = type := by
  unfold classOf
  repeat' split
  all_goals simp_all
  all_goals omega

theorem wireOf_replyPacket {datagram : Bytes} (world : World) (response : Response)
    (type : ResponseType) (h : readPacket datagram = .ok request) :
    (wireOf (replyPacket (deps world) request response type)).WellFormed := by
  obtain ⟨message, hmessage, rfl⟩ := readPacket_ok h
  obtain ⟨hid, htoken⟩ := decode_bounds hmessage
  have hcode := (responseNumber_range type).2
  have hnone :
      (wireOf (replyPacket (deps world) (packetOf message) response type)).options = [] := by
    cases response <;> rfl
  refine ⟨Nat.one_lt_two.trans (by decide), ?_, hcode.trans (by decide), hid,
    htoken, hnone ▸ trivial⟩
  simp only [wireOf, replyPacket, deps, coapLite, typeNumber]
  split <;> decide

theorem replyLaws : ReplyLaws (deps world) where
  code packet response := by
    refine ⟨_, rfl, ?_⟩
    cases response with
    | error code => cases code <;> simp [Response.IsChanged, responseType, responseCode]
    | _ => simp [Response.IsChanged, responseType, responseCode]
  cleared _ _ _ := rfl
  written := by
    intro datagram request response type hrequest
    have hwell := wireOf_replyPacket world response type hrequest
    obtain ⟨hlower, hupper⟩ := responseNumber_range type
    exact ⟨_, responseOf (responseNumber type), rfl,
      ⟨_, readPacket_encode hwell rfl, classOf_response hlower hupper⟩,
      responseOf_responseNumber type⟩

theorem handler_readOnly (h : request.method = .get ∨ request.method = .fetch) :
    (handler request).ReadOnly := by
  rw [handler, if_pos h]
  exact .readTree fun tree => .done

theorem managementLaws : ManagementLaws (deps world) handler where
  toReplyLaws := replyLaws
  get hrequest hcode := by
    cases hrequest
    simp [methodOf, hcode]
  fetch hrequest hcode := by
    cases hrequest
    simp [methodOf, hcode]
  rejection h := by cases h
  readOnly h := handler_readOnly h
  inspection h hanswers := by
    rw [handler, if_pos h] at hanswers
    cases hanswers with
    | readTree hanswers =>
      cases hanswers
      simp [Response.IsChanged]

theorem requestsRoundTrip : RequestsRoundTrip coapLite where
  added _ _ _ := rfl
  read _ h := by
    simp only [coapLite, writePacket, bind_ok, ensure_ok, pure_ok, Bool.and_eq_true,
      decide_eq_true_eq] at h
    obtain ⟨_, ⟨-, hread⟩, rfl⟩ := h
    exact hread

theorem code_readsAs {source destination : Bytes}
    (h : newCoapPacket source destination sourcePort destinationPort datagram = .ok packet)
    (hread : ReadsAs coapLite datagram type) :
    64 ≤ packet.coapMessage.code ∧ packet.coapMessage.code < 192 ∧
      responseOf packet.coapMessage.code = type := by
  obtain ⟨udp, -, hpacket, rfl⟩ := newCoapPacket_ok h
  obtain ⟨rfl, hdecode, -⟩ := wire_coapMessage hpacket
  obtain ⟨read, hread, hcode⟩ := hread
  obtain ⟨message, hmessage, rfl⟩ := readPacket_ok hread
  cases hdecode.symm.trans hmessage
  exact classOf_response_iff.mp hcode

theorem codesAgree : CodesAgree (deps world) where
  changed h hread := by
    obtain ⟨-, -, rfl⟩ := code_readsAs h hread
    exact responseOf_changed_iff.symm
  preconditionFailed h hread := by
    obtain ⟨-, -, rfl⟩ := code_readsAs h hread
    exact responseOf_preconditionFailed_iff.symm

theorem headersAgree : HeadersAgree (deps world) := by
  intro packet source destination sourcePort destinationPort datagram carried _ _ hwritten hcarried
  simp only [deps, coapLite, writePacket, bind_ok, ensure_ok, pure_ok, Bool.and_eq_true,
    decide_eq_true_eq] at hwritten
  obtain ⟨_, ⟨-, hread⟩, rfl⟩ := hwritten
  obtain ⟨udp, -, hpacket, hdatagram⟩ := newCoapPacket_ok hcarried
  obtain ⟨rfl, hdecode, -⟩ := wire_coapMessage hpacket
  rw [hdatagram] at hdecode
  obtain ⟨message, hmessage, rfl⟩ := readPacket_ok hread
  cases hdecode.symm.trans hmessage
  exact ⟨rfl, rfl⟩

-- ---------------------------------------------------------------------------
-- The datastore
-- ---------------------------------------------------------------------------

theorem xpaths_leaves : ∀ left ∈ leaves, ∀ right ∈ leaves,
    (leafXpath left = leafXpath right → left = right) ∧
      (entryXpath left.entry = entryXpath right.entry → left.entry = right.entry) ∧
      leafXpath left ≠ entryXpath right.entry := by
  decide +kernel

theorem find?_by {key : α → β} [DecidableEq β] {items : List α} {item : α} (hmem : item ∈ items)
    (h : ∀ other ∈ items, key other = key item → other = item) :
    items.find? (key · = key item) = some item := by
  cases hfind : items.find? (key · = key item) with
  | none => simpa using List.find?_eq_none.mp hfind item hmem
  | some found =>
    have hkey : key found = key item := by simpa using List.find?_some hfind
    rw [h found (List.mem_of_find?_eq_some hfind) hkey]

theorem find?_none_by {key : α → β} [DecidableEq β] {items : List α} {value : β}
    (h : ∀ item ∈ items, key item ≠ value) : items.find? (key · = value) = none :=
  List.find?_eq_none.mpr fun item hitem => by simpa using h item hitem

theorem getPath_leaf {address : LeafAddress} (h : address ∈ leaves) (json : Json) :
    getPath json (leafXpath address) = .ok (address.read json) := by
  rw [getPath, find?_by h fun other hother => (xpaths_leaves other hother address h).1]

theorem getPath_entry {address : LeafAddress} (h : address ∈ leaves) (json : Json) :
    getPath json (entryXpath address.entry) = .ok (address.entry.read json) := by
  rw [getPath, find?_none_by fun other hother => (xpaths_leaves other hother address h).2.2]
  cases hfind : leaves.find? (entryXpath ·.entry = entryXpath address.entry) with
  | none => simpa using List.find?_eq_none.mp hfind address h
  | some found =>
    have hentry : entryXpath found.entry = entryXpath address.entry := by
      simpa using List.find?_some hfind
    exact congrArg (fun entry => Except.ok (EntryAddress.read entry json))
      ((xpaths_leaves found (List.mem_of_find?_eq_some hfind) address h).2.1 hentry)

theorem setPath_ok {json : Json} (h : setPath json xpath value = .ok store) :
    ∃ address ∈ leaves, leafXpath address = xpath ∧ (address.read json).isSome = true ∧
      store.tree = address.write value json := by
  simp only [setPath, bind_ok, need_ok, ensure_ok, pure_ok] at h
  obtain ⟨address, haddress, _, hread, rfl⟩ := h
  exact ⟨address, List.mem_of_find?_eq_some haddress, by simpa using List.find?_some haddress,
    hread, rfl⟩

theorem setPath_leaf {address : LeafAddress} {json : Json} (h : address ∈ leaves)
    (hread : (address.read json).isSome = true) (value : Json) :
    setPath json (leafXpath address) value = .ok { tree := address.write value json } := by
  rw [setPath, find?_by h fun other hother => (xpaths_leaves other hother address h).1]
  simp [need, ensure, hread, bind, Except.bind, pure, Except.pure]

theorem createXpath_entry (h : createXpath 2846 keys = .ok xpath) :
    ∃ address ∈ leaves, EntryAddress.keys address.entry = keys ∧
    xpath = entryXpath address.entry := by
  simp only [createXpath, if_true, need_ok] at h
  obtain ⟨address, haddress, rfl⟩ := Option.map_eq_some_iff.mp h
  exact ⟨address, List.mem_of_find?_eq_some haddress, by simpa using List.find?_some haddress, rfl⟩

theorem getSid_entry :
    (compositeModel world).getSid "/ietf-schc:schc/rule/entry-universal" = some 2846 := by
  simp [getSid_eq, sids]

theorem datastoreLaws : DatastoreLaws (deps world) sidText where
  reload hmodel _ := by
    cases coreconfModel_ok hmodel
    rfl
  xpath _ hmodel hxpath := by
    cases coreconfModel_ok hmodel
    exact hxpath
  readable {_ _ store' _ other _ _} hmodel _ hread := by
    cases coreconfModel_ok hmodel
    have hread : getPath _ other = .ok _ := hread
    show ∃ found', getPath store'.tree other = .ok found'
    unfold getPath at hread ⊢
    split at hread
    · exact ⟨_, rfl⟩
    · exact ⟨_, rfl⟩
    · cases hread
  again {_ _ store' _ _ _ value _ _} hmodel _ _ _ hset := by
    cases coreconfModel_ok hmodel
    obtain ⟨address, haddress, rfl, hread, htree⟩ := setPath_ok hset
    have hread' : (address.read store'.tree).isSome = true := by
      rw [htree, LeafAddress.read_write hread]
      rfl
    exact ⟨_, setPath_leaf haddress hread' value⟩

-- ---------------------------------------------------------------------------
-- Both ends of a link
-- ---------------------------------------------------------------------------

theorem swapEndpoints_parts {a b c d e f : Bytes} (ha : a.length = 8) (hb : b.length = 16)
    (hc : c.length = 16) (hd : d.length = 2) (he : e.length = 2) :
    swapEndpoints (a ++ b ++ c ++ d ++ e ++ f) = a ++ c ++ b ++ e ++ d ++ f := by
  simp [swapEndpoints, List.drop_append, ha, hb, hc, hd, he, List.drop_eq_nil_of_le]

theorem swapEndpoints_swapEndpoints {packet : Bytes} (h : 48 ≤ packet.length) :
    swapEndpoints (swapEndpoints packet) = packet := by
  have hsplit (n m : Nat) : packet.drop n = (packet.drop n).take m ++ packet.drop (n + m) := by
    rw [← List.drop_drop, List.take_append_drop]
  have hparts : packet = packet.take 8 ++ (packet.drop 8).take 16 ++ (packet.drop 24).take 16 ++
      (packet.drop 40).take 2 ++ (packet.drop 42).take 2 ++ packet.drop 44 := by
    rw [List.append_assoc, List.append_assoc, List.append_assoc, List.append_assoc, ← hsplit 42 2,
      ← hsplit 40 2, ← hsplit 24 16, ← hsplit 8 16, List.take_append_drop]
  have hlength (n m : Nat) (hm : n + m ≤ 48) : ((packet.drop n).take m).length = m := by
    rw [List.length_take, List.length_drop]
    omega
  have hfirst : (packet.take 8).length = 8 := List.length_take_of_le (by omega)
  have hsource := hlength 8 16 (by decide)
  have hdestination := hlength 24 16 (by decide)
  have hsourcePort := hlength 40 2 (by decide)
  have hdestinationPort := hlength 42 2 (by decide)
  rw [hparts, swapEndpoints_parts hfirst hsource hdestination hsourcePort hdestinationPort,
    swapEndpoints_parts hfirst hdestination hsource hdestinationPort hsourcePort]

theorem length_deviceOrder {packet : Bytes} (h : 48 ≤ packet.length) (leg : Leg) :
    (deviceOrder leg packet).length = packet.length := by
  have hswap : (swapEndpoints packet).length = packet.length := by
    simp only [swapEndpoints, List.length_append, List.length_take, List.length_drop]
    omega
  unfold deviceOrder
  split
  · rfl
  · rfl
  · exact hswap
  · exact hswap

theorem deviceOrder_peer {packet : Bytes} (h : 48 ≤ packet.length) (role : NodeRole) :
    deviceOrder (.inbound role.peer) (deviceOrder (.outbound role) packet) = packet := by
  cases role with
  | core => exact swapEndpoints_swapEndpoints h
  | device => rfl

theorem find_separated {context : RuleContext} (hseparated : context.Separated)
    (hrule : rule ∈ context.rules) (hbits : rule.id.bits <+: BitString.ofBytes (first :: rest)) :
    context.rules.find? (fun other => sendsAll other && other.id.value = first.toNat) =
      if sendsAll rule && rule.id.value = first.toNat then some rule else none := by
  have : Std.Symm fun left right : Rule => ¬RuleId.Overlap left.id right.id :=
    ⟨fun _ _ h hoverlap => h hoverlap.symm⟩
  have honly {other : Rule} (hother : other ∈ context.rules)
      (hsends : (sendsAll other && decide (other.id.value = first.toNat)) = true) :
      other = rule := by
    simp only [Bool.and_eq_true, decide_eq_true_eq] at hsends
    have hstarts := bits_starts (sendsAll_ok hsends.1).1 hsends.2.symm rest
    by_contra hne
    exact hseparated.forall hother hrule hne
      (BitString.Comparable.of_prefix hstarts hbits)
  cases hfind : context.rules.find? fun other => sendsAll other && other.id.value = first.toNat with
  | some other =>
    have hsends := List.find?_some hfind
    cases honly (List.mem_of_find?_eq_some hfind) hsends
    rw [if_pos hsends]
  | none =>
    rw [if_neg (List.find?_eq_none.mp hfind rule hrule)]

theorem runtimesInvert : RuntimesInvert (deps world) where
  inverse hruntime hencode := by
    cases hruntime
    simp only [encodePacket, bind_ok, ensure_ok, need_ok, pure_ok, Bool.and_eq_true,
      decide_eq_true_eq] at hencode
    obtain ⟨_, ⟨rfl, hlength⟩, rule, hrule, rfl⟩ := hencode
    have hmatches := List.find?_some hrule
    rw [Bool.and_eq_true] at hmatches
    obtain ⟨hbits, hvalue⟩ := sendsAll_ok hmatches.1
    have hbyte : (UInt8.ofNat rule.id.value).toNat = rule.id.value := CoapWire.toNat_ofNat hvalue
    simp only [decodeFrame, bind_ok, ensure_ok, need_ok, pure_ok, hbyte, Bool.and_eq_true,
      decide_eq_true_eq, length_deviceOrder hlength, deviceOrder_peer hlength]
    cases hfind : (RuleContext.rules _).find? fun other =>
        sendsAll other && other.id.value = rule.id.value with
    | none =>
      have hnone := List.find?_eq_none.mp hfind rule (List.mem_of_find?_eq_some hrule)
      simp [hmatches.1] at hnone
    | some found =>
      -- the RuleIDs of both have one byte, and the same value
      have hfound := List.find?_some hfind
      simp only [Bool.and_eq_true, decide_eq_true_eq] at hfound
      have hsame : found.id = rule.id := by
        obtain ⟨hfoundBits, -⟩ := sendsAll_ok hfound.1
        cases hid : found.id
        cases hid' : rule.id
        simp_all
      exact ⟨(), ⟨trivial, hlength⟩, found, rfl, by rw [hsame]⟩
  matched {_ _ _ _ _ _ _ _ _ frame} hruntime hruntime' hseparated hseparated'
    hrule hrule' hbits := by
    cases hruntime
    cases hruntime'
    cases frame with
    | nil => rfl
    | cons first rest =>
      simp only [decodeFrame, find_separated hseparated hrule hbits,
        find_separated hseparated' hrule' hbits]

-- ---------------------------------------------------------------------------
-- Worlds
-- ---------------------------------------------------------------------------

def checkPrefixFree (rules : List Rule) : Bool :=
  rules.all fun left => rules.all fun right => !overlaps left.id right.id || left.id = right.id

theorem World.Checked.of_checks (hdocuments : (world.documents.map cborBytes).Nodup)
    (hmembers : ∀ rule ∈ world.contexts.flatten, world.readRule (ruleCbor rule) = some rule)
    (hexplicit : ∀ rule ∈ world.contexts.flatten, rule.id.Explicit)
    (hprefixFree : world.contexts.all checkPrefixFree = true) : world.Checked where
  documents := hdocuments
  members := hmembers
  explicit := hexplicit
  prefixFree rules hrules left hleft right hright hoverlap := by
    obtain ⟨l, hl, rfl⟩ := List.mem_map.mp hleft
    obtain ⟨r, hr, rfl⟩ := List.mem_map.mp hright
    have hpair := List.all_eq_true.mp (List.all_eq_true.mp
      (List.all_eq_true.mp hprefixFree rules hrules) l hl) r hr
    rw [(overlaps_iff (hexplicit l (List.mem_flatten.mpr ⟨rules, hrules, hl⟩))
      (hexplicit r (List.mem_flatten.mpr ⟨rules, hrules, hr⟩))).mpr hoverlap] at hpair
    simpa using hpair

theorem loadsSeparated (h : world.Checked) (hpairs : ∀ rules ∈ world.contexts,
    rules.Pairwise fun left right => overlaps left.id right.id = false) :
    LoadsSeparated (deps world) sidText := by
  intro registry bytes context hregistry hcontext
  rw [sidRegistry_ok hregistry] at hcontext
  have hmem := (ruleContext_ok hcontext).1
  have hexplicit {rule : Rule} (hrule : rule ∈ context.rules) : rule.id.Explicit :=
    h.explicit rule (List.mem_flatten.mpr ⟨_, hmem, hrule⟩)
  refine (hpairs _ hmem).imp_of_mem fun hleft hright hpair hoverlap => ?_
  rw [(overlaps_iff (hexplicit hleft) (hexplicit hright)).mpr hoverlap] at hpair
  cases hpair

def recipe : ContextRecipe where
  sidJson := sidText
  deviceId := { name := "device" }
  profile := { settings := "default" }
  dynamicRuleIds := none
  contextProfile := none

def loaded (world : World) (rules : List Rule) : Except ContextError PreparedContext :=
  PreparedContext.fromSource (deps world) recipe (.sor (sorBytes rules))

def service (world : World) : InspectionService where
  model := coreconfModel world
  sidRegistry := { ruleContext := ruleContext world }
  handler

def start (prepared : PreparedContext) : BackendState :=
  { active := .new prepared, backend := (ActiveContext.new prepared).backend }

def rulesBefore : List Rule := [application 20 5, management]

def rulesAfter : List Rule := [application 20 6, management]

def digestBefore : Digest :=
  ⟨#[87, 77, 205, 138, 254, 244, 6, 210, 36, 151, 64, 193, 86, 27, 23, 59, 186, 221, 118, 227, 31,
    230, 8, 71, 165, 118, 102, 238, 87, 207, 2, 16], rfl⟩

def updateWorld : World where
  complete := [rulesBefore, rulesAfter]
  digests := [
    digestBefore,
    ⟨#[217, 186, 7, 50, 81, 208, 116, 61, 116, 169, 197, 120, 36, 144, 111,
      12, 150, 218, 69, 91, 106, 156, 207, 167, 61, 240, 193, 225, 106, 153, 99, 69], rfl⟩]
  requests := [patch 6]

theorem updateWorld_checked : updateWorld.Checked :=
  .of_checks (by decide +kernel) (by decide +kernel) (by decide +kernel) (by decide +kernel)

theorem loaded_evaluated : holds (loaded updateWorld rulesBefore) (fun prepared =>
    prepared.data.tree = tree rulesBefore) = true := by
  decide +kernel

def patchDatagram : Bytes :=
  CoapWire.encode (wireOf (ResolvedRuleUpdate.ipatchPacket coapLite 0 none (cborBytes (patch 6))))

/-- Rules with which management traffic can be sent. -/
def linkRules : List Rule := [application 20 5, completeManagement]

def linkWorld : World where
  complete := [linkRules]
  digests := [
    ⟨#[52, 110, 107, 79, 203, 248, 202, 216, 30, 201, 199, 206, 209, 17, 100, 113, 153, 140, 60, 98,
      123, 4, 49, 237, 185, 194, 132, 79, 92, 83, 14, 84], rfl⟩]
  requests := []

theorem linkWorld_checked : linkWorld.Checked :=
  .of_checks (by decide +kernel) (by decide +kernel) (by decide +kernel) (by decide +kernel)

theorem linkWorld_separated : LoadsSeparated (deps linkWorld) sidText :=
  loadsSeparated linkWorld_checked (by decide +kernel)

def link (role : NodeRole) : SchcLink := { device := recipe.deviceId, role }

def requestPacket (datagram : Bytes) : Bytes :=
  buildPacket coreLogicalAddress deviceLogicalAddress managementPort managementPort datagram

end SchcCoreconf.Fixture
