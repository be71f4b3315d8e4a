import SchcCoreconf.Reloading

/-!
# Encoding at one end of a link, decoding at the other

Encoding picks one of two runtimes by the origin of a packet. Decoding tries the
full one, falls back to the application one, and encodes again with the one its
RuleID calls for. Over one tree both ends hold the same runtimes, and these agree
on the frames of application rules, so that frames and packets of an origin
correspond one to one.
-/

namespace SchcCoreconf

open Fallible

-- ---------------------------------------------------------------------------
-- One tree at both ends
-- ---------------------------------------------------------------------------

/-- Two contexts of one recipe, each reached from a source of its own, with one tree. -/
structure SharedSnapshot (deps : Deps) (recipe : ContextRecipe) (active active' : ActiveContext) :
    Prop where
  first : ∃ source prepared, Reached deps recipe source prepared active
  second : ∃ source prepared, Reached deps recipe source prepared active'
  sor : active.snapshot.data.sor = active'.snapshot.data.sor

/-- What a link uses of a snapshot. -/
structure ContextData.SameLink (left right : ContextData) : Prop where
  runtime : left.runtime = right.runtime
  applicationRuntime : left.applicationRuntime = right.applicationRuntime
  ruleIds : left.ruleIds = right.ruleIds
  applicationRuleIds : left.applicationRuleIds = right.applicationRuleIds
  protectedRules : left.protectedRules = right.protectedRules

theorem ContextData.SameLink.symm (h : SameLink left right) : SameLink right left :=
  ⟨h.runtime.symm, h.applicationRuntime.symm, h.ruleIds.symm, h.applicationRuleIds.symm,
    h.protectedRules.symm⟩

theorem RuleContext.eq_of_rules {left right : RuleContext} (h : left.rules = right.rules) :
    left = right := by
  cases left
  cases right
  exact congrArg RuleContext.mk h

theorem ContextData.Derived.sameLink {recipe : ContextRecipe} {left right : ContextData}
    (hleft : left.Derived deps recipe) (hright : right.Derived deps recipe)
    (hleftSplit : left.ApplicationSplit deps recipe)
    (hrightSplit : right.ApplicationSplit deps recipe) (hbytes : left.sor = right.sor) :
    left.SameLink right := by
  obtain ⟨registry, context, hregistry, hcontext, hrules, hderive, hruntime⟩ := hleft.full
  obtain ⟨registry', context', hregistry', hcontext', hrules', hderive', hruntime'⟩ := hright.full
  cases hregistry.symm.trans hregistry'
  rw [hbytes] at hcontext
  cases hcontext.symm.trans hcontext'
  have hsame : left.rules = right.rules := hrules.trans hrules'.symm
  have hprotected : left.protectedRules = right.protectedRules :=
    Except.ok.inj (hderive.symm.trans hderive')
  have hids : left.ruleIds = right.ruleIds := by rw [hleft.ruleIds, hright.ruleIds, hsame]
  obtain ⟨application, happ, happRules⟩ := hleftSplit.runtime
  obtain ⟨application', happ', happRules'⟩ := hrightSplit.runtime
  rw [hsame, hprotected, ← happRules'] at happRules
  rw [RuleContext.eq_of_rules happRules] at happ
  exact ⟨Except.ok.inj (hruntime.symm.trans hruntime'), Except.ok.inj (happ.symm.trans happ'), hids,
    by rw [hleftSplit.ruleIds, hrightSplit.ruleIds, hids, hprotected], hprotected⟩

theorem SharedSnapshot.sameLink {recipe : ContextRecipe}
    (hreads : ReadsRuleByRule deps recipe.sidJson)
    (h : SharedSnapshot deps recipe active active') :
    active.snapshot.data.SameLink active'.snapshot.data := by
  obtain ⟨_, _, hfirst⟩ := h.first
  obtain ⟨_, _, hsecond⟩ := h.second
  have hrecipe := hfirst.recipe_eq hsecond
  have hderived := hfirst.sound.current
  have hsplit := hfirst.split hreads _ List.mem_cons_self
  rw [hrecipe] at hderived hsplit
  exact hderived.sameLink hsecond.sound.current hsplit (hsecond.split hreads _ List.mem_cons_self)
    h.sor

structure ContextData.Linked (deps : Deps) (data : ContextData) : Prop where
  inverse : ∀ {origin device role packet encoded},
    (data.runtimeFor origin).encodeDetailed device (.outbound role) packet = .ok encoded →
      (data.runtimeFor origin).decodePaddedDetailed device
        (.inbound role.peer) encoded.frame.bytes = .ok { ruleId := encoded.ruleId, packet }
  carries : ∀ {origin device leg packet encoded},
    (data.runtimeFor origin).encodeDetailed device leg packet = .ok encoded →
      encoded.ruleId.bits <+: BitString.ofBytes encoded.frame.bytes
  /-- Both runtimes decode the frames of application rules alike. -/
  alike : ∀ {id device leg frame}, id ∈ data.ruleIds → id ∉ data.protectedRules.ids →
    id.bits <+: BitString.ofBytes frame →
      data.runtime.decodePaddedDetailed device leg frame =
        data.applicationRuntime.decodePaddedDetailed device leg frame
  explicit : ∀ id ∈ data.ruleIds, id.Explicit
  application : ∀ id ∈ data.applicationRuleIds, id ∈ data.ruleIds

theorem Reached.linked {recipe : ContextRecipe} (hreads : ReadsRuleByRule deps recipe.sidJson)
    (hseparated : LoadsSeparated deps recipe.sidJson)
    (hexplicit : LoadsExplicit deps recipe.sidJson)
    (hframes : FramesCarryRuleIds deps) (hinvert : RuntimesInvert deps)
    (h : Reached deps recipe source prepared active) : active.snapshot.data.Linked deps := by
  have hderived := h.sound.current
  have hsplit : active.snapshot.data.ApplicationSplit deps active.recipe :=
    h.split hreads _ List.mem_cons_self
  rw [← h.sidJson] at hseparated hexplicit
  obtain ⟨registry, context, hregistry, hcontext, hrules, -, hruntime⟩ := hderived.full
  obtain ⟨application, happlication, happRules⟩ := hsplit.runtime
  rw [hrules] at happRules
  have hcontextSeparated := hseparated hregistry hcontext
  have happSeparated : application.Separated := by
    rw [RuleContext.Separated, happRules]
    exact hcontextSeparated.filter _
  have hmem {id : RuleId} (hid : id ∈ active.snapshot.data.ruleIds) :
      ∃ rule ∈ context.rules, rule.id = id := by
    rw [hderived.ruleIds, hrules] at hid
    exact List.mem_map.mp hid
  refine ⟨?_, ?_, ?_, ?_, ?_⟩
  · intro origin device role packet encoded hencode
    cases origin with
    | application => exact hinvert.inverse happlication hencode
    | management => exact hinvert.inverse hruntime hencode
  · intro origin device leg packet encoded hencode
    cases origin with
    | application => exact hframes.encode happlication hencode
    | management => exact hframes.encode hruntime hencode
  · intro id device leg frame hid hunprotected hbits
    obtain ⟨rule, hrule, rfl⟩ := hmem hid
    have happ : rule ∈ application.rules := by
      rw [happRules]
      refine List.mem_filter.mpr ⟨hrule, ?_⟩
      simpa using mt ProtectedRules.contains_iff.mp hunprotected
    exact hinvert.matched hruntime happlication hcontextSeparated happSeparated hrule happ hbits
  · intro id hid
    obtain ⟨rule, hrule, rfl⟩ := hmem hid
    exact hexplicit hregistry hcontext rule hrule
  · intro id hid
    rw [hsplit.ruleIds] at hid
    exact (List.mem_filter.mp hid).1

-- ---------------------------------------------------------------------------
-- Classes and runtimes
-- ---------------------------------------------------------------------------

def TrafficRoute.origin : TrafficRoute → TrafficOrigin
  | .application => .application
  | .protectedManagement => .management

def TrafficOrigin.trafficClass : TrafficOrigin → TrafficClass
  | .application => .ordinary
  | .management => .protectedManagement

structure ContextData.Serves (data : ContextData) (origin : TrafficOrigin) (ruleId : RuleId) :
    Prop where
  known : ruleId ∈ data.ruleIds
  side : origin = .management ↔ ruleId ∈ data.protectedRules.ids

theorem ContextData.Serves.classify {snapshot : ContextSnapshot}
    (h : snapshot.data.Serves origin ruleId) :
    classify snapshot ruleId = .ok origin.trafficClass := by
  have hknown : snapshot.data.ruleIds.contains ruleId = true := by simpa using h.known
  have hprotected := h.side.trans ProtectedRules.contains_iff.symm
  unfold SchcCoreconf.classify
  simp only [hknown, Bool.not_true, Bool.false_and, Bool.false_eq_true, if_false]
  cases origin with
  | application =>
    rw [if_neg (mt hprotected.mpr nofun)]
    rfl
  | management =>
    rw [if_pos (hprotected.mp rfl)]
    rfl

theorem enforceOrigin_class (origin : TrafficOrigin) (ruleId : RuleId) :
    enforceOrigin origin ruleId origin.trafficClass = .ok () := by
  cases origin <;> rfl

theorem ContextData.Serves.runtime {data : ContextData} (h : data.Serves origin ruleId) :
    (if data.protectedRules.contains ruleId then data.runtime else data.applicationRuntime) =
      data.runtimeFor origin := by
  have hprotected := h.side.trans ProtectedRules.contains_iff.symm
  cases origin with
  | application => exact if_neg (mt hprotected.mpr nofun)
  | management => exact if_pos (hprotected.mp rfl)

theorem ContextData.SameLink.runtimeFor (h : SameLink left right) (origin : TrafficOrigin) :
    left.runtimeFor origin = right.runtimeFor origin := by
  cases origin with
  | application => exact h.applicationRuntime
  | management => exact h.runtime

theorem ContextData.SameLink.serves (h : SameLink left right)
    (hserves : left.Serves origin ruleId) : right.Serves origin ruleId :=
  ⟨h.ruleIds ▸ hserves.known, h.protectedRules ▸ hserves.side⟩

-- ---------------------------------------------------------------------------
-- Both directions
-- ---------------------------------------------------------------------------

structure SchcLink.Ends (sender receiver : SchcLink) : Prop where
  device : receiver.device = sender.device
  role : receiver.role = sender.role.peer

theorem SchcLink.peerRole_eq (self : SchcLink) : self.peerRole = self.role.peer := by
  unfold peerRole
  split <;> next hrole => rw [hrole]; rfl

theorem NodeRole.peer_peer (role : NodeRole) : role.peer.peer = role := by
  cases role <;> rfl

namespace SchcLink

theorem Ends.symm (h : Ends sender receiver) : Ends receiver sender :=
  ⟨h.device.symm, by rw [h.role, NodeRole.peer_peer]⟩

theorem encodeValidated_serves {self : SchcLink} {packet : Bytes}
    (hlinked : active.snapshot.data.Linked deps)
    (h : self.encodeValidated deps active origin packet udpPayload = .ok encoding) :
    ∃ encoded, (active.snapshot.data.runtimeFor origin).encodeDetailed self.device
        (.outbound self.role) packet = .ok encoded ∧
      encoding.frame = encoded.frame ∧ encoding.report.ruleId = encoded.ruleId ∧
      active.snapshot.data.Serves origin encoded.ruleId := by
  obtain ⟨encoded, hencoded, hframe, hid, hknown, hside⟩ := encodeValidated_ok h
  exact ⟨encoded, hencoded, hframe, hid, hknown.elim id (hlinked.application _), hside⟩

theorem encodeValidated_of_serves {self : SchcLink} {packet : Bytes}
    (deps : Deps) (udpPayload : Bytes)
    (hencoded : (active.snapshot.data.runtimeFor origin).encodeDetailed self.device
      (.outbound self.role) packet = .ok encoded)
    (hserves : active.snapshot.data.Serves origin encoded.ruleId) :
    ∃ encoding, self.encodeValidated deps active origin packet udpPayload = .ok encoding ∧
      encoding.frame = encoded.frame ∧ encoding.report.ruleId = encoded.ruleId := by
  simp only [encodeValidated, bind_ok, mapError_ok, pure_ok]
  refine ⟨_, ⟨encoded, ?_, _, hserves.classify, (), enforceOrigin_class .., rfl⟩, rfl, rfl⟩
  cases origin <;> exact hencoded

theorem decodeFrame_encoded {sender receiver : SchcLink} {packet : Bytes}
    (hends : Ends sender receiver) (hlinked : active.snapshot.data.Linked deps)
    (hencoded : (active.snapshot.data.runtimeFor origin).encodeDetailed sender.device
      (.outbound sender.role) packet = .ok encoded)
    (hserves : active.snapshot.data.Serves origin encoded.ruleId) :
    receiver.decodeFrame active encoded.frame.bytes = .ok { ruleId := encoded.ruleId, packet } := by
  have hinverse := hlinked.inverse hencoded
  have hfull : active.snapshot.data.runtime.decodePaddedDetailed receiver.device
      (.inbound receiver.role) encoded.frame.bytes = .ok { ruleId := encoded.ruleId, packet } := by
    rw [hends.device, hends.role]
    cases origin with
    | application =>
      have hunprotected : encoded.ruleId ∉ active.snapshot.data.protectedRules.ids :=
        mt hserves.side.mpr nofun
      rw [hlinked.alike hserves.known hunprotected (hlinked.carries hencoded)]
      exact hinverse
    | management => exact hinverse
  simp only [decodeFrame, hfull]

theorem frame_nonempty {id : RuleId} (hid : id.Explicit) (h : id.bits <+: BitString.ofBytes bytes) :
    (!bytes.isEmpty) = true := by
  cases bytes with
  | cons => rfl
  | nil =>
    have hlength := h.length_le
    rw [RuleId.length_bits] at hlength
    exact absurd hid.1 (Nat.not_le.mpr (Nat.lt_of_le_of_lt hlength Nat.one_pos))

/-- What one end encodes, the other decodes. -/
theorem decodePacket_encoded {sender receiver : SchcLink} {packet : Ipv6UdpPacket}
    (hends : Ends sender receiver) (hlinked : active.snapshot.data.Linked deps)
    (hparse : deps.rschc.parsePacket packet.bytes = .ok packet)
    (hencoded : (active.snapshot.data.runtimeFor origin).encodeDetailed sender.device
      (.outbound sender.role) packet.bytes = .ok encoded)
    (hserves : active.snapshot.data.Serves origin encoded.ruleId) :
    ∃ decoded, receiver.decodePacket deps active encoded.frame.bytes = .ok decoded ∧
      decoded.packet = packet ∧ decoded.ruleId = encoded.ruleId ∧
        decoded.route.origin = origin := by
  have hnonempty := frame_nonempty (hlinked.explicit _ hserves.known) (hlinked.carries hencoded)
  have hcanonical : (if active.snapshot.data.protectedRules.contains encoded.ruleId then
      active.snapshot.data.runtime else active.snapshot.data.applicationRuntime).encodeDetailed
      receiver.device (.outbound receiver.peerRole) packet.bytes = .ok encoded := by
    rw [hserves.runtime, receiver.peerRole_eq, hends.role, NodeRole.peer_peer, hends.device]
    exact hencoded
  simp only [decodePacket, bind_ok, mapError_ok, pure_ok, ensure_ok]
  exact ⟨_, ⟨(), hnonempty, _, decodeFrame_encoded hends hlinked hencoded hserves, _,
    hserves.classify, packet, hparse, encoded, hcanonical, (), by simp, rfl⟩, rfl, rfl,
    by cases origin <;> rfl⟩

/-- What one end decodes, the other encodes. -/
theorem decodePacket_encodes {sender receiver : SchcLink} (hends : Ends sender receiver)
    (hlinked : active.snapshot.data.Linked deps)
    (h : receiver.decodePacket deps active frame = .ok decoded) :
    ∃ encoded, (active.snapshot.data.runtimeFor decoded.route.origin).encodeDetailed sender.device
        (.outbound sender.role) decoded.packet.bytes = .ok encoded ∧
      encoded.ruleId = decoded.ruleId ∧ encoded.frame.bytes = frame ∧
      active.snapshot.data.Serves decoded.route.origin decoded.ruleId := by
  obtain ⟨-, hknown, hroute⟩ := decodePacket_ok h
  have hserves : active.snapshot.data.Serves decoded.route.origin decoded.ruleId := by
    refine ⟨hknown.elim id (hlinked.application _), ?_⟩
    rw [← hroute]
    cases decoded.route <;> simp [TrafficRoute.origin]
  simp only [decodePacket, bind_ok, mapError_ok, ensure_ok, pure_ok, Bool.and_eq_true,
    decide_eq_true_eq] at h
  obtain ⟨_, -, inner, -, trafficClass, -, packet, -, canonical, hcanonical, _,
    ⟨hid, hframe⟩, rfl⟩ := h
  rw [hserves.runtime, receiver.peerRole_eq, hends.role, NodeRole.peer_peer,
    hends.device] at hcanonical
  exact ⟨canonical, hcanonical, hid, hframe, hserves⟩

end SchcLink

-- ---------------------------------------------------------------------------
-- Frames and packets
-- ---------------------------------------------------------------------------

/-- Packets sent at one end arrive at the other, and every frame taken there is the
one sent for its packet. -/
structure SchcLink.RoundTrips (deps : Deps) (here there : ActiveContext)
    (sender receiver : SchcLink) : Prop where
  packet : ∀ {origin packet encoding}, sender.encodeBytes deps here origin packet = .ok encoding →
    ∃ decoded, receiver.decodePacket deps there encoding.frame.bytes = .ok decoded ∧
      decoded.packet.bytes = packet ∧ decoded.ruleId = encoding.report.ruleId ∧
      decoded.route.origin = origin
  coapPacket : ∀ {origin packet encoding}, deps.rschc.parseCoapPacket
    packet.udp.bytes = .ok packet → sender.encode deps here origin packet = .ok encoding →
      ∃ decoded, receiver.decode deps there encoding.frame.bytes = .ok decoded ∧
        decoded.packet = packet ∧ decoded.ruleId = encoding.report.ruleId ∧
        decoded.route.origin = origin
  frame : ∀ {frame decoded}, receiver.decodePacket deps there frame = .ok decoded →
    ∃ encoding, sender.encodeBytes deps here decoded.route.origin decoded.packet.bytes =
        .ok encoding ∧ encoding.frame.bytes = frame ∧ encoding.report.ruleId = decoded.ruleId
  coapFrame : ∀ {frame decoded}, receiver.decode deps there frame = .ok decoded →
    ∃ encoding, sender.encode deps here decoded.route.origin decoded.packet = .ok encoding ∧
      encoding.frame.bytes = frame ∧ encoding.report.ruleId = decoded.ruleId
  unique : ∀ {frame frame' decoded decoded'}, receiver.decodePacket deps there frame = .ok decoded →
    receiver.decodePacket deps there frame' = .ok decoded' →
    decoded.packet.bytes = decoded'.packet.bytes → decoded.route = decoded'.route → frame = frame'

section

variable {recipe : ContextRecipe} {here there : ActiveContext} {sender receiver : SchcLink}

theorem SchcLink.Ends.encoded_decodes (hends : Ends sender receiver)
    (hsame : here.snapshot.data.SameLink there.snapshot.data)
    (hhere : here.snapshot.data.Linked deps) (hthere : there.snapshot.data.Linked deps)
    {packet : Ipv6UdpPacket} (hparse : deps.rschc.parsePacket packet.bytes = .ok packet)
    (h : sender.encodeValidated deps here origin packet.bytes udpPayload = .ok encoding) :
    ∃ decoded, receiver.decodePacket deps there encoding.frame.bytes = .ok decoded ∧
      decoded.packet = packet ∧ decoded.ruleId = encoding.report.ruleId ∧
      decoded.route.origin = origin := by
  obtain ⟨encoded, hencoded, hframe, hid, hserves⟩ := encodeValidated_serves hhere h
  rw [hsame.runtimeFor] at hencoded
  rw [hframe, hid]
  exact decodePacket_encoded hends hthere hparse hencoded (hsame.serves hserves)

theorem SchcLink.Ends.decoded_encodes (hends : Ends sender receiver)
    (hsame : here.snapshot.data.SameLink there.snapshot.data)
    (hthere : there.snapshot.data.Linked deps) (udpPayload : Bytes)
    (h : receiver.decodePacket deps there frame = .ok decoded) :
    ∃ encoding, sender.encodeValidated deps here decoded.route.origin
      decoded.packet.bytes udpPayload =
        .ok encoding ∧ encoding.frame.bytes = frame ∧ encoding.report.ruleId = decoded.ruleId := by
  obtain ⟨encoded, hencoded, hid, rfl, hserves⟩ := decodePacket_encodes hends hthere h
  rw [← hsame.runtimeFor] at hencoded
  rw [← hid] at hserves ⊢
  obtain ⟨encoding, hencoding, hframe, hreport⟩ :=
    encodeValidated_of_serves deps udpPayload hencoded (hsame.symm.serves hserves)
  exact ⟨encoding, hencoding, by rw [hframe], hreport⟩

theorem SchcLink.decodePacket_parsed (h : receiver.decodePacket deps there frame = .ok decoded) :
    ∃ bytes, deps.rschc.parsePacket bytes = .ok decoded.packet := by
  simp only [decodePacket, bind_ok, mapError_ok, pure_ok] at h
  obtain ⟨_, -, inner, -, _, -, packet, hparse, _, -, _, -, rfl⟩ := h
  exact ⟨_, hparse⟩

/-- Two peers over one snapshot: what either encodes the other decodes, to the same
packet and RuleID, on the route of its origin; and a frame is decoded only if the
other end encodes its packet so. -/
theorem link_roundtrips (hreads : ReadsRuleByRule deps recipe.sidJson)
    (hseparated : LoadsSeparated deps recipe.sidJson)
    (hexplicit : LoadsExplicit deps recipe.sidJson)
    (hframes : FramesCarryRuleIds deps) (hinvert : RuntimesInvert deps)
    (hpackets : PacketLaws deps.rschc) (hshared : SharedSnapshot deps recipe here there)
    (hends : SchcLink.Ends sender receiver) :
    SchcLink.RoundTrips deps here there sender receiver := by
  obtain ⟨_, _, hfirst⟩ := hshared.first
  obtain ⟨_, _, hsecond⟩ := hshared.second
  have hsame := hshared.sameLink hreads
  have hhere := hfirst.linked hreads hseparated hexplicit hframes hinvert
  have hthere := hsecond.linked hreads hseparated hexplicit hframes hinvert
  have hreparse {bytes : Bytes} {packet : Ipv6UdpPacket}
      (h : deps.rschc.parsePacket bytes = .ok packet) :
      deps.rschc.parsePacket packet.bytes = .ok packet := (hpackets.bytes h).symm ▸ h
  refine ⟨?_, ?_, ?_, ?_, ?_⟩
  · intro origin packet encoding h
    simp only [SchcLink.encodeBytes, bind_ok, mapError_ok] at h
    obtain ⟨parsed, hparsed, h⟩ := h
    obtain ⟨decoded, hdecoded, rfl, hrest⟩ :=
      hends.encoded_decodes hsame hhere hthere (hreparse hparsed) h
    exact ⟨decoded, hdecoded, hpackets.bytes hparsed, hrest⟩
  · intro origin packet encoding hparsed h
    simp only [RSchc.parseCoapPacket, bind_ok] at hparsed
    obtain ⟨udp, hudp, hcoap⟩ := hparsed
    have hsameUdp := (hpackets.coap hcoap).1
    subst hsameUdp
    obtain ⟨decoded, hdecoded, hpacket, hid, horigin⟩ :=
      hends.encoded_decodes hsame hhere hthere hudp h
    simp only [SchcLink.decode, bind_ok, mapError_ok, pure_ok]
    exact ⟨_, ⟨decoded, hdecoded, packet, hpacket ▸ hcoap, rfl⟩, rfl, hid, horigin⟩
  · intro frame decoded h
    obtain ⟨bytes, hparse⟩ := SchcLink.decodePacket_parsed h
    obtain ⟨encoding, hencoding, hframe, hid⟩ :=
      hends.decoded_encodes hsame hthere decoded.packet.udpPayload h
    simp only [SchcLink.encodeBytes, bind_ok, mapError_ok]
    exact ⟨encoding, ⟨decoded.packet, hreparse hparse, hencoding⟩, hframe, hid⟩
  · intro frame decoded h
    simp only [SchcLink.decode, bind_ok, mapError_ok, pure_ok] at h
    obtain ⟨inner, hinner, packet, hcoap, rfl⟩ := h
    have hsameUdp := (hpackets.coap hcoap).1
    rw [SchcLink.encode, hsameUdp]
    exact hends.decoded_encodes hsame hthere _ hinner
  · intro frame frame' decoded decoded' h h' hbytes hroute
    obtain ⟨encoded, hencoded, -, rfl, -⟩ := SchcLink.decodePacket_encodes hends hthere h
    obtain ⟨encoded', hencoded', -, rfl, -⟩ := SchcLink.decodePacket_encodes hends hthere h'
    rw [hbytes, hroute] at hencoded
    cases hencoded.symm.trans hencoded'
    rfl

end

section
open Fixture

theorem link_evaluated : holds (loaded linkWorld linkRules) (fun prepared =>
    let active := ActiveContext.new prepared
    let packet :=
      requestPacket (CoapWire.encode (wireOf (ResolvedRuleUpdate.ipatchPacket coapLite 0 none [])))
    holds ((link .core).encodeBytes (deps linkWorld) active .management packet) (fun _ => true)) =
      true := by
  decide +kernel

theorem link_roundtrips_request : ∃ prepared packet encoding decoded,
    loaded linkWorld linkRules = .ok prepared ∧
    (link .core).encodeBytes (deps linkWorld) (.new prepared) .management packet = .ok encoding ∧
    (link .device).decodePacket (deps linkWorld) (.new prepared)
      encoding.frame.bytes = .ok decoded ∧
    decoded.packet.bytes = packet ∧ decoded.ruleId = encoding.report.ruleId ∧
    decoded.route.origin = .management ∧
    ∀ {frame decoded'}, (link .device).decodePacket (deps linkWorld) (.new prepared) frame =
      .ok decoded' → decoded.packet.bytes = decoded'.packet.bytes → decoded.route = decoded'.route →
        encoding.frame.bytes = frame := by
  obtain ⟨prepared, hprepared, hencoded⟩ := holds_iff.mp link_evaluated
  obtain ⟨encoding, hencoding, -⟩ := holds_iff.mp hencoded
  have hreached :
      Reached (deps linkWorld) recipe (.sor (sorBytes linkRules)) prepared (.new prepared) :=
    Reached.of_loaded hprepared []
  have hroundtrips := link_roundtrips (readsRuleByRule linkWorld_checked) linkWorld_separated
    (loadsExplicit linkWorld_checked) framesCarryRuleIds runtimesInvert packetLaws
    ⟨⟨_, _, hreached⟩, ⟨_, _, hreached⟩, rfl⟩
    (show SchcLink.Ends (link .core) (link .device) from ⟨rfl, rfl⟩)
  obtain ⟨decoded, hdecoded, hpacket, hid, horigin⟩ := hroundtrips.packet hencoding
  exact ⟨prepared, _, encoding, decoded, hprepared, hencoding, hdecoded, hpacket, hid, horigin,
    fun h => hroundtrips.unique hdecoded h⟩

end

end SchcCoreconf
