import SchcCoreconf.Endpoints
import SchcCoreconf.Fixture.Flows
import SchcCoreconf.FrameSafety
import SchcCoreconf.Lib.Relay
import SchcCoreconf.LinkRoundTrip

/-!
# Application packets from TUN to TUN

Over contexts with one tree the two endpoints and the frames between them are a link
that carries packets: what an endpoint accepts from its TUN is what the other writes to
its own, byte for byte, whatever the link loses, repeats or reorders, and whatever
response the core waits for meanwhile.
-/

namespace SchcCoreconf

open Fallible
open Relay (Channel Event)

-- ---------------------------------------------------------------------------
-- The endpoints
-- ---------------------------------------------------------------------------

/-- The device, and the two directions of the link with what came out of them. -/
structure PacketRelay where
  device : BackendState
  down : Channel Bytes Bytes
  up : Channel Bytes Bytes

inductive RelayEvent
  | coreRead (packet : Bytes)
  | deviceRead (packet : Bytes)
  | deviceReceive (index : Nat)
  | coreReceive (index : Nat) (awaited : Option PreparedManagementRequest)

def DeviceEffect.written : Except DevicePacketError DeviceEffect → Option Bytes
  | .ok (.application packet) => some packet
  | _ => none

def DeviceEffect.response : Except DevicePacketError DeviceEffect → Option Bytes
  | .ok (.respond frame) => some frame.bytes
  | _ => none

def CoreFrameResult.written : Except CorePacketError CoreFrameResult → Option Bytes
  | .ok (.application packet) => some packet
  | _ => none

namespace PacketRelay

def start (device : BackendState) : PacketRelay := { device, down := .start, up := .start }

def step (deps : Deps) (core : ActiveContext) (coreLink deviceLink : SchcLink)
    (service : InspectionService) (debug : Bool) (world : PacketRelay) : RelayEvent → PacketRelay
  | .coreRead packet => { world with
      down := world.down.offer (processCoreTunPacket deps core coreLink takesAll
        packet debug).toOption }
  | .deviceRead packet => { world with
      up := world.up.offer (sendDeviceTunResponse deps world.device.active deviceLink takesAll
        packet debug).toOption }
  | .deviceReceive index =>
    match world.down.carried[index]? with
    | none => world
    | some frame =>
      let outcome := receiveDeviceFrame deps deviceLink service world.device frame debug
      { device := outcome.state
        down := world.down.deliver (outcome.result.bind DeviceEffect.written)
        up := world.up.offer (outcome.result.bind DeviceEffect.response) }
  | .coreReceive index awaited => { world with
      up := world.up.deliver (world.up.carried[index]?.bind fun frame =>
        CoreFrameResult.written (processCoreRawFrame deps core coreLink frame debug awaited)) }

end PacketRelay

def RelayEvent.down : RelayEvent → Option (Event Bytes)
  | .coreRead packet => some (.offer packet)
  | .deviceReceive index => some (.arrive index)
  | _ => none

def RelayEvent.up : RelayEvent → Option (Event Bytes)
  | .deviceRead packet => some (.offer packet)
  | .coreReceive index _ => some (.arrive index)
  | _ => none

-- ---------------------------------------------------------------------------
-- One packet
-- ---------------------------------------------------------------------------

section
variable {deps : Deps} {here there : ActiveContext} {sender receiver : SchcLink}

theorem sendBytes_takesAll {bytes : Bytes} (h : (!bytes.isEmpty) = true) :
    sendBytes takesAll bytes = .ok () := by
  simp only [sendBytes, bind_ok, ensure_ok, mapError_ok]
  exact ⟨(), h, bytes.length, rfl, decide_eq_true rfl⟩

theorem processTunPacket_ok (h : processTunPacket deps here sender source
    destination unsupported subject takesAll bytes debug = .ok frame) :
    ∃ packet encoded, deps.rschc.parseCoapPacket bytes = .ok packet ∧
      oriented packet.udp source destination applicationPort = true ∧
      sender.encode deps here .application packet = .ok encoded ∧ frame = encoded.frame.bytes := by
  simp only [processTunPacket, bind_ok, mapError_ok, ensure_ok, pure_ok] at h
  obtain ⟨packet, hparsed, _, horiented, encoded, hencoded, _, -, _, -, rfl⟩ := h
  exact ⟨packet, encoded, hparsed, horiented, hencoded, rfl⟩

theorem application_decoded (hpackets : PacketLaws deps.rschc)
    (hpads : there.snapshot.data.PadsFrames) (hends : SchcLink.Ends sender receiver)
    (hsame : here.snapshot.data.SameLink there.snapshot.data)
    (hhere : here.snapshot.data.Linked deps) (hthere : there.snapshot.data.Linked deps)
    (hparsed : deps.rschc.parseCoapPacket bytes = .ok packet)
    (hencoded : sender.encode deps here .application packet = .ok encoded) (debug : Bool) :
    ∃ decoded, receiver.decode deps there encoded.frame.bytes = .ok decoded ∧
    decoded.packet = packet ∧
      decoded.route = .application ∧ printReport deps .rx decoded.report debug = .ok () ∧
      packet.udp.bytes = bytes := by
  simp only [RSchc.parseCoapPacket, bind_ok] at hparsed
  obtain ⟨udp, hudp, hcoap⟩ := hparsed
  have hpacket := (hpackets.coap hcoap).1
  subst hpacket
  have hbytes := hpackets.bytes hudp
  have hreparse : deps.rschc.parsePacket packet.udp.bytes = .ok packet.udp := hbytes.symm ▸ hudp
  obtain ⟨decoded, hdecoded, hsamePacket, -, horigin⟩ :=
    hends.encoded_decodes hsame hhere hthere hreparse hencoded
  have hdecode : receiver.decode deps there encoded.frame.bytes = .ok
      { packet, ruleId := decoded.ruleId,
        trafficClass := decoded.trafficClass, route :=
          decoded.route, report := decoded.report } := by
    simp only [SchcLink.decode, bind_ok, mapError_ok, pure_ok]
    exact ⟨decoded, hdecoded, packet, hsamePacket ▸ hcoap, rfl⟩
  have hroute : decoded.route = .application := by
    cases hroute : decoded.route with
    | application => rfl
    | protectedManagement =>
      rw [hroute] at horigin
      cases horigin
  refine ⟨_, hdecode, rfl, hroute, ?_, hbytes⟩
  have hcharges : debug = true → ChargesDuplicate deps there receiver encoded.frame.bytes := by
    intro _ other hother hprotected
    cases hdecode.symm.trans hother
    cases hroute.symm.trans hprotected
  exact (printReport_ok_iff hpackets (SchcLink.decode_reports hpackets hpads hdecode) .rx debug).mpr
    ((SchcLink.decode_reportable_iff hpackets hdecode debug).mpr hcharges)

theorem application_sent (hpackets : PacketLaws deps.rschc)
    (hpads : here.snapshot.data.PadsFrames) (hhere : here.snapshot.data.Linked deps)
    (hparsed : deps.rschc.parseCoapPacket bytes = .ok packet)
    (hencoded : sender.encode deps here .application packet = .ok encoding) (debug : Bool) :
    printReport deps .tx encoding.report debug = .ok () ∧
      sendBytes takesAll encoding.frame.bytes = .ok () := by
  obtain ⟨encoded, hencode, hframe, -, hserves⟩ := SchcLink.encodeValidated_serves hhere hencoded
  constructor
  · simp only [RSchc.parseCoapPacket, bind_ok] at hparsed
    obtain ⟨udp, hudp, hcoap⟩ := hparsed
    obtain ⟨rfl, -⟩ := hpackets.coap hcoap
    simp only [SchcLink.encode, SchcLink.encodeValidated, bind_ok, mapError_ok, pure_ok] at hencoded
    obtain ⟨encoded, hsent, trafficClass, -, _, horigin, rfl⟩ := hencoded
    have hpadded := hpads .application _ _ _ _ hsent
    have hreparsed : deps.rschc.parseCoapPacket packet.udp.bytes = .ok packet := by
      rw [RSchc.parseCoapPacket, hpackets.bytes hudp, hudp]
      exact hcoap
    have hlength : encoded.frame.bitLen ≤ encoded.frame.bytes.length * 8 := by omega
    refine (printReport_ok_iff hpackets ⟨hreparsed, rfl, rfl, _, rfl, hlength⟩ .tx debug).mpr
      fun _ sidJson hsome => ?_
    have hclass := enforceOrigin_ok horigin
    cases trafficClass with
    | ordinary => cases hsome
    | protectedManagement => cases hclass.mpr rfl
  · rw [hframe]
    exact sendBytes_takesAll
      (SchcLink.frame_nonempty (hhere.explicit _ hserves.known) (hhere.carries hencode))

theorem processTunPacket_not_fatal (hpackets : PacketLaws deps.rschc)
    (hpads : here.snapshot.data.PadsFrames)
    (hhere : here.snapshot.data.Linked deps) :
    ¬PacketOutcomeError.Fatal (processTunPacket deps here sender source
      destination unsupported subject takesAll bytes debug) := by
  rintro ⟨message, hfatal⟩
  simp only [processTunPacket, bind_error, mapError_error, ensure_error,
    mapError_ok, ensure_ok] at hfatal
  rcases hfatal with ⟨error, -, hclassified⟩ |
    ⟨packet, hparsed, ⟨-, horientation⟩ | ⟨_, -, ⟨_, -, hdropped⟩ |
    ⟨encoding, hencoded, ⟨_, hprint, -⟩ | ⟨_, -, ⟨_, hsend, -⟩ | ⟨_, -, hdone⟩⟩⟩⟩⟩
  · cases error <;> cases hclassified
  · cases horientation
  · cases hdropped
  · cases (application_sent hpackets hpads hhere hparsed hencoded debug).1.symm.trans hprint
  · cases (application_sent hpackets hpads hhere hparsed hencoded debug).2.symm.trans hsend
  · cases hdone

/-- What the core sends, the device writes to its TUN. -/
theorem device_writes {state : BackendState} (hpackets : PacketLaws deps.rschc)
    (hpads : state.active.snapshot.data.PadsFrames)
    (hends : SchcLink.Ends sender receiver)
    (hsame : here.snapshot.data.SameLink state.active.snapshot.data)
    (hhere : here.snapshot.data.Linked deps) (hthere : state.active.snapshot.data.Linked deps)
    (service : InspectionService)
    (h : processCoreTunPacket deps here sender takesAll bytes debug = .ok frame) :
    receiveDeviceFrame deps receiver service state frame debug =
      InspectionService.answer state (.ok (.application bytes)) := by
  obtain ⟨packet, encoded, hparsed, horiented, hencoded, rfl⟩ := processTunPacket_ok h
  obtain ⟨decoded, hdecoded, rfl, hroute, hprinted, hbytes⟩ :=
    application_decoded hpackets hpads hends hsame hhere hthere hparsed hencoded debug
  simp only [receiveDeviceFrame, hdecoded, hprinted, hroute, horiented, if_true, hbytes]

theorem core_writes (hpackets : PacketLaws deps.rschc)
    (hpads : there.snapshot.data.PadsFrames) (hends : SchcLink.Ends sender receiver)
    (hsame : here.snapshot.data.SameLink there.snapshot.data)
    (hhere : here.snapshot.data.Linked deps) (hthere : there.snapshot.data.Linked deps)
    (h : sendDeviceTunResponse deps here sender takesAll bytes debug = .ok frame)
    (awaited : Option PreparedManagementRequest) :
    processCoreRawFrame deps there receiver frame debug awaited = .ok (.application bytes) := by
  obtain ⟨packet, encoded, hparsed, horiented, hencoded, rfl⟩ := processTunPacket_ok h
  obtain ⟨decoded, hdecoded, rfl, hroute, hprinted, hbytes⟩ :=
    application_decoded hpackets hpads hends hsame hhere hthere hparsed hencoded debug
  simp [processCoreRawFrame, processCoreApplication, hdecoded, hprinted, hroute, horiented, hbytes,
    Except.mapError, ensure, bind, Except.bind, pure, Except.pure]

end

-- ---------------------------------------------------------------------------
-- Runs
-- ---------------------------------------------------------------------------

namespace PacketRelay

section
variable {deps : Deps} {core : ActiveContext} {device : BackendState}
  {coreLink deviceLink : SchcLink} {service : InspectionService} {debug : Bool}
  {world : PacketRelay} {down up : Channel Bytes Bytes}

structure Carries (deps : Deps) (core : ActiveContext) (device : BackendState)
    (coreLink deviceLink : SchcLink) (debug : Bool) (down up : Channel Bytes Bytes) : Prop where
  down : ∀ frame ∈ down.carried, ∃ packet, processCoreTunPacket deps core coreLink takesAll
    packet debug = .ok frame
  up : ∀ frame ∈ up.carried, ∃ packet,
    sendDeviceTunResponse deps device.active deviceLink takesAll packet debug = .ok frame

theorem mem_offer {channel : Channel Bytes Bytes} {code : Except PacketOutcomeError Bytes}
    (h : frame ∈ (channel.offer code.toOption).carried) :
    frame ∈ channel.carried ∨ code = .ok frame := by
  rcases List.mem_append.mp h with h | h
  · exact .inl h
  · exact .inr (toOption_eq_some.mp (Option.mem_toList.mp h))

structure Returns (deps : Deps) (core : ActiveContext) (device : BackendState)
    (coreLink deviceLink : SchcLink) (service : InspectionService) (debug : Bool) : Prop where
  down : ∀ {packet frame}, processCoreTunPacket deps core coreLink takesAll
    packet debug = .ok frame → receiveDeviceFrame deps deviceLink service device frame debug =
      InspectionService.answer device (.ok (.application packet))
  up : ∀ {packet frame} awaited, sendDeviceTunResponse deps device.active deviceLink takesAll
    packet debug = .ok frame → processCoreRawFrame deps core coreLink frame debug awaited =
      .ok (.application packet)

def downLink (deps : Deps) (core : ActiveContext) (device : BackendState)
    (coreLink deviceLink : SchcLink) (service : InspectionService) (debug : Bool) :
    Channel Bytes Bytes → Event Bytes → Channel Bytes Bytes :=
  Relay.step (fun packet => (processCoreTunPacket deps core coreLink
    takesAll packet debug).toOption) fun frame =>
      (receiveDeviceFrame deps deviceLink service device frame debug).result.bind
      DeviceEffect.written

def upLink (deps : Deps) (core : ActiveContext) (device : BackendState)
    (coreLink deviceLink : SchcLink) (debug : Bool) :
    Channel Bytes Bytes → Event Bytes → Channel Bytes Bytes :=
  Relay.step (fun packet => (sendDeviceTunResponse deps device.active deviceLink
    takesAll packet debug).toOption) fun frame =>
      CoreFrameResult.written (processCoreRawFrame deps core coreLink frame debug none)

/-- A step is a step of one of the two links, or of none. -/
theorem step_links (hreturns : Returns deps core device coreLink deviceLink service debug)
    (hcarries : Carries deps core device coreLink deviceLink debug down up) (event : RelayEvent) :
    step deps core coreLink deviceLink service debug { device, down, up } event =
        { device
          down := event.down.elim down
            (downLink deps core device coreLink deviceLink service debug down)
          up := event.up.elim up (upLink deps core device coreLink deviceLink debug up) } ∧
      Carries deps core device coreLink deviceLink debug
        (event.down.elim down (downLink deps core device coreLink deviceLink service debug down))
        (event.up.elim up (upLink deps core device coreLink deviceLink debug up)) := by
  cases event with
  | coreRead packet =>
    refine ⟨rfl, fun frame hframe => ?_, hcarries.up⟩
    rcases mem_offer hframe with hframe | hsent
    · exact hcarries.down frame hframe
    · exact ⟨packet, hsent⟩
  | deviceRead packet =>
    refine ⟨rfl, hcarries.down, fun frame hframe => ?_⟩
    rcases mem_offer hframe with hframe | hsent
    · exact hcarries.up frame hframe
    · exact ⟨packet, hsent⟩
  | deviceReceive index =>
    refine ⟨?_, hcarries.down, hcarries.up⟩
    simp only [step, RelayEvent.down, RelayEvent.up, Option.elim, downLink, Relay.step]
    cases hindex : down.carried[index]? with
    | none => simp [Channel.deliver]
    | some frame =>
      obtain ⟨packet, hsent⟩ := hcarries.down frame (List.mem_of_getElem? hindex)
      simp [hreturns.down hsent, InspectionService.answer, DeviceEffect.response, Channel.offer]
  | coreReceive index awaited =>
    refine ⟨?_, hcarries.down, hcarries.up⟩
    simp only [step, RelayEvent.down, RelayEvent.up, Option.elim, upLink, Relay.step]
    cases hindex : up.carried[index]? with
    | none => rfl
    | some frame =>
      obtain ⟨packet, hsent⟩ := hcarries.up frame (List.mem_of_getElem? hindex)
      simp [hreturns.up awaited hsent, hreturns.up none hsent]

theorem run_links (hreturns : Returns deps core device coreLink deviceLink service debug)
    (hcarries : Carries deps core device coreLink deviceLink debug down up)
    (events : List RelayEvent) :
    Runs.run (step deps core coreLink deviceLink service debug) { device, down, up } events =
      { device
        down := Runs.run (downLink deps core device coreLink deviceLink service debug) down
          (events.filterMap RelayEvent.down)
        up := Runs.run (upLink deps core device coreLink deviceLink debug) up
          (events.filterMap RelayEvent.up) } := by
  induction events generalizing down up with
  | nil => rfl
  | cons event rest ih =>
    obtain ⟨hstep, hnext⟩ := step_links hreturns hcarries event
    rw [Runs.run_cons, hstep, ih hnext]
    cases event <;> rfl

end

/-- Two endpoints over contexts with one tree are a link that carries the packets they accept: each
writes to its TUN exactly what the other accepted from its own and the link let arrive, in the order
of arrival, and no packet ends either. -/
theorem endpoints_relay_packets {recipe : ContextRecipe}
    {core : ActiveContext} {device : BackendState}
    {coreLink deviceLink : SchcLink} (hreads : ReadsRuleByRule deps recipe.sidJson)
    (hseparated : LoadsSeparated deps recipe.sidJson)
    (hexplicit : LoadsExplicit deps recipe.sidJson)
    (hframes : FramesCarryRuleIds deps) (hinvert : RuntimesInvert deps)
    (hpackets : PacketLaws deps.rschc) (hpads : PadsFrames deps)
    (hshared : SharedSnapshot deps recipe core device.active)
    (hends : SchcLink.Ends coreLink deviceLink) (service : InspectionService) (debug : Bool)
    (events : List RelayEvent) :
    let world := Runs.run (step deps core coreLink deviceLink service debug) (start device) events
    let accepted (packet : Bytes) :=
      (processCoreTunPacket deps core coreLink takesAll packet debug).toOption.isSome
    let answered (packet : Bytes) :=
      (sendDeviceTunResponse deps device.active deviceLink takesAll packet debug).toOption.isSome
    world.device = device ∧
      world.down.delivered =
        (Runs.run (Relay.plain accepted) .start (events.filterMap RelayEvent.down)).delivered ∧
      world.up.delivered =
        (Runs.run (Relay.plain answered) .start (events.filterMap RelayEvent.up)).delivered ∧
      ∀ packet, ¬PacketOutcomeError.Fatal
        (processCoreTunPacket deps core coreLink takesAll packet debug) ∧
        ¬PacketOutcomeError.Fatal (sendDeviceTunResponse deps device.active deviceLink
          takesAll packet debug) := by
  intro world accepted answered
  obtain ⟨_, _, hfirst⟩ := hshared.first
  obtain ⟨_, _, hsecond⟩ := hshared.second
  have hsame := hshared.sameLink hreads
  have hcore := hfirst.linked hreads hseparated hexplicit hframes hinvert
  have hdevice := hsecond.linked hreads hseparated hexplicit hframes hinvert
  have hcorePads := hfirst.sound.current.padsFrames hpads
  have hdevicePads := hsecond.sound.current.padsFrames hpads
  have hreturns : Returns deps core device coreLink deviceLink service debug :=
    ⟨device_writes hpackets hdevicePads hends hsame hcore hdevice service,
      fun awaited h => core_writes hpackets hcorePads hends.symm hsame.symm hdevice hcore h awaited⟩
  have hempty : Carries deps core device coreLink deviceLink debug .start .start :=
    ⟨fun _ hmem => absurd hmem List.not_mem_nil, fun _ hmem => absurd hmem List.not_mem_nil⟩
  have hworld : world = _ := run_links hreturns hempty events
  refine ⟨congrArg PacketRelay.device hworld, ?_, ?_, fun packet =>
    ⟨processTunPacket_not_fatal hpackets hcorePads hcore,
      processTunPacket_not_fatal hpackets hdevicePads hdevice⟩⟩
  · rw [hworld]
    refine (Relay.run_plain (fun packet frame hsent => ?_) Relay.encodes_start _).delivered
    rw [hreturns.down (toOption_eq_some.mp hsent)]
    rfl
  · rw [hworld]
    refine (Relay.run_plain (fun packet frame hsent => ?_) Relay.encodes_start _).delivered
    rw [hreturns.up none (toOption_eq_some.mp hsent)]
    rfl

section
open Fixture

def request : Bytes := flowPacket coreLogicalAddress deviceLogicalAddress
def reply : Bytes := flowPacket deviceLogicalAddress coreLogicalAddress

theorem relay_evaluated : holds (loaded flowWorld flowRules) (fun prepared =>
    (processCoreTunPacket (deps flowWorld) (.new prepared)
      (link .core) takesAll request true).toOption.isSome &&
      (sendDeviceTunResponse (deps flowWorld) (.new prepared)
        (link .device) takesAll reply true).toOption.isSome) =
      true := by
  decide +kernel

/-- A request arrives twice, and its answer once. -/
theorem endpoints_relay_packets_exchanged : ∃ prepared, loaded flowWorld flowRules = .ok prepared ∧
    let world := Runs.run (step (deps flowWorld) (.new prepared) (link .core) (link .device)
      (service flowWorld) true) (start (Fixture.start prepared))
      [.coreRead request, .deviceReceive 0, .deviceReceive 0,
        .deviceRead reply, .coreReceive 0 none]
    world.device = Fixture.start prepared ∧ world.down.delivered = [request, request] ∧
      world.up.delivered = [reply] := by
  obtain ⟨prepared, hprepared, hevaluated⟩ := holds_iff.mp relay_evaluated
  obtain ⟨hsent, hanswered⟩ := Bool.and_eq_true_iff.mp hevaluated
  have hreached :
      Reached (deps flowWorld) recipe (.sor (sorBytes flowRules)) prepared (.new prepared) :=
    Reached.of_loaded hprepared []
  obtain ⟨hdevice, hdown, hup, -⟩ := endpoints_relay_packets (readsRuleByRule flowWorld_checked)
    flowWorld_separated (loadsExplicit flowWorld_checked) framesCarryRuleIds
      runtimesInvert packetLaws padsFrames
    (show SharedSnapshot (deps flowWorld) recipe (.new prepared)
      (Fixture.start prepared).active from ⟨⟨_, _, hreached⟩, ⟨_, _, hreached⟩, rfl⟩)
    (show SchcLink.Ends (link .core) (link .device) from ⟨rfl, rfl⟩) (service flowWorld) true
    [.coreRead request, .deviceReceive 0, .deviceReceive 0, .deviceRead reply, .coreReceive 0 none]
  refine ⟨prepared, hprepared, hdevice, hdown.trans ?_, hup.trans ?_⟩
  · show (Runs.run (Relay.plain _) _ [.offer request, .arrive 0, .arrive 0]).delivered = _
    simp [Relay.plain, Relay.step, Channel.start, Channel.offer, Channel.deliver, hsent]
  · show (Runs.run (Relay.plain _) _ [.offer reply, .arrive 0]).delivered = _
    simp [Relay.plain, Relay.step, Channel.start, Channel.offer, Channel.deliver,
      Fixture.start, hanswered]

end

end PacketRelay

end SchcCoreconf
