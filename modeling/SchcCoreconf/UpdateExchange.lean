import SchcCoreconf.Frames
import SchcCoreconf.Reapplication
import SchcCoreconf.UpdateAgreement

/-!
# One update over a link that duplicates and reorders

The link carries copies of one request to the device and copies of its responses
to the core, any number of times and in any order. Nothing on the way tells a
copy from the first datagram: the device handles each copy, and the core accepts
the first response that correlates.
-/

namespace SchcCoreconf

open Fallible
open ActiveContext (Publishes)

structure UpdateExchange where
  device : BackendState
  responses : List Ipv6UdpCoapPacket
  accepted : Option Nat

/-- The link delivers a copy of the request, or a copy of a response. -/
inductive LinkEvent
  | request
  | response (index : Nat)
  deriving DecidableEq, Repr

namespace UpdateExchange

def start (device : BackendState) : UpdateExchange := { device, responses := [], accepted := none }

/-- The device handles a copy of the request, and sends its response if there is one. -/
def deliverRequest (deps : Deps) (service : InspectionService) (wire : Bytes)
    (world : UpdateExchange) : UpdateExchange :=
  let outcome := service.handleDatagram deps world.device wire
  { world with
    device := outcome.state
    responses := world.responses ++
      (outcome.result.bind fun answer => (managementResponse deps answer).toOption).toList }

/-- The core accepts the first response that passes its checks. -/
def deliverResponse (exchangeId : ExchangeId) (world : UpdateExchange) (index : Nat) :
    UpdateExchange :=
  match world.accepted, world.responses[index]? with
  | none, some packet =>
    match responseCode exchangeId packet with
    | .ok code => { world with accepted := some code }
    | .error _ => world
  | _, _ => world

def step (deps : Deps) (service : InspectionService) (wire : Bytes) (exchangeId : ExchangeId)
    (world : UpdateExchange) : LinkEvent → UpdateExchange
  | .request => world.deliverRequest deps service wire
  | .response index => world.deliverResponse exchangeId index

def exchange (deps : Deps) (service : InspectionService) (device : BackendState)
    (events : List LinkEvent) (datagram : Bytes) : Except InspectionError UpdateExchange := do
  let (wire, request) ← managementRequest deps datagram .empty
  let exchangeId ← ExchangeId.fromMessage request.coapMessage
  return Runs.run (step deps service wire exchangeId) (start device) events

/-- What the core gets out of the exchange: the accepted code, or no answer in time. -/
def sendDevice (deps : Deps) (service : InspectionService) (device : BackendState)
    (events : List LinkEvent) (datagram : Bytes) : Except String Nat := do
  let world ← (exchange deps service device events datagram).mapError (·.text deps.rschc)
  need world.accepted "management response timeout after 30000 ms"

end UpdateExchange

-- ---------------------------------------------------------------------------
-- What a copy of the request does
-- ---------------------------------------------------------------------------

theorem PlannedUpdate.handleDatagram {self : InspectionService}
    (hplanned : PlannedUpdate deps snapshot command update datagram packet) (state : BackendState) :
    self.handleDatagram deps state datagram = self.handleTargetIpatch deps state packet := by
  have hshape : isDuplicateRuleCoapShape packet = false := by
    simp [isDuplicateRuleCoapShape, hplanned.code]
  have hbare : (packet.getOption CoapOption.contentFormat).isNone = false := by
    simpa using hplanned.contentFormat
  simp [InspectionService.handleDatagram, hplanned.read, hshape, hplanned.code, hbare]

theorem managementResponse_ok (h : managementResponse deps answer = .ok response) :
    ∃ bytes, answer = .ok bytes ∧ deps.rschc.newCoapPacket deviceLogicalAddress coreLogicalAddress
      managementPort managementPort bytes = .ok response := by
  simpa [managementResponse, bind_ok, mapError_ok] using h

theorem IsReply.responseCode (laws : ReplyLaws deps) (hcodes : CodesAgree deps)
    (hpacket : deps.coap.fromBytes datagram = .ok packet) (h : IsReply deps packet type answer)
    (hresponse : managementResponse deps answer = .ok response) :
    (response.coapMessage.code = 68 ↔ type = .changed) ∧
      (type = .preconditionFailed → response.coapMessage.code = 140) := by
  obtain ⟨bytes, rfl, hbuilt⟩ := managementResponse_ok hresponse
  obtain ⟨_, kind, hbytes, hreads, hkind⟩ := h.ok laws hpacket
  cases hbytes
  rw [hcodes.changed hbuilt hreads]
  rcases hkind with rfl | ⟨⟨other, rfl⟩, hne⟩
  · exact ⟨Iff.rfl, fun hfailed => (hcodes.preconditionFailed hbuilt hreads).mpr hfailed⟩
  · exact ⟨⟨fun hchanged => absurd hchanged hne, fun hchanged => (nomatch hchanged)⟩,
      fun hfailed => nomatch hfailed⟩

theorem handleTargetIpatch_backend (deps : Deps) (self : InspectionService) (state : BackendState)
    (packet : Packet) :
    (self.handleTargetIpatch deps state packet).state.backend = state.backend := by
  unfold InspectionService.handleTargetIpatch
  split
  · rfl
  · split <;> rfl

-- ---------------------------------------------------------------------------
-- Runs of deliveries
-- ---------------------------------------------------------------------------

/-- A device that handles a copy of the request gets to a stage, and its response
carries an allowed code. -/
def Handles (deps : Deps) (service : InspectionService) (wire : Bytes) (Stage : BackendState → Prop)
    (allowed : Nat → Prop) (device : BackendState) : Prop :=
  Stage (service.handleDatagram deps device wire).state ∧
    ∀ answer response, (service.handleDatagram deps device wire).result = some answer →
      managementResponse deps answer = .ok response → allowed response.coapMessage.code

/-- Before the first copy nothing was sent; after it the device is at the stage. -/
structure ExchangeInvariant (device : BackendState) (Stage : BackendState → Prop)
    (allowed : Nat → Prop) (world : UpdateExchange) : Prop where
  stage : (world.device = device ∧ world.responses = [] ∧ world.accepted = none) ∨
    Stage world.device
  responses : ∀ response ∈ world.responses, allowed response.coapMessage.code
  accepted : ∀ code, world.accepted = some code → allowed code

theorem responseCode_ok (h : responseCode exchangeId response = .ok code) :
    code = response.coapMessage.code := by
  simp only [responseCode, bind_ok, pure_ok] at h
  obtain ⟨_, -, _, -, _, -, _, -, _, -, rfl⟩ := h
  rfl

namespace UpdateExchange

theorem deliverRequest_invariant {device : BackendState} {Stage : BackendState → Prop}
    {allowed : Nat → Prop}
    (hfirst : Handles deps service wire Stage allowed device)
    (hagain : ∀ state, Stage state → Handles deps service wire Stage allowed state)
    (h : ExchangeInvariant device Stage allowed world) :
    ExchangeInvariant device Stage allowed (world.deliverRequest deps service wire) := by
  have hhandles : Handles deps service wire Stage allowed world.device := by
    rcases h.stage with ⟨hdevice, -⟩ | hstage
    · exact hdevice ▸ hfirst
    · exact hagain world.device hstage
  refine ⟨.inr hhandles.1, fun response hresponse => ?_, h.accepted⟩
  rcases List.mem_append.mp hresponse with hold | hnew
  · exact h.responses response hold
  · obtain ⟨answer, hanswer, hok⟩ := Option.bind_eq_some_iff.mp (Option.mem_toList.mp hnew)
    refine hhandles.2 answer response hanswer ?_
    cases hresult : managementResponse deps answer with
    | error error => simp [hresult, Except.toOption] at hok
    | ok packet =>
      simp only [hresult, Except.toOption, Option.some.injEq] at hok
      rw [hok]

theorem deliverResponse_invariant {device : BackendState} {Stage : BackendState → Prop}
    {allowed : Nat → Prop}
    (h : ExchangeInvariant device Stage allowed world) (exchangeId : ExchangeId) (index : Nat) :
    ExchangeInvariant device Stage allowed (world.deliverResponse exchangeId index) := by
  unfold deliverResponse
  split
  · next response hnone hresponse =>
    have hmem : response ∈ world.responses := List.mem_of_getElem? hresponse
    split
    · next code hcode =>
      refine ⟨.inr ?_, h.responses, fun other hother => ?_⟩
      · rcases h.stage with ⟨-, hempty, -⟩ | hstage
        · simp [hempty] at hmem
        · exact hstage
      · cases hother
        rw [responseCode_ok hcode]
        exact h.responses response hmem
    · exact h
  · exact h

theorem run_invariant {device : BackendState} {Stage : BackendState → Prop}
    {allowed : Nat → Prop}
    (hfirst : Handles deps service wire Stage allowed device)
    (hagain : ∀ state, Stage state → Handles deps service wire Stage allowed state)
    (exchangeId : ExchangeId) (events : List LinkEvent) :
    ExchangeInvariant device Stage allowed
      (Runs.run (step deps service wire exchangeId) (start device) events) := by
  refine Runs.run_invariant (fun world event h => ?_)
    ⟨.inl ⟨rfl, rfl, rfl⟩, fun _ hmem => absurd hmem List.not_mem_nil, fun _ hsome => nomatch hsome⟩
  cases event with
  | request => exact deliverRequest_invariant hfirst hagain h
  | response index => exact deliverResponse_invariant h exchangeId index

end UpdateExchange

-- ---------------------------------------------------------------------------
-- The two kinds of first copies
-- ---------------------------------------------------------------------------

theorem handles_refused {service : InspectionService} (laws : ReplyLaws deps)
    (hcodes : CodesAgree deps)
    (hplanned : PlannedUpdate deps snapshot command update datagram packet)
    (h : Refused deps packet device (service.handleDatagram deps device datagram)) :
    Handles deps service datagram (· = device) (· ≠ 68) device := by
  refine ⟨?_, fun answer response hanswer hresponse => ?_⟩
  · have hbackend :
        (service.handleDatagram deps device datagram).state.backend = device.backend := by
      rw [hplanned.handleDatagram]
      exact handleTargetIpatch_backend deps service device packet
    cases hstate : (service.handleDatagram deps device datagram).state with
    | mk active backend =>
      have hactive := h.1
      rw [hstate] at hactive hbackend
      cases device
      simp only at hactive hbackend
      rw [hactive, hbackend]
  · obtain ⟨bytes, rfl, -⟩ := managementResponse_ok hresponse
    obtain ⟨type, hne, hreply⟩ := h.2 bytes hanswer
    exact mt (hreply.responseCode laws hcodes hplanned.read hresponse).1.mp hne

theorem ActiveContext.commit_cases_ok (ε : Type) (self : ActiveContext) (answer : α)
    (prepared : PreparedContext) :
    (self.commit answer (.ok prepared : Except ε PreparedContext)).result = none ∧
        (self.commit answer (.ok prepared : Except ε PreparedContext)).state = self ∨
      ∃ active', self.publishLocked prepared = some active' ∧
        self.commit answer (.ok prepared : Except ε PreparedContext) =
          { result := some (.ok answer), state := active' } := by
  cases hpublish : self.publishLocked prepared with
  | none => exact .inl ⟨by simp [commit, hpublish], by simp [commit, hpublish]⟩
  | some active' => exact .inr ⟨active', rfl, by simp [commit, hpublish]⟩

theorem Applied.publish {before : ActiveContext}
    (h : Applied deps model sids target before prepared after)
    (hpublish : after.publishLocked prepared = some active') :
    Applied deps model sids target before prepared active' := by
  obtain ⟨-, rfl⟩ := ActiveContext.publishLocked_eq_some hpublish
  exact ⟨h.patched, h.fromTree, h.valid, h.recipe, rfl⟩

/-- A copy of a request that was applied is applied once more with the same
result, or refused by its If-Match tag. -/
theorem handles_applied {service : InspectionService} {device : BackendState}
    (laws : ReplyLaws deps) (hcodes : CodesAgree deps)
    (hstated : LoadsStatedRules deps device.active.recipe.sidJson)
    (stores : SetsLeaves deps device.active.recipe.sidJson put)
    (reads : ReadsLeaves deps device.active.recipe.sidJson)
    (hstore : DatastoreLaws deps device.active.recipe.sidJson)
    (hmodel : deps.rustconf.coreconfModel device.active.recipe.sidJson = .ok service.model)
    (hbefore : device.active.snapshot.data.Derived deps device.active.recipe)
    (hplanned : PlannedUpdate deps snapshot command update datagram packet)
    (hrequest : deps.rustconf.packetToRequest packet "schc" = .ok request)
    (hifMatch : parseIfMatchOption packet = .ok ifMatch)
    (hdecode : decodeTargetPatch deps service.model request = .ok (sids, target))
    (hcheck : checkTargetRule device.active.snapshot ifMatch target = .ok ()) (state : BackendState)
    (happlied : Applied deps service.model sids target device.active prepared state.active) :
    Handles deps service datagram
      (fun state => Applied deps service.model sids target device.active prepared state.active)
      (fun code => code = 68 ∨ (update.request.ifMatch = true ∧ code = 140)) state := by
  have hcandidate := targetCandidate_again stores hstated reads hstore hmodel hdecode hbefore hcheck
    happlied
  unfold Handles
  simp only [hplanned.handleDatagram, InspectionService.handleTargetIpatch, hrequest, hifMatch,
    applyTargetIpatch, hdecode, bind, Except.bind]
  rw [hcandidate]
  split
  · rcases ActiveContext.commit_cases_ok PatchFailure state.active Response.changed
      prepared with ⟨hresult, hstate⟩ | ⟨active', hpublish, hcommit⟩
    · rw [hresult, hstate]
      exact ⟨happlied, fun _ _ hnone => nomatch hnone⟩
    · rw [hcommit]
      refine ⟨happlied.publish hpublish, fun answer response hanswer hresponse => .inl ?_⟩
      cases hanswer
      exact ((packetWithoutContentFormat_changed laws packet).responseCode laws hcodes
        hplanned.read hresponse).1.mpr rfl
  · next htag =>
    refine ⟨happlied, fun answer response hanswer hresponse => .inr ⟨?_, ?_⟩⟩
    · -- without If-Match no tag is compared
      cases hconditional : update.request.ifMatch with
      | true => rfl
      | false =>
        have hnone := hifMatch.symm.trans hplanned.ifMatch
        rw [hconditional] at hnone
        cases hnone
        simp at htag
    · cases hanswer
      have hreply : IsReply deps packet .preconditionFailed (patchFailureResponse deps packet
          (.precondition "If-Match context tag does not match the current context")) :=
        packetPreconditionWithoutContentFormat_reply laws packet _
      exact (hreply.responseCode laws hcodes hplanned.read hresponse).2 rfl

theorem handles_patched {service : InspectionService} {device : BackendState}
    (laws : ReplyLaws deps) (hcodes : CodesAgree deps)
    (hplanned : PlannedUpdate deps snapshot command update datagram packet)
    (happlied : Applied deps service.model sids target device.active prepared
      (service.handleDatagram deps device datagram).state.active)
    (hreply : (service.handleDatagram deps device datagram).result = some result ∧
      IsReply deps packet .changed result) :
    Handles deps service datagram
      (fun state => Applied deps service.model sids target device.active prepared state.active)
      (fun code => code = 68 ∨ (update.request.ifMatch = true ∧ code = 140)) device := by
  refine ⟨happlied, fun answer response hanswer hresponse => .inl ?_⟩
  cases hreply.1.symm.trans hanswer
  exact (hreply.2.responseCode laws hcodes hplanned.read hresponse).1.mpr rfl

-- ---------------------------------------------------------------------------
-- Completed exchanges
-- ---------------------------------------------------------------------------

theorem checkLocalUpdate_error
    (h : checkLocalUpdate deps before after update datagram result = .error error) :
    ∃ message, error = .possibleDivergence message := by
  simp only [checkLocalUpdate, bind_error, mapError_error, mapError_ok,
    ensure_error, ensure_ok] at h
  rcases h with ⟨_, -, rfl⟩ | ⟨_, -, ⟨_, -, rfl⟩ | ⟨_, -, ⟨-, rfl⟩ | ⟨_, -, -, rfl⟩⟩⟩ <;>
    exact ⟨_, rfl⟩

theorem completeRuleUpdate_reported {service : InspectionService} {state : BackendState}
    (laws : ManagementLaws deps service.handler)
    (hplanned : PlannedUpdate deps snapshot command update datagram packet)
    (hresult : (completeRuleUpdate deps service state update datagram (.ok code)).result =
      some result)
    (hreported : ∀ message, result ≠ .error (.possibleDivergence message)) :
    (code ≠ 68 ∧ (completeRuleUpdate deps service state update datagram (.ok code)).state = state) ∨
    (code = 68 ∧ Patched deps service.model packet state
        (service.handleDatagram deps state datagram) ∧
      (completeRuleUpdate deps service state update datagram (.ok code)).state =
        (service.handleDatagram deps state datagram).state) := by
  by_cases hcode : code = 68
  · refine .inr ⟨hcode, ?_⟩
    cases result with
    | ok _ => exact (completeRuleUpdate_ok laws hplanned hresult).2
    | error error =>
      simp only [completeRuleUpdate, hcode, ne_eq, not_true_eq_false, if_false] at hresult
      obtain ⟨_, -, hchecked⟩ := Option.map_eq_some_iff.mp hresult
      obtain ⟨message, rfl⟩ := checkLocalUpdate_error hchecked
      exact absurd rfl (hreported message)
  · exact .inl ⟨hcode, by simp [completeRuleUpdate, hcode, InspectionService.answer]⟩

/-- What the accepted code says of the device, when every copy has been handled: another
code than 2.04 and 4.12 to an If-Match request, that it refused the request; 2.04,
that it is in the patched tree. -/
theorem accepted_device {service : InspectionService} {device : BackendState}
    {recipe : ContextRecipe} (laws : ManagementLaws deps service.handler) (hcodes : CodesAgree deps)
    (hstated : LoadsStatedRules deps recipe.sidJson) (stores : SetsLeaves deps recipe.sidJson put)
    (reads : ReadsLeaves deps recipe.sidJson) (hstore : DatastoreLaws deps recipe.sidJson)
    (hdevice : Reached deps recipe source initial device.active)
    (hmodel : deps.rustconf.coreconfModel recipe.sidJson = .ok service.model)
    (hplanned : PlannedUpdate deps snapshot command update datagram packet)
    (haccepted : (Runs.run (UpdateExchange.step deps service datagram exchangeId)
      (.start device) events).accepted = some code)
    (hconditional : ¬(update.request.ifMatch = true ∧ code = 140)) :
    let after := (Runs.run (UpdateExchange.step deps service datagram exchangeId)
      (.start device) events).device.active
    (code ≠ 68 ∧ after = device.active) ∨
    (code = 68 ∧ ∃ request sids target,
      deps.rustconf.packetToRequest packet "schc" = .ok request ∧
      decodeTargetPatch deps service.model request = .ok (sids, target) ∧
      patchedTree deps service.model sids device.active.snapshot.data.tree target =
        .ok after.snapshot.data.tree) := by
  intro after
  have hsid := hdevice.sidJson
  rcases InspectionService.handleDatagram_cases laws device hplanned.read with hrefused | hpatched
  · have hhandles := handles_refused laws.toReplyLaws hcodes hplanned hrefused
    have hinv := UpdateExchange.run_invariant hhandles
      (fun state (hstate : state = device) => hstate ▸ hhandles) exchangeId events
    refine .inl ⟨hinv.accepted code haccepted, ?_⟩
    rcases hinv.stage with ⟨hsame, -⟩ | hsame <;> exact congrArg BackendState.active hsame
  · obtain ⟨-, ⟨request, ifMatch, sids, target, tree, hrequest, hifMatch, hdecode, hcheck, htree,
      hpublish⟩, result, hresult, hreply⟩ := hpatched
    rw [← hsid] at hstated stores reads hstore hmodel
    obtain ⟨prepared, rfl, happlied⟩ := Applied.of_publishes stores.floatFree htree hpublish
    have hinv := UpdateExchange.run_invariant
      (handles_patched laws.toReplyLaws hcodes hplanned happlied ⟨hresult, hreply⟩)
      (handles_applied laws.toReplyLaws hcodes hstated stores reads hstore hmodel
        hdevice.sound.current hplanned hrequest hifMatch hdecode hcheck) exchangeId events
    refine .inr ⟨(hinv.accepted code haccepted).resolve_right hconditional, request, sids, target,
      hrequest, hdecode, ?_⟩
    rcases hinv.stage with ⟨-, -, hnone⟩ | happlied'
    · rw [hnone] at haccepted
      cases haccepted
    · rw [happlied'.data]
      exact happlied'.patched

theorem executeRuleUpdate_exchanged {state : CoreState} {device : BackendState}
    {world : UpdateExchange}
    (hplan : (planRuleUpdate deps service state command).1 = .ok (update, datagram))
    (hexchange : UpdateExchange.exchange deps service' device events datagram = .ok world)
    (haccepted : world.accepted = some code) :
    (executeRuleUpdate deps service state command
        (UpdateExchange.sendDevice deps service' device events)).result =
        (completeRuleUpdate deps service state.backend update datagram (.ok code)).result ∧
      (executeRuleUpdate deps service state command
        (UpdateExchange.sendDevice deps service' device events)).state.backend =
        (completeRuleUpdate deps service state.backend update datagram (.ok code)).state := by
  have hsent : UpdateExchange.sendDevice deps service' device events datagram = .ok code :=
    bind_ok.mpr ⟨world, mapError_ok.mpr hexchange, need_ok.mpr haccepted⟩
  exact executeRuleUpdate_planned hplan hsent

/-- A completed exchange that reports no possible divergence leaves equal trees, over
any order of deliveries, unless the request is conditional and the core accepts
4.12 Precondition Failed. -/
theorem completed_exchange_agrees {recipe : ContextRecipe} {service service' : InspectionService}
    {state : CoreState} {device : BackendState} {world : UpdateExchange}
    (laws : ManagementLaws deps service.handler) (laws' : ManagementLaws deps service'.handler)
    (htrip : RequestsRoundTrip deps.coap) (hcodes : CodesAgree deps)
    (hstated : LoadsStatedRules deps recipe.sidJson) (stores : SetsLeaves deps recipe.sidJson put)
    (reads : ReadsLeaves deps recipe.sidJson) (hstore : DatastoreLaws deps recipe.sidJson)
    (hdevice : Reached deps recipe source prepared device.active)
    (hmodel : deps.rustconf.coreconfModel recipe.sidJson = .ok service.model)
    (hmodel' : deps.rustconf.coreconfModel recipe.sidJson = .ok service'.model)
    (hsid : state.backend.active.recipe.sidJson = recipe.sidJson)
    (hequal : state.backend.active.snapshot.data.tree = device.active.snapshot.data.tree)
    (hplan : (planRuleUpdate deps service state command).1 = .ok (update, datagram))
    (hexchange : UpdateExchange.exchange deps service' device events datagram = .ok world)
    (haccepted : world.accepted = some code)
    (hresult : (executeRuleUpdate deps service state command
      (UpdateExchange.sendDevice deps service' device events)).result = some result)
    (hreported : ∀ message, result ≠ .error (.possibleDivergence message))
    (hconditional : ¬(update.request.ifMatch = true ∧ code = 140)) :
    (executeRuleUpdate deps service state command (UpdateExchange.sendDevice deps service' device
        events)).state.backend.active.snapshot.data.tree =
          world.device.active.snapshot.data.tree := by
  obtain ⟨packet, hplanned⟩ := planRuleUpdate_ok htrip hplan
  obtain ⟨hcomplete, hafter⟩ := executeRuleUpdate_exchanged hplan hexchange haccepted
  rw [hcomplete] at hresult
  simp only [UpdateExchange.exchange, bind_ok, pure_ok] at hexchange
  obtain ⟨⟨wire, request⟩, hwire, exchangeId, -, rfl⟩ := hexchange
  cases managementRequest_wire hplanned.read hplanned.token hplanned.written hwire
  have hreportedCore := completeRuleUpdate_reported laws hplanned hresult hreported
  have hacceptedDevice := accepted_device laws' hcodes hstated stores reads hstore hdevice
    hmodel' hplanned haccepted hconditional
  rw [hafter]
  rcases hreportedCore with ⟨hcode, hstate⟩ | ⟨hcode, hpatched, hstate⟩
  · rcases hacceptedDevice with ⟨-, hunchanged⟩ | ⟨hchanged, -⟩
    · rw [hstate, hunchanged]
      exact hequal
    · exact absurd hchanged hcode
  · rcases hacceptedDevice with ⟨hrefused, -⟩ |
      ⟨-, request', sids, target, hrequest, hdecode, htree⟩
    · exact absurd hcode hrefused
    · -- core and device patched one tree with one target
      obtain ⟨-, ⟨_, _, _, _, tree, hrequest', -, hdecode', -, htree', hpublish⟩, -⟩ := hpatched
      cases hrequest.symm.trans hrequest'
      rw [← Except.ok.inj (hmodel.symm.trans hmodel')] at hdecode htree
      cases hdecode.symm.trans hdecode'
      rw [hequal, htree] at htree'
      rw [hstate, hpublish.tree_eq (hsid ▸ stores.floatFree)]
      exact (Except.ok.inj htree').symm

section
open Fixture

theorem copies_evaluated : holds (loaded updateWorld rulesBefore) (fun prepared =>
    holds (UpdateExchange.exchange (deps updateWorld) (service updateWorld) (start prepared)
      [.request, .request, .response 1] (conditionalDatagram prepared)) fun world =>
      let outcome := completeRuleUpdate (deps updateWorld) (service updateWorld) (start prepared)
        (plannedUpdate true) (conditionalDatagram prepared) (.ok 140)
      world.accepted = some 140 &&
        outcome.result = some (.error (.deviceRejected { value := 20, bits := 8 } 9 140)) &&
        outcome.state.active.snapshot.data.tree ≠ world.device.active.snapshot.data.tree) =
          true := by
  decide +kernel

/-- A conditional request is delivered twice. The device applies the first copy and
refuses the second by its tag; the core takes the second answer, and leaves its context
as it was. -/
theorem conditional_copies_diverge : ∃ prepared update datagram world,
    let core : CoreState := { backend := start prepared, nextMessageId := 0 }
    let command := "rule update 20/8 entry=9 tv=6 --if-match"
    let events := [.request, .request, .response 1]
    let outcome := executeRuleUpdate (deps updateWorld) (service updateWorld) core command
      (UpdateExchange.sendDevice (deps updateWorld) (service updateWorld) (start prepared) events)
    loaded updateWorld rulesBefore = .ok prepared ∧
      (planRuleUpdate (deps updateWorld) (service updateWorld) core command).1 =
        .ok (update, datagram) ∧
      UpdateExchange.exchange (deps updateWorld) (service updateWorld) (start prepared) events
        datagram = .ok world ∧
      world.accepted = some 140 ∧
      outcome.result = some (.error (.deviceRejected { value := 20, bits := 8 } 9 140)) ∧
      outcome.state.backend.active.snapshot.data.tree ≠ world.device.active.snapshot.data.tree := by
  obtain ⟨prepared, hprepared, hrun⟩ := holds_iff.mp copies_evaluated
  obtain ⟨world, hexchange, hrun⟩ := holds_iff.mp hrun
  obtain ⟨⟨haccepted, hresult⟩, htrees⟩ := (Bool.and_eq_true_iff.mp hrun).imp
    Bool.and_eq_true_iff.mp id
  have haccepted := of_decide_eq_true haccepted
  have hplan := (plan_evaluated hprepared).1
  obtain ⟨hcomplete, hafter⟩ := executeRuleUpdate_exchanged hplan hexchange haccepted
  refine ⟨prepared, plannedUpdate true, conditionalDatagram prepared, world, hprepared,
    hplan, hexchange, haccepted, hcomplete.trans (of_decide_eq_true hresult), ?_⟩
  rw [hafter]
  exact of_decide_eq_true htrees

def reordered : List LinkEvent := [.request, .request, .response 1, .request, .response 0]

theorem reordered_evaluated : holds (loaded updateWorld rulesBefore) (fun prepared =>
    holds (UpdateExchange.exchange (deps updateWorld) (service updateWorld) (start prepared)
      reordered patchDatagram) fun world =>
      world.accepted = some 68 &&
        (completeRuleUpdate (deps updateWorld) (service updateWorld) (start prepared)
          (plannedUpdate false) patchDatagram (.ok 68)).result = some (.ok ()) &&
        (world.responses.length = 3 && world.device.active.snapshot.generation = 4 &&
          world.device.active.snapshot.data.tree = tree rulesAfter)) = true := by
  decide +kernel

/-- The device publishes once for each copy, and the core takes one of its answers. -/
theorem completed_exchange_agrees_copies : ∃ (prepared : PreparedContext) (world : UpdateExchange),
    let outcome := executeRuleUpdate (deps updateWorld) (service updateWorld)
      { backend := start prepared, nextMessageId := 0 } "rule update 20/8 entry=9 tv=6"
      (UpdateExchange.sendDevice (deps updateWorld) (service updateWorld) (start prepared)
        reordered)
    outcome.result = some (.ok ()) ∧ world.responses.length = 3 ∧
      world.device.active.snapshot.generation = 4 ∧
      world.device.active.snapshot.data.tree = tree rulesAfter ∧
      outcome.state.backend.active.snapshot.data.tree = world.device.active.snapshot.data.tree := by
  obtain ⟨prepared, hprepared, hrun⟩ := holds_iff.mp reordered_evaluated
  obtain ⟨world, hexchange, hrun⟩ := holds_iff.mp hrun
  simp only [Bool.and_eq_true, decide_eq_true_eq] at hrun
  obtain ⟨⟨haccepted, hresult⟩, ⟨hlength, hgeneration⟩, htree⟩ := hrun
  have hplan := (plan_evaluated hprepared).2
  have hresult := (executeRuleUpdate_exchanged hplan hexchange haccepted).1.trans hresult
  have laws : ManagementLaws (deps updateWorld) (service updateWorld).handler := managementLaws
  exact ⟨prepared, world, hresult, hlength, hgeneration, htree,
    completed_exchange_agrees laws laws requestsRoundTrip codesAgree
      (loadsStatedRules updateWorld_checked) setsLeaves readsLeaves datastoreLaws
      (Reached.of_loaded hprepared []) rfl rfl (PreparedContext.fromSource_ok hprepared).2.1 rfl
      hplan hexchange haccepted hresult nofun nofun⟩

end

end SchcCoreconf
