import SchcCoreconf.Atomicity
import SchcCoreconf.Exchange

/-!
# One update on two contexts

The core applies the very datagram it sends. A target iPATCH is a function of
the tree it is applied to, and an If-Match request is applied only to a context
with its tag, so where core and device both apply one conditional update, they
started from one tree and end with one tree.
-/

namespace SchcCoreconf

open Fallible

-- ---------------------------------------------------------------------------
-- Datagrams
-- ---------------------------------------------------------------------------

namespace ResolvedRuleUpdate

theorem ipatchPacket_eq (hadded : AddsOptions coap) (messageId : Nat)
    (baseTag : Option ContextTag) (payload : Bytes) :
    ipatchPacket coap messageId baseTag payload = {
      messageId
      messageType := .confirmable
      code := .request .iPatch
      token := []
      options := (baseTag.elim [] fun tag => [(CoapOption.ifMatch, [tag.bytes.toList])]) ++
        [(CoapOption.uriPath, [schcSegment]), (CoapOption.contentFormat, [[142]])]
      payload } := by
  cases baseTag <;> simp [ipatchPacket, hadded _, insertOption, CoapOption.ifMatch,
    CoapOption.uriPath, CoapOption.contentFormat]

theorem ipatchPacket_contentFormat (hadded : AddsOptions coap) (messageId : Nat)
    (baseTag : Option ContextTag) (payload : Bytes) :
    ((ipatchPacket coap messageId baseTag payload).getOption CoapOption.contentFormat).isSome =
      true := by
  rw [ipatchPacket_eq hadded, Packet.getOption]
  cases baseTag <;> rfl

theorem ipatchPacket_serializable (hadded : AddsOptions coap) (baseTag : Option ContextTag)
    (payload : Bytes) (h : messageId < 2 ^ 16) :
    (ipatchPacket coap messageId baseTag payload).Serializable := by
  have hsegment : schcSegment.length < 2 ^ 16 := by decide +kernel
  rw [ipatchPacket_eq hadded]
  exact {
    request := ⟨.iPatch, by simp, rfl⟩
    messageId := h
    token := by simp
    ordered := by
      cases baseTag <;> simp [CoapOption.ifMatch, CoapOption.uriPath, CoapOption.contentFormat]
    values := by cases baseTag <;> simpa using hsegment }

theorem ContextTag.ofBytes_toList (tag : ContextTag) :
    ContextTag.ofBytes tag.bytes.toList = some tag := by
  obtain ⟨bytes⟩ := tag
  simp [ContextTag.ofBytes, Vector.toArray_toList]

theorem parseIfMatchOption_ipatchPacket (hadded : AddsOptions coap) (messageId : Nat)
    (baseTag : Option ContextTag) (payload : Bytes) :
    parseIfMatchOption (ipatchPacket coap messageId baseTag payload) = .ok baseTag := by
  unfold parseIfMatchOption
  rw [ipatchPacket_eq hadded, Packet.getOption]
  cases baseTag with
  | none => rfl
  | some tag =>
    exact bind_ok.mpr ⟨tag, need_ok.mpr (ContextTag.ofBytes_toList tag), rfl⟩

end ResolvedRuleUpdate

open ResolvedRuleUpdate

-- ---------------------------------------------------------------------------
-- The plan of an update
-- ---------------------------------------------------------------------------

theorem nextManagementMessageId_lt (next : Nat) : (nextManagementMessageId next).1 < 2 ^ 16 := by
  by_cases hlarge : next ≥ managementMidModulus
  · simp [nextManagementMessageId, hlarge]
  · simp only [nextManagementMessageId, if_neg hlarge]
    simp only [managementMidModulus] at hlarge
    omega

/-- The datagram of an update is an iPATCH packet, conditional as the request says. -/
structure PlannedUpdate (deps : Deps) (snapshot : ContextSnapshot) (command : String)
    (update : ResolvedRuleUpdate) (datagram : Bytes) (packet : Packet) : Prop where
  request : parseRuleUpdateCommand deps command = .ok update.request
  code : packet.code = .request .iPatch
  token : packet.token = []
  contentFormat : (packet.getOption CoapOption.contentFormat).isSome = true
  ifMatch : parseIfMatchOption packet =
    .ok (if update.request.ifMatch then some snapshot.data.tag else none)
  written : deps.coap.toBytes packet = .ok datagram
  read : deps.coap.fromBytes datagram = .ok packet

theorem fromRequest_request {request : RuleUpdateRequest} {entryIndex : Nat}
    (h : fromRequest deps request entryIndex tree model = .ok update) :
    update.request = request := by
  simp only [fromRequest, bind_ok, pure_ok] at h
  obtain ⟨_, -, _, -, _, -, _, -, _, -, _, -, _, -, _, -, _, -, _, -, _, -,
    _, -, _, -, _, -, rfl⟩ := h
  rfl

theorem resolveRuleUpdate_request {snapshot : ContextSnapshot}
    (h : resolveRuleUpdate deps service snapshot command = .ok update) :
    parseRuleUpdateCommand deps command = .ok update.request := by
  simp only [resolveRuleUpdate, RuleUpdateRequest.resolveTargetValue, bind_ok, mapError_ok] at h
  obtain ⟨request, hrequest, _, -, _, -, _, -, hresolve⟩ := h
  rw [fromRequest_request hresolve]
  exact hrequest

theorem executeRuleUpdate_planned {state : CoreState}
    (hplan : (planRuleUpdate deps service state command).1 = .ok (update, datagram))
    (hsent : sendDevice datagram = .ok code) :
    (executeRuleUpdate deps service state command sendDevice).result =
        (completeRuleUpdate deps service state.backend update datagram (.ok code)).result ∧
      (executeRuleUpdate deps service state command sendDevice).state.backend =
        (completeRuleUpdate deps service state.backend update datagram (.ok code)).state := by
  have hpair : planRuleUpdate deps service state command =
      (.ok (update, datagram), (planRuleUpdate deps service state command).2) := by rw [← hplan]
  rw [executeRuleUpdate, hpair]
  simp only [hsent, and_self]

theorem planRuleUpdate_resolved {state : CoreState}
    (hresolved : resolveRuleUpdate deps service state.backend.active.snapshot command = .ok update)
    (hwritten : updateDatagram deps state.backend.active.snapshot update
      (nextManagementMessageId state.nextMessageId).1 = .ok datagram) :
    (planRuleUpdate deps service state command).1 = .ok (update, datagram) := by
  rw [planRuleUpdate, hresolved]
  simp only [hwritten, Except.map]

theorem planRuleUpdate_ok (htrip : RequestsRoundTrip deps.coap)
    (h : (planRuleUpdate deps service state command).1 = .ok (update, datagram)) :
    ∃ packet, PlannedUpdate deps state.backend.active.snapshot command update datagram packet := by
  unfold planRuleUpdate at h
  simp only at h
  split at h
  · cases h
  · next resolved hresolved =>
    obtain ⟨written, hwritten, hpair⟩ := map_ok.mp h
    obtain ⟨rfl, rfl⟩ := Prod.mk.inj hpair
    simp only [updateDatagram, ResolvedRuleUpdate.ipatchDatagram, bind_ok, mapError_ok] at hwritten
    obtain ⟨_, -, _, -, payload, -, hbytes⟩ := hwritten
    exact ⟨_, resolveRuleUpdate_request hresolved, by rw [ipatchPacket_eq htrip.added],
      by rw [ipatchPacket_eq htrip.added], ipatchPacket_contentFormat htrip.added ..,
      parseIfMatchOption_ipatchPacket htrip.added .., hbytes,
      htrip.read (ipatchPacket_serializable htrip.added _ _ (nextManagementMessageId_lt _)) hbytes⟩

-- ---------------------------------------------------------------------------
-- The two applications
-- ---------------------------------------------------------------------------

/-- The device gave this answer to the request: it handled the datagram the core
puts on the wire, and its response has this code. -/
def Answered (deps : Deps) (service : InspectionService) (device : BackendState) (datagram : Bytes)
    (code : Nat) (device' : BackendState) : Prop :=
  ∃ wire request response packet,
    managementRequest deps datagram .empty = .ok (wire, request) ∧
    service.handleDatagram deps device wire = { result := some (.ok response), state := device' } ∧
    deps.rschc.newCoapPacket deviceLogicalAddress coreLogicalAddress managementPort managementPort
      response = .ok packet ∧
    packet.coapMessage.code = code

theorem managementRequest_wire {packet : Packet} {request : Ipv6UdpCoapPacket}
    (hread : deps.coap.fromBytes datagram = .ok packet) (htoken : packet.token = [])
    (hwritten : deps.coap.toBytes packet = .ok datagram)
    (h : managementRequest deps datagram .empty = .ok (wire, request)) : wire = datagram := by
  simp only [managementRequest, applyTokenPolicy, hread, bind_ok, mapError_ok, pure_ok,
    Prod.mk.injEq] at h
  obtain ⟨_, -, _, ⟨_, hpacket, hwire⟩, _, -, rfl, rfl⟩ := h
  cases hpacket
  have hsame : ({ packet with token := TokenPolicy.empty.token } : Packet) = packet := by
    cases packet
    cases htoken
    rfl
  rw [hsame, hwritten] at hwire
  exact (Except.ok.inj hwire).symm

theorem Answered.patched {service : InspectionService} {device device' : BackendState}
    (laws : ManagementLaws deps service.handler) (hcodes : CodesAgree deps)
    (hplanned : PlannedUpdate deps snapshot command update datagram packet)
    (h : Answered deps service device datagram 68 device') :
    ∃ outcome, outcome.state = device' ∧ Patched deps service.model packet device outcome := by
  obtain ⟨wire, _, response, reply, hrequest, hhandled, hreply, hcode⟩ := h
  cases managementRequest_wire hplanned.read hplanned.token hplanned.written hrequest
  refine ⟨_, congrArg Outcome.state hhandled, ?_⟩
  rcases InspectionService.handleDatagram_cases laws device hplanned.read with hrefused | hpatched
  · obtain ⟨type, hne, hisReply⟩ := hrefused.2 response (congrArg Outcome.result hhandled)
    obtain ⟨_, kind, hbytes, hreads, hkind⟩ := hisReply.ok laws.toReplyLaws hplanned.read
    cases hbytes
    have hchanged : kind = .changed := (hcodes.changed hreply hreads).mp hcode
    rcases hkind with rfl | ⟨-, hother⟩
    · exact absurd hchanged hne
    · exact absurd hchanged hother
  · exact hpatched

theorem validateChangedResponse_ok {request response : Bytes}
    (h : validateChangedResponse coap request response = .ok u) :
    ReadsAs coap response .changed := by
  simp only [validateChangedResponse, bind_ok, mapError_ok, ensure_ok, decide_eq_true_eq] at h
  obtain ⟨_, -, packet, hpacket, _, hcode, -⟩ := h
  exact ⟨packet, hpacket, hcode⟩

theorem checkLocalUpdate_ok
    (h : checkLocalUpdate deps before after update datagram result = .ok u) :
    ∃ bytes, result = .ok bytes ∧ ReadsAs deps.coap bytes .changed := by
  simp only [checkLocalUpdate, bind_ok, mapError_ok] at h
  obtain ⟨bytes, rfl, _, hvalid, -⟩ := h
  exact ⟨bytes, rfl, validateChangedResponse_ok hvalid⟩

/-- A success of the core: the device answered 2.04, and the core applied the request. -/
theorem completeRuleUpdate_ok {service : InspectionService} {state : BackendState}
    (laws : ManagementLaws deps service.handler)
    (hplanned : PlannedUpdate deps snapshot command update datagram packet)
    (h : (completeRuleUpdate deps service state update datagram answer).result = some (.ok ())) :
    answer = .ok 68 ∧ Patched deps service.model packet state
      (service.handleDatagram deps state datagram) ∧
      (completeRuleUpdate deps service state update datagram answer).state =
        (service.handleDatagram deps state datagram).state := by
  unfold completeRuleUpdate at h ⊢
  split at h
  · cases h
  · split at h
    · cases h
    · next code hcode =>
      have hchanged : code = 68 := by simpa using hcode
      subst hchanged
      obtain ⟨result, hresult, hchecked⟩ := Option.map_eq_some_iff.mp h
      obtain ⟨bytes, rfl, hreads⟩ := checkLocalUpdate_ok hchecked
      refine ⟨rfl, ?_, rfl⟩
      rcases InspectionService.handleDatagram_cases laws state hplanned.read with
        hrefused | hpatched
      · obtain ⟨type, hne, hisReply⟩ := hrefused.2 bytes hresult
        exact absurd ((hisReply.readsAs_iff laws.toReplyLaws hplanned.read).mp hreads) hne
      · exact hpatched

-- ---------------------------------------------------------------------------
-- Equal results
-- ---------------------------------------------------------------------------

theorem ContextData.Derived.congr {recipe recipe' : ContextRecipe} {data data' : ContextData}
    (h : data.Derived deps recipe) (h' : data'.Derived deps recipe')
    (htree : data.tree = data'.tree) (hsor : data.sor = data'.sor) : data.tag = data'.tag := by
  have hdigest := h.digest
  rw [htree, hsor, h'.digest] at hdigest
  rw [h.tag, h'.tag, Except.ok.inj hdigest]

theorem ContextData.Derived.tree_eq {recipe recipe' : ContextRecipe} {data data' : ContextData}
    (h : data.Derived deps recipe) (h' : data'.Derived deps recipe')
    (hsid : recipe.sidJson = recipe'.sidJson) (hsor : data.sor = data'.sor) :
    data.tree = data'.tree := by
  obtain ⟨model, read, hmodel, hread, hnormal⟩ := h.decoded
  obtain ⟨model', read', hmodel', hread', hnormal'⟩ := h'.decoded
  rw [hsid] at hmodel
  cases hmodel.symm.trans hmodel'
  rw [hsor] at hread
  cases hread.symm.trans hread'
  exact Except.ok.inj (hnormal.symm.trans hnormal')

theorem ContextData.Derived.sor_eq {recipe recipe' : ContextRecipe} {data data' : ContextData}
    (h : data.Derived deps recipe) (h' : data'.Derived deps recipe')
    (hsid : recipe.sidJson = recipe'.sidJson) (htree : data.tree = data'.tree)
    (hzeros : data.tree.ZeroFree) : data.sor = data'.sor := by
  obtain ⟨model, hmodel, hencoded⟩ := h.encoded
  obtain ⟨model', hmodel', hencoded'⟩ := h'.encoded
  rw [hsid] at hmodel
  cases hmodel.symm.trans hmodel'
  have hbytes := hencoded.encodeTree hzeros
  rw [htree] at hzeros hbytes
  exact Except.ok.inj (hbytes.symm.trans (hencoded'.encodeTree hzeros))

theorem ActiveContext.Publishes.congr (hsid : active.recipe.sidJson = other.recipe.sidJson)
    (h : ActiveContext.Publishes deps active tree active')
    (h' : ActiveContext.Publishes deps other tree other') :
    active'.snapshot.data.tree = other'.snapshot.data.tree ∧
      active'.snapshot.data.sor = other'.snapshot.data.sor := by
  obtain ⟨prepared, hprepared, -, hstore⟩ := h
  obtain ⟨prepared', hprepared', -, hstore'⟩ := h'
  obtain ⟨-, rfl⟩ := ActiveContext.publishLocked_eq_some hstore
  obtain ⟨-, rfl⟩ := ActiveContext.publishLocked_eq_some hstore'
  obtain ⟨htree, hsor, -⟩ := PreparedContext.fromSource_congr hsid hprepared hprepared'
  exact ⟨htree, hsor⟩

theorem Patched.derived {recipe : ContextRecipe} {state : BackendState}
    (hreached : Reached deps recipe source prepared state.active)
    (h : Patched deps model packet state outcome) :
    outcome.state.active.snapshot.data.Derived deps outcome.state.active.recipe ∧
      outcome.state.active.recipe.sidJson = recipe.sidJson := by
  obtain ⟨-, ⟨_, _, _, _, _, -, -, -, -, -, hpublish⟩, -⟩ := h
  exact ⟨(ActiveContext.sound_publishes hreached.sound hpublish).current,
    (congrArg ContextRecipe.sidJson hpublish.recipe_eq).trans hreached.sidJson⟩

/-- Two contexts with the tag that one conditional request names, and in one
tree, go to one tree. -/
theorem Patched.agree {core device : BackendState} {tag : ContextTag}
    (hcore : Patched deps model packet core outcome)
    (hdevice : Patched deps model packet device outcome')
    (hifMatch : parseIfMatchOption packet = .ok (some tag))
    (htag : core.active.snapshot.data.tag = tag)
    (hinjective : core.active.snapshot.data.tag = device.active.snapshot.data.tag →
      core.active.snapshot.data.tree = device.active.snapshot.data.tree)
    (hsid : core.active.recipe.sidJson = device.active.recipe.sidJson) :
    outcome.state.active.snapshot.data.tree = outcome'.state.active.snapshot.data.tree ∧
      outcome.state.active.snapshot.data.sor = outcome'.state.active.snapshot.data.sor := by
  obtain ⟨-, ⟨request, ifMatch, sids, target, tree, hrequest, -, hdecode, -, htree, hpublish⟩, -⟩ :=
    hcore
  obtain ⟨-, ⟨request', ifMatch', sids', target', tree', hrequest', hifMatch', hdecode', hcheck',
    htree', hpublish'⟩, -⟩ := hdevice
  cases hrequest.symm.trans hrequest'
  cases hifMatch.symm.trans hifMatch'
  cases hdecode.symm.trans hdecode'
  -- the device found the tag of the core's context
  simp only [checkTargetRule, bind_ok, ensure_ok, Option.all_some, decide_eq_true_eq] at hcheck'
  obtain ⟨_, hmatch, -⟩ := hcheck'
  rw [hinjective (htag.trans hmatch), htree'] at htree
  cases htree
  exact hpublish.congr hsid hpublish'

theorem executeRuleUpdate_ok {state : CoreState} (htrip : RequestsRoundTrip deps.coap)
    (h : (executeRuleUpdate deps service state command sendDevice).result = some (.ok ())) :
    ∃ update datagram packet,
      PlannedUpdate deps state.backend.active.snapshot command update datagram packet ∧
      (completeRuleUpdate deps service state.backend update datagram
        (sendDevice datagram)).result = some (.ok ()) ∧
      (executeRuleUpdate deps service state command sendDevice).state.backend =
        (completeRuleUpdate deps service state.backend update datagram
          (sendDevice datagram)).state := by
  unfold executeRuleUpdate at h ⊢
  split at h
  · cases h
  · next update datagram nextMessageId hplan =>
    obtain ⟨packet, hplanned⟩ := planRuleUpdate_ok htrip (congrArg Prod.fst hplan)
    exact ⟨update, datagram, packet, hplanned, h, rfl⟩

/-- A `rule update --if-match` that returns Ok leaves equal contexts, whatever
the two contexts were before. -/
theorem conditional_update_converges {recipe : ContextRecipe} {service service' : InspectionService}
    {state : CoreState} {device device' : BackendState} {request : RuleUpdateRequest}
    (laws : ManagementLaws deps service.handler) (laws' : ManagementLaws deps service'.handler)
    (htrip : RequestsRoundTrip deps.coap) (hcodes : CodesAgree deps)
    (hcore : Reached deps recipe source prepared state.backend.active)
    (hdevice : Reached deps recipe source' prepared' device.active)
    (hmodel : deps.rustconf.coreconfModel recipe.sidJson = .ok service.model)
    (hmodel' : deps.rustconf.coreconfModel recipe.sidJson = .ok service'.model)
    (hinjective : state.backend.active.snapshot.data.tag = device.active.snapshot.data.tag →
      state.backend.active.snapshot.data.tree = device.active.snapshot.data.tree)
    (hrequest : parseRuleUpdateCommand deps command = .ok request)
    (hifMatch : request.ifMatch = true)
    (hanswered : ∀ datagram code, sendDevice datagram = .ok code →
      Answered deps service' device datagram code device')
    (hok : (executeRuleUpdate deps service state command sendDevice).result = some (.ok ())) :
    let after := (executeRuleUpdate deps service state command
      sendDevice).state.backend.active.snapshot
    after.data.tree = device'.active.snapshot.data.tree ∧
      after.data.sor = device'.active.snapshot.data.sor ∧
      after.data.tag = device'.active.snapshot.data.tag := by
  intro after
  obtain ⟨update, datagram, packet, hplanned, hcomplete, hstate⟩ := executeRuleUpdate_ok htrip hok
  obtain ⟨hanswer, hpatched, hlocal⟩ := completeRuleUpdate_ok laws hplanned hcomplete
  obtain ⟨outcome, rfl, hdevicePatched⟩ :=
    (hanswered datagram 68 hanswer).patched laws' hcodes hplanned
  have hsame : service.model = service'.model := Except.ok.inj (hmodel.symm.trans hmodel')
  have hconditional : parseIfMatchOption packet =
      .ok (some state.backend.active.snapshot.data.tag) := by
    cases hrequest.symm.trans hplanned.request
    rw [hplanned.ifMatch, if_pos hifMatch]
  obtain ⟨htree, hsor⟩ := Patched.agree hpatched (hsame ▸ hdevicePatched)
    hconditional rfl hinjective (hcore.sidJson.trans hdevice.sidJson.symm)
  have hderived := (hpatched.derived hcore).1
  have hderived' := (hdevicePatched.derived hdevice).1
  have hafter :
      after = (service.handleDatagram deps state.backend datagram).state.active.snapshot :=
    congrArg (fun backend => backend.active.snapshot) (hstate.trans hlocal)
  rw [hafter]
  exact ⟨htree, hsor, hderived.congr hderived' htree hsor⟩

section
open Fixture

def conditionalDatagram (prepared : PreparedContext) : Bytes :=
  CoapWire.encode (wireOf (ipatchPacket coapLite 0 (some prepared.data.tag) (cborBytes (patch 6))))

def sendConditional (prepared : PreparedContext) (datagram : Bytes) : Except String Nat :=
  if datagram = conditionalDatagram prepared then .ok 68 else .error "not sent"

def plannedUpdate (ifMatch : Bool) : ResolvedRuleUpdate where
  request := { rule := { value := 20, bits := 8 }, entry := .entry 9, targetValue := "6", ifMatch }
  entryIndex := 9
  targetValueIndex := 0
  path := {
    components := [.sidDelta 2800, .sidDelta 23, .keyValue (.int 20),
      .keyValue (.int 8), .sidDelta 23, .keyValue (.int 9), .sidDelta 9,
      .keyValue (.int 0), .sidDelta 2] }
  value := .array ((iidBytes 6).map fun byte => .ofNat byte.toNat)

theorem resolved_evaluated : holds (loaded updateWorld rulesBefore) (fun prepared =>
    let snapshot := (start prepared).active.snapshot
    holds (resolveRuleUpdate (deps updateWorld) (service updateWorld) snapshot
        "rule update 20/8 entry=9 tv=6 --if-match") (· = plannedUpdate true) &&
      holds (resolveRuleUpdate (deps updateWorld) (service updateWorld) snapshot
        "rule update 20/8 entry=9 tv=6") (· = plannedUpdate false)) = true := by
  decide +kernel

theorem written_evaluated : holds (loaded updateWorld rulesBefore) (fun prepared =>
    let snapshot := (start prepared).active.snapshot
    holds (updateDatagram (deps updateWorld) snapshot (plannedUpdate true) 0)
      (· = conditionalDatagram prepared) &&
        holds (updateDatagram (deps updateWorld) snapshot (plannedUpdate false) 0)
        (· = patchDatagram)) = true := by
  decide +kernel

theorem plan_evaluated (hprepared : loaded updateWorld rulesBefore = .ok prepared) :
    let core : CoreState := { backend := start prepared, nextMessageId := 0 }
    (planRuleUpdate (deps updateWorld) (service updateWorld) core
        "rule update 20/8 entry=9 tv=6 --if-match").1 =
        .ok (plannedUpdate true, conditionalDatagram prepared) ∧
      (planRuleUpdate (deps updateWorld) (service updateWorld) core
        "rule update 20/8 entry=9 tv=6").1 = .ok (plannedUpdate false, patchDatagram) := by
  obtain ⟨_, hresolved, hcommands⟩ := holds_iff.mp resolved_evaluated
  cases hprepared.symm.trans hresolved
  obtain ⟨_, hwritten, hdatagrams⟩ := holds_iff.mp written_evaluated
  cases hprepared.symm.trans hwritten
  obtain ⟨hconditional, hplain⟩ := Bool.and_eq_true_iff.mp hcommands
  obtain ⟨hconditional', hplain'⟩ := Bool.and_eq_true_iff.mp hdatagrams
  obtain ⟨_, hconditional, hupdate⟩ := holds_iff.mp hconditional
  cases of_decide_eq_true hupdate
  obtain ⟨_, hconditional', hdatagram⟩ := holds_iff.mp hconditional'
  cases of_decide_eq_true hdatagram
  obtain ⟨_, hplain, hupdate⟩ := holds_iff.mp hplain
  cases of_decide_eq_true hupdate
  obtain ⟨_, hplain', hdatagram⟩ := holds_iff.mp hplain'
  cases of_decide_eq_true hdatagram
  exact ⟨planRuleUpdate_resolved hconditional hconditional', planRuleUpdate_resolved hplain hplain'⟩

theorem converged_evaluated : holds (loaded updateWorld rulesBefore) (fun prepared =>
    (completeRuleUpdate (deps updateWorld) (service updateWorld)
      (start prepared) (plannedUpdate true)
        (conditionalDatagram prepared) (.ok 68)).result = some (.ok ()) ∧
      holds (managementRequest (deps updateWorld) (conditionalDatagram prepared) .empty)
        (fun wire => (((service updateWorld).handleDatagram (deps updateWorld) (start prepared)
          (conditionalDatagram prepared)).result).any
          fun answer => holds answer fun response =>
            wire.1 = conditionalDatagram prepared && holds (newCoapPacket deviceLogicalAddress
              coreLogicalAddress managementPort managementPort response)
                (·.coapMessage.code = 68)) =
        true) = true := by
  decide +kernel

theorem command_evaluated : holds (parseRuleUpdateCommand (deps updateWorld)
    "rule update 20/8 entry=9 tv=6 --if-match") (·.ifMatch) = true := by
  decide +kernel

theorem conditional_update_converges_updated : ∃ prepared : PreparedContext,
    let device := (service updateWorld).handleDatagram (deps updateWorld) (start prepared)
      (conditionalDatagram prepared)
    let core := executeRuleUpdate (deps updateWorld) (service updateWorld)
      { backend := start prepared, nextMessageId := 0 } "rule update 20/8 entry=9 tv=6 --if-match"
      (sendConditional prepared)
    core.result = some (.ok ()) ∧
      core.state.backend.active.snapshot.data.tree = device.state.active.snapshot.data.tree := by
  obtain ⟨prepared, hprepared, hconverged⟩ := holds_iff.mp converged_evaluated
  obtain ⟨hcompleted, hanswer⟩ := of_decide_eq_true hconverged
  obtain ⟨⟨wire, request⟩, hrequest, hanswer⟩ := holds_iff.mp hanswer
  obtain ⟨answer, hresult, hanswer⟩ := (Option.any_eq_true _ _).mp hanswer
  obtain ⟨response, rfl, hresponse⟩ := holds_iff.mp hanswer
  obtain ⟨hwire, hpacket⟩ := Bool.and_eq_true_iff.mp hresponse
  obtain ⟨packet, hpacket, hcode⟩ := holds_iff.mp hpacket
  have hsame : wire = conditionalDatagram prepared := of_decide_eq_true hwire
  subst hsame
  have hsent : sendConditional prepared (conditionalDatagram prepared) = .ok 68 := if_pos rfl
  have hok := (executeRuleUpdate_planned (plan_evaluated hprepared).1 hsent).1.trans hcompleted
  obtain ⟨update, hupdate, hifMatch⟩ := holds_iff.mp command_evaluated
  have hreached := Reached.of_loaded hprepared []
  have hanswered (datagram : Bytes) (code : Nat)
      (hsent : sendConditional prepared datagram = .ok code) :
      Answered (deps updateWorld) (service updateWorld) (start prepared) datagram code
        ((service updateWorld).handleDatagram (deps updateWorld) (start prepared)
          (conditionalDatagram prepared)).state := by
    unfold sendConditional at hsent
    split at hsent
    · next hsame =>
      cases hsent
      subst hsame
      exact ⟨_, request, response, packet, hrequest, Outcome.eq_mk hresult, hpacket,
        of_decide_eq_true hcode⟩
    · cases hsent
  have laws : ManagementLaws (deps updateWorld) (service updateWorld).handler := managementLaws
  exact ⟨prepared, hok, (conditional_update_converges laws laws requestsRoundTrip codesAgree
    hreached hreached rfl rfl (fun _ => rfl) hupdate hifMatch hanswered hok).1⟩

end

end SchcCoreconf
