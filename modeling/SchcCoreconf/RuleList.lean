import SchcCoreconf.DuplicateTree
import SchcCoreconf.FrameSafety
import SchcCoreconf.Fixture.Listings

/-!
# The remote rule list and the local one

What a device answers to the FETCH of its root lists the rules its service lists,
with the same natures. The answer is listed by value and then length, the
snapshot by length and then value: the lists are equal where the two orders are.
-/

namespace SchcCoreconf

open Fallible

-- ---------------------------------------------------------------------------
-- What is known of the crates
-- ---------------------------------------------------------------------------

/-- The member of the rule list states the rule's RuleID and, by an identity of that
name, its nature. -/
def StatesRule (crates : InspectorCrates) (member : Json) (rule : Rule) : Prop :=
  RuleKeys.yang.selects rule.id.selector member = true ∧
    ∃ identifier, member.get "rule-nature" = some (.string identifier) ∧
      natureName identifier = rule.nature.asStr ∧
      (crates.parseNature rule.nature.asStr).isSome = true

/-- r-schc loads the rules the tree states, in their order. -/
def LoadsNatures (deps : Deps) (crates : InspectorCrates) (sidJson : String) : Prop :=
  ∀ {model registry tree sor context},
    deps.rustconf.coreconfModel sidJson = .ok model →
    deps.rschc.sidRegistry sidJson = .ok registry →
    EncodedAs deps.ciborium model tree sor → registry.ruleContext sor = .ok context →
      ∃ members, RuleKeys.yang.rules tree = some members ∧
        List.Forall₂ (StatesRule crates) members context.rules

structure Packet.FetchesRoot (deps : Deps) (crates : InspectorCrates)
    (rootSid : Int) (packet : Packet) : Prop where
  code : packet.code = .request .fetch
  uriPath : packet.getOption CoapOption.uriPath = some [schcSegment]
  contentFormat : packet.getOption CoapOption.contentFormat = some [[141]]
  payload : ∃ path, deps.rustconf.pushDelta { components := [] } rootSid = .ok path ∧
    crates.encodeIdentifiers [path] = .ok packet.payload

/-- rustconf answers the FETCH of the root with the root of the current tree, and reads
it back; an identifier is no tagged value. coap-lite keeps the payload of a response. -/
structure ReturnsRoot (deps : Deps) (crates : InspectorCrates) (sidJson : String)
    (handler : Request → BackendProgram Response) : Prop where
  untagged : ∀ {path payload}, crates.encodeIdentifiers [path] = .ok payload →
    payload.head? ≠ some contextCheckMarker
  request : ∀ {packet rootSid}, packet.FetchesRoot deps crates rootSid →
    ∃ request, deps.rustconf.packetToRequest packet "schc" = .ok request
  answer : ∀ {model rootSid packet request sor root} (state : BackendState),
    deps.rustconf.coreconfModel sidJson = .ok model →
    model.compositeModel.getSid "/ietf-schc:schc" = some rootSid →
    packet.FetchesRoot deps crates rootSid →
    deps.rustconf.packetToRequest packet "schc" = .ok request →
    EncodedAs deps.ciborium model state.active.snapshot.data.tree sor →
    state.active.snapshot.data.tree.get "ietf-schc:schc" = some root →
    root ≠ .null →
      ∃ payload format raw,
        ((handler request).run deps state).result = some (.content payload format) ∧
        model.compositeModel.decodeInstancesWithModel payload =
          .ok [{ path := { components := [.sidDelta rootSid] }, value := some raw }] ∧
        raw ≠ .null ∧
        model.compositeModel.sidValueToIdentifierValueAtPath raw "/ietf-schc:schc" = .ok root ∧
        crates.validateIdentifierValue model.compositeModel
          (.object [("ietf-schc:schc", root)]) = .ok ()
  payload : PayloadsReturn deps

-- ---------------------------------------------------------------------------
-- The summaries of the answer
-- ---------------------------------------------------------------------------

theorem decodeNatureValue_string (h : (crates.parseNature (natureName identifier)).isSome = true) :
    decodeNatureValue crates model (.string identifier) = .ok (natureName identifier) := by
  simp [decodeNatureValue, natureIdentifier, Json.isString, bind, Except.bind, pure, Except.pure, h,
    ensure]

theorem decodeRuleSummary_stated {crates : InspectorCrates} {member : Json} {rule : Rule}
    (hid : rule.id.Explicit) (hselects : RuleKeys.yang.selects rule.id.selector member = true)
    (hnature : member.get "rule-nature" = some (.string identifier))
    (hname : natureName identifier = rule.nature.asStr)
    (hknown : (crates.parseNature rule.nature.asStr).isSome = true) :
    decodeRuleSummary crates model member = .ok (ruleSummary rule) := by
  obtain ⟨members, rfl⟩ := RuleKeys.object_of_selects hselects
  simp only [RuleKeys.selects, RuleKeys.yang, Bool.and_eq_true] at hselects
  have hnature : Json.lookup members "rule-nature" = some (.string identifier) := hnature
  simp only [decodeRuleSummary, bind_ok, need_ok, pure_ok]
  refine ⟨members, rfl, _, of_decide_eq_true hselects.1, _, of_decide_eq_true hselects.2, _,
    RuleSelector.new_explicit hid, _, hnature, rule.nature.asStr, ?_, rfl⟩
  rw [← hname]
  exact decodeNatureValue_string (hname ▸ hknown)

theorem decodeRuleSummary_listed {members : List Json} {rules : List Rule}
    (h : List.Forall₂ (StatesRule crates) members rules) (hids : ∀ rule ∈ rules, rule.id.Explicit) :
    List.Forall₂ (fun member rule => decodeRuleSummary crates model member = .ok (ruleSummary rule))
      members rules := by
  induction h with
  | nil => exact .nil
  | @cons member rule members rules hstates _ ih =>
    obtain ⟨hselects, identifier, hnature, hname, hknown⟩ := hstates
    refine .cons ?_ (ih fun other hother => hids other (List.mem_cons_of_mem _ hother))
    exact decodeRuleSummary_stated (hids rule List.mem_cons_self) hselects hnature hname hknown

theorem insertSummaries_ok {summaries listed : List RuleSummary}
    (h : List.Forall₂ (fun member summary => decodeRuleSummary crates model member = .ok summary)
      members listed)
    (hdistinct : (summaries ++ listed).Pairwise fun left right => left.id ≠ right.id) :
    ∃ all, insertSummaries crates model summaries members = .ok all ∧
      all.Perm (summaries ++ listed) ∧
      (summaries.Pairwise RuleSummary.byId → all.Pairwise RuleSummary.byId) := by
  induction h generalizing summaries with
  | nil => exact ⟨summaries, rfl, by simp, id⟩
  | @cons member summary members listed hsummary _ ih =>
    have hperm : (summaries.orderedInsert RuleSummary.byId summary ++ listed).Perm
        (summaries ++ summary :: listed) :=
      ((List.perm_orderedInsert _ summary summaries).append_right listed).trans
        List.perm_middle.symm
    have hnew : ∀ other ∈ summaries, other.id ≠ summary.id := fun other hother =>
      (List.pairwise_append.mp hdistinct).2.2 other hother summary List.mem_cons_self
    obtain ⟨all, hall, hsame, hsorted⟩ := ih (hperm.symm.pairwise hdistinct fun hne => hne.symm)
    refine ⟨all, ?_, hsame.trans hperm, fun h => hsorted (h.orderedInsert summary summaries)⟩
    simp only [insertSummaries, bind_ok, ensure_ok]
    exact ⟨summary, hsummary, (), by simpa using hnew, hall⟩

theorem RuleSelector.orderKey_injective : Function.Injective RuleSelector.orderKey := by
  rintro ⟨value, bits⟩ ⟨value', bits'⟩ h
  obtain ⟨rfl, rfl⟩ := Prod.mk.inj (toLex.injective h)
  rfl

def sortedSummaries (rules : List Rule) : List RuleSummary :=
  (summariesFromRules rules).insertionSort RuleSummary.byId

/-- The remote order is the local one where the rules are in RuleID order by value. -/
theorem sortedSummaries_iff {rules : List Rule}
    (hdistinct : rules.Pairwise fun left right => left.id ≠ right.id) :
    sortedSummaries rules = summariesFromRules rules ↔
      rules.Pairwise fun left right => left.id.selector.orderKey < right.id.selector.orderKey := by
  constructor
  · intro h
    have hsorted : (summariesFromRules rules).Pairwise RuleSummary.byId :=
      h ▸ List.pairwise_insertionSort RuleSummary.byId (summariesFromRules rules)
    refine (List.pairwise_map.mp hsorted).imp₂ (fun left right hle hne => ?_) hdistinct
    refine lt_of_le_of_ne hle fun heq => hne ?_
    exact congrArg RuleSelector.ruleId (RuleSelector.orderKey_injective heq)
  · intro h
    exact (List.pairwise_map.mpr (h.imp fun hlt => hlt.le)).insertionSort_eq

theorem decodeRuleListPayload_root (hsids : ModelSids.resolve model.compositeModel = .ok sids)
    (hinstances : model.compositeModel.decodeInstancesWithModel payload =
      .ok [{ path := { components := [.sidDelta sids.root] }, value := some raw }])
    (hraw : raw ≠ .null)
    (hroot : model.compositeModel.sidValueToIdentifierValueAtPath raw "/ietf-schc:schc" = .ok root)
    (hvalid : crates.validateIdentifierValue model.compositeModel
      (.object [("ietf-schc:schc", root)]) = .ok ())
    (hmembers : (root.get "rule").bind Json.asArray = some members)
    (hlisted : List.Forall₂ (fun member rule =>
      decodeRuleSummary crates model.compositeModel member = .ok (ruleSummary rule)) members rules)
    (hdistinct : rules.Pairwise fun left right => left.id ≠ right.id) :
    decodeRuleListPayload crates payload model = .ok (sortedSummaries rules) := by
  have hsummaries : (([] : List RuleSummary) ++ summariesFromRules rules).Pairwise
      fun left right => left.id ≠ right.id := by
    refine List.pairwise_map.mpr (hdistinct.imp fun hne heq => hne ?_)
    exact RuleSelector.ruleId_injective.eq_iff.mpr heq
  obtain ⟨all, hall, hperm, hsorted⟩ :=
    insertSummaries_ok (List.forall₂_map_right_iff.mpr hlisted) hsummaries
  have hsame : all = sortedSummaries rules := by
    have hkeys : (all.map (·.id.orderKey)).Nodup := by
      refine List.pairwise_map.mpr
        ((hperm.symm.pairwise hsummaries Ne.symm).imp fun hne heq => hne ?_)
      exact RuleSelector.orderKey_injective heq
    rw [← (hsorted .nil).insertionSort_eq]
    exact Sorted.insertionSort_congr hperm hkeys
  simp only [decodeRuleListPayload, bind_ok, mapError_ok, need_ok]
  refine ⟨sids, hsids, _, hinstances, raw, ?_, root, hroot, (), hvalid,
    members, hmembers, hsame ▸ hall⟩
  simp only [rootInstance, validateRootInstancePath, bind_ok, ensure_ok, need_ok, pure_ok]
  exact ⟨(), by simp, raw, rfl, (), by simpa using hraw, rfl⟩

-- ---------------------------------------------------------------------------
-- The answer of a device
-- ---------------------------------------------------------------------------

theorem baseRequest_eq (hadded : AddsOptions coap) (method : RequestType) (messageId : Nat) :
    baseRequest coap method messageId = {
      messageId
      messageType := .confirmable
      code := .request method
      token := []
      options := [(CoapOption.uriPath, [schcSegment])]
      payload := [] } := by
  simp [baseRequest, hadded _, insertOption]

theorem ruleListRequest_ok {sidJson : String} (hadded : AddsOptions deps.coap)
    (h : ruleListRequest deps crates sidJson messageId = .ok datagram) :
    ∃ model rootSid packet, deps.rustconf.coreconfModel sidJson = .ok model ∧
      model.compositeModel.getSid "/ietf-schc:schc" = some rootSid ∧
      packet.FetchesRoot deps crates rootSid ∧ packet.messageId = messageId ∧ packet.token = [] ∧
      packet.options = [(CoapOption.uriPath, [schcSegment]), (CoapOption.contentFormat, [[141]])] ∧
      deps.coap.toBytes packet = .ok datagram := by
  simp only [ruleListRequest, modelRequestSids, ruleRequest, managementInstancePath, bind_ok,
    mapError_ok, need_ok, pure_ok, Prod.exists, Prod.mk.injEq] at h
  obtain ⟨rootSid, _, ⟨model, hmodel, _, hroot, _, -, rfl, rfl⟩, path,
    ⟨_, hpath, rfl⟩, payload, hpayload, hbytes⟩ := h
  rw [baseRequest_eq hadded, hadded] at hbytes
  exact ⟨model, _, _, hmodel, hroot, ⟨rfl, rfl, rfl, _, hpath, hpayload⟩, rfl, rfl, rfl, hbytes⟩

theorem handleDatagram_root {self : InspectionService}
    (laws : ReturnsRoot deps crates sidJson handler)
    (hread : deps.coap.fromBytes datagram = .ok packet)
    (hpacket : packet.FetchesRoot deps crates rootSid)
    (hrequest : deps.rustconf.packetToRequest packet "schc" = .ok request) (state : BackendState) :
    (self.handleDatagram deps state datagram).result =
      ((self.handler request).run deps state).result.map
        (packetWithoutContentFormat deps packet) := by
  obtain ⟨path, -, hpayload⟩ := hpacket.payload
  have hmarker : packet.payload.head? ≠ some contextCheckMarker := laws.untagged hpayload
  simp [InspectionService.handleDatagram, InspectionService.handleInspection, hread, hpacket.code,
    hpacket.uriPath, isDuplicateRuleCoapShape, isMutation, hmarker, hrequest]

/-- A device lists the rules its service lists, in the order of RuleIDs by value: in
the same order where the rules are in that order, if the model is complete. -/
theorem remote_rule_list_exact (hreplies : ReplyLaws deps) (hrequests : RequestsRoundTrip deps.coap)
    (hexplicit : LoadsExplicit deps recipe.sidJson)
    (hseparated : LoadsSeparated deps recipe.sidJson)
    (hnatures : LoadsNatures deps crates recipe.sidJson)
    (hprepared : PreparedContext.fromSource deps recipe source = .ok prepared)
    (hservice : InspectionService.new deps (.new prepared) = .ok (service, start))
    (hroot : ReturnsRoot deps crates recipe.sidJson service.handler)
    (hreachable : ActiveContext.WritesAll deps (.new prepared) state.active)
    (hmessage : messageId < 2 ^ 16)
    (hrequest : ruleListRequest deps crates recipe.sidJson messageId = .ok datagram) :
    ∃ bytes response, (service.handleDatagram deps state datagram).result = some (.ok bytes) ∧
      deps.coap.fromBytes bytes = .ok response ∧
      (decodeRuleListPayload crates response.payload service.model =
          .ok (InspectionService.summaries state) ↔
        (∃ sids, ModelSids.resolve service.model.compositeModel = .ok sids) ∧
          state.active.snapshot.data.rules.Pairwise
            fun left right => left.id.selector.orderKey < right.id.selector.orderKey) := by
  obtain ⟨-, hsidJson, -⟩ := PreparedContext.fromSource_ok hprepared
  have hrecipe : state.active.recipe.sidJson = recipe.sidJson := by
    rw [hreachable.recipe_eq]
    exact hsidJson
  have hderived := (hreachable.sound (ActiveContext.sound_new hprepared)).current
  simp only [InspectionService.new, bind_ok, mapError_ok, pure_ok] at hservice
  obtain ⟨model, hmodel, _, -, handler, -, heq⟩ := hservice
  obtain ⟨rfl, -⟩ := Prod.mk.inj heq
  rw [show (ActiveContext.new prepared).recipe.sidJson = recipe.sidJson from hsidJson] at hmodel
  -- the rules are those of the tree, and have RuleIDs of their own
  obtain ⟨found, hfound, hencoded⟩ := hderived.encoded
  rw [hrecipe] at hfound
  cases hmodel.symm.trans hfound
  obtain ⟨registry, context, hregistry, hcontext, hrules, -, -⟩ := hderived.full
  rw [hrecipe] at hregistry
  obtain ⟨members, hmembers, hstated⟩ := hnatures hmodel hregistry hencoded hcontext
  rw [← hrules] at hstated
  have hdistinct : state.active.snapshot.data.rules.Pairwise fun left right =>
    left.id ≠ right.id := by
    rw [hrules]
    have hseparated : context.rules.Pairwise fun left right => ¬RuleId.Overlap left.id right.id :=
      hseparated hregistry hcontext
    refine hseparated.imp fun {left right} hapart (heq : left.id = right.id) => hapart ?_
    rw [heq]
    exact RuleId.Overlap.refl
  have hlisted : List.Forall₂ (fun member rule =>
      decodeRuleSummary crates model.compositeModel member = .ok (ruleSummary rule)) members _ :=
    decodeRuleSummary_listed hstated fun rule hrule =>
      hexplicit hregistry hcontext rule (hrules ▸ hrule)
  rw [LeafAddress.yang_rules] at hmembers
  obtain ⟨root, hget, hitems⟩ := Option.bind_eq_some_iff.mp hmembers
  have hobject : root ≠ .null := by
    rintro rfl
    cases hitems
  -- the request is read back, and answered with the root
  obtain ⟨other, rootSid, packet, hother, hrootSid, hfetches, hid, htoken, hoptions, hwritten⟩ :=
    ruleListRequest_ok hrequests.added hrequest
  cases hmodel.symm.trans hother
  have hread : deps.coap.fromBytes datagram = .ok packet := by
    refine hrequests.read ⟨⟨.fetch, by decide, hfetches.code⟩,
      hid ▸ hmessage, by simp [htoken], ?_, ?_⟩ hwritten
    · rw [hoptions]
      decide
    · have hsegment : schcSegment.length < 2 ^ 16 := by decide +kernel
      rw [hoptions]
      simpa using hsegment
  obtain ⟨request, hpacket⟩ := hroot.request hfetches
  obtain ⟨payload, format, raw, hanswer, hinstances, hraw, hvalue, hvalid⟩ :=
    hroot.answer state hmodel hrootSid hfetches hpacket hencoded hget hobject
  obtain ⟨bytes, response, hbytes, hresponse⟩ :=
    packetWithoutContentFormat_ok hreplies hread (.content payload format)
  have hpayload : response.payload = payload := by
    simp only [packetWithoutContentFormat, serialiseResponse, mapError_ok] at hbytes
    exact hroot.payload hread hbytes hresponse
  refine ⟨bytes, response, ?_, hresponse, ?_⟩
  · rw [handleDatagram_root hroot hread hfetches hpacket, hanswer, Option.map_some, hbytes]
  have hdecoded {sids : ModelSids} (hsids : ModelSids.resolve model.compositeModel = .ok sids) :
      decodeRuleListPayload crates response.payload model =
        .ok (sortedSummaries state.active.snapshot.data.rules) := by
    cases (ModelSids.resolve_ok hsids).1.symm.trans hrootSid
    rw [hpayload]
    exact decodeRuleListPayload_root hsids hinstances hraw hvalue hvalid hitems hlisted hdistinct
  constructor
  · intro hsame
    obtain ⟨sids, hsids⟩ : ∃ sids, ModelSids.resolve model.compositeModel = .ok sids := by
      simp only [decodeRuleListPayload, bind_ok] at hsame
      obtain ⟨sids, hsids, -⟩ := hsame
      exact ⟨sids, hsids⟩
    exact ⟨⟨sids, hsids⟩, (sortedSummaries_iff hdistinct).mp
      (Except.ok.inj ((hdecoded hsids).symm.trans hsame))⟩
  · rintro ⟨⟨sids, hsids⟩, hascending⟩
    rw [hdecoded hsids, (sortedSummaries_iff hdistinct).mpr hascending]
    rfl

section

open Fixture

variable {world : World} {rules : List Rule}

theorem listingModel_ok (h : (listingDeps world).rustconf.coreconfModel sidJson = .ok model) :
    model = listingModel world := by
  simp only [listingDeps] at h
  split at h <;> cases h
  rfl

def KnownNature (rule : Rule) : Prop :=
  natureName ("ietf-schc:" ++ natureIdentity rule.nature) = rule.nature.asStr ∧
    (inspectorCrates.parseNature rule.nature.asStr).isSome = true

instance (rule : Rule) : Decidable (KnownNature rule) := inferInstanceAs (Decidable (_ ∧ _))

theorem loadsNatures (h : world.Checked)
    (hnatures : ∀ rule ∈ world.contexts.flatten, KnownNature rule) :
    LoadsNatures (listingDeps world) inspectorCrates sidText := by
  intro model registry json bytes context hmodel hregistry hencoded hcontext
  cases listingModel_ok hmodel
  rw [show registry.ruleContext = ruleContext world from sidRegistry_ok hregistry] at hcontext
  obtain ⟨rules, hrules, rfl, rfl⟩ := encodedAs_ok
    (show EncodedAs (ciborium world) (coreconfModel world) _ _ from hencoded)
  obtain ⟨hmem, hbytes⟩ := ruleContext_ok hcontext
  cases h.context_eq hmem (mem_contexts hrules) hbytes
  refine ⟨_, rules_tree _, List.forall₂_map_left_iff.mpr
    (List.forall₂_same.mpr fun rule hrule => ?_)⟩
  have hflat : rule ∈ world.contexts.flatten := List.mem_flatten.mpr ⟨_, hmem, hrule⟩
  exact ⟨selects_ruleJson (h.explicit rule hflat),
    _, by simp [ruleJson, Json.get, Json.lookup, qualified], hnatures rule hflat⟩

theorem cborHead_unsigned (n : Nat) : (cborHead 0 n).head? ≠ some contextCheckMarker := by
  unfold cborHead
  split
  · next hsmall =>
    intro h
    have hbyte : (UInt8.ofNat (0 * 32 + n)).toNat = contextCheckMarker.toNat :=
      congrArg UInt8.toNat (Option.some.inj h)
    rw [UInt8.toNat_ofNat'] at hbyte
    have hmarker : contextCheckMarker.toNat = 198 := rfl
    omega
  · repeat' split
    all_goals simp [contextCheckMarker]

theorem encodeIdentifiers_untagged (h : inspectorCrates.encodeIdentifiers [path] = .ok payload) :
    payload.head? ≠ some contextCheckMarker := by
  simp only [inspectorCrates] at h
  split at h
  · split at h
    · cases h
      exact cborHead_unsigned _
    · cases h
  · cases h

theorem returnsRoot (hone : world.complete = [rules]) :
    ReturnsRoot (listingDeps world) inspectorCrates sidText (rootHandler world) where
  untagged := encodeIdentifiers_untagged
  request _ := ⟨_, rfl⟩
  answer {_ _ packet _ _ root} state hmodel hsid hpacket hrequest hencoded hroot _ := by
    cases listingModel_ok hmodel
    obtain ⟨found, hfound, htree, -⟩ := encodedAs_ok
      (show EncodedAs (ciborium world) (coreconfModel world) _ _ from hencoded)
    rw [hone, List.mem_singleton] at hfound
    subst hfound
    have hsid : (2800 : Int) = _ := Option.some.inj hsid
    subst hsid
    cases hrequest
    have hfetch : methodOf packet.code = .fetch := by rw [hpacket.code]; rfl
    rw [← htree] at hroot
    have hroot : identifierRoot found = root := Option.some.inj hroot
    have htable : world.complete.find? (sorBytes · = sorBytes found) = some found ∧
        world.complete.find? (sidRoot · = sidRoot found) = some found ∧
        world.ofTree state.active.snapshot.data.tree = some found := by
      simp [World.ofTree, hone, ← htree]
    obtain ⟨hbytes, hvalue, htree⟩ := htable
    refine ⟨sorBytes found, .yangInstancesCborSeq, sidRoot found, ?_, ?_, nofun, ?_, ?_⟩
    · simp [rootHandler, hfetch, BackendProgram.run, BackendState.readTree, htree]
    · simp [listingModel, rootInstances, hbytes]
    · simp [listingModel, rootValue, hvalue, need, hroot]
    · rfl
  payload {_ request payload format _ _} hrequest hbytes hresponse := by
    have hwell := wireOf_replyPacket world (.content payload format) .content hrequest
    cases hbytes
    cases (readPacket_encode hwell rfl).symm.trans hresponse
    rfl

def listingService (world : World) : InspectionService where
  model := listingModel world
  sidRegistry := { ruleContext := ruleContext world }
  handler := rootHandler world

def remoteRuleList (world : World) (prepared : PreparedContext) :
    Except InspectionError (List RuleSummary) := do
  let datagram ← ruleListRequest (listingDeps world) inspectorCrates sidText 0
  let bytes ← need ((listingService world).handleDatagram (listingDeps world)
      (start prepared) datagram).result
    (.correlation "no response")
  let response ← ((listingDeps world).coap.fromBytes (← bytes)).mapError .coap
  decodeRuleListPayload inspectorCrates response.payload (listingModel world)

def listed (world : World) (rules : List Rule) : Except ContextError PreparedContext :=
  PreparedContext.fromSource (listingDeps world) recipe (.sor (sorBytes rules))

theorem listingService_new (h : listed world rules = .ok prepared) :
    InspectionService.new (listingDeps world) (.new prepared) =
      .ok (listingService world, start prepared) := by
  have hsidJson : (ActiveContext.new prepared).recipe.sidJson = sidText :=
    (PreparedContext.fromSource_ok h).2.1
  rw [InspectionService.new, hsidJson]
  rfl

/-- Rules of one length are listed alike. -/
theorem narrow_rules_listed : ∃ prepared, listed narrowWorld rulesBefore = .ok prepared ∧
    remoteRuleList narrowWorld prepared = .ok (InspectionService.summaries (start prepared)) := by
  obtain ⟨prepared, hprepared, hrules⟩ :=
    holds_iff.mp (show holds (listed narrowWorld rulesBefore)
      (fun prepared => prepared.data.rules = rulesBefore) = true by decide +kernel)
  obtain ⟨datagram, hrequest, -⟩ :=
    holds_iff.mp (show holds (ruleListRequest (listingDeps narrowWorld) inspectorCrates sidText 0)
      (fun _ => true) = true by decide +kernel)
  obtain ⟨sids, hsids, -⟩ :=
    holds_iff.mp (show holds (ModelSids.resolve (listingModel narrowWorld).compositeModel)
      (fun _ => true) = true by decide +kernel)
  have hrules : (start prepared).active.snapshot.data.rules = rulesBefore :=
    of_decide_eq_true hrules
  have hworld : ReplyLaws (deps narrowWorld) := replyLaws
  have hreplies : ReplyLaws (listingDeps narrowWorld) :=
    ⟨hworld.code, hworld.cleared, hworld.written⟩
  have hexplicit : LoadsExplicit (listingDeps narrowWorld) recipe.sidJson :=
    loadsExplicit narrowWorld_checked
  have hseparated : LoadsSeparated (listingDeps narrowWorld) recipe.sidJson := narrowWorld_separated
  have hstart : ActiveContext.WritesAll (listingDeps narrowWorld) (.new prepared)
      (start prepared).active := .refl
  obtain ⟨bytes, response, hanswer, hresponse, hlisted⟩ := remote_rule_list_exact hreplies
    requestsRoundTrip hexplicit hseparated (loadsNatures narrowWorld_checked (by decide +kernel))
    hprepared (listingService_new hprepared) (returnsRoot rfl) hstart (by decide) hrequest
  have hsame := hlisted.mpr ⟨⟨sids, hsids⟩, by rw [hrules]; decide +kernel⟩
  refine ⟨prepared, hprepared, ?_⟩
  simp only [remoteRuleList, bind_ok, need_ok, mapError_ok]
  exact ⟨datagram, hrequest, _, hanswer, bytes, rfl, response, hresponse, hsame⟩

/-- A RuleID of 16 bits is listed before those of 8 bits with greater values. -/
theorem wide_rules_reordered : ∃ prepared remote, listed wideWorld wideRules = .ok prepared ∧
    remoteRuleList wideWorld prepared = .ok remote ∧
    remote ≠ InspectionService.summaries (start prepared) := by
  obtain ⟨prepared, hprepared, hlist⟩ :=
    holds_iff.mp (show holds (listed wideWorld wideRules) (fun prepared =>
      holds (remoteRuleList wideWorld prepared) fun remote =>
        remote ≠ InspectionService.summaries (start prepared)) = true by decide +kernel)
  obtain ⟨remote, hremote, hne⟩ := holds_iff.mp hlist
  exact ⟨prepared, remote, hprepared, hremote, of_decide_eq_true hne⟩

end

end SchcCoreconf
