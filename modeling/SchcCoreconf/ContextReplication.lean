import SchcCoreconf.DuplicateExchange
import SchcCoreconf.Lib.Replicas
import SchcCoreconf.UpdateExchange

/-!
# The device follows the core

The core sends a duplicate and does not wait: its datagram may be under way for any
time, and may arrive more than once. A `rule update` is an exchange, over an empty
link. As long as the core reports no possible divergence, the datagrams under way
lead the device to the core's very context.
-/

namespace SchcCoreconf

open Fallible
open ActiveContext (Publishes)
open Replicas (Protocol Pair Follows Settles)

-- ---------------------------------------------------------------------------
-- Core, link and device
-- ---------------------------------------------------------------------------

/-- Core and device, the datagrams between them, and those that have arrived. -/
structure Replication where
  core : CoreState
  device : BackendState
  inFlight : List Bytes
  arrived : List Bytes

def updateSent (deps : Deps) (service : InspectionService) (core : CoreState) (command : String) :
    Option Bytes :=
  (planRuleUpdate deps service core command).1.toOption.map (·.2)

namespace Replication

def start (core : CoreState) (device : BackendState) : Replication :=
  { core, device, inFlight := [], arrived := [] }

/-- A `rule update` whose request and answer arrive once each. -/
def executeUpdate (deps : Deps) (service device : InspectionService) (world : Replication)
    (command : String) : Outcome CoreState (Except UpdateError Unit) :=
  executeRuleUpdate deps service world.core command
    (UpdateExchange.sendDevice deps device world.device [.request, .response 0])

inductive Step (deps : Deps) (link : SchcLink) (service device : InspectionService) (debug : Bool)
    (world : Replication) : Replication → Prop
  | duplicate {sends : Except String Unit} :
      (executeRuleDuplicate deps service world.core command fun _ =>
        sends).outcome.result = some report →
      (∀ request error, report ≠ .error (.localFailed request error)) →
      Step deps link service device debug world { world with
        core := (executeRuleDuplicate deps service world.core command fun _ => sends).outcome.state
        inFlight := world.inFlight ++
          (executeRuleDuplicate deps service world.core command fun _ => sends).sent.toList }
  | deliver : world.inFlight = datagram :: rest →
      Step deps link service device debug world { world with
        device := (handleDeviceRequest deps link device world.device debug datagram).state
        inFlight := rest
        arrived := datagram :: world.arrived }
  | again : datagram ∈ world.arrived →
      Step deps link service device debug world { world with
        device := (handleDeviceRequest deps link device world.device debug datagram).state }
  | update : world.inFlight = [] →
      (executeUpdate deps service device world command).result = some report →
      (∀ message, report ≠ .error (.exchangeFailed message)) →
      (∀ message, report ≠ .error (.possibleDivergence message)) →
      Step deps link service device debug world { world with
        core := (executeUpdate deps service device world command).state
        device := (updateSent deps service world.core command).elim world.device fun datagram =>
          (handleDeviceRequest deps link device world.device debug datagram).state }

def pair (world : Replication) : Pair ActiveContext Bytes where
  leader := world.core.backend.active
  follower := world.device.active
  queue := world.inFlight
  applied := world.arrived

end Replication

-- ---------------------------------------------------------------------------
-- Duplicates as inputs
-- ---------------------------------------------------------------------------

def applyDuplicateDatagram (deps : Deps) (service : InspectionService) (active : ActiveContext)
    (datagram : Bytes) : ActiveContext :=
  (service.handleDatagramNoResponse deps
    { active, backend := active.backend } datagram).state.active

/-- The datagram is a duplicate that is applied, or was applied before. -/
def AcceptsDuplicate (deps : Deps) (service : InspectionService) (active : ActiveContext)
    (datagram : Bytes) : Prop :=
  ∃ operation, ReadsDuplicate deps service datagram operation ∧
    (DuplicateReplay deps service.model active operation ∨
      ∃ active', DuplicateApplied deps service.model active operation active')

def SettledDuplicate (deps : Deps) (service : InspectionService) (active : ActiveContext)
    (datagram : Bytes) : Prop :=
  ∃ operation, ReadsDuplicate deps service datagram operation ∧
    ∃ rule ∈ active.snapshot.data.rules, rule.id = operation.request.destination.ruleId

def PublishesPatch (deps : Deps) (model : CoreconfModel) (active active' : ActiveContext) : Prop :=
  ∃ request ifMatch sids target tree, decodeTargetPatch deps model request = .ok (sids, target) ∧
    checkTargetRule active.snapshot ifMatch target = .ok () ∧
    patchedTree deps model sids active.snapshot.data.tree target = .ok tree ∧
    Publishes deps active tree active'

def duplicateProtocol (deps : Deps) (service : InspectionService) :
    Protocol ActiveContext Bytes where
  apply := applyDuplicateDatagram deps service
  Accepts := AcceptsDuplicate deps service
  Joint := PublishesPatch deps service.model

theorem applyDuplicateDatagram_of_reads (h : ReadsDuplicate deps service datagram operation)
    (active : ActiveContext) : applyDuplicateDatagram deps service active datagram =
      (applyDuplicateOperation deps service.model active operation).state := by
  have hhandles := h.handles { active, backend := active.backend }
  simp only [HandlesDuplicate] at hhandles
  rw [applyDuplicateDatagram, hhandles]

theorem applyDuplicateOperation_present
    (h : ∃ rule ∈ active.snapshot.data.rules, rule.id = operation.request.destination.ruleId) :
    (applyDuplicateOperation deps model active operation).state = active := by
  rcases applyDuplicateOperation_cases deps model active operation with
    ⟨-, hstate⟩ | ⟨-, heq⟩ | ⟨_, ⟨_, _, _, -, habsent, -⟩, -⟩
  · exact hstate
  · rw [heq]
  · obtain ⟨rule, hrule, hid⟩ := h
    exact absurd hid (habsent rule hrule)

theorem AcceptsDuplicate.writes (h : AcceptsDuplicate deps service active datagram) :
    ServiceWrites deps service.model active
      (applyDuplicateDatagram deps service active datagram) := by
  obtain ⟨operation, hreads, hreplay | ⟨active', happlied⟩⟩ := h
  · rw [applyDuplicateDatagram_of_reads hreads, applyDuplicateOperation_replay hreplay]
    exact .unchanged
  · rw [applyDuplicateDatagram_of_reads hreads, happlied.outcome]
    exact .duplicated happlied

theorem ServiceWrites.writes (h : ServiceWrites deps model active active') :
    ActiveContext.Writes deps active active' := by
  cases h with
  | unchanged => exact .inl rfl
  | patched _ _ _ hpublish => exact .inr ⟨_, hpublish⟩
  | duplicated happlied =>
    obtain ⟨tree, -, hpublish⟩ := happlied.publishes
    exact .inr ⟨tree, hpublish⟩

section
variable {sidJson : String} {put : LeafAddress → Json → Json → Option Json}
  {initial : ProtectedRules}

def SoundUnder (deps : Deps) (sidJson : String) (initial : ProtectedRules)
    (active : ActiveContext) : Prop :=
  active.recipe.sidJson = sidJson ∧ ActiveContext.Sound deps initial active

theorem SoundUnder.writes (h : SoundUnder deps sidJson initial active)
    (hwrites : ActiveContext.Writes deps active active') :
    SoundUnder deps sidJson initial active' :=
  ⟨(ActiveContext.WritesAll.recipe_eq (.single hwrites) ▸ h.1),
    ActiveContext.WritesAll.sound (.single hwrites) h.2⟩

theorem duplicates_settle {service : InspectionService} (hstated : LoadsStatedRules deps sidJson)
    (hseparated : LoadsSeparated deps sidJson) (stores : SetsLeaves deps sidJson put)
    (hmodel : deps.rustconf.coreconfModel sidJson = .ok service.model) :
    Settles (duplicateProtocol deps service) (SoundUnder deps sidJson initial)
      (SettledDuplicate deps service) where
  inv hsound haccepts := hsound.writes haccepts.writes.writes
  settles hsound haccepts := by
    obtain ⟨rfl, hsound⟩ := hsound
    obtain ⟨operation, hreads, hreplay | ⟨active', happlied⟩⟩ := haccepts
    · refine ⟨operation, hreads, ?_⟩
      obtain ⟨_, _, _, -, hthere, -⟩ := hreplay
      simpa only [duplicateProtocol, applyDuplicateDatagram_of_reads hreads,
        applyDuplicateOperation_present hthere] using hthere
    · refine ⟨operation, hreads, ?_⟩
      simpa only [duplicateProtocol, applyDuplicateDatagram_of_reads hreads, happlied.outcome] using
        happlied.loads hstated hseparated stores hmodel hsound
  stays hsound haccepts hsettled := by
    obtain ⟨rfl, hsound⟩ := hsound
    obtain ⟨operation, hreads, hthere⟩ := hsettled
    exact ⟨operation, hreads, haccepts.writes.keeps hstated hseparated stores hmodel hsound hthere⟩
  same _ hsettled := by
    obtain ⟨operation, hreads, hthere⟩ := hsettled
    exact (applyDuplicateDatagram_of_reads hreads _).trans (applyDuplicateOperation_present hthere)
  joint hsound hpatch := by
    obtain ⟨_, _, _, _, _, hdecode, hcheck, hpatched, hpublish⟩ := hpatch
    have hwrites : ServiceWrites deps service.model _ _ :=
      .patched hdecode hcheck hpatched hpublish
    refine ⟨hsound.writes hwrites.writes, fun datagram hsettled => ?_⟩
    obtain ⟨rfl, hsound⟩ := hsound
    obtain ⟨operation, hreads, hthere⟩ := hsettled
    exact ⟨operation, hreads, hwrites.keeps hstated hseparated stores hmodel hsound hthere⟩

end

-- ---------------------------------------------------------------------------
-- The device
-- ---------------------------------------------------------------------------

theorem ReadsDuplicate.same_model {service device : InspectionService}
    (hmodel : device.model = service.model) (h : ReadsDuplicate deps service datagram operation) :
    ReadsDuplicate deps device datagram operation := by
  obtain ⟨packet, hpacket, hshape, hdecode⟩ := h
  exact ⟨packet, hpacket, hshape, hmodel ▸ hdecode⟩

theorem handleDeviceRequest_duplicate {service device : InspectionService}
    (hmodel : device.model = service.model) (h : ReadsDuplicate deps service datagram operation)
    (link : SchcLink) (state : BackendState) (debug : Bool) :
    (handleDeviceRequest deps link device state debug datagram).state =
      { state with active := applyDuplicateDatagram deps service state.active datagram } := by
  have hhandles := (h.same_model hmodel).handles state
  rw [applyDuplicateDatagram_of_reads h, ← hmodel]
  obtain ⟨packet, hpacket, hshape, -⟩ := h
  simp only [HandlesDuplicate] at hhandles
  simp [handleDeviceRequest, isDuplicateRuleDatagram, hpacket, hshape, hhandles]

theorem handleDeviceRequest_update
    (hplanned : PlannedUpdate deps snapshot command update datagram packet)
    (link : SchcLink) (device : InspectionService) (state : BackendState) (debug : Bool) :
    (handleDeviceRequest deps link device state debug datagram).state =
      (device.handleDatagram deps state datagram).state := by
  have hshape : isDuplicateRuleCoapShape packet = false := by
    simp [isDuplicateRuleCoapShape, hplanned.code]
  simp [handleDeviceRequest, isDuplicateRuleDatagram, hplanned.read, hshape]

-- ---------------------------------------------------------------------------
-- An update
-- ---------------------------------------------------------------------------

theorem UpdateExchange.once {device : InspectionService} {state : BackendState}
    (hplanned : PlannedUpdate deps snapshot command update datagram packet)
    (h : UpdateExchange.sendDevice deps device state [.request, .response 0] datagram = .ok code) :
    ∃ answer response, (device.handleDatagram deps state datagram).result = some answer ∧
      managementResponse deps answer = .ok response ∧ code = response.coapMessage.code := by
  simp only [sendDevice, exchange, bind_ok, mapError_ok, need_ok, pure_ok] at h
  obtain ⟨_, ⟨⟨wire, request⟩, hwire, exchangeId, -, rfl⟩, haccepted⟩ := h
  cases managementRequest_wire hplanned.read hplanned.token hplanned.written hwire
  simp only [Runs.run_cons, Runs.run_nil, step, deliverRequest,
    UpdateExchange.start, deliverResponse, List.nil_append] at haccepted
  split at haccepted
  · next packet _ hresponse =>
    have hmem := Option.mem_toList.mp (List.mem_of_getElem? hresponse)
    obtain ⟨answer, hanswer, hmanagement⟩ := Option.bind_eq_some_iff.mp hmem
    refine ⟨answer, packet, hanswer, toOption_eq_some.mp hmanagement, ?_⟩
    split at haccepted
    · next hcode =>
      cases haccepted
      exact responseCode_ok hcode
    · cases haccepted
  · cases haccepted

theorem device_updated {device : InspectionService} {state : BackendState}
    (laws : ManagementLaws deps device.handler) (hcodes : CodesAgree deps)
    (hplanned : PlannedUpdate deps snapshot command update datagram packet)
    (h : UpdateExchange.sendDevice deps device state [.request, .response 0] datagram = .ok code) :
    (code ≠ 68 ∧ (device.handleDatagram deps state datagram).state.active = state.active) ∨
      (code = 68 ∧ Patched deps device.model packet state
        (device.handleDatagram deps state datagram)) := by
  obtain ⟨answer, response, hanswer, hmanagement, rfl⟩ := UpdateExchange.once hplanned h
  obtain ⟨bytes, rfl, -⟩ := managementResponse_ok hmanagement
  rcases InspectionService.handleDatagram_cases laws state hplanned.read with hrefused | hpatched
  · obtain ⟨type, hne, hreply⟩ := hrefused.2 bytes hanswer
    exact .inl ⟨mt (hreply.responseCode laws.toReplyLaws hcodes hplanned.read hmanagement).1.mp hne,
      hrefused.1⟩
  · obtain ⟨-, -, _, hresult, hreply⟩ := id hpatched
    cases hanswer.symm.trans hresult
    exact .inr ⟨(hreply.responseCode laws.toReplyLaws hcodes hplanned.read hmanagement).1.mpr rfl,
      hpatched⟩

theorem publishes_unique (h : Publishes deps active tree first)
    (h' : Publishes deps active tree second) :
    first = second := by
  obtain ⟨prepared, hprepared, -, hstore⟩ := h
  obtain ⟨prepared', hprepared', -, hstore'⟩ := h'
  cases hprepared.symm.trans hprepared'
  exact Option.some.inj (hstore.symm.trans hstore')

theorem Patched.same {state state' : BackendState} (h : Patched deps model packet state outcome)
    (h' : Patched deps model packet state' outcome') (hactive : state'.active = state.active) :
    outcome'.state.active = outcome.state.active ∧
      PublishesPatch deps model state.active outcome.state.active := by
  obtain ⟨-, ⟨_, _, _, _, _, hrequest, -, hdecode, hcheck, hpatched, hpublish⟩, -⟩ := h
  obtain ⟨-, ⟨_, _, _, _, _, hrequest', -, hdecode', -, hpatched', hpublish'⟩, -⟩ := h'
  cases hrequest.symm.trans hrequest'
  cases hdecode.symm.trans hdecode'
  rw [hactive] at hpatched' hpublish'
  cases hpatched.symm.trans hpatched'
  exact ⟨publishes_unique hpublish' hpublish, _, _, _, _, _, hdecode, hcheck, hpatched, hpublish⟩

theorem executeRuleUpdate_failed {state : CoreState} {sendDevice : Bytes → Except String Nat}
    (hplan : (planRuleUpdate deps service state command).1 = .ok (update, datagram))
    (hsent : sendDevice datagram = .error error) :
    ∃ message, (executeRuleUpdate deps service state command sendDevice).result =
      some (.error (.exchangeFailed message)) := by
  have hpair : planRuleUpdate deps service state command =
      (.ok (update, datagram), (planRuleUpdate deps service state command).2) := by rw [← hplan]
  rw [executeRuleUpdate, hpair]
  simp [hsent, completeRuleUpdate, InspectionService.answer]

namespace Replication

/-- An update leaves both contexts, or patches both alike. -/
theorem update_joint {service device : InspectionService} {world : Replication}
    (laws : ManagementLaws deps service.handler) (laws' : ManagementLaws deps device.handler)
    (hcodes : CodesAgree deps) (htrip : RequestsRoundTrip deps.coap)
    (hmodel : device.model = service.model)
    (hequal : world.device.active = world.core.backend.active)
    (hresult : (executeUpdate deps service device world command).result = some report)
    (hexchanged : ∀ message, report ≠ .error (.exchangeFailed message))
    (hreported : ∀ message, report ≠ .error (.possibleDivergence message))
    (link : SchcLink) (debug : Bool) :
    let core := (executeUpdate deps service device world command).state.backend.active
    let after := ((updateSent deps service world.core command).elim world.device fun datagram =>
      (handleDeviceRequest deps link device world.device debug datagram).state).active
    after = core ∧ (core = world.core.backend.active ∨
      PublishesPatch deps service.model world.core.backend.active core) := by
  intro core after
  cases hplan : (planRuleUpdate deps service world.core command).1 with
  | error error =>
    have hcore : core = world.core.backend.active := by
      have hpair : planRuleUpdate deps service world.core command =
          (.error error, (planRuleUpdate deps service world.core command).2) := by rw [← hplan]
      simp only [core, executeUpdate, executeRuleUpdate]
      rw [hpair]
    have hafter : after = world.device.active := by
      simp [after, updateSent, hplan, Except.toOption]
    exact ⟨hafter.trans (hequal.trans hcore.symm), .inl hcore⟩
  | ok planned =>
    obtain ⟨update, datagram⟩ := planned
    obtain ⟨packet, hplanned⟩ := planRuleUpdate_ok htrip hplan
    have hafter : after = (device.handleDatagram deps world.device datagram).state.active := by
      simp [after, updateSent, hplan, Except.toOption, handleDeviceRequest_update hplanned]
    cases hsent : UpdateExchange.sendDevice deps device world.device
      [.request, .response 0] datagram with
    | error error =>
      obtain ⟨message, hfailed⟩ := executeRuleUpdate_failed hplan hsent
      exact absurd (Option.some.inj (hresult.symm.trans hfailed)) (hexchanged message)
    | ok code =>
      obtain ⟨hcomplete, hstate⟩ := executeRuleUpdate_planned hplan hsent
      have hcore : core = (completeRuleUpdate deps service world.core.backend update datagram
        (.ok code)).state.active := congrArg BackendState.active hstate
      have hcompleted := completeRuleUpdate_reported laws hplanned (hcomplete ▸ hresult) hreported
      have hdevice := device_updated laws' hcodes hplanned hsent
      rcases hcompleted with ⟨hne, hsame⟩ | ⟨hcode, hpatched, hsame⟩
      · rw [hsame] at hcore
        rcases hdevice with ⟨-, hunchanged⟩ | ⟨hcode, -⟩
        · exact ⟨(hafter.trans hunchanged).trans (hequal.trans hcore.symm), .inl hcore⟩
        · exact absurd hcode hne
      · rw [hsame] at hcore
        rcases hdevice with ⟨hne, -⟩ | ⟨-, hpatched'⟩
        · exact absurd hcode hne
        · rw [hmodel] at hpatched'
          obtain ⟨hagree, hpatch⟩ := hpatched.same hpatched' hequal
          rw [hafter, hcore]
          exact ⟨hagree, .inr hpatch⟩

-- ---------------------------------------------------------------------------
-- Runs
-- ---------------------------------------------------------------------------

/-- A step takes the device on its way to the core to such a way. -/
theorem step_follows {service device : InspectionService} {world world' : Replication}
    {Inv : ActiveContext → Prop}
    (laws : ManagementLaws deps service.handler) (laws' : ManagementLaws deps device.handler)
    (hcodes : CodesAgree deps) (htrip : RequestsRoundTrip deps.coap)
    (hmodel : device.model = service.model)
    (hsettles : Settles (duplicateProtocol deps service) Inv (SettledDuplicate deps service))
    (hfollows : Follows (duplicateProtocol deps service) Inv
      (SettledDuplicate deps service) world.pair)
    (hstep : Step deps link service device debug world world') :
    Follows (duplicateProtocol deps service) Inv (SettledDuplicate deps service) world'.pair := by
  cases hstep with
  | @duplicate command report sends hresult hlocal =>
    have hreported := executeRuleDuplicate_reported htrip hresult
    generalize executeRuleDuplicate deps service world.core command
      (fun _ => sends) = run at hreported ⊢
    obtain ⟨sent, result, core⟩ := run
    simp only at hreported ⊢
    generalize hbackend : core.backend = backend at hreported
    have hpair : ∀ datagrams, Replication.pair { world with core := core, inFlight := datagrams } =
        { world.pair with leader := backend.active, queue := datagrams } := by
      intro datagrams
      rw [pair, hbackend]
      rfl
    rw [hpair]
    cases hreported with
    | applied _ hreads happlied =>
      have hissued := hfollows.next hsettles (.issue ⟨_, hreads, .inr ⟨_, happlied⟩⟩)
      simpa only [duplicateProtocol, applyDuplicateDatagram_of_reads hreads, pair, happlied.outcome,
        Option.toList_some] using hissued
    | idempotent _ hreads hreplay =>
      have hissued := hfollows.next hsettles (.issue ⟨_, hreads, .inl hreplay⟩)
      simpa only [duplicateProtocol, applyDuplicateDatagram_of_reads hreads, pair,
        applyDuplicateOperation_replay hreplay, Option.toList_some] using hissued
    | rejected | notSent =>
      rw [Option.toList_none, List.append_nil]
      exact hfollows
    | localFailed => exact absurd rfl (hlocal _ _)
  | @deliver datagram rest hqueue =>
    have haccepted := hfollows.accepted
    simp only [pair, hqueue] at haccepted
    obtain ⟨_, hreads, -⟩ := haccepted.1
    have hdelivered := hfollows.next hsettles (.deliver hqueue)
    simpa only [pair, duplicateProtocol, handleDeviceRequest_duplicate hmodel hreads]
      using hdelivered
  | @again datagram harrived =>
    obtain ⟨_, hreads, -⟩ := hfollows.settled datagram harrived
    have hrepeated := hfollows.next hsettles (.again harrived)
    simpa only [pair, duplicateProtocol, handleDeviceRequest_duplicate hmodel hreads]
      using hrepeated
  | update hidle hresult hexchanged hreported =>
    obtain ⟨hafter, hcore⟩ := update_joint laws laws' hcodes htrip hmodel
      (hfollows.agree hidle) hresult hexchanged hreported link debug
    simp only [pair, hafter]
    rcases hcore with hcore | hpatch
    · rw [hcore]
      have hsame : world.pair = { world.pair with follower := world.core.backend.active } := by
        simp only [pair, Pair.mk.injEq, true_and, and_true]
        exact hfollows.agree hidle
      exact hsame ▸ hfollows
    · exact hfollows.next hsettles (.joint hidle hpatch)

theorem run_device {service device : InspectionService}
    {datagrams : List Bytes} {state : BackendState}
    (hmodel : device.model = service.model)
    (haccepted : Replicas.AcceptedRun (duplicateProtocol deps service) state.active datagrams) :
    (Runs.run (fun state datagram =>
      (handleDeviceRequest deps link device state debug datagram).state)
      state datagrams).active = Runs.run (applyDuplicateDatagram deps service)
        state.active datagrams := by
  induction datagrams generalizing state with
  | nil => rfl
  | cons datagram rest ih =>
    obtain ⟨⟨_, hreads, -⟩, hrest⟩ := haccepted
    simp only [Runs.run_cons, handleDeviceRequest_duplicate hmodel hreads]
    exact ih hrest

theorem values_suffix (h : ActiveContext.WritesAll deps active active') :
    active.snapshots.values <:+ active'.snapshots.values := by
  induction h with
  | refl => exact List.suffix_refl _
  | tail _ hwrites ih =>
    rcases hwrites with rfl | ⟨tree, hpublish⟩
    · exact ih
    · refine ih.trans ?_
      rw [← hpublish.snapshot.2.2]
      exact List.suffix_cons _ _

/-- The device is where the core was, and goes where the core is. -/
structure DeviceFollows (deps : Deps) (link : SchcLink) (device : InspectionService) (debug : Bool)
    (world : Replication) : Prop where
  leads : (Runs.run (fun state datagram =>
    (handleDeviceRequest deps link device state debug datagram).state)
    world.device world.inFlight).active = world.core.backend.active
  behind : world.device.active.snapshots.values <:+ world.core.backend.active.snapshots.values
  idle : world.inFlight = [] → world.device.active = world.core.backend.active
  again : ∀ datagram ∈ world.arrived,
    (handleDeviceRequest deps link device world.device debug datagram).state = world.device

/-- In every run whose commands report no possible divergence the device has held the first of the
core's contexts, in their order; what is under way leads it to the core's context, and what has
arrived changes nothing however often it arrives again. -/
theorem device_follows_core {recipe : ContextRecipe}
    {service device : InspectionService} {core : CoreState}
    {state : BackendState} (hstated : LoadsStatedRules deps recipe.sidJson)
    (hseparated : LoadsSeparated deps recipe.sidJson) (stores : SetsLeaves deps recipe.sidJson put)
    (laws : ManagementLaws deps service.handler)
    (laws' : ManagementLaws deps device.handler) (hcodes : CodesAgree deps)
    (htrip : RequestsRoundTrip deps.coap)
    (hmodel : deps.rustconf.coreconfModel recipe.sidJson = .ok service.model)
    (hmodel' : deps.rustconf.coreconfModel recipe.sidJson = .ok device.model)
    (hreached : Reached deps recipe source prepared core.backend.active)
    (hequal : state.active = core.backend.active)
    (hrun : Relation.ReflTransGen (Step deps link service device debug) (start core state) world) :
    DeviceFollows deps link device debug world := by
  have hsame : device.model = service.model := Except.ok.inj (hmodel'.symm.trans hmodel)
  have hsettles : Settles (duplicateProtocol deps service)
      (SoundUnder deps recipe.sidJson prepared.data.protectedRules)
        (SettledDuplicate deps service) :=
    duplicates_settle hstated hseparated stores hmodel
  have hfollows : Follows (duplicateProtocol deps service)
      (SoundUnder deps recipe.sidJson prepared.data.protectedRules) (SettledDuplicate deps service)
      world.pair := by
    induction hrun with
    | refl =>
      have hstart : (start core state).pair = Pair.start core.backend.active := by
        simp only [pair, start, Pair.start, hequal]
      rw [hstart]
      exact .start ⟨hreached.sidJson, hreached.sound⟩
    | tail _ hstep ih => exact step_follows laws laws' hcodes htrip hsame hsettles ih hstep
  refine ⟨(run_device hsame hfollows.accepted).trans hfollows.leads, ?_, hfollows.agree,
    fun datagram harrived => ?_⟩
  · refine hfollows.rel (R := fun a b => a.snapshots.values <:+ b.snapshots.values)
      (fun _ => List.suffix_refl _) (fun _ _ _ => List.IsSuffix.trans) fun active datagram => ?_
    exact values_suffix (InspectionService.handleDatagramNoResponse_writes deps service
      { active, backend := active.backend } datagram)
  · obtain ⟨_, hreads, -⟩ := hfollows.settled datagram harrived
    rw [handleDeviceRequest_duplicate hsame hreads]
    have hunchanged := hsettles.same hfollows.inv (hfollows.settled datagram harrived)
    simp only [duplicateProtocol, pair] at hunchanged
    rw [hunchanged]

section
open Fixture

def copying (prepared : PreparedContext) : Replication where
  core := (copyRun prepared).outcome.state
  device := Fixture.start prepared
  inFlight := (copyRun prepared).sent.toList
  arrived := []

/-- The core copies a rule, and its datagram reaches the device twice. -/
theorem device_follows_core_copied : ∃ (prepared : PreparedContext) (world : Replication),
    Relation.ReflTransGen (Step (deps duplicateWorld) (link .device) (service duplicateWorld)
      (service duplicateWorld) false)
        (Replication.start (idleCore prepared) (Fixture.start prepared)) world ∧
    world.arrived = [duplicateDatagram] ∧
    world.core.backend.active.snapshot.data.tree = tree rulesCopied ∧
    world.device.active = world.core.backend.active ∧
    (handleDeviceRequest (deps duplicateWorld) (link .device)
      (service duplicateWorld) world.device false duplicateDatagram).state = world.device := by
  obtain ⟨prepared, hprepared, heval⟩ := holds_iff.mp copyCommand_evaluated
  simp only [Bool.and_eq_true, decide_eq_true_eq] at heval
  obtain ⟨⟨⟨hsent, hresult⟩, -⟩, hafter⟩ := heval
  obtain ⟨report, hreport, hok⟩ := (Option.any_eq_true ..).mp hresult
  have hlocal : ∀ request error, report ≠ .error (.localFailed request error) := by
    rintro request error rfl
    cases hok
  have hissued :
      Step (deps duplicateWorld) (link .device) (service duplicateWorld) (service duplicateWorld)
      false (Replication.start (idleCore prepared) (Fixture.start prepared)) (copying prepared) :=
    .duplicate hreport hlocal
  have hqueue : (copying prepared).inFlight = [duplicateDatagram] := by
    rw [copying, hsent, Option.toList_some]
  have hsteps := Relation.ReflTransGen.tail (.tail (.single hissued) (.deliver hqueue))
    (.again List.mem_cons_self)
  have hfollows := device_follows_core (loadsStatedRules duplicateWorld_checked)
    duplicateWorld_separated setsLeaves managementLaws managementLaws codesAgree requestsRoundTrip
      rfl rfl (Reached.of_loaded hprepared []) rfl hsteps
  exact ⟨prepared, _, hsteps, rfl, hafter, hfollows.idle rfl, hfollows.again _ List.mem_cons_self⟩

end

end Replication

end SchcCoreconf
