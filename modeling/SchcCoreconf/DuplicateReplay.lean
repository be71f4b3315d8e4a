import SchcCoreconf.Atomicity
import SchcCoreconf.DuplicateFrame
import SchcCoreconf.Reapplication

/-!
# Replaying a duplicate operation

Once a duplicate operation was applied, its destination stays: target patches keep
the RuleIDs, and other operations only add some. So the same datagram never
publishes again. Where source and destination are as they were, it describes the
tree it finds; where the destination is not what it describes, it is rejected.
-/

namespace SchcCoreconf

open Fallible FirstMatch
open ActiveContext (Publishes Writes WritesAll)

-- ---------------------------------------------------------------------------
-- What management datagrams do
-- ---------------------------------------------------------------------------

def Operation.IsDatagram : Operation → Prop
  | .replaceTree _ _ => False
  | _ => True

/-- What a management datagram does to the context. -/
inductive ServiceWrites (deps : Deps) (model : CoreconfModel) (active : ActiveContext) :
    ActiveContext → Prop
  | unchanged : ServiceWrites deps model active active
  | patched : decodeTargetPatch deps model request = .ok (sids, target) →
      checkTargetRule active.snapshot ifMatch target = .ok () →
      patchedTree deps model sids active.snapshot.data.tree target = .ok tree →
      Publishes deps active tree active' → ServiceWrites deps model active active'
  | duplicated : DuplicateApplied deps model active operation active' →
      ServiceWrites deps model active active'

namespace InspectionService

theorem handleDatagram_serviceWrites {service : InspectionService}
    (laws : ManagementLaws deps service.handler) (state : BackendState) (datagram : Bytes) :
    ServiceWrites deps service.model state.active
      (service.handleDatagram deps state datagram).state.active := by
  cases hpacket : deps.coap.fromBytes datagram with
  | error error =>
    simp only [handleDatagram, hpacket]
    exact .unchanged
  | ok packet =>
    rcases handleDatagram_cases laws state hpacket with hrefused | ⟨-, hpatched, -⟩
    · rw [hrefused.1]
      exact .unchanged
    · obtain ⟨_, _, _, _, _, -, -, hdecode, hcheck, hpatched, hpublish⟩ := hpatched
      exact .patched hdecode hcheck hpatched hpublish

theorem handleDatagramNoResponse_serviceWrites {service : InspectionService}
    (laws : ManagementLaws deps service.handler) (state : BackendState) (datagram : Bytes) :
    ServiceWrites deps service.model state.active
      (service.handleDatagramNoResponse deps state datagram).state.active := by
  unfold handleDatagramNoResponse
  split
  · exact .unchanged
  · split
    · split
      · exact .unchanged
      · next operation _ =>
        rcases applyDuplicateOperation_cases deps service.model state.active operation with
          ⟨-, hstate⟩ | ⟨-, heq⟩ | ⟨active', happlied, heq⟩
        · simp only [hstate]
          exact .unchanged
        · simp only [heq]
          exact .unchanged
        · simp only [heq]
          exact .duplicated happlied
    · exact handleDatagram_serviceWrites laws state datagram

theorem operation_serviceWrites {service : InspectionService}
    (laws : ManagementLaws deps service.handler) (state : BackendState) {op : Operation}
    (hop : op.IsDatagram) :
    ServiceWrites deps service.model state.active (service.operation deps state op).active := by
  cases op with
  | datagram datagram => exact handleDatagram_serviceWrites laws state datagram
  | datagramNoResponse datagram => exact handleDatagramNoResponse_serviceWrites laws state datagram
  | replaceTree backend tree => exact hop.elim

end InspectionService

-- ---------------------------------------------------------------------------
-- What stays
-- ---------------------------------------------------------------------------

theorem loaded_iff_stated {selector : RuleSelector} {rules : List Rule}
    (hall : List.Forall₂ (fun member rule => RuleKeys.yang.selects rule.id.selector member = true)
      members rules) :
    (∃ rule ∈ rules, rule.id = selector.ruleId) ↔
      ∃ member ∈ members, RuleKeys.yang.selects selector member = true := by
  constructor
  · rintro ⟨rule, hrule, hid⟩
    obtain ⟨member, hmember, hselects⟩ := forall₂_mem_right hall hrule
    have hsame : rule.id.selector = selector := RuleSelector.ruleId_injective hid
    exact ⟨member, hmember, hsame ▸ hselects⟩
  · rintro ⟨member, hmember, hselects⟩
    obtain ⟨rule, hrule, hstated⟩ := forall₂_mem_left hall hmember
    exact ⟨rule, hrule, RuleKeys.selects_unique hstated hselects ▸ rfl⟩

theorem applyOverrides_stored (laws : DatastoreLaws deps sidJson)
    (hmodel : deps.rustconf.coreconfModel sidJson = .ok model)
    (hstore : ∃ again, model.withData (Datastore.tree store) = .ok again)
    (h : applyOverrides deps model destination sids seen store instances = .ok store') :
    ∃ again, model.withData store'.tree = .ok again := by
  induction instances generalizing seen store with
  | nil =>
    cases h
    exact hstore
  | cons entry rest ih =>
    simp only [applyOverrides, bind_ok] at h
    obtain ⟨⟨seen', next⟩, hfirst, hrest⟩ := h
    obtain ⟨_, _, _, _, -, -, -, -, -, hset, -⟩ := applyOverride_ok.mp hfirst
    exact ih ⟨next, laws.reload hmodel hset⟩ hrest

theorem expectedDuplicateTree_stored (laws : DatastoreLaws deps sidJson)
    (stores : SetsLeaves deps sidJson put)
    (hmodel : deps.rustconf.coreconfModel sidJson = .ok model)
    (h : expectedDuplicateTree deps model snapshot request instances = .ok tree) :
    ∃ store, model.withData tree = .ok store := by
  simp only [expectedDuplicateTree, bind_ok, mapError_ok, pure_ok] at h
  obtain ⟨_, -, _, -, _, -, _, -, _, -, _, -, _, -, _, -, store, hstore, store', hoverrides, rfl⟩ :=
    h
  refine applyOverrides_stored laws hmodel ⟨store, ?_⟩ hoverrides
  rw [stores.tree hmodel hstore]
  exact hstore

/-- The destination is there, and the context was published from a tree the datastore accepts. -/
structure Installed (deps : Deps) (model : CoreconfModel) (destination : RuleSelector)
    (active : ActiveContext) : Prop where
  destination : ∃ rule ∈ active.snapshot.data.rules, rule.id = destination.ruleId
  stored : ∃ store, model.withData active.snapshot.data.tree = .ok store
  published : ∃ before tree, Publishes deps before tree active

section
variable {deps : Deps} {put : LeafAddress → Json → Json → Option Json} {model : CoreconfModel}
  {active active' : ActiveContext} {initial : ProtectedRules} {destination : RuleSelector}

theorem loaded_of_publishes (hfloats : ReadsNoFloats deps active.recipe.sidJson)
    (hstated : LoadsStatedRules deps active.recipe.sidJson)
    (hseparated : LoadsSeparated deps active.recipe.sidJson)
    (hsound : ActiveContext.Sound deps initial active)
    (hpublish : Publishes deps active tree active')
    (hrules : RuleKeys.yang.rules tree = some rules) {selector : RuleSelector} :
    (∃ rule ∈ active'.snapshot.data.rules, rule.id = selector.ruleId) ↔
      ∃ member ∈ rules, RuleKeys.yang.selects selector member = true := by
  rw [← hpublish.recipe_eq] at hstated hseparated
  obtain ⟨rules', hrules', -, hall⟩ :=
    (ActiveContext.sound_publishes hsound hpublish).current.ordered hstated hseparated
  rw [hpublish.tree_eq hfloats, hrules] at hrules'
  cases hrules'
  exact loaded_iff_stated hall

theorem ServiceWrites.keeps {selector : RuleSelector}
    (hstated : LoadsStatedRules deps active.recipe.sidJson)
    (hseparated : LoadsSeparated deps active.recipe.sidJson)
    (stores : SetsLeaves deps active.recipe.sidJson put)
    (hmodel : deps.rustconf.coreconfModel active.recipe.sidJson = .ok model)
    (hsound : ActiveContext.Sound deps initial active)
    (hwrites : ServiceWrites deps model active active')
    (h : ∃ rule ∈ active.snapshot.data.rules, rule.id = selector.ruleId) :
    ∃ rule ∈ active'.snapshot.data.rules, rule.id = selector.ruleId := by
  cases hwrites with
  | unchanged => exact h
  | patched hdecode hcheck hpatched hpublish =>
    obtain ⟨prepared, rfl, happlied⟩ := Applied.of_publishes stores.floatFree hpatched hpublish
    have hids := happlied.ruleIds stores hstated hmodel hdecode hsound.current hcheck
    rw [← happlied.data] at hids
    have hmem : selector.ruleId ∈ active'.snapshot.data.rules.map (·.id) := by
      rw [hids]
      exact List.mem_map.mpr h
    exact List.mem_map.mp hmem
  | duplicated happlied =>
    obtain ⟨rules, _, _, _, hrules, -, -, -, habsent, hplaced⟩ :=
      happlied.builds hstated hseparated stores hmodel hsound
    obtain ⟨members, hmembers, -, hall⟩ := hsound.current.ordered hstated hseparated
    cases hrules.symm.trans hmembers
    obtain ⟨member, hmember, hselects⟩ := (loaded_iff_stated hall).mp h
    exact (loaded_of_publishes stores.floatFree hstated hseparated hsound hplaced
      (RuleKeys.rules_setRules hrules _)).mpr
      ⟨member, RuleKeys.mem_placeRule.mpr (.inl ⟨hmember, habsent member hmember⟩), hselects⟩

theorem DuplicateApplied.loads (hstated : LoadsStatedRules deps active.recipe.sidJson)
    (hseparated : LoadsSeparated deps active.recipe.sidJson)
    (stores : SetsLeaves deps active.recipe.sidJson put)
    (hmodel : deps.rustconf.coreconfModel active.recipe.sidJson = .ok model)
    (hsound : ActiveContext.Sound deps initial active)
    (h : DuplicateApplied deps model active operation active') :
    ∃ rule ∈ active'.snapshot.data.rules, rule.id = operation.request.destination.ruleId := by
  obtain ⟨rules, source, new, named, hrules, -, -, hnew, -, hplaced⟩ :=
    h.builds hstated hseparated stores hmodel hsound
  exact (loaded_of_publishes stores.floatFree hstated hseparated hsound hplaced
    (RuleKeys.rules_setRules hrules _)).mpr ⟨new, RuleKeys.mem_placeRule.mpr (.inr rfl), hnew⟩

theorem Installed.step (hstated : LoadsStatedRules deps active.recipe.sidJson)
    (hseparated : LoadsSeparated deps active.recipe.sidJson)
    (stores : SetsLeaves deps active.recipe.sidJson put)
    (laws : DatastoreLaws deps active.recipe.sidJson)
    (hmodel : deps.rustconf.coreconfModel active.recipe.sidJson = .ok model)
    (hsound : ActiveContext.Sound deps initial active)
    (hwrites : ServiceWrites deps model active active')
    (h : Installed deps model destination active) : Installed deps model destination active' := by
  have hkept := hwrites.keeps hstated hseparated stores hmodel hsound h.destination
  cases hwrites with
  | unchanged => exact h
  | patched _ _ hpatched hpublish =>
    refine ⟨hkept, ?_, _, _, hpublish⟩
    obtain ⟨_, _, _, _, _, store', -, -, -, -, -, hset, htree⟩ := patchedTree_ok hpatched
    rw [hpublish.tree_eq stores.floatFree, htree]
    exact ⟨store', laws.reload hmodel hset⟩
  | duplicated happlied =>
    obtain ⟨_, hexpected, hpublish⟩ := happlied.publishes
    refine ⟨hkept, ?_, _, _, hpublish⟩
    rw [hpublish.tree_eq stores.floatFree]
    exact expectedDuplicateTree_stored laws stores hmodel hexpected

theorem Installed.of_applied (hstated : LoadsStatedRules deps active.recipe.sidJson)
    (hseparated : LoadsSeparated deps active.recipe.sidJson)
    (stores : SetsLeaves deps active.recipe.sidJson put)
    (laws : DatastoreLaws deps active.recipe.sidJson)
    (hmodel : deps.rustconf.coreconfModel active.recipe.sidJson = .ok model)
    (hsound : ActiveContext.Sound deps initial active)
    (h : DuplicateApplied deps model active operation active') :
    Installed deps model operation.request.destination active' := by
  obtain ⟨_, hexpected, hpublish⟩ := h.publishes
  refine ⟨h.loads hstated hseparated stores hmodel hsound, ?_, _, _, hpublish⟩
  rw [hpublish.tree_eq stores.floatFree]
  exact expectedDuplicateTree_stored laws stores hmodel hexpected

end

-- ---------------------------------------------------------------------------
-- The operation again
-- ---------------------------------------------------------------------------

theorem prepareCandidate_published (hfloats : ReadsNoFloats deps active.recipe.sidJson)
    (h : Publishes deps before tree active) :
    ∃ candidate, active.prepareCandidate deps active.snapshot.data.tree = .ok candidate := by
  obtain ⟨prepared, hprepared, hvalid, hstore⟩ := h
  obtain ⟨-, rfl⟩ := ActiveContext.publishLocked_eq_some hstore
  have htree : prepared.data.tree = tree :=
    PreparedContext.fromTreeForRecipe_tree hfloats hprepared
  refine ⟨prepared, ?_⟩
  simp only [ActiveContext.prepareCandidate, bind_ok, pure_ok]
  exact ⟨prepared, by rw [← htree] at hprepared; exact hprepared, (),
    ActiveContext.validateCandidate_again hvalid rfl rfl, rfl⟩

/-- Where the destination is installed, an operation is a replay or an error. -/
theorem Installed.applyDuplicateOperation
    (h : Installed deps model operation.request.destination active) :
    (DuplicateReplay deps model active operation ∧
      SchcCoreconf.applyDuplicateOperation deps model active operation =
        { result := some (.ok (.idempotent active.snapshot.generation active.snapshot.data.tag))
          state := active }) ∨
    ¬DuplicateReplay deps model active operation ∧ ∃ error,
      SchcCoreconf.applyDuplicateOperation deps model active operation =
        { result := some (.error error), state := active } := by
  cases hcandidate : duplicateCandidate deps model active operation with
  | error error =>
    refine .inr ⟨?_, error, by simp [SchcCoreconf.applyDuplicateOperation, hcandidate]⟩
    rintro ⟨tree, expectedRule, prepared, haccepted, hreplayed⟩
    have hok : duplicateCandidate deps model active operation = .ok (prepared, true) :=
      duplicateCandidate_ok.mpr
        ⟨tree, expectedRule, haccepted, checkExisting_ok.mpr (.inl ⟨rfl, hreplayed⟩)⟩
    cases hcandidate.symm.trans hok
  | ok candidate =>
    obtain ⟨prepared, existing⟩ := candidate
    obtain ⟨tree, expectedRule, haccepted, hexisting⟩ := duplicateCandidate_ok.mp hcandidate
    rcases checkExisting_ok.mp hexisting with ⟨-, hreplayed⟩ | ⟨-, habsent⟩
    · have hreplay : DuplicateReplay deps model active operation :=
        ⟨tree, expectedRule, prepared, haccepted, hreplayed⟩
      exact .inl ⟨hreplay, applyDuplicateOperation_replay hreplay⟩
    · obtain ⟨rule, hrule, hid⟩ := h.destination
      exact absurd hid (habsent rule hrule)

theorem ContextData.Derived.not_management {recipe : ContextRecipe}
    {data : ContextData} {rule : Rule} (h : data.Derived deps recipe) (hrule : rule ∈ data.rules)
    (hunprotected : data.protectedRules.contains rule.id = false) : rule.nature ≠ .management := by
  intro hnature
  obtain ⟨_, context, -, -, hrules, hderive, -⟩ := h.full
  have hmem : rule.id ∈ ProtectedRules.managementIds context :=
    ProtectedRules.mem_managementIds.mpr ⟨rule, hrules ▸ hrule, hnature, rfl⟩
  rw [← (ProtectedRules.derive_ok hderive).1, ← ProtectedRules.contains_iff, hunprotected] at hmem
  cases hmem

theorem checkDuplicateRules_ok {request : RuleDuplicateRequest} {snapshot : ContextSnapshot} :
    checkDuplicateRules snapshot request = .ok () ↔
      ∃ rule, snapshot.data.rules.find? (·.id = request.source.ruleId) = some rule ∧
        rule.nature ≠ .management ∧
        snapshot.data.protectedRules.contains request.source.ruleId = false ∧
        snapshot.data.protectedRules.contains request.destination.ruleId = false ∧
        request.source ≠ request.destination := by
  simp only [checkDuplicateRules, bind_ok, need_ok, ensure_ok, Bool.not_eq_true',
    Bool.or_eq_false_iff, decide_eq_false_iff_not, decide_eq_true_eq]
  constructor
  · rintro ⟨rule, hrule, _, ⟨hnature, hsource⟩, _, hdestination, hne⟩
    exact ⟨rule, hrule, hnature, hsource, hdestination, hne⟩
  · rintro ⟨rule, hrule, hnature, hsource, hdestination, hne⟩
    exact ⟨rule, hrule, (), ⟨hnature, hsource⟩, (), hdestination, hne⟩

theorem checkDuplicateRules_again {request : RuleDuplicateRequest} {snapshot : ContextSnapshot}
    {recipe : ContextRecipe}
    (h : checkDuplicateRules snapshot request = .ok ()) (hlast : last.data.Derived deps recipe)
    (hprotected : last.data.protectedRules = snapshot.data.protectedRules)
    (hsource : ∃ rule ∈ last.data.rules, rule.id = request.source.ruleId) :
    checkDuplicateRules last request = .ok () := by
  obtain ⟨_, -, -, hunprotected, hdestination, hne⟩ := checkDuplicateRules_ok.mp h
  rw [← hprotected] at hunprotected hdestination
  cases hfind : last.data.rules.find? (·.id = request.source.ruleId) with
  | none =>
    obtain ⟨rule, hrule, hid⟩ := hsource
    simpa [hid] using List.find?_eq_none.mp hfind rule hrule
  | some rule =>
    have hid : rule.id = request.source.ruleId := by simpa using List.find?_some hfind
    exact checkDuplicateRules_ok.mpr ⟨rule, hfind, hlast.not_management
      (List.mem_of_find?_eq_some hfind) (hid ▸ hunprotected), hunprotected, hdestination, hne⟩

/-- An operation whose source and destination are as after its application is a replay. -/
theorem duplicateReplay_of_same (hstated : LoadsStatedRules deps before.recipe.sidJson)
    (hseparated : LoadsSeparated deps before.recipe.sidJson)
    (stores : SetsLeaves deps before.recipe.sidJson put)
    (laws : DatastoreLaws deps before.recipe.sidJson)
    (haccepts : AcceptsRules deps before.recipe.sidJson)
    (hmodel : deps.rustconf.coreconfModel before.recipe.sidJson = .ok model)
    (hbefore : ActiveContext.Sound deps initial before)
    (happlied : DuplicateApplied deps model before operation first)
    (hlast : ActiveContext.Sound deps initial last) (hrecipe : last.recipe = before.recipe)
    (hinstalled : Installed deps model operation.request.destination last)
    (hsource : RuleKeys.yang.find last.snapshot.data.tree operation.request.source =
      RuleKeys.yang.find first.snapshot.data.tree operation.request.source)
    (hdestination : RuleKeys.yang.find last.snapshot.data.tree operation.request.destination =
      RuleKeys.yang.find first.snapshot.data.tree operation.request.destination) :
    DuplicateReplay deps model last operation := by
  obtain ⟨rules₀, source, new, named, hrules₀, hordered₀, hbuilds, hnew, habsent, hpublish⟩ :=
    happlied.builds hstated hseparated stores hmodel hbefore
  have hlastStated : LoadsStatedRules deps last.recipe.sidJson := hrecipe ▸ hstated
  have hlastSeparated : LoadsSeparated deps last.recipe.sidJson := hrecipe ▸ hseparated
  obtain ⟨rules, hrules, hordered, hall⟩ := hlast.current.ordered hlastStated hlastSeparated
  have hplaced : RuleKeys.yang.rules first.snapshot.data.tree =
      some (placeRule .yang operation.request.destination rules₀ new) := by
    rw [hpublish.tree_eq stores.floatFree, RuleKeys.rules_setRules hrules₀]
  have hfoundDestination :
      rules.find? (RuleKeys.yang.selects operation.request.destination) = some new := by
    rw [RuleKeys.find, RuleKeys.find, hrules, hplaced, Option.bind_some, Option.bind_some,
      hordered₀.find?_placeRule hnew] at hdestination
    exact hdestination
  have hfoundSource :
      rules.find? (RuleKeys.yang.selects operation.request.source) = some source := by
    obtain ⟨hmem, hselects⟩ := hordered₀.find?_eq_some.mp hbuilds.found
    rw [RuleKeys.find, RuleKeys.find, hrules, hplaced, Option.bind_some, Option.bind_some,
      (hordered₀.placeRule hnew).find?_eq_some.mpr
        ⟨RuleKeys.mem_placeRule.mpr (.inl ⟨hmem, habsent source hmem⟩), hselects⟩] at hsource
    exact hsource
  obtain ⟨hvalue, hbits⟩ := RuleKeys.selects_lt hnew
  have hcopy : RuleKeys.yang.selects operation.request.destination
      (copyRule operation.request.destination source) = true := by
    rw [← putAll_selects stores hbuilds.built]
    exact hnew
  have hagain : DuplicateBuilds deps put model last.snapshot operation.request operation.instances
      rules named source new := by
    refine ⟨hbuilds.shape, hfoundSource, ?_, ?_, hbuilds.names, hbuilds.located, hbuilds.distinct,
      hbuilds.built⟩
    · refine checkDuplicateRules_again hbuilds.checks hlast.current
        (hlast.current_protectedRules.trans hbefore.current_protectedRules.symm)
        ((loaded_iff_stated hall).mpr ⟨source, ?_⟩)
      exact hordered.find?_eq_some.mp hfoundSource
    · obtain ⟨accepts, haccepts⟩ := haccepts hmodel
      have hfirst := ((haccepts (RuleKeys.rules_setRules hrules₀ _)
        (hordered₀.placeRule hcopy)).mp hbuilds.accepted).2
      obtain ⟨hempty, hrest⟩ := (haccepts hrules hordered).mp hinstalled.stored
      refine (haccepts (RuleKeys.rules_setRules hrules _) (hordered.placeRule hcopy)).mpr
        ⟨by rw [RuleKeys.setRules_setRules]; exact hempty, fun rule hrule => ?_⟩
      rcases RuleKeys.mem_placeRule.mp hrule with ⟨hmem, -⟩ | rfl
      · exact hrest rule hmem
      · exact hfirst _ (RuleKeys.mem_placeRule.mpr (.inr rfl))
  -- the rule it builds is the one that is there
  have hexpected := hagain.expected stores hmodel (fun store' => laws.xpath store' hmodel) hrules
    hordered hvalue hbits
  rw [hordered.placeRule_found hfoundDestination hnew, updateFirst_id fun rule hrule =>
    Option.some.inj (hfoundDestination.symm.trans hrule), RuleKeys.setRules_self hrules]
      at hexpected
  obtain ⟨_, _, hpublished⟩ := hinstalled.published
  obtain ⟨candidate, hcandidate⟩ :=
    prepareCandidate_published (hrecipe ▸ stores.floatFree) hpublished
  obtain ⟨sids, hshape⟩ := hbuilds.shape
  have hfound : findTreeRule last.snapshot.data.tree model.compositeModel
      operation.request.destination = .ok (some new) := by
    rw [RuleKeys.findTreeRule_eq (stores.names hmodel) (validateDuplicateModelShape_ok hshape),
      RuleKeys.find, hrules, Option.bind_some, hfoundDestination]
  exact ⟨_, new, candidate, ⟨hexpected, checkDestination_ok.mpr fun _ _ =>
    .inl hinstalled.destination, hfound, hcandidate⟩, hinstalled.destination,
      new, hfound, new.beq_self⟩

-- ---------------------------------------------------------------------------
-- The datagram again
-- ---------------------------------------------------------------------------

def ReadsDuplicate (deps : Deps) (service : InspectionService) (datagram : Bytes)
    (operation : DecodedDuplicateOperation) : Prop :=
  ∃ packet, deps.coap.fromBytes datagram = .ok packet ∧ isDuplicateRuleCoapShape packet = true ∧
    decodeDuplicateOperation deps service.model packet.payload = .ok operation

def HandlesDuplicate (deps : Deps) (service : InspectionService) (state : BackendState)
    (datagram : Bytes) (operation : DecodedDuplicateOperation) : Prop :=
  let outcome := applyDuplicateOperation deps service.model state.active operation
  service.handleDatagramNoResponse deps state datagram =
    { result := outcome.result.map fun result => result.map fun _ => none
      state := { state with active := outcome.state } }

theorem ReadsDuplicate.handles (h : ReadsDuplicate deps service datagram operation)
    (state : BackendState) : HandlesDuplicate deps service state datagram operation := by
  obtain ⟨packet, hpacket, hshape, hdecode⟩ := h
  simp [HandlesDuplicate, InspectionService.handleDatagramNoResponse, hpacket, hshape, hdecode]

/-- What comes of delivering a datagram again that was applied in the state before `first`. -/
structure Replays (deps : Deps) (service : InspectionService) (datagram : Bytes)
    (operation : DecodedDuplicateOperation) (first last : BackendState) : Prop where
  handled : HandlesDuplicate deps service last datagram operation
  unchanged : ∀ n, service.operate deps last
    (List.replicate n (.datagramNoResponse datagram)) = last
  idempotent :
    RuleKeys.yang.find last.active.snapshot.data.tree operation.request.source =
      RuleKeys.yang.find first.active.snapshot.data.tree operation.request.source →
    RuleKeys.yang.find last.active.snapshot.data.tree operation.request.destination =
      RuleKeys.yang.find first.active.snapshot.data.tree operation.request.destination →
    (applyDuplicateOperation deps service.model last.active operation).result =
      some (.ok (.idempotent last.active.snapshot.generation last.active.snapshot.data.tag))
  rejected : (∀ tree, expectedDuplicateTree deps service.model last.active.snapshot
        operation.request operation.instances = .ok tree →
      RuleKeys.yang.find tree operation.request.destination ≠
        RuleKeys.yang.find last.active.snapshot.data.tree operation.request.destination) →
    ∃ error, (applyDuplicateOperation deps service.model last.active operation).result =
      some (.error error)

theorem Installed.run {service : InspectionService} {state : BackendState}
    {destination : RuleSelector}
    (hstated : LoadsStatedRules deps state.active.recipe.sidJson)
    (hseparated : LoadsSeparated deps state.active.recipe.sidJson)
    (stores : SetsLeaves deps state.active.recipe.sidJson put)
    (laws : DatastoreLaws deps state.active.recipe.sidJson)
    (hmodel : deps.rustconf.coreconfModel state.active.recipe.sidJson = .ok service.model)
    (hmanagement : ManagementLaws deps service.handler)
    (hsound : ActiveContext.Sound deps initial state.active)
    (h : Installed deps service.model destination state.active)
    (hdatagrams : ∀ op ∈ operations, op.IsDatagram) :
    Installed deps service.model destination (service.operate deps state operations).active := by
  induction operations generalizing state with
  | nil => exact h
  | cons op rest ih =>
    have hwrites := service.operation_writes deps state op
    have hnext := h.step hstated hseparated stores laws hmodel hsound
      (InspectionService.operation_serviceWrites hmanagement state
        (hdatagrams op List.mem_cons_self))
    rw [← hwrites.recipe_eq] at hstated hseparated stores laws hmodel
    exact ih hstated hseparated stores laws hmodel (hwrites.sound hsound) hnext
      fun other hother => hdatagrams other (List.mem_cons_of_mem op hother)

/-- Delivering an applied duplicate-rule datagram again, after any management datagrams. -/
theorem duplicate_replay {recipe : ContextRecipe}
    {service : InspectionService} {state : BackendState}
    (hstated : LoadsStatedRules deps recipe.sidJson)
    (hseparated : LoadsSeparated deps recipe.sidJson) (stores : SetsLeaves deps recipe.sidJson put)
    (laws : DatastoreLaws deps recipe.sidJson) (haccepts : AcceptsRules deps recipe.sidJson)
    (hmodel : deps.rustconf.coreconfModel recipe.sidJson = .ok service.model)
    (hmanagement : ManagementLaws deps service.handler)
    (hreached : Reached deps recipe source prepared state.active)
    (hreads : ReadsDuplicate deps service datagram operation)
    (happlied : (applyDuplicateOperation deps service.model state.active operation).result =
      some (.ok (.applied generation tag)))
    (hdatagrams : ∀ op ∈ operations, op.IsDatagram) :
    Replays deps service datagram operation
      (service.handleDatagramNoResponse deps state datagram).state
      (service.operate deps (service.handleDatagramNoResponse deps state datagram).state
        operations) := by
  have hbefore := hreached.sound
  rw [← hreached.sidJson] at hstated hseparated stores laws haccepts hmodel
  rcases applyDuplicateOperation_cases deps service.model state.active operation with
    ⟨hnone, -⟩ | ⟨-, hreplay⟩ | ⟨active', happlies, heq⟩
  · exact absurd happlied (hnone _)
  · simp [hreplay] at happlied
  have hfirst : (service.handleDatagramNoResponse deps state datagram).state =
      { state with active := active' } := by
    have hhandled := hreads.handles state
    simp only [HandlesDuplicate, heq] at hhandled
    exact congrArg Outcome.state hhandled
  rw [hfirst]
  generalize hrun : service.operate deps { state with active := active' } operations = last
  obtain ⟨_, -, hpublish⟩ := happlies.publishes
  have hrecipe : active'.recipe = state.active.recipe := hpublish.recipe_eq
  have hsound := ActiveContext.sound_publishes hbefore hpublish
  have hwrites : WritesAll deps active' last.active :=
    hrun ▸ service.operate_writes deps { state with active := active' } operations
  have hinstalled : Installed deps service.model operation.request.destination last.active := by
    have hnew := Installed.of_applied hstated hseparated stores laws hmodel hbefore happlies
    rw [← hrecipe] at hstated hseparated stores laws hmodel
    rw [← hrun]
    exact Installed.run hstated hseparated stores laws hmodel hmanagement hsound hnew hdatagrams
  refine ⟨hreads.handles last, fun n => ?_, fun hsource hdestination => ?_, fun hdiffers => ?_⟩
  · have hhandled := hreads.handles last
    have hsame : (service.handleDatagramNoResponse deps last datagram).state = last := by
      rcases hinstalled.applyDuplicateOperation with ⟨-, heq⟩ | ⟨-, error, heq⟩ <;>
      · simp only [HandlesDuplicate, heq] at hhandled
        rw [hhandled]
    induction n with
    | zero => rfl
    | succ n ih =>
      rw [List.replicate_succ, InspectionService.operate, Runs.run_cons]
      simp only [InspectionService.operation, hsame]
      exact ih
  · have hreplay := duplicateReplay_of_same hstated hseparated stores laws haccepts hmodel hbefore
      happlies (hwrites.sound hsound) (hwrites.recipe_eq.trans hrecipe)
        hinstalled hsource hdestination
    rw [applyDuplicateOperation_replay hreplay]
  · rcases hinstalled.applyDuplicateOperation with ⟨hreplay, -⟩ | ⟨-, error, heq⟩
    · obtain ⟨tree, expectedRule, _, haccepted, -, existingRule, hfound, hsame⟩ := hreplay
      refine absurd ?_ (hdiffers tree haccepted.expected)
      have hexisting := findTreeRule_yang (stores.names hmodel) hfound
      have hlast := hwrites.sound hsound
      have hfree := hlast.current.floatFree
        (hwrites.recipe_eq.trans hrecipe ▸ stores.floatFree)
      obtain rfl : expectedRule = existingRule :=
        (RuleKeys.floatFree_of_find hfree hexisting.symm).zeroFree.eq_of_beq (Json.beq_symm hsame)
      rw [RuleKeys.find, ← findTreeRule_yang (stores.names hmodel) haccepted.constructed,
        RuleKeys.find, ← hexisting]
    · exact ⟨error, by rw [heq]⟩

section
open Fixture

theorem duplicateDatagram_read :
    ReadsDuplicate (deps duplicateWorld) (service duplicateWorld) duplicateDatagram
      duplicateOperation :=
  ⟨duplicatePacket, by decide +kernel, by decide +kernel, by decide +kernel⟩

theorem duplicate_replay_copied : ∃ first last : BackendState,
    first.active.snapshot.data.tree = tree rulesCopied ∧
    Replays (deps duplicateWorld) (service duplicateWorld) duplicateDatagram
      duplicateOperation first last := by
  obtain ⟨prepared, hprepared, heval⟩ := holds_iff.mp duplicated_evaluated
  simp only [Bool.and_eq_true, decide_eq_true_eq] at heval
  obtain ⟨⟨-, happlied⟩, hafter⟩ := heval
  obtain ⟨tag, htag⟩ := Option.isSome_iff_exists.mp happlied
  have hdatagrams :
      ∀ op ∈ [Operation.datagramNoResponse duplicateDatagram, .datagram patchDatagram],
      op.IsDatagram := by simp [Operation.IsDatagram]
  have hhandled : (service duplicateWorld).handleDatagramNoResponse (deps duplicateWorld)
      (start prepared) duplicateDatagram = _ := duplicateDatagram_read.handles (start prepared)
  have hreached : Reached (deps duplicateWorld) recipe (.sor (sorBytes rulesBefore)) prepared
      (start prepared).active := Reached.of_loaded hprepared []
  refine ⟨_, _, ?_, duplicate_replay (loadsStatedRules duplicateWorld_checked)
    duplicateWorld_separated setsLeaves datastoreLaws acceptsRules rfl
    managementLaws hreached duplicateDatagram_read (appliedAs_some htag) hdatagrams⟩
  rw [hhandled]
  exact hafter

end

end SchcCoreconf
