import SchcCoreconf.AllocationRuns
import SchcCoreconf.Base64Machine
import SchcCoreconf.DuplicateExchange
import SchcCoreconf.Fixture.Plans
import SchcCoreconf.Reloading
import SchcCoreconf.RpcRoundTrip

/-!
# Proposed duplicates are applied

Before it proposes a duplicate, the planner encodes the request, reads it back, builds
the tree, loads it, and sends the packet in what it loaded. What it leaves to the
application are the destination, which the allocator chose, and the protected rules,
which a new rule leaves alone. So a proposed duplicate is applied where it was planned.
-/

namespace SchcCoreconf

open Fallible
open SnapshotReads (ofResult attempt)

-- ---------------------------------------------------------------------------
-- Runs
-- ---------------------------------------------------------------------------

theorem toOption_eq_some {x : Except ε α} : x.toOption = some a ↔ x = .ok a := by
  cases x <;> simp [Except.toOption]

namespace SnapshotReads

@[simp] theorem alone_pure (snapshot : ContextSnapshot) (a : α) :
    (pure a : SnapshotReads α).alone snapshot = .ok a := rfl

@[simp] theorem alone_attempt (snapshot : ContextSnapshot) (x : SnapshotReads α) :
    (attempt x).alone snapshot = .ok (x.alone snapshot).toOption := by
  show Loads.alone snapshot (x.run >>= fun result => pure (Except.ok result.toOption)) = _
  rw [Loads.alone_bind]
  rfl

/-- The computation may return this, where every load finds one of these snapshots. -/
def MayReturn (found : ContextSnapshot → Prop) (x : SnapshotReads α) (a : α) : Prop :=
  Loads.MayAnswer found x.run (.ok a)

variable {found : ContextSnapshot → Prop}

@[simp] theorem mayReturn_pure : MayReturn found (pure a) b ↔ a = b := by
  show Loads.MayAnswer found (pure (Except.ok a)) _ ↔ _
  rw [Loads.mayAnswer_pure, Except.ok.injEq]

@[simp] theorem mayReturn_ofResult {x : Except InspectionError α} :
    MayReturn found (ofResult x) a ↔ x = .ok a := by
  show Loads.MayAnswer found (pure x) _ ↔ _
  rw [Loads.mayAnswer_pure]

@[simp] theorem mayReturn_load : MayReturn found loadSnapshot snapshot ↔ found snapshot := by
  show Loads.MayAnswer found (Loads.current >>= fun value => pure (Except.ok value)) _ ↔ _
  simp [Loads.mayAnswer_bind]

theorem mayReturn_bind {x : SnapshotReads α} {f : α → SnapshotReads β} :
    MayReturn found (x >>= f) b ↔ ∃ a, MayReturn found x a ∧ MayReturn found (f a) b := by
  show Loads.MayAnswer found (x >>= f).run _ ↔ _
  rw [ExceptT.run_bind, Loads.mayAnswer_bind]
  constructor
  · rintro ⟨error | a, hx, hf⟩
    · cases Loads.mayAnswer_pure.mp hf
    · exact ⟨a, hx, hf⟩
  · rintro ⟨a, hx, hf⟩
    exact ⟨.ok a, hx, hf⟩

@[simp] theorem mayReturn_attempt {x : SnapshotReads α} :
    MayReturn found (attempt x) (some a) ↔ MayReturn found x a := by
  show Loads.MayAnswer found (x.run >>= fun result => pure (Except.ok result.toOption)) _ ↔ _
  rw [Loads.mayAnswer_bind]
  constructor
  · rintro ⟨result, hx, hresult⟩
    have hresult := Except.ok.inj (Loads.mayAnswer_pure.mp hresult)
    rwa [toOption_eq_some.mp hresult] at hx
  · intro hx
    exact ⟨.ok a, hx, Loads.mayAnswer_pure.mpr rfl⟩

theorem mayReturn_alone {x : SnapshotReads α} :
    MayReturn (· = snapshot) x a ↔ x.alone snapshot = .ok a :=
  Loads.mayAnswer_alone

end SnapshotReads

open SnapshotReads (MayReturn mayReturn_alone)

-- ---------------------------------------------------------------------------
-- Candidates
-- ---------------------------------------------------------------------------

/-- The payload makes a context of the snapshot in which the packet can be sent. -/
def TriedOut (deps : Deps) (service : InspectionService) (recipe : ContextRecipe)
    (snapshot : ContextSnapshot) (packet : Ipv6UdpPacket)
    (direction : FlowDirection) (payload : Bytes) :
    Prop :=
  ∃ prepared, InspectionService.candidateContext deps service recipe snapshot
    payload = some prepared ∧ InspectionService.candidateEncodes deps
      prepared packet direction = true

/-- The request duplicates a parent of the snapshot for the packet: it can be sent, and in the
context it makes of the snapshot the packet can be sent too. -/
structure Duplicates (deps : Deps) (service : InspectionService) (recipe : ContextRecipe)
    (found : ContextSnapshot → Prop) (snapshot : ContextSnapshot) (packet : Ipv6UdpPacket)
    (direction : FlowDirection) (destinationId : RuleId) (parent : Rule)
    (candidate : InspectionService.FlowChangeCandidate) : Prop where
  isParent : InspectionService.isFlowParent snapshot parent = true
  source : RuleSelector.new parent.id.value parent.id.bitLen = .ok candidate.request.source
  destination : RuleSelector.new destinationId.value destinationId.bitLen =
    .ok candidate.request.destination
  overrides : flowOverrides deps.rschc parent packet direction =
    .ok (some candidate.request.overrides)
  differs : candidate.request.overrides ≠ []
  wireBytes : MayReturn found (service.duplicateRuleWireBytes deps recipe candidate.request)
    candidate.managementWireBytes
  encodes : ∃ payload, MayReturn found
    (service.duplicateRulePayload deps candidate.request) payload ∧
    TriedOut deps service recipe snapshot packet direction payload

section
variable {deps : Deps} {service : InspectionService} {recipe : ContextRecipe}
  {found : ContextSnapshot → Prop} {snapshot : ContextSnapshot} {packet : Ipv6UdpPacket}
  {direction : FlowDirection} {destinationId : RuleId}
  {parent : Rule} {candidate : InspectionService.FlowChangeCandidate}

theorem planCandidate_some (h : MayReturn found
    (InspectionService.planCandidate deps service recipe snapshot packet
      direction destinationId parent) (some candidate)) :
    Duplicates deps service recipe found snapshot packet direction
      destinationId parent candidate := by
  unfold InspectionService.planCandidate at h
  split at h
  · simp at h
  · next hparent =>
    simp only [SnapshotReads.mayReturn_bind, SnapshotReads.mayReturn_ofResult] at h
    obtain ⟨overridden, hoverrides, h⟩ := h
    split at h
    · next overrides =>
      simp only [SnapshotReads.mayReturn_bind, SnapshotReads.mayReturn_ofResult] at h
      obtain ⟨source, hsource, h⟩ := h
      split at h
      · simp at h
      · next hdiffers =>
        simp only [SnapshotReads.mayReturn_bind, SnapshotReads.mayReturn_ofResult] at h
        obtain ⟨destination, hdestination, wireBytes | wireBytes, hwire, h⟩ := h
        · simp at h
        · simp only [SnapshotReads.mayReturn_bind] at h
          obtain ⟨payload | payload, hpayload, h⟩ := h
          · simp at h
          · simp only at h
            split at h
            · next hencodes =>
              cases Option.some.inj (SnapshotReads.mayReturn_pure.mp h)
              obtain ⟨prepared, hprepared, htried⟩ := (Option.any_eq_true ..).mp hencodes
              exact ⟨by simpa using hparent, hsource, hdestination,
                hoverrides, by simpa using hdiffers,
                SnapshotReads.mayReturn_attempt.mp hwire, payload,
                SnapshotReads.mayReturn_attempt.mp hpayload, prepared, hprepared, htried⟩
            · simp at h
    · simp at h

theorem Duplicates.planned
    (h : Duplicates deps service recipe (· = snapshot) snapshot packet direction
      destinationId parent candidate) :
    (InspectionService.planCandidate deps service recipe snapshot packet direction destinationId
      parent).alone snapshot = .ok (some candidate) := by
  obtain ⟨⟨source, destination, overrides⟩, wireBytes⟩ := candidate
  obtain ⟨payload, hpayload, prepared, hprepared, htried⟩ := h.encodes
  have hdiffers : overrides.isEmpty = false := by simpa using h.differs
  simp only [InspectionService.planCandidate, h.isParent, Bool.not_true,
    Bool.false_eq_true, if_false, SnapshotReads.alone_bind, SnapshotReads.alone_ofResult,
    h.overrides, h.source, h.destination, ok_bind, hdiffers, SnapshotReads.alone_attempt,
    mayReturn_alone.mp h.wireBytes, mayReturn_alone.mp hpayload, Except.toOption, hprepared,
    Option.any_some, htried, if_true, SnapshotReads.alone_pure]

theorem planCandidate_ok {result : Option InspectionService.FlowChangeCandidate}
    (h : (InspectionService.planCandidate deps service recipe snapshot
      packet direction destinationId parent).alone snapshot = .ok result) :
    result = some candidate ↔
      Duplicates deps service recipe (· = snapshot) snapshot packet direction
        destinationId parent candidate := by
  constructor
  · rintro rfl
    exact planCandidate_some (mayReturn_alone.mpr h)
  · intro hduplicates
    exact Except.ok.inj (h.symm.trans hduplicates.planned)

theorem planCandidates_ok {parents : List Rule}
    {candidates : List InspectionService.FlowChangeCandidate}
    (h : (InspectionService.planCandidates deps service recipe snapshot
      packet direction destinationId parents).alone snapshot = .ok candidates) :
    candidate ∈ candidates ↔ ∃ parent ∈ parents,
      Duplicates deps service recipe (· = snapshot) snapshot packet direction
        destinationId parent candidate := by
  induction parents generalizing candidates with
  | nil =>
    cases h
    simp
  | cons parent rest ih =>
    simp only [InspectionService.planCandidates, SnapshotReads.alone_bind,
      SnapshotReads.alone_pure, bind_ok, Except.ok.injEq] at h
    obtain ⟨first, hfirst, others, hothers, rfl⟩ := h
    rw [List.mem_append, Option.mem_toList, ih hothers, List.exists_mem_cons_iff]
    exact or_congr (planCandidate_ok hfirst) Iff.rfl

structure Cheapest (deps : Deps) (service : InspectionService) (recipe : ContextRecipe)
    (snapshot : ContextSnapshot) (packet : Ipv6UdpPacket) (direction : FlowDirection)
    (destinationId : RuleId) (candidate : InspectionService.FlowChangeCandidate) : Prop where
  duplicates : ∃ parent ∈ snapshot.data.rules,
    Duplicates deps service recipe (· = snapshot) snapshot packet direction
      destinationId parent candidate
  least : ∀ parent ∈ snapshot.data.rules, ∀ other,
    Duplicates deps service recipe (· = snapshot) snapshot packet direction
      destinationId parent other → candidate.rank ≤ other.rank

/-- A proposed duplicate is the cheapest that makes the first free RuleID of the namespace. -/
theorem flowChange_duplicate {source : RuleSelector} {request : RuleDuplicateRequest}
    (h : (service.flowChange deps recipe packet direction).alone snapshot =
      .ok (.duplicate source request)) :
    ∃ ns destinationId managementWireBytes, snapshot.dynamicRuleIds = some ns ∧
      ns.allocate snapshot.occupied = .ok destinationId ∧ source = request.source ∧
      Cheapest deps service recipe snapshot packet direction destinationId
        { request, managementWireBytes } := by
  simp only [InspectionService.flowChange, SnapshotReads.alone_bind,
    SnapshotReads.alone_loadSnapshot, bind_ok, Except.ok.injEq, exists_eq_left'] at h
  split at h
  · cases h
  · next ns hns =>
    simp only [InspectionService.flowChangeImpl, SnapshotReads.alone_bind,
      SnapshotReads.alone_loadSnapshot, bind_ok, Except.ok.injEq, exists_eq_left'] at h
    obtain ⟨existing, -, h⟩ := h
    split at h
    · cases h
    · simp only [SnapshotReads.alone_bind, SnapshotReads.alone_ofResult, bind_ok, mapError_ok] at h
      obtain ⟨destinationId, hallocate, candidates, hcandidates, h⟩ := h
      split at h
      · cases h
      · next candidate rest hsorted =>
        cases h
        obtain ⟨hmem, hleast⟩ := Sorted.least_of_insertionSort hsorted
        refine ⟨ns, destinationId, candidate.managementWireBytes, hns, hallocate, rfl,
          (planCandidates_ok hcandidates).mp hmem, fun parent hparent other hother => ?_⟩
        exact hleast other ((planCandidates_ok hcandidates).mpr ⟨parent, hparent, hother⟩)

end

-- ---------------------------------------------------------------------------
-- A new rule
-- ---------------------------------------------------------------------------

/-- r-schc finds the first rule of a RuleID. -/
def FindsRules (rschc : RSchc) : Prop :=
  ∀ (context : RuleContext) id, rschc.findRule context id = context.rules.find? (·.id = id)

/-- r-schc loads each rule of a tree from its member of the rule list: its RuleID, and from
the rule-nature whether it is a management rule; it finds rules by their RuleID. -/
structure LoadsMembers (deps : Deps) (sidJson : String) (load : Json → Option Rule) : Prop where
  memberwise : ∀ {model registry tree sor context},
    deps.rustconf.coreconfModel sidJson = .ok model →
    deps.rschc.sidRegistry sidJson = .ok registry →
    EncodedAs deps.ciborium model tree sor → registry.ruleContext sor = .ok context →
      ∃ members, RuleKeys.yang.rules tree = some members ∧
        List.Forall₂ (fun member rule => load member = some rule) members context.rules
  states : ∀ {member rule}, load member = some rule →
    RuleKeys.yang.selects rule.id.selector member = true
  finds : FindsRules deps.rschc
  nature : ∀ {member member' rule rule'}, load member = some rule → load member' = some rule' →
    member.get "rule-nature" = member'.get "rule-nature" →
    (rule.nature = .management ↔ rule'.nature = .management)

theorem ProtectedRules.derive_collect (h : derive rschc context = .ok derived) :
    collect (protectedRule rschc context) (managementIds context) = .ok derived.rules := by
  unfold derive at h
  split at h
  · cases h
  · next hrules =>
    cases h
    exact hrules

theorem ProtectedRules.derive_insert {context context' : RuleContext} {new : Rule}
    (hrules : context.rules = before ++ after) (hrules' : context'.rules = before ++ new :: after)
    (hnature : new.nature ≠ .management) (hnew : ∀ rule ∈ context.rules, rule.id ≠ new.id)
    (hfinds : FindsRules rschc) (h : derive rschc context = .ok derived)
    (h' : derive rschc context' = .ok derived') : derived' = derived := by
  have hids : managementIds context' = managementIds context := by
    refine Sorted.sortDedup_congr fun id => ?_
    simp only [hrules, hrules', List.mem_map, List.mem_filter, List.mem_append,
      List.mem_cons, decide_eq_true_eq]
    constructor
    · rintro ⟨rule, ⟨hmem | rfl | hmem, hmanagement⟩, hid⟩
      · exact ⟨rule, ⟨.inl hmem, hmanagement⟩, hid⟩
      · exact absurd hmanagement hnature
      · exact ⟨rule, ⟨.inr hmem, hmanagement⟩, hid⟩
    · rintro ⟨rule, ⟨hmem | hmem, hmanagement⟩, hid⟩
      · exact ⟨rule, ⟨.inl hmem, hmanagement⟩, hid⟩
      · exact ⟨rule, ⟨.inr (.inr hmem), hmanagement⟩, hid⟩
  have hfind :
      ∀ id ∈ managementIds context, rschc.findRule context' id = rschc.findRule context id := by
    intro id hid
    obtain ⟨rule, hmem, -, rfl⟩ := mem_managementIds.mp hid
    have hne : ¬new.id = rule.id := fun heq => hnew rule hmem heq.symm
    simp [hfinds context, hfinds context', hrules, hrules', List.find?_append, hne]
  have hcollect := derive_collect h'
  rw [hids] at hcollect
  have hrule : ∀ id ∈ managementIds context, protectedRule rschc context' id =
      protectedRule rschc context id := by
    intro id hid
    rw [protectedRule, protectedRule, hfind id hid]
  rw [collect_congr hrule, derive_collect h] at hcollect
  exact ProtectedRules.ext (Except.ok.inj hcollect).symm

-- ---------------------------------------------------------------------------
-- The proposed duplicate
-- ---------------------------------------------------------------------------

def InsertsRule (rules : List Rule) (id : RuleId) (rules' : List Rule) : Prop :=
  ∃ before new after, rules = before ++ after ∧ rules' = before ++ new :: after ∧ new.id = id

theorem forall₂_insert {r : α → β → Prop} (hunique : Relator.RightUnique r)
    (h : List.Forall₂ r (before ++ after) bs) (h' : List.Forall₂ r (before ++ new :: after) bs') :
    ∃ left b right, bs = left ++ right ∧ bs' = left ++ b :: right ∧ r new b := by
  induction before generalizing bs bs' with
  | nil =>
    cases h' with
    | cons hnew hrest => exact ⟨[], _, _, hunique.forall₂ h hrest, rfl, hnew⟩
  | cons a before ih =>
    cases h with
    | cons hfirst hrest =>
      cases h' with
      | cons hfirst' hrest' =>
        obtain ⟨left, b, right, rfl, rfl, hnew⟩ := ih hrest hrest'
        exact ⟨_ :: left, b, right, rfl, by rw [hunique hfirst hfirst', List.cons_append], hnew⟩

theorem PreparedContext.recipe_of_spells {recipe normal : ContextRecipe}
    (hspells : recipe.Spells normal) (h : fromTreeForRecipe deps recipe tree = .ok prepared) :
    prepared.recipe = normal := by
  simp only [fromTreeForRecipe, fromSource, bind_ok] at h
  obtain ⟨loaded, -, h⟩ := h
  exact bindRecipe_of_spells hspells (fromLoaded_data h).2.2

theorem ContextData.Derived.loads {recipe : ContextRecipe} {data : ContextData}
    (hloads : LoadsMembers deps recipe.sidJson load) (h : data.Derived deps recipe)
    (hrules : RuleKeys.yang.rules data.tree = some members) :
    List.Forall₂ (fun member rule => load member = some rule) members data.rules := by
  obtain ⟨model, hmodel, hencoded⟩ := h.encoded
  obtain ⟨registry, context, hregistry, hcontext, heq, -⟩ := h.full
  obtain ⟨members', hmembers, hall⟩ := hloads.memberwise hmodel hregistry hencoded hcontext
  cases hrules.symm.trans hmembers
  exact heq ▸ hall

section
variable {deps : Deps} {put : LeafAddress → Json → Json → Option Json} {load : Json → Option Rule}
  {model : CoreconfModel} {active : ActiveContext} {initial : ProtectedRules}
  {prepared : PreparedContext} {operation : DecodedDuplicateOperation}

/-- A context with the rule of an operation, which is new, has the rules there were and the
new one. -/
theorem inserts_rule (hstated : LoadsStatedRules deps active.recipe.sidJson)
    (hseparated : LoadsSeparated deps active.recipe.sidJson)
    (hloads : LoadsMembers deps active.recipe.sidJson load)
    (stores : SetsLeaves deps active.recipe.sidJson put)
    (hmodel : deps.rustconf.coreconfModel active.recipe.sidJson = .ok model)
    (hsound : ActiveContext.Sound deps initial active) (hrecipe : prepared.recipe = active.recipe)
    (hvalue : operation.request.destination.value < 2 ^ 64)
    (hbits : operation.request.destination.bits < 2 ^ 64)
    (habsent : ∀ rule ∈ active.snapshot.data.rules, rule.id ≠ operation.request.destination.ruleId)
    (hexpected : expectedDuplicateTree deps model active.snapshot operation.request
      operation.instances = .ok tree)
    (hprepared : PreparedContext.fromTreeForRecipe deps active.recipe tree = .ok prepared) :
    (∃ new, findTreeRule tree model.compositeModel operation.request.destination = .ok (some new)) ∧
      InsertsRule active.snapshot.data.rules
        operation.request.destination.ruleId prepared.data.rules ∧
      prepared.data.protectedRules = active.snapshot.data.protectedRules := by
  have hafter := (PreparedContext.fromSource_ok hprepared).1
  rw [hrecipe] at hafter
  have htree := PreparedContext.fromTreeForRecipe_tree stores.floatFree hprepared
  obtain ⟨rules, hrules, hordered, hall⟩ := hsound.current.ordered hstated hseparated
  obtain ⟨source, new, named, hbuilds, rfl⟩ :=
    expectedDuplicateTree_ok stores hmodel hrules hordered
    hvalue hbits hexpected
  obtain ⟨members, hmembers⟩ := RuleKeys.object_of_selects (List.find?_some hbuilds.found)
  have hnew : RuleKeys.yang.selects operation.request.destination new = true := by
    rw [putAll_selects stores hbuilds.built, hmembers]
    exact copyRule_selects hvalue hbits
  obtain ⟨sids, hshape⟩ := hbuilds.shape
  have hfound := RuleKeys.findTreeRule_eq (stores.names hmodel)
    (validateDuplicateModelShape_ok hshape)
      (RuleKeys.yang.setRules active.snapshot.data.tree
      (placeRule .yang operation.request.destination rules new))
    operation.request.destination
  rw [RuleKeys.find, RuleKeys.rules_setRules hrules, Option.bind_some,
    hordered.find?_placeRule hnew] at hfound
  refine ⟨⟨new, hfound⟩, ?_⟩
  obtain ⟨before, after, rfl, hplaced⟩ :=
    hordered.placeRule_new hnew (not_selects_of_absent hall habsent)
  have hlist : RuleKeys.yang.rules prepared.data.tree = some (before ++ new :: after) := by
    rw [htree, RuleKeys.rules_setRules hrules, hplaced]
  -- the rules of both trees are loaded from their members, and all members but one are shared
  have hunique : Relator.RightUnique fun (member : Json) (rule : Rule) => load member = some rule :=
    fun _ _ _ hleft hright => Option.some.inj (hleft.symm.trans hright)
  have hloaded := hsound.current.loads hloads hrules
  obtain ⟨left, rule, right, hcurrent, hcandidate, hrule⟩ :=
    forall₂_insert hunique hloaded (hafter.loads hloads hlist)
  have hruleId : rule.id = operation.request.destination.ruleId :=
    congrArg RuleSelector.ruleId (RuleKeys.selects_unique (hloads.states hrule) hnew)
  have hnature : rule.nature ≠ .management := by
    obtain ⟨typed, htyped, happlication, -⟩ := checkDuplicateRules_ok.mp hbuilds.checks
    obtain ⟨hsource, hselects⟩ := hordered.find?_eq_some.mp hbuilds.found
    obtain ⟨member, hmember, hload⟩ := forall₂_mem_right hloaded (List.mem_of_find?_eq_some htyped)
    have htypedId : typed.id = operation.request.source.ruleId := by
      simpa using List.find?_some htyped
    have hstates : RuleKeys.yang.selects operation.request.source member = true := by
      have hstates := hloads.states hload
      rwa [htypedId] at hstates
    cases hordered.eq_of_selects hmember hsource hstates hselects
    have hident : new.Identified :=
      hafter.identified hstated hlist new (List.mem_append_right before List.mem_cons_self)
    have hcopied := hbuilds.copied stores hident
    exact fun hmanagement => happlication ((hloads.nature hrule hload
      (hcopied.members "rule-nature" (by decide) (by decide) (by decide))).mp hmanagement)
  refine ⟨⟨left, rule, right, hcurrent, hcandidate, hruleId⟩, ?_⟩
  obtain ⟨_, context, -, -, hcontext, hderive, -⟩ := hsound.current.full
  obtain ⟨_, context', -, -, hcontext', hderive', -⟩ := hafter.full
  rw [hcontext] at hcurrent
  rw [hcontext'] at hcandidate
  refine ProtectedRules.derive_insert hcurrent hcandidate hnature (fun other hother => ?_)
    hloads.finds hderive hderive'
  rw [hruleId]
  exact habsent other (hcontext ▸ hother)

theorem DuplicateApplied.of_allocated (hstated : LoadsStatedRules deps active.recipe.sidJson)
    (hseparated : LoadsSeparated deps active.recipe.sidJson)
    (hloads : LoadsMembers deps active.recipe.sidJson load)
    (stores : SetsLeaves deps active.recipe.sidJson put)
    (hmodel : deps.rustconf.coreconfModel active.recipe.sidJson = .ok model)
    (hsound : ActiveContext.Sound deps initial active)
    (hspells : active.recipe.Spells active.recipe)
    (hvalue : operation.request.destination.value < 2 ^ 64)
    (hbits : operation.request.destination.bits < 2 ^ 64)
    (hallocated : AllocatedIn active.snapshot operation.request.destination.ruleId)
    (hgeneration : active.snapshot.generation + 1 < 2 ^ 64)
    (hexpected : expectedDuplicateTree deps model active.snapshot operation.request
      operation.instances = .ok tree)
    (hprepared : PreparedContext.fromTreeForRecipe deps active.recipe tree = .ok prepared) :
    ∃ active', DuplicateApplied deps model active operation active' ∧
    active'.recipe = active.recipe ∧
      active'.snapshot = .fromPrepared prepared (active.snapshot.generation + 1) ∧
      InsertsRule active.snapshot.data.rules
        operation.request.destination.ruleId prepared.data.rules ∧
      prepared.data.protectedRules = active.snapshot.data.protectedRules := by
  have habsent :
      ∀ rule ∈ active.snapshot.data.rules, rule.id ≠ operation.request.destination.ruleId := by
    intro rule hrule hid
    refine hallocated.prefixFree rule.id (List.mem_map_of_mem hrule) ?_
    rw [hid]
    exact RuleId.Overlap.refl
  have hrecipe := PreparedContext.recipe_of_spells hspells hprepared
  obtain ⟨⟨new, hfound⟩, hinserts, hprotected⟩ :=
    inserts_rule hstated hseparated hloads stores hmodel hsound hrecipe
    hvalue hbits habsent hexpected hprepared
  have hvalid : active.validateCandidate deps active.snapshot prepared = .ok () := by
    rw [ActiveContext.validateCandidate_constructed hspells hprepared
      ((PreparedContext.fromSource_ok hprepared).1.floatFree (hrecipe ▸ stores.floatFree)).zeroFree,
      hprotected]
    exact ProtectedRules.enforce_self _
  have hcandidate : active.prepareCandidate deps tree = .ok prepared := by
    simp only [ActiveContext.prepareCandidate, bind_ok, pure_ok]
    exact ⟨prepared, hprepared, (), hvalid, rfl⟩
  obtain ⟨active', hpublish⟩ : ∃ active', active.publishLocked prepared = some active' :=
    ⟨_, if_pos hgeneration⟩
  have haccepted : DuplicateAccepted deps model active operation tree new prepared :=
    ⟨hexpected, hallocated.accepted _ rfl, hfound, hcandidate⟩
  refine ⟨active', ⟨tree, new, prepared, haccepted, habsent, hpublish⟩, ?_,
    ?_, hinserts, hprotected⟩
  · rw [(ActiveContext.publishLocked_eq_some hpublish).2]
  · rw [(ActiveContext.publishLocked_eq_some hpublish).2]
    rfl

end

-- ---------------------------------------------------------------------------
-- From the plan to the application
-- ---------------------------------------------------------------------------

/-- The second context is the first with a rule for the packet, one publication later. -/
structure CarriesFlow (deps : Deps) (active : ActiveContext) (packet : Ipv6UdpPacket)
    (direction : FlowDirection) (request : RuleDuplicateRequest) (active' : ActiveContext) :
    Prop where
  generation : active'.snapshot.generation = active.snapshot.generation + 1
  rules : InsertsRule active.snapshot.data.rules request.destination.ruleId
    active'.snapshot.data.rules
  protectedRules : active'.snapshot.data.protectedRules = active.snapshot.data.protectedRules
  encodes : ((SchcLink.new active' direction.linkRole).encodeBytes deps active' .application
    packet.bytes).isOk = true

section
variable {deps : Deps} {service : InspectionService} {snapshot : ContextSnapshot}
  {request : RuleDuplicateRequest} {found : ContextSnapshot → Prop}

theorem duplicateRulePayload_ok (h : MayReturn found
    (service.duplicateRulePayload deps request) payload) :
    ∃ inner, encodeDuplicateRpcPayload deps service.model request inner = .ok payload := by
  simp only [InspectionService.duplicateRulePayload, SnapshotReads.mayReturn_bind,
    SnapshotReads.mayReturn_load, SnapshotReads.mayReturn_ofResult, bind_ok] at h
  obtain ⟨_, -, inner, -, hencoded⟩ := h
  exact ⟨inner, hencoded⟩

theorem duplicateRuleDatagram_ok (htrip : RequestsRoundTrip deps.coap) (hid : messageId < 2 ^ 16)
    (h : (service.duplicateRuleDatagram deps request messageId).alone snapshot = .ok datagram) :
    ∃ payload, (service.duplicateRulePayload deps request).alone snapshot = .ok payload ∧
      deps.coap.fromBytes datagram = .ok (duplicateRulePacket deps.coap messageId payload) := by
  simp only [InspectionService.duplicateRuleDatagram, SnapshotReads.alone_bind,
    SnapshotReads.alone_ofResult, bind_ok, mapError_ok] at h
  obtain ⟨payload, hpayload, hbytes⟩ := h
  exact ⟨payload, hpayload, htrip.read
    (duplicateRulePacket_serializable htrip.added payload hid) hbytes⟩

theorem candidateContext_some {recipe : ContextRecipe}
    (h : InspectionService.candidateContext deps service recipe snapshot payload = some prepared) :
    ∃ operation tree, decodeDuplicateOperation deps service.model payload = .ok operation ∧
      expectedDuplicateTree deps service.model snapshot operation.request
        operation.instances = .ok tree ∧
      PreparedContext.fromTreeForRecipe deps recipe tree = .ok prepared := by
  simp only [InspectionService.candidateContext, Option.bind_eq_bind,
    Option.bind_eq_some_iff, toOption_eq_some] at h
  obtain ⟨operation, hoperation, tree, htree, hprepared⟩ := h
  exact ⟨operation, tree, hoperation, htree, hprepared⟩

theorem classify_congr {left right : ContextSnapshot}
    (h : left.data = right.data) (ruleId : RuleId) :
    classify left ruleId = classify right ruleId := by
  unfold classify ContextSnapshot.containsApplicationRuleId
  rw [h]

theorem encodeBytes_isOk {left right : ActiveContext} {packet : Bytes} (role : NodeRole)
    (h : left.snapshot.data = right.snapshot.data) :
    ((SchcLink.new left role).encodeBytes deps left .application packet).isOk =
      ((SchcLink.new right role).encodeBytes deps right .application packet).isOk := by
  simp only [SchcLink.encodeBytes, SchcLink.encodeValidated, SchcLink.new, h]
  cases deps.rschc.parsePacket packet with
  | error error => rfl
  | ok parsed =>
    simp only [Except.mapError, ok_bind]
    cases right.snapshot.data.applicationRuntime.encodeDetailed right.snapshot.data.runtime.deviceId
        (Leg.outbound role) parsed.bytes with
    | error error => rfl
    | ok encoded =>
      simp only [ok_bind, classify_congr h]
      cases classify right.snapshot encoded.ruleId with
      | error error => rfl
      | ok trafficClass =>
        simp only [ok_bind]
        cases enforceOrigin .application encoded.ruleId trafficClass <;> rfl

end

/-- What is known of the crates where a flow is planned. -/
structure PlansFlows (deps : Deps) (sidJson : String)
    (put : LeafAddress → Json → Json → Option Json)
    (load : Json → Option Rule) (decodeMember : Cbor × Cbor → Option Instance) : Prop where
  stated : LoadsStatedRules deps sidJson
  separated : LoadsSeparated deps sidJson
  explicit : LoadsExplicit deps sidJson
  loads : LoadsMembers deps sidJson load
  stores : SetsLeaves deps sidJson put
  reads : ReadsOperations deps sidJson decodeMember

section
variable {deps : Deps} {service : InspectionService} {request : RuleDuplicateRequest}
  {recipe : ContextRecipe} {put : LeafAddress → Json → Json → Option Json}
  {load : Json → Option Rule} {decodeMember : Cbor × Cbor → Option Instance}
  {active : ActiveContext} {found : ContextSnapshot → Prop}
  {packet : Ipv6UdpPacket} {direction : FlowDirection} {destinationId : RuleId} {parent : Rule}
  {candidate : InspectionService.FlowChangeCandidate}

/-- What the planner tries out on a snapshot is applied on it. -/
theorem Duplicates.applies (laws : PlansFlows deps active.recipe.sidJson put load decodeMember)
    (hmodel : deps.rustconf.coreconfModel active.recipe.sidJson = .ok service.model)
    (hsound : ActiveContext.Sound deps initial active)
    (hspells : active.recipe.Spells active.recipe)
    (hgeneration : active.snapshot.generation + 1 < 2 ^ 64)
    (hns : active.snapshot.dynamicRuleIds = some ns)
    (hallocate : ns.allocate active.snapshot.occupied = .ok destinationId)
    (h : Duplicates deps service active.recipe found active.snapshot packet direction
      destinationId parent candidate)
    (hencoded : (service.duplicateRulePayload deps candidate.request).alone encodedOn = .ok payload)
    (htried : TriedOut deps service active.recipe active.snapshot packet direction payload) :
    ∃ operation active', decodeDuplicateOperation deps service.model payload = .ok operation ∧
      DuplicateApplied deps service.model active operation active' ∧
      CarriesFlow deps active packet direction candidate.request active' := by
  have hprofile := hsound.current_profile.symm.trans hns
  have hallocated := AllocatedIn.of_allocate hsound.current laws.explicit hprofile hns hallocate
  have hleast := (hsound.current.allocatable laws.explicit hprofile).allocate_ok hallocate
  obtain ⟨prepared, hcandidate, hencodes⟩ := htried
  obtain ⟨operation, tree, hoperation, hexpected, hprepared⟩ := candidateContext_some hcandidate
  obtain ⟨inner, hencoded⟩ := duplicateRulePayload_ok (mayReturn_alone.mpr hencoded)
  obtain ⟨hdestination, -, hdestinationBits⟩ := RuleSelector.new_ok h.destination
  obtain ⟨hsource, -, hsourceBits⟩ := RuleSelector.new_ok h.source
  have hid : candidate.request.destination.ruleId = destinationId :=
    congrArg RuleSelector.ruleId hdestination
  have hbits : candidate.request.destination.bits ≤ 64 :=
    (congrArg RuleSelector.bits hdestination).trans_le hdestinationBits
  have hsourceBits : candidate.request.source.bits ≤ 64 :=
    (congrArg RuleSelector.bits hsource).trans_le hsourceBits
  obtain ⟨-, hsame⟩ := decodeDuplicateOperation_selectors laws.reads hmodel hsourceBits
    hbits hencoded hoperation
  have hfits : candidate.request.destination.value < 2 ^ 64 := by
    obtain ⟨-, ⟨-, hlength, hvalue⟩, -⟩ := hleast.1.1
    rw [← hid] at hlength hvalue
    exact hvalue.trans_le (Nat.pow_le_pow_right (by decide) (hlength.trans (by decide)))
  rw [← hid, ← hsame] at hallocated
  rw [← hsame] at hfits hbits
  obtain ⟨active', happlied, hrecipe, hsnapshot, hinserts, hprotected⟩ :=
    DuplicateApplied.of_allocated laws.stated laws.separated laws.loads laws.stores hmodel hsound
      hspells hfits (hbits.trans_lt (by decide)) hallocated
    hgeneration hexpected hprepared
  rw [hsame] at hinserts
  refine ⟨operation, active', hoperation, happlied, ?_, ?_, ?_, ?_⟩
  · rw [hsnapshot]
    rfl
  · rw [hsnapshot]
    exact hinserts
  · rw [hsnapshot]
    exact hprotected
  · have hdata : active'.snapshot.data = (ActiveContext.new prepared).snapshot.data := by
      rw [hsnapshot]
      rfl
    rw [encodeBytes_isOk direction.linkRole hdata]
    exact hencodes

structure Proposed (deps : Deps) (service : InspectionService) (active : ActiveContext)
    (packet : Ipv6UdpPacket) (direction : FlowDirection) (request : RuleDuplicateRequest) :
    Prop where
  least : ∃ ns, active.recipe.dynamicRuleIds = some ns ∧
    IsLeast (ns.freeLeaves active.snapshot.occupied) request.destination.ruleId
  cheapest : ∃ managementWireBytes, Cheapest deps service active.recipe
    active.snapshot packet direction request.destination.ruleId { request, managementWireBytes }

/-- The datagram of the request, under any message ID, is handled by taking up this context. -/
def DatagramApplies (deps : Deps) (service : InspectionService) (state : BackendState)
    (request : RuleDuplicateRequest) (active' : ActiveContext) : Prop :=
  ∀ messageId datagram, messageId < 2 ^ 16 →
    (service.duplicateRuleDatagram deps request messageId).alone
      state.active.snapshot = .ok datagram → service.handleDatagramNoResponse deps state datagram =
        { result := some (.ok none), state := { state with active := active' } }

/-- What the planner proposes is applied where it was planned. -/
theorem proposed_duplicate_applies {state : BackendState} {source : RuleSelector}
    (laws : PlansFlows deps recipe.sidJson put load decodeMember)
    (htrip : RequestsRoundTrip deps.coap)
    (hmodel : deps.rustconf.coreconfModel recipe.sidJson = .ok service.model)
    (hreached : Reached deps recipe origin prepared state.active)
    (hgeneration : state.active.snapshot.generation + 1 < 2 ^ 64)
    (hplanned : (service.flowChange deps state.active.recipe packet direction).alone
      state.active.snapshot = .ok (.duplicate source request)) :
    source = request.source ∧ Proposed deps service state.active packet direction request ∧
      ∃ active', DatagramApplies deps service state request active' ∧
        CarriesFlow deps state.active packet direction request active' := by
  rw [← hreached.sidJson] at laws hmodel
  obtain ⟨ns, destinationId, wireBytes, hns, hallocate, rfl, hcheapest⟩ :=
    flowChange_duplicate hplanned
  have hprofile := hreached.sound.current_profile.symm.trans hns
  have hleast := (hreached.sound.current.allocatable laws.explicit hprofile).allocate_ok hallocate
  obtain ⟨rule, -, hduplicates⟩ := hcheapest.duplicates
  have hid : request.destination.ruleId = destinationId :=
    congrArg RuleSelector.ruleId (RuleSelector.new_ok hduplicates.destination).1
  obtain ⟨payload, hpayload, htried⟩ := hduplicates.encodes
  obtain ⟨operation, active', hoperation, happlied, hcarries⟩ := hduplicates.applies laws hmodel
    hreached.sound hreached.spells.self hgeneration hns hallocate
      (mayReturn_alone.mp hpayload) htried
  subst hid
  refine ⟨rfl, ⟨⟨ns, hprofile, hleast⟩, wireBytes, hcheapest⟩, active', ?_, hcarries⟩
  intro messageId datagram hlt hdatagram
  obtain ⟨written, hwritten, hread⟩ := duplicateRuleDatagram_ok htrip hlt hdatagram
  cases (mayReturn_alone.mp hpayload).symm.trans hwritten
  have hhandles : HandlesDuplicate deps service state datagram operation :=
    ReadsDuplicate.handles ⟨_, hread, duplicateRulePacket_shape htrip.added messageId payload,
      by rw [duplicateRulePacket_payload htrip.added, hoperation]⟩ state
  simp only [HandlesDuplicate, happlied.outcome] at hhandles
  exact hhandles

end

section
open Fixture

variable {world : World}

def loadMember (world : World) (member : Json) : Option Rule :=
  world.complete.flatten.find? (ruleJson · = member)

theorem loadMember_some (h : loadMember world member = some rule) :
    ruleJson rule = member ∧ rule ∈ world.contexts.flatten := by
  refine ⟨by simpa using List.find?_some h, ?_⟩
  obtain ⟨rules, hrules, hrule⟩ := List.mem_flatten.mp (List.mem_of_find?_eq_some h)
  exact List.mem_flatten.mpr ⟨rules, mem_contexts hrules, hrule⟩

theorem loadsMembers (h : world.Checked)
    (hmembers : ∀ rule ∈ world.complete.flatten, loadMember world (ruleJson rule) = some rule) :
    LoadsMembers (deps world) sidText (loadMember world) where
  memberwise hmodel hregistry hencoded hcontext := by
    cases coreconfModel_ok hmodel
    rw [sidRegistry_ok hregistry] at hcontext
    obtain ⟨rules, hrules, rfl, rfl⟩ := encodedAs_ok hencoded
    obtain ⟨hmem, hbytes⟩ := ruleContext_ok hcontext
    refine ⟨_, rules_tree rules, ?_⟩
    rw [h.context_eq hmem (mem_contexts hrules) hbytes, List.forall₂_map_left_iff]
    exact List.forall₂_same.mpr fun rule hrule =>
      hmembers rule (List.mem_flatten.mpr ⟨rules, hrules, hrule⟩)
  finds _ _ := rfl
  states hload := by
    obtain ⟨rfl, hmem⟩ := loadMember_some hload
    exact selects_ruleJson (h.explicit _ hmem)
  nature {member member' rule rule'} hload hload' hsame := by
    obtain ⟨rfl, -⟩ := loadMember_some hload
    obtain ⟨rfl, -⟩ := loadMember_some hload'
    have hsame : natureIdentity rule.nature = natureIdentity rule'.nature := by
      simpa [ruleJson, Json.get, Json.lookup, qualified] using hsame
    cases hnature : rule.nature <;> cases hnature' : rule'.nature <;>
      simp [hnature, hnature', natureIdentity] at hsame ⊢

def worldMember (member : Cbor × Cbor) : Option Instance :=
  (identifierInstances (.map [member])).bind List.head?

theorem worldMember_cases {entry : Instance} (h : worldMember member = some entry) :
    (∃ input value, member = (.integer 2906, .map [(.integer 1, .map input)]) ∧
      operationInput input = some value ∧ entry =
        { path := { components := [.sidDelta 2906] },
          value := some (.object [("input", value)]) }) ∨
    ∃ items target path, member = (.array items, .bytes target) ∧ pathComponents items = some path ∧
      entry = { path, value := some (.string (base64Text target)) } := by
  obtain ⟨instances, hinstances, hhead⟩ := Option.bind_eq_some_iff.mp h
  unfold identifierInstances at hinstances
  split at hinstances
  · next input heq =>
    obtain ⟨value, hvalue, hinstances⟩ := Option.bind_eq_some_iff.mp hinstances
    cases hinstances
    cases hhead
    cases heq
    exact .inl ⟨input, value, rfl, hvalue, rfl⟩
  · next entries _ heq =>
    cases heq
    simp only [List.mapM_cons, List.mapM_nil, Option.bind_eq_bind,
      Option.bind_eq_some_iff, Option.pure_def, Option.some.injEq] at hinstances
    obtain ⟨first, hfirst, _, -, rfl⟩ := hinstances
    cases hhead
    unfold targetInstance at hfirst
    split at hfirst
    · next items target _ =>
      obtain ⟨path, hpath, hfirst⟩ := Option.bind_eq_some_iff.mp hfirst
      cases hfirst
      exact .inr ⟨items, target, path, rfl, hpath, rfl⟩
    · cases hfirst
  · cases hinstances

theorem worldMember_operation (h : operationInput input = some value) :
    worldMember (.integer 2906, .map [(.integer 1, .map input)]) = some
        { path := { components := [.sidDelta 2906] },
          value := some (.object [("input", value)]) } := by
  simp [worldMember, identifierInstances, h]

theorem worldMember_target {entry : Instance}
    (h : targetInstance (fun bytes => .string (base64Text bytes)) member = some entry) :
    worldMember member = some entry := by
  have hsplit := h
  unfold targetInstance at hsplit
  split at hsplit
  · simp [worldMember, identifierInstances, h]
  · cases hsplit

theorem identifierInstances_members (h : identifierInstances (.map entries) = some instances) :
    List.Forall₂ (fun member entry => worldMember member = some entry) entries instances := by
  unfold identifierInstances at h
  split at h
  · next input heq =>
    cases heq
    obtain ⟨value, hvalue, h⟩ := Option.bind_eq_some_iff.mp h
    cases h
    exact .cons (worldMember_operation hvalue) .nil
  · next members _ heq =>
    cases heq
    clear * - h
    induction entries generalizing instances with
    | nil =>
      cases h
      exact .nil
    | cons member rest ih =>
      simp only [List.mapM_cons, Option.bind_eq_bind, Option.bind_eq_some_iff, Option.pure_def,
        Option.some.injEq] at h
      obtain ⟨first, hfirst, others, hothers, rfl⟩ := h
      exact .cons (worldMember_target hfirst) (ih hothers)
  · cases h

theorem operationInput_stated (h : operationInput input = some value) :
    (Json.object [("input", value)]).StatedBy (compositeModel world) "/ietf-schc:duplicate-rule"
      (.map [(.integer 1, .map input)]) := by
  unfold operationInput at h
  split at h
  · next source sequence destination =>
    obtain ⟨sourceValue, hsource, h⟩ := Option.bind_eq_some_iff.mp h
    obtain ⟨destinationValue, hdestination, h⟩ := Option.bind_eq_some_iff.mp h
    cases h
    have hfrom :
        sourceValue.StatedBy (compositeModel world) "/ietf-schc:duplicate-rule/input/from" source :=
      selectorObject_stated 2908 hsource (getSid_of (by decide +kernel))
        (getSid_of (by decide +kernel)) (getSid_of (by decide +kernel))
    have hto : destinationValue.StatedBy (compositeModel world)
        "/ietf-schc:duplicate-rule/input/to" destination :=
      selectorObject_stated 2912 hdestination (getSid_of (by decide +kernel))
        (getSid_of (by decide +kernel)) (getSid_of (by decide +kernel))
    rw [Json.StatedBy]
    refine ⟨_, _, rfl, .refl _, ?_⟩
    simp only [Json.MembersStatedBy]
    refine ⟨2906, 2907, _, [], getSid_of (by decide +kernel),
      getSid_of (by decide +kernel), rfl, ?_, rfl⟩
    rw [Json.StatedBy]
    refine ⟨_, _, rfl, .refl _, ?_⟩
    simp only [Json.MembersStatedBy]
    refine ⟨2907, 2908, source, _, getSid_of (by decide +kernel),
      getSid_of (by decide +kernel), rfl, hfrom, 2907, 2911, .bytes sequence, _,
      getSid_of (by decide +kernel), getSid_of (by decide +kernel), rfl, ?_, 2907, 2912,
      destination, _, getSid_of (by decide +kernel), getSid_of (by decide +kernel), rfl, hto, rfl⟩
    rw [Json.StatedBy]
    exact ⟨sequence, rfl, text_eq_iff.mp rfl⟩
  · cases h

theorem readsOperations (h : world.Checked) : ReadsOperations (deps world) sidText worldMember where
  sids hmodel hsid := by
    cases coreconfModel_ok hmodel
    have hmembers : DecodesMembers (costDeps world) sidText decodeMember := decodesMembers_example
    exact hmembers.sids rfl hsid
  members hmodel hwritten hdecoded := by
    cases coreconfModel_ok hmodel
    obtain ⟨hdocument, rfl⟩ := intoWriter_ok hwritten
    have hdecoded : decodeInstances world identifierInstances _ = _ := hdecoded
    simp only [decodeInstances, h.fromReader hdocument, ok_bind, need_ok] at hdecoded
    exact identifierInstances_members hdecoded
  target hmodel hmember hsid hlast := by
    cases coreconfModel_ok hmodel
    have htarget : (compositeModel world).getSid
        "/ietf-schc:schc/rule/entry-universal/target-value/value" = some 2857 :=
      getSid_of (by decide +kernel)
    cases htarget.symm.trans hsid
    rcases worldMember_cases hmember with
      ⟨input, value, rfl, -, rfl⟩ | ⟨items, target, path, rfl, -, rfl⟩
    · exact absurd hlast (by simp [InstancePath.absoluteSids])
    · exact ⟨target, rfl⟩
  operation hmodel hmember hsid hpath hvalue := by
    cases coreconfModel_ok hmodel
    have hrule : (compositeModel world).getSid "/ietf-schc:duplicate-rule" = some 2906 :=
      getSid_of (by decide +kernel)
    cases hrule.symm.trans hsid
    rcases worldMember_cases hmember with
      ⟨input, value, rfl, hinput, rfl⟩ | ⟨items, target, path, rfl, hitems, rfl⟩
    · cases hvalue
      exact ⟨.inl rfl, operationInput_stated hinput⟩
    · unfold pathComponents at hitems
      split at hitems
      · cases hitems
        cases hpath
      · cases hitems
  names hmodel hsid hsid' := by
    cases coreconfModel_ok hmodel
    exact readsRequests.names rfl hsid hsid'

def planRecipe : ContextRecipe := dynamicRecipe

theorem flowPlan_evaluated :
    holds (PreparedContext.fromSource (deps planWorld) planRecipe (.sor (sorBytes flowRules)))
    (fun prepared => holds (parsePacket (flowPacket otherCoreAddress deviceLogicalAddress))
      (fun packet => ((service planWorld).flowChange (deps planWorld)
        prepared.recipe packet .downlink).alone (ContextSnapshot.fromPrepared prepared 1) =
          .ok (.duplicate planRequest.source planRequest))) = true := by
  decide +kernel

theorem plansFlows :
    PlansFlows (deps planWorld) sidText putLeaf (loadMember planWorld) worldMember where
  stated := loadsStatedRules planWorld_checked
  separated := planWorld_separated
  explicit := loadsExplicit planWorld_checked
  loads := loadsMembers planWorld_checked (by decide +kernel)
  stores := setsLeaves
  reads := readsOperations planWorld_checked

/-- The duplicate 64/8 of 20/8 is applied. -/
theorem proposed_duplicate_applies_downlink : ∃ prepared packet active',
    ((service planWorld).flowChange (deps planWorld) prepared.recipe packet .downlink).alone
        (ContextSnapshot.fromPrepared prepared 1) =
          .ok (.duplicate planRequest.source planRequest) ∧
      DatagramApplies (deps planWorld) (service planWorld) (start prepared) planRequest active' ∧
      CarriesFlow (deps planWorld) (start prepared).active packet .downlink
        planRequest active' := by
  obtain ⟨prepared, hprepared, heval⟩ := holds_iff.mp flowPlan_evaluated
  obtain ⟨packet, -, hplanned⟩ := holds_iff.mp heval
  have hplanned := of_decide_eq_true hplanned
  have hreached : Reached (deps planWorld) planRecipe (.sor (sorBytes flowRules)) prepared
      (start prepared).active := .of_source (service planWorld) hprepared
  obtain ⟨-, -, active', happlies, hcarries⟩ :=
    proposed_duplicate_applies plansFlows requestsRoundTrip rfl hreached
    (show 1 + 1 < 2 ^ 64 by decide) hplanned
  exact ⟨prepared, packet, active', hplanned, happlies, hcarries⟩

end

end SchcCoreconf
