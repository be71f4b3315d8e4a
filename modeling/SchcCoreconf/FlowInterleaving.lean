import SchcCoreconf.FlowPlanning

/-!
# Planning among other writers

`flow_change` loads the active snapshot several times, and other writers may publish
between two loads. It takes the namespace from its first load and plans on its second;
the link may select, and the request is encoded, over later ones. What is proposed is
applied on the snapshot of the plan, as the run encoded it.
-/

namespace SchcCoreconf

open Fallible
open SnapshotReads (MayReturn mayReturn_alone ofResult attempt)
open ActiveContext (Writes WritesAll)

-- ---------------------------------------------------------------------------
-- Runs on given loads
-- ---------------------------------------------------------------------------

namespace SnapshotReads

def ReturnsOn (loaded : List ContextSnapshot) (x : SnapshotReads α) (a : α) : Prop :=
  x.run.answer loaded = some (.ok a)

def PerformsOn (part : SnapshotReads β) (found : List ContextSnapshot) (b : β) (x : SnapshotReads α)
    (loaded : List ContextSnapshot) : Prop :=
  Loads.Performs part.run found (.ok b) x.run loaded

variable {loaded : List ContextSnapshot}

theorem ReturnsOn.mayReturn {x : SnapshotReads α} {found : ContextSnapshot → Prop}
    (hloaded : ∀ snapshot ∈ loaded, found snapshot)
    (h : ReturnsOn loaded x a) : MayReturn found x a :=
  Loads.mayAnswer_of_answer hloaded h

@[simp] theorem returnsOn_pure : ReturnsOn loaded (pure a) b ↔ loaded = [] ∧ a = b := by
  show Loads.answer (pure (Except.ok a)) loaded = _ ↔ _
  rw [Loads.answer_pure, Except.ok.injEq]

@[simp] theorem returnsOn_throw {error : InspectionError} :
    ¬ReturnsOn loaded (throw error : SnapshotReads α) a := by
  show ¬Loads.answer (pure (Except.error error)) loaded = _
  rw [Loads.answer_pure]
  rintro ⟨-, ⟨⟩⟩

@[simp] theorem returnsOn_ofResult {x : Except InspectionError α} :
    ReturnsOn loaded (ofResult x) a ↔ loaded = [] ∧ x = .ok a := by
  show Loads.answer (pure x) loaded = _ ↔ _
  rw [Loads.answer_pure]

@[simp] theorem returnsOn_load : ReturnsOn loaded loadSnapshot snapshot ↔ loaded = [snapshot] := by
  show Loads.answer (Loads.current >>= fun value => pure (Except.ok value)) loaded = _ ↔ _
  simp [Loads.answer_bind]

theorem returnsOn_bind {x : SnapshotReads α} {f : α → SnapshotReads β} :
    ReturnsOn loaded (x >>= f) b ↔
      ∃ first rest a, loaded = first ++ rest ∧ ReturnsOn first x a ∧ ReturnsOn rest (f a) b := by
  show Loads.answer (x >>= f).run loaded = _ ↔ _
  rw [ExceptT.run_bind, Loads.answer_bind]
  constructor
  · rintro ⟨first, rest, error | a, hsplit, hx, hf⟩
    · cases (Loads.answer_pure.mp hf).2
    · exact ⟨first, rest, a, hsplit, hx, hf⟩
  · rintro ⟨first, rest, a, hsplit, hx, hf⟩
    exact ⟨first, rest, .ok a, hsplit, hx, hf⟩

@[simp] theorem returnsOn_attempt {x : SnapshotReads α} :
    ReturnsOn loaded (attempt x) (some a) ↔ ReturnsOn loaded x a := by
  show Loads.answer (x.run >>= fun result => pure (Except.ok result.toOption)) loaded = _ ↔ _
  rw [Loads.answer_bind]
  constructor
  · rintro ⟨first, rest, result, rfl, hx, hresult⟩
    obtain ⟨rfl, heq⟩ := Loads.answer_pure.mp hresult
    rw [toOption_eq_some.mp (Except.ok.inj heq)] at hx
    rwa [List.append_nil]
  · intro hx
    exact ⟨loaded, [], .ok a, (List.append_nil loaded).symm, hx, Loads.answer_pure.mpr ⟨rfl, rfl⟩⟩

variable {part : SnapshotReads γ} {found : List ContextSnapshot} {c : γ}

theorem PerformsOn.attempt (h : ReturnsOn found part c) :
    PerformsOn part found c (attempt part) found := by
  have hfirst : Loads.Performs part.run found (.ok c)
      (SnapshotReads.attempt part).run
      (found ++ []) := .first h
  rwa [List.append_nil] at hfirst

theorem PerformsOn.inFirst {x : SnapshotReads α} {f : α → SnapshotReads β}
    (h : PerformsOn part found c x first) : PerformsOn part found c (x >>= f) (first ++ rest) := by
  show Loads.Performs part.run found (.ok c) (x >>= f).run _
  rw [ExceptT.run_bind]
  exact .inFirst h

theorem PerformsOn.after {x : SnapshotReads α} {f : α → SnapshotReads β} (hx : ReturnsOn first x a)
    (h : PerformsOn part found c (f a) rest) :
    PerformsOn part found c (x >>= f) (first ++ rest) := by
  show Loads.Performs part.run found (.ok c) (x >>= f).run _
  rw [ExceptT.run_bind]
  exact .after hx h

end SnapshotReads

open SnapshotReads (ReturnsOn PerformsOn)

-- ---------------------------------------------------------------------------
-- What a plan is made of
-- ---------------------------------------------------------------------------

def CarriedBy (rschc : RSchc) (snapshot : ContextSnapshot) (parents : List Rule)
    (packet : Ipv6UdpPacket) (direction : FlowDirection)
    (rule : RuleSelector) : Prop :=
  ∃ parent ∈ parents, InspectionService.isFlowParent snapshot parent = true ∧
  parent.id = rule.ruleId ∧
    flowOverrides rschc parent packet direction = .ok (some [])

def Selects (deps : Deps) (recipe : ContextRecipe)
    (found : ContextSnapshot → Prop) (link : SchcLink)
    (packet : Ipv6UdpPacket) (rule : RuleSelector) : Prop :=
  ∃ current encoding, found current ∧
    link.encodeBytes deps (current.asActive recipe) .application packet.bytes = .ok encoding ∧
    encoding.report.ruleId = rule.ruleId

section
variable {deps : Deps} {service : InspectionService} {recipe : ContextRecipe}
  {found : ContextSnapshot → Prop} {snapshot : ContextSnapshot} {packet : Ipv6UdpPacket}
  {direction : FlowDirection} {destinationId : RuleId}
  {rule : RuleSelector} {candidate : InspectionService.FlowChangeCandidate} {parent : Rule}
  {loaded : List ContextSnapshot} {request : RuleDuplicateRequest}

theorem selectedRule_ok {link : SchcLink}
    (h : MayReturn found (InspectionService.selectedRule deps recipe link packet.bytes)
      rule.ruleId) :
    Selects deps recipe found link packet rule := by
  simp only [InspectionService.selectedRule, SnapshotReads.mayReturn_bind,
    SnapshotReads.mayReturn_ofResult, SnapshotReads.mayReturn_load, bind_ok,
    mapError_ok, pure_ok] at h
  obtain ⟨parsed, hparsed, current, hcurrent, encoding, hencoding, hid⟩ := h
  refine ⟨current, encoding, hcurrent, ?_, hid⟩
  simp only [SchcLink.encodeBytes, bind_ok, mapError_ok]
  exact ⟨parsed, hparsed, hencoding⟩

theorem findApplicationMatch_some {link : SchcLink} {parents : List Rule}
    (h : MayReturn found (InspectionService.findApplicationMatch deps recipe snapshot link
      packet direction parents) (some rule)) :
    CarriedBy deps.rschc snapshot parents packet direction rule ∧
      Selects deps recipe found link packet rule := by
  induction parents with
  | nil => simp [InspectionService.findApplicationMatch] at h
  | cons parent rest ih =>
    have hlater (h : CarriedBy deps.rschc snapshot rest packet direction rule ∧
        Selects deps recipe found link packet rule) : CarriedBy deps.rschc snapshot
          (parent :: rest) packet direction rule ∧ Selects deps recipe found link packet rule := by
      obtain ⟨⟨other, hother, hcarries⟩, hselects⟩ := h
      exact ⟨⟨other, List.mem_cons_of_mem parent hother, hcarries⟩, hselects⟩
    unfold InspectionService.findApplicationMatch at h
    split at h
    · exact hlater (ih h)
    · next hparent =>
      simp only [SnapshotReads.mayReturn_bind, SnapshotReads.mayReturn_ofResult] at h
      obtain ⟨overrides, hoverrides, h⟩ := h
      split at h
      · simp only [SnapshotReads.mayReturn_bind, SnapshotReads.mayReturn_ofResult] at h
        obtain ⟨source, hsource, selected, hselected, h⟩ := h
        split at h
        · next hsame =>
          cases Option.some.inj (SnapshotReads.mayReturn_pure.mp h)
          subst hsame
          have hid : parent.id = rule.ruleId := by
            rw [(RuleSelector.new_ok hsource).1]
            rfl
          exact ⟨⟨parent, List.mem_cons_self, by simpa using hparent, hid, hoverrides⟩,
            selectedRule_ok (SnapshotReads.mayReturn_attempt.mp hselected)⟩
        · exact hlater (ih h)
      · exact hlater (ih h)

theorem existingApplicationMatch_some
    (h : MayReturn found (InspectionService.existingApplicationMatch deps recipe
      snapshot packet direction) (some rule)) :
    CarriedBy deps.rschc snapshot snapshot.data.rules packet direction rule ∧
      ∃ linked, found linked ∧
        Selects deps recipe found (SchcLink.new (linked.asActive recipe) direction.linkRole)
          packet rule := by
  simp only [InspectionService.existingApplicationMatch, loadLink, SnapshotReads.mayReturn_bind,
    SnapshotReads.mayReturn_load, SnapshotReads.mayReturn_pure] at h
  obtain ⟨link, ⟨linked, hlinked, rfl⟩, h⟩ := h
  obtain ⟨hcarried, hselects⟩ := findApplicationMatch_some h
  exact ⟨hcarried, linked, hlinked, hselects⟩

/-- On these loads the computation encodes the request over a snapshot that is found, as a payload
that makes a context of the snapshot of the plan in which the packet can be sent. -/
def Encodes (deps : Deps) (service : InspectionService) (recipe : ContextRecipe)
    (found : ContextSnapshot → Prop) (snapshot : ContextSnapshot) (packet : Ipv6UdpPacket)
    (direction : FlowDirection) (request : RuleDuplicateRequest) (x : SnapshotReads α)
    (loaded : List ContextSnapshot) : Prop :=
  ∃ payload encoded, found encoded ∧ PerformsOn (service.duplicateRulePayload deps request)
    [encoded] payload x loaded ∧ TriedOut deps service recipe snapshot packet direction payload

theorem Encodes.inFirst {x : SnapshotReads α} {f : α → SnapshotReads β}
    (h : Encodes deps service recipe found snapshot packet direction request x loaded) :
    Encodes deps service recipe found snapshot packet direction request
      (x >>= f) (loaded ++ rest) := by
  obtain ⟨payload, encoded, hfound, hperforms, htried⟩ := h
  exact ⟨payload, encoded, hfound, hperforms.inFirst, htried⟩

theorem Encodes.after {x : SnapshotReads α} {f : α → SnapshotReads β} (hx : ReturnsOn first x a)
    (h : Encodes deps service recipe found snapshot packet direction request (f a) loaded) :
    Encodes deps service recipe found snapshot packet direction request
      (x >>= f) (first ++ loaded) := by
  obtain ⟨payload, encoded, hfound, hperforms, htried⟩ := h
  exact ⟨payload, encoded, hfound, hperforms.after hx, htried⟩

theorem duplicateRulePayload_loads {request : RuleDuplicateRequest}
    (h : ReturnsOn loaded (service.duplicateRulePayload deps request) payload) :
    ∃ encoded, loaded = [encoded] ∧
    (service.duplicateRulePayload deps request).alone encoded = .ok payload := by
  unfold InspectionService.duplicateRulePayload at h ⊢
  simp only [SnapshotReads.returnsOn_bind, SnapshotReads.returnsOn_load,
    SnapshotReads.returnsOn_ofResult] at h
  obtain ⟨_, _, encoded, rfl, rfl, rfl, hpayload⟩ := h
  exact ⟨encoded, rfl, hpayload⟩

theorem planCandidate_encodes (hloaded : ∀ snapshot ∈ loaded, found snapshot)
    (h : ReturnsOn loaded (InspectionService.planCandidate deps service recipe
      snapshot packet direction destinationId parent) (some candidate)) :
    Encodes deps service recipe found snapshot packet direction candidate.request
      (InspectionService.planCandidate deps service recipe snapshot packet
        direction destinationId parent)
      loaded := by
  unfold InspectionService.planCandidate at h ⊢
  split at h
  · simp at h
  · next hparent =>
    rw [if_neg hparent]
    simp only [SnapshotReads.returnsOn_bind] at h
    obtain ⟨_, rest, overridden, rfl, hoverrides, h⟩ := h
    refine .after hoverrides ?_
    split at h
    · next overrides =>
      simp only [SnapshotReads.returnsOn_bind] at h
      obtain ⟨_, rest, source, rfl, hsource, h⟩ := h
      refine .after hsource ?_
      split at h
      · simp at h
      · next hdiffers =>
        rw [if_neg hdiffers]
        simp only [SnapshotReads.returnsOn_bind] at h
        obtain ⟨_, rest, destination, rfl, hdestination, h⟩ := h
        refine .after hdestination ?_
        obtain ⟨_, rest, wireBytes | wireBytes, rfl, hwire, h⟩ := h
        · simp at h
        · refine .after hwire ?_
          simp only [SnapshotReads.returnsOn_bind] at h
          obtain ⟨_, rest, payload | payload, rfl, hpayload, h⟩ := h
          · simp at h
          · simp only at h
            split at h
            · next hencodes =>
              obtain ⟨rfl, hcandidate⟩ := SnapshotReads.returnsOn_pure.mp h
              cases Option.some.inj hcandidate
              obtain ⟨prepared, hprepared, htried⟩ := (Option.any_eq_true ..).mp hencodes
              have hpayload := SnapshotReads.returnsOn_attempt.mp hpayload
              obtain ⟨encoded, rfl, -⟩ := duplicateRulePayload_loads hpayload
              refine ⟨payload, encoded, hloaded encoded ?_,
                (SnapshotReads.PerformsOn.attempt hpayload).inFirst, prepared, hprepared, htried⟩
              simp
            · simp at h
    · simp at h

theorem planCandidates_mem {parents : List Rule}
    {candidates : List InspectionService.FlowChangeCandidate}
    (hloaded : ∀ snapshot ∈ loaded, found snapshot)
    (h : ReturnsOn loaded (InspectionService.planCandidates deps service recipe
      snapshot packet direction destinationId parents) candidates) (hmem : candidate ∈ candidates) :
    (∃ parent ∈ parents,
      Duplicates deps service recipe found snapshot packet direction
        destinationId parent candidate) ∧
    Encodes deps service recipe found snapshot packet direction candidate.request
      (InspectionService.planCandidates deps service recipe snapshot packet
        direction destinationId parents)
      loaded := by
  induction parents generalizing candidates loaded with
  | nil =>
    obtain ⟨rfl, rfl⟩ := SnapshotReads.returnsOn_pure.mp h
    cases hmem
  | cons parent rest ih =>
    simp only [InspectionService.planCandidates, SnapshotReads.returnsOn_bind,
      SnapshotReads.returnsOn_pure] at h
    obtain ⟨loads, _, first, rfl, hfirst, later, _, others, rfl, hothers, rfl, rfl⟩ := h
    rcases List.mem_append.mp hmem with hmem | hmem
    · cases Option.mem_toList.mp hmem
      have hloads : ∀ snapshot ∈ loads, found snapshot := fun snapshot hsnapshot =>
        hloaded snapshot (List.mem_append_left _ hsnapshot)
      exact ⟨⟨parent, List.mem_cons_self, planCandidate_some (hfirst.mayReturn hloads)⟩,
        (planCandidate_encodes hloads hfirst).inFirst⟩
    · have hlater : ∀ snapshot ∈ later, found snapshot := fun snapshot hsnapshot =>
        hloaded snapshot (List.mem_append_right _ (List.mem_append_left _ hsnapshot))
      obtain ⟨⟨other, hother, hduplicates⟩, hencodes⟩ := ih hlater hothers hmem
      exact ⟨⟨other, List.mem_cons_of_mem parent hother, hduplicates⟩,
        .after hfirst hencodes.inFirst⟩

/-- The result is planned on this snapshot, with this namespace, by a computation on these loads. -/
def PlannedOn (deps : Deps) (service : InspectionService) (recipe : ContextRecipe)
    (found : ContextSnapshot → Prop) (planned : ContextSnapshot) (ns : DynamicRuleIdNamespace)
    (packet : Ipv6UdpPacket) (direction : FlowDirection)
    (loaded : List ContextSnapshot) : InspectionService.FlowChange → Prop
  | .alreadyMatches rule =>
    CarriedBy deps.rschc planned planned.data.rules packet direction rule ∧ ∃ linked, found linked ∧
      Selects deps recipe found (SchcLink.new (linked.asActive recipe) direction.linkRole)
        packet rule
  | .duplicate source request => source = request.source ∧
      (∃ destinationId managementWireBytes, ns.allocate planned.occupied = .ok destinationId ∧
        ∃ parent ∈ planned.data.rules, Duplicates deps service recipe found planned
          packet direction destinationId parent { request, managementWireBytes }) ∧
      Encodes deps service recipe found planned packet direction request
        (service.flowChange deps recipe packet direction) loaded

/-- What the planner returns: the namespace is of its first load, the plan on its second. -/
theorem flowChange_ok {change : InspectionService.FlowChange} {first planned : ContextSnapshot}
    (hlater : ∀ snapshot ∈ later, found snapshot)
    (h : ReturnsOn (first :: planned :: later)
      (service.flowChange deps recipe packet direction) change) :
    ∃ ns, first.dynamicRuleIds = some ns ∧
      PlannedOn deps service recipe found planned ns packet direction
        (first :: planned :: later) change := by
  have hrun := h
  simp only [InspectionService.flowChange, SnapshotReads.returnsOn_bind,
    SnapshotReads.returnsOn_load] at h
  obtain ⟨_, _, _, hsplit, rfl, h⟩ := h
  cases hsplit
  split at h
  · simp at h
  · next ns hns =>
    refine ⟨ns, hns, ?_⟩
    simp only [InspectionService.flowChangeImpl, SnapshotReads.returnsOn_bind,
      SnapshotReads.returnsOn_load] at h
    obtain ⟨_, _, _, hsplit, rfl, matching, _, existing, rfl, hexisting, h⟩ := h
    cases hsplit
    have hmatching : ∀ snapshot ∈ matching, found snapshot := fun snapshot hsnapshot =>
      hlater snapshot (List.mem_append_right [] (List.mem_append_left _ hsnapshot))
    split at h
    · obtain ⟨rfl, rfl⟩ := SnapshotReads.returnsOn_pure.mp h
      exact existingApplicationMatch_some (hexisting.mayReturn hmatching)
    · simp only [SnapshotReads.returnsOn_bind] at h
      obtain ⟨_, _, destinationId, rfl, hallocate, loads, _, candidates, rfl, hcandidates, h⟩ := h
      split at h
      · simp at h
      · next candidate rest hsorted =>
        obtain ⟨rfl, rfl⟩ := SnapshotReads.returnsOn_pure.mp h
        obtain ⟨rfl, hallocated⟩ := SnapshotReads.returnsOn_ofResult.mp hallocate
        have hloads : ∀ snapshot ∈ loads, found snapshot := fun snapshot hsnapshot =>
          hlater snapshot (List.mem_append_right [] (List.mem_append_right _
            (List.mem_append_right [] (List.mem_append_left _ hsnapshot))))
        obtain ⟨⟨parent, hparent, hduplicates⟩, hencodes⟩ :=
          planCandidates_mem hloads hcandidates (Sorted.least_of_insertionSort hsorted).1
        refine ⟨rfl, ⟨destinationId, candidate.managementWireBytes,
          mapError_ok.mp hallocated, parent, hparent, hduplicates⟩, ?_⟩
        unfold InspectionService.flowChange
        refine .after (SnapshotReads.returnsOn_load.mpr rfl) ?_
        rw [hns]
        exact .after (SnapshotReads.returnsOn_load.mpr rfl)
          (.after hexisting (.after hallocate hencodes.inFirst))

end

-- ---------------------------------------------------------------------------
-- Runs among other writers
-- ---------------------------------------------------------------------------

/-- A run of `flow_change` with publications between its loads: what it loads, the states it
passes. -/
def FlowChangeRun (deps : Deps) (service : InspectionService) (active : ActiveContext)
    (packet : Ipv6UdpPacket) (direction : FlowDirection) (loaded : List ContextSnapshot)
    (states : List ActiveContext) (change : InspectionService.FlowChange) : Prop :=
  Loads.Interleaved ActiveContext.snapshot (Writes deps)
    (service.flowChange deps active.recipe packet direction).run active loaded states (.ok change)

structure LoadedAfter (deps : Deps) (states : List ActiveContext) (planned : ActiveContext)
    (later : List ContextSnapshot) (state : ActiveContext) : Prop where
  mem : state ∈ states
  reached : WritesAll deps planned state
  loaded : state.snapshot ∈ later

/-- A rule that is reported to carry the packet: it does in the state of the plan, and the
link selects it over a state the run loads later. -/
structure ReportedMatch (deps : Deps) (states : List ActiveContext) (planned : ActiveContext)
    (later : List ContextSnapshot) (packet : Ipv6UdpPacket)
    (direction : FlowDirection) (rule : RuleSelector) :
    Prop where
  carried : CarriedBy deps.rschc planned.snapshot planned.snapshot.data.rules packet direction rule
  selected : ∃ linked current encoding, LoadedAfter deps states planned later linked ∧
    LoadedAfter deps states planned later current ∧
    (SchcLink.new linked direction.linkRole).encodeBytes deps current .application
      packet.bytes = .ok encoding ∧
    encoding.report.ruleId = rule.ruleId
  unprotected : ∀ state ∈ states, rule.ruleId ∉ state.snapshot.data.protectedRules.ids

/-- A duplicate that is proposed: it duplicates a rule of one state for the least free
RuleID there; the run encodes it over a state it loads later, and what it encodes is applied
on the state of the plan. -/
structure ProposedOn (deps : Deps) (service : InspectionService)
    (run : SnapshotReads InspectionService.FlowChange)
    (states : List ActiveContext) (planned : ActiveContext) (first : ContextSnapshot)
    (later : List ContextSnapshot) (packet : Ipv6UdpPacket) (direction : FlowDirection)
    (request : RuleDuplicateRequest) : Prop where
  parent : ∃ parent ∈ planned.snapshot.data.rules, InspectionService.isFlowParent
    planned.snapshot parent = true ∧ parent.id = request.source.ruleId ∧
    flowOverrides deps.rschc parent packet direction = .ok (some request.overrides)
  least : ∃ ns, planned.recipe.dynamicRuleIds = some ns ∧
    IsLeast (ns.freeLeaves planned.snapshot.occupied) request.destination.ruleId
  applied : ∃ payload encoded, LoadedAfter deps states planned later encoded ∧
    PerformsOn (service.duplicateRulePayload deps request) [encoded.snapshot] payload run
      (first :: planned.snapshot :: later) ∧
    (service.duplicateRulePayload deps request).alone encoded.snapshot = .ok payload ∧
    (planned.snapshot.generation + 1 < 2 ^ 64 → ∃ operation active',
      decodeDuplicateOperation deps service.model payload = .ok operation ∧
      DuplicateApplied deps service.model planned operation active' ∧
      CarriesFlow deps planned packet direction request active')

section
variable {deps : Deps} {service : InspectionService} {recipe : ContextRecipe}
  {put : LeafAddress → Json → Json → Option Json} {load : Json → Option Rule}
  {decodeMember : Cbor × Cbor → Option Instance} {active planned : ActiveContext}
  {states : List ActiveContext} {packet : Ipv6UdpPacket} {direction : FlowDirection}
  {change : InspectionService.FlowChange} {loaded later : List ContextSnapshot}
  {found : ContextSnapshot → Prop} {initial : ProtectedRules}

theorem flowChange_loads (h : ReturnsOn loaded
    (service.flowChange deps recipe packet direction) change) :
    ∃ first planned later, loaded = first :: planned :: later := by
  simp only [InspectionService.flowChange, SnapshotReads.returnsOn_bind,
    SnapshotReads.returnsOn_load] at h
  obtain ⟨_, _, first, rfl, rfl, h⟩ := h
  split at h
  · simp at h
  · simp only [InspectionService.flowChangeImpl, SnapshotReads.returnsOn_bind,
      SnapshotReads.returnsOn_load] at h
    obtain ⟨_, later, planned, rfl, rfl, -⟩ := h
    exact ⟨first, planned, later, rfl⟩

theorem FlowChangeRun.loads (h : FlowChangeRun deps service active packet
    direction loaded states change) : ∃ first ∈ states, ∃ planned ∈ states, ∃ later, loaded =
      first.snapshot :: planned.snapshot :: later ∧
        ∀ snapshot ∈ later, ∃ state, LoadedAfter deps states planned later state ∧
        state.snapshot = snapshot := by
  obtain ⟨_, _, later, rfl⟩ := flowChange_loads h.answer_eq
  obtain ⟨first, hfirst, rfl, _, afterFirst, hafterFirst, hrest⟩ := Loads.Interleaved.split_load h
  obtain ⟨planned, hplanned, rfl, _, afterPlan, hafterPlan, hrest⟩ := hrest.split_load
  refine ⟨first, hfirst, planned, hafterFirst _ hplanned, later, rfl, fun snapshot hsnapshot => ?_⟩
  obtain ⟨state, hstate, rfl⟩ := hrest.loaded_current hsnapshot
  exact ⟨state, ⟨hafterFirst _ (hafterPlan _ hstate), hrest.reached _ hstate, hsnapshot⟩, rfl⟩

theorem encodeBytes_asActive {state : ActiveContext} {link : SchcLink}
    {origin : TrafficOrigin} {packet : Bytes} (h : state.recipe = recipe) :
    link.encodeBytes deps (state.snapshot.asActive recipe) origin packet =
      link.encodeBytes deps state origin packet := by
  subst h
  rfl

theorem PlannedOn.reported {ns : DynamicRuleIdNamespace} {rule : RuleSelector}
    (hsame : ∀ state ∈ states, state.recipe = recipe)
    (hsound : ∀ state ∈ states, ActiveContext.Sound deps initial state)
    (hplanned : planned ∈ states) (hfound : ∀ snapshot, found snapshot →
      ∃ state, LoadedAfter deps states planned later state ∧
      state.snapshot = snapshot)
    (h : PlannedOn deps service recipe found planned.snapshot ns packet direction loaded
      (.alreadyMatches rule)) :
    ReportedMatch deps states planned later packet direction rule := by
  obtain ⟨hcarried, _, hfirst, _, encoding, hsecond, hencoding, hid⟩ := h
  obtain ⟨linked, hlinked, rfl⟩ := hfound _ hfirst
  obtain ⟨current, hcurrent, rfl⟩ := hfound _ hsecond
  rw [encodeBytes_asActive (hsame current hcurrent.mem)] at hencoding
  refine ⟨hcarried, ⟨linked, current, encoding, hlinked, hcurrent, hencoding, hid⟩, ?_⟩
  intro state hstate hprotected
  obtain ⟨parent, -, hparent, hparentId, -⟩ := hcarried
  -- all states have the protected rules of the first
  rw [(hsound state hstate).current_protectedRules,
    ← (hsound planned hplanned).current_protectedRules, ← hparentId,
    ← ProtectedRules.contains_iff] at hprotected
  simp [InspectionService.isFlowParent, hprotected] at hparent

theorem PlannedOn.proposed {ns : DynamicRuleIdNamespace} {source : RuleSelector}
    {request : RuleDuplicateRequest}
    (laws : PlansFlows deps planned.recipe.sidJson put load decodeMember)
    (hmodel : deps.rustconf.coreconfModel planned.recipe.sidJson = .ok service.model)
    (hsound : ActiveContext.Sound deps initial planned)
    (hspells : planned.recipe.Spells planned.recipe)
    (hprofile : planned.recipe.dynamicRuleIds = some ns)
    (hfound : ∀ snapshot, found snapshot → ∃ state, LoadedAfter deps states planned later state ∧
      state.snapshot = snapshot)
    (h : PlannedOn deps service planned.recipe found planned.snapshot ns packet direction
      (first :: planned.snapshot :: later) (.duplicate source request)) :
    source = request.source ∧ ProposedOn deps service
      (service.flowChange deps planned.recipe packet direction)
      states planned first later packet direction request := by
  obtain ⟨rfl, ⟨destinationId, wireBytes, hallocate, parent, hparent, hduplicates⟩, hencodes⟩ := h
  have hleast := (hsound.current.allocatable laws.explicit hprofile).allocate_ok hallocate
  have hparentId : parent.id = request.source.ruleId := by
    rw [(RuleSelector.new_ok hduplicates.source).1]
    rfl
  have hid : request.destination.ruleId = destinationId :=
    congrArg RuleSelector.ruleId (RuleSelector.new_ok hduplicates.destination).1
  subst hid
  refine ⟨rfl, ⟨parent, hparent, hduplicates.isParent, hparentId, hduplicates.overrides⟩,
    ⟨ns, hprofile, hleast⟩, ?_⟩
  obtain ⟨payload, _, hpart, hperforms, htried⟩ := hencodes
  obtain ⟨encoded, hencoded, rfl⟩ := hfound _ hpart
  have halone : (service.duplicateRulePayload deps request).alone encoded.snapshot = .ok payload :=
    mayReturn_alone.mp (SnapshotReads.ReturnsOn.mayReturn
      (fun _ => List.mem_singleton.mp) hperforms.answer_eq)
  refine ⟨payload, encoded, hencoded, hperforms, halone, fun hgeneration => ?_⟩
  have hns := hsound.current_profile.trans hprofile
  exact hduplicates.applies laws hmodel hsound hspells hgeneration hns hallocate halone htried

/-- Whatever other writers publish between the loads of `flow_change`, what it returns is
planned on the state its second load finds, and a payload it proposes is encoded over a
state it loads later; without publications it returns what it returns alone. -/
theorem flow_change_from_one_state (laws : PlansFlows deps recipe.sidJson put load decodeMember)
    (hmodel : deps.rustconf.coreconfModel recipe.sidJson = .ok service.model)
    (hreached : Reached deps recipe origin prepared active)
    (hrun : FlowChangeRun deps service active packet direction loaded states change) :
    (∃ first ∈ states, ∃ planned ∈ states, ∃ later, loaded = first.snapshot ::
      planned.snapshot :: later ∧ WritesAll deps active planned ∧
      (∀ rule, change = .alreadyMatches rule →
        ReportedMatch deps states planned later packet direction rule) ∧
      ∀ source request, change = .duplicate source request → source = request.source ∧
        ProposedOn deps service (service.flowChange deps active.recipe packet direction)
          states planned first.snapshot later packet direction request) ∧
    (states = [active] →
      (service.flowChange deps active.recipe packet direction).alone
        active.snapshot = .ok change) := by
  rw [← hreached.sidJson] at laws hmodel
  have hwrites : ∀ state ∈ states, WritesAll deps active state := hrun.reached
  have hsame (state : ActiveContext) (hstate : state ∈ states) : state.recipe = active.recipe :=
    (hwrites state hstate).recipe_eq
  have hsound (state : ActiveContext) (hstate : state ∈ states) :=
    (hwrites state hstate).sound hreached.sound
  refine ⟨?_, ?_⟩
  · obtain ⟨first, hfirst, planned, hplanned, later, rfl, hlater⟩ := hrun.loads
    obtain ⟨ns, hns, hchange⟩ := flowChange_ok
      (show ∀ snapshot ∈ later, snapshot ∈ later from fun _ h => h)
      hrun.answer_eq
    refine ⟨first, hfirst, planned, hplanned, later, rfl, hwrites planned hplanned, ?_, ?_⟩
    · rintro rule rfl
      exact hchange.reported hsame hsound hplanned hlater
    · rintro source request rfl
      have hspells := hreached.spells.self
      have hprofile : active.recipe.dynamicRuleIds = some ns := by
        rw [← hsame first hfirst, ← (hsound first hfirst).current_profile]
        exact hns
      rw [← hsame planned hplanned] at laws hmodel hspells hprofile hchange ⊢
      exact hchange.proposed laws hmodel (hsound planned hplanned) hspells hprofile hlater
  · rintro rfl
    refine mayReturn_alone.mp (SnapshotReads.ReturnsOn.mayReturn
      (fun snapshot hsnapshot => ?_) hrun.answer_eq)
    obtain ⟨state, hstate, rfl⟩ := hrun.loaded_current hsnapshot
    rw [List.mem_singleton.mp hstate]

end

section
open Fixture

def loadedAround (before after : ActiveContext) : List ActiveContext :=
  [before, before, before, after, after, after, after]

theorem interleaved_evaluated : holds (PreparedContext.fromSource (deps planWorld) planRecipe
    (.sor (sorBytes flowRules))) (fun prepared =>
    holds (parsePacket (flowPacket otherCoreAddress deviceLogicalAddress)) (fun packet =>
      holds (PreparedContext.fromTreeForRecipe (deps planWorld) prepared.recipe (tree plannedRules))
        (fun other =>
          ((ActiveContext.new prepared).validateCandidate (deps planWorld)
            (ActiveContext.new prepared).snapshot other) = .ok () &&
          ((ActiveContext.new prepared).publishLocked other).any fun published =>
            ((service planWorld).flowChange (deps planWorld) prepared.recipe
              packet .downlink).run.answer
                ((loadedAround (.new prepared) published).map ActiveContext.snapshot) =
              some (.ok (.duplicate planRequest.source planRequest))))) = true := by
  decide +kernel

/-- After the plan another writer publishes the context that has 64/8 already; the run
encodes over it, and what it encodes is applied on the state of the plan. -/
theorem flow_change_from_one_state_interleaved : ∃ prepared published packet states,
    Writes (deps planWorld) (ActiveContext.new prepared) published ∧
      published.snapshot.generation = (ActiveContext.new prepared).snapshot.generation + 1 ∧
      FlowChangeRun (deps planWorld) (service planWorld) (.new prepared) packet .downlink
        ((loadedAround (.new prepared) published).map ActiveContext.snapshot) states
        (.duplicate planRequest.source planRequest) ∧
      ∃ planned ∈ states, planned.snapshot = (ActiveContext.new prepared).snapshot ∧
        ProposedOn (deps planWorld) (service planWorld)
          ((service planWorld).flowChange (deps planWorld) prepared.recipe packet .downlink)
          states planned (ActiveContext.new prepared).snapshot
          (((loadedAround (.new prepared) published).drop 2).map ActiveContext.snapshot)
          packet .downlink planRequest := by
  obtain ⟨prepared, hprepared, heval⟩ := holds_iff.mp interleaved_evaluated
  obtain ⟨packet, -, heval⟩ := holds_iff.mp heval
  obtain ⟨other, hother, heval⟩ := holds_iff.mp heval
  obtain ⟨hvalid, heval⟩ := Bool.and_eq_true_iff.mp heval
  obtain ⟨published, hpublished, hanswer⟩ := (Option.any_eq_true _ _).mp heval
  have hreached :
      Reached (deps planWorld) planRecipe (.sor (sorBytes flowRules)) prepared (.new prepared) :=
    .of_source (service planWorld) hprepared
  have hwrites : Writes (deps planWorld) (ActiveContext.new prepared) published :=
    .inr ⟨tree plannedRules, other, hother, of_decide_eq_true hvalid, hpublished⟩
  have hchain :
      List.IsChain (fun state state' => state = state' ∨ Writes (deps planWorld) state state')
      (.new prepared :: loadedAround (.new prepared) published) := by
    simp [loadedAround, hwrites]
  obtain ⟨states, hrun, -⟩ := Loads.Interleaved.of_answer hchain (of_decide_eq_true hanswer)
  obtain ⟨⟨first, -, planned, hmem, later, hloaded, -, -, hproposed⟩, -⟩ :=
    flow_change_from_one_state plansFlows rfl hreached hrun
  obtain ⟨hfirst, hplanned, hlater⟩ : (ActiveContext.new prepared).snapshot = first.snapshot ∧
      (ActiveContext.new prepared).snapshot = planned.snapshot ∧
      ((loadedAround (.new prepared) published).drop 2).map ActiveContext.snapshot = later := by
    simpa [loadedAround] using hloaded
  refine ⟨prepared, published, packet, states, hwrites, ?_, hrun, planned, hmem, hplanned.symm, ?_⟩
  · obtain ⟨-, rfl⟩ := ActiveContext.publishLocked_eq_some hpublished
    rfl
  · rw [hfirst, hlater]
    exact (hproposed _ _ rfl).2

end

end SchcCoreconf
