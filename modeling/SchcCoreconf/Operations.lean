import SchcCoreconf.ContextInvariant
import SchcCoreconf.Fixture.Zeros
import SchcCoreconf.Management

/-!
# Runs of management operations

Each writer is first reduced to its outcomes: it answers with an error, or
panics, and the context is the one it found; or it makes one publication, of a
tree its request describes. An operation is then one call of the service or of
a backend handle, and a run of operations is a sequence of writes, so every
snapshot it reaches satisfies the invariant of its context.
-/

namespace SchcCoreconf

open Fallible
open ActiveContext (WritesAll Writes Publishes)

-- ---------------------------------------------------------------------------
-- The handlers of rustconf
-- ---------------------------------------------------------------------------

namespace BackendProgram

theorem run_writes (deps : Deps) (program : BackendProgram α) (state : BackendState) :
    WritesAll deps state.active (program.run deps state).state.active := by
  induction program generalizing state with
  | done value => exact .refl
  | readTree next ih => exact ih state.readTree.1 state.readTree.2
  | replaceTree tree next ih =>
    have hwrite : WritesAll deps state.active (state.replaceTree deps tree).state.active :=
      .single (state.replaceTree_writes deps tree)
    simp only [run]
    split
    · exact hwrite
    · exact hwrite.trans (ih _ _)

theorem ReadOnly.run_eq {program : BackendProgram α} (h : program.ReadOnly) (deps : Deps)
    (state : BackendState) :
    (∃ value, program.Answers value ∧ (program.run deps state).result = some value) ∧
      (program.run deps state).state.active = state.active := by
  induction h generalizing state with
  | done => exact ⟨⟨_, .done, rfl⟩, rfl⟩
  | readTree _ ih =>
    obtain ⟨⟨value, hanswers, hresult⟩, hstate⟩ := ih state.readTree.1 state.readTree.2
    exact ⟨⟨value, .readTree hanswers, hresult⟩, hstate⟩

end BackendProgram

-- ---------------------------------------------------------------------------
-- Targeted iPATCH
-- ---------------------------------------------------------------------------

theorem ActiveContext.prepareCandidate_ok {self : ActiveContext}
    (h : self.prepareCandidate deps tree = .ok prepared) :
    PreparedContext.fromTreeForRecipe deps self.recipe tree = .ok prepared ∧
      self.validateCandidate deps self.snapshot prepared = .ok () := by
  simp only [prepareCandidate, bind_ok, pure_ok] at h
  obtain ⟨_, hprepared, _, hvalid, rfl⟩ := h
  exact ⟨hprepared, hvalid⟩

theorem targetCandidate_ok
    (h : targetCandidate deps model active ifMatch sids target = .ok prepared) :
    checkTargetRule active.snapshot ifMatch target = .ok () ∧
      ∃ tree, patchedTree deps model sids active.snapshot.data.tree target = .ok tree ∧
        active.prepareCandidate deps tree = .ok prepared := by
  simp only [targetCandidate, bind_ok, mapError_ok] at h
  obtain ⟨_, hcheck, tree, htree, hprepared⟩ := h
  exact ⟨hcheck, tree, htree, hprepared⟩

/-- A targeted iPATCH either leaves the context alone, without a success, or
publishes the patched tree and reports it changed. -/
theorem applyTargetIpatch_cases (deps : Deps) (model : CoreconfModel) (active : ActiveContext)
    (request : Request) (ifMatch : Option ContextTag) :
    ((∀ response, (applyTargetIpatch deps model active request ifMatch).result ≠
        some (.ok response)) ∧
      (applyTargetIpatch deps model active request ifMatch).state = active) ∨
    ∃ sids target tree active', decodeTargetPatch deps model request = .ok (sids, target) ∧
      checkTargetRule active.snapshot ifMatch target = .ok () ∧
      patchedTree deps model sids active.snapshot.data.tree target = .ok tree ∧
      Publishes deps active tree active' ∧
      applyTargetIpatch deps model active request ifMatch =
        { result := some (.ok .changed), state := active' } := by
  rcases active.commit_cases Response.changed
    (decodeTargetPatch deps model request >>= fun decoded =>
      targetCandidate deps model active ifMatch decoded.1 decoded.2) with
    hunchanged | ⟨prepared, active', hcandidate, hpublish, hcommit⟩
  · exact .inl hunchanged
  · simp only [bind_ok] at hcandidate
    obtain ⟨⟨sids, target⟩, hdecode, hcandidate⟩ := hcandidate
    obtain ⟨hcheck, tree, htree, hprepare⟩ := targetCandidate_ok hcandidate
    obtain ⟨hprepared, hvalid⟩ := ActiveContext.prepareCandidate_ok hprepare
    exact .inr ⟨sids, target, tree, active', hdecode, hcheck, htree,
      ⟨prepared, hprepared, hvalid, hpublish⟩, hcommit⟩

-- ---------------------------------------------------------------------------
-- Duplicate rule
-- ---------------------------------------------------------------------------

theorem checkDestination_ok {destination : RuleSelector} :
    checkDestination snapshot destination = .ok () ↔ ∀ ns, snapshot.dynamicRuleIds = some ns →
      (∃ rule ∈ snapshot.data.rules, rule.id = destination.ruleId) ∨
        ns.accepts destination.ruleId = true := by
  unfold checkDestination
  split
  · next hnone => simp [hnone]
  · next ns hns => simp [hns, ensure_ok]

def Replayed (model : CoreconfModel) (snapshot : ContextSnapshot) (destination : RuleSelector)
    (expectedRule : Json) : Prop :=
  (∃ rule ∈ snapshot.data.rules, rule.id = destination.ruleId) ∧
    ∃ existingRule, findTreeRule snapshot.data.tree model.compositeModel destination =
      .ok (some existingRule) ∧ (existingRule == expectedRule) = true

theorem checkExisting_ok {destination : RuleSelector} :
    checkExisting model snapshot destination expectedRule = .ok existing ↔
      (existing = true ∧ Replayed model snapshot destination expectedRule) ∨
        (existing = false ∧ ∀ rule ∈ snapshot.data.rules, rule.id ≠ destination.ruleId) := by
  unfold checkExisting Replayed
  split
  · next hany =>
    have hexists : ∃ rule ∈ snapshot.data.rules, rule.id = destination.ruleId := by simpa using hany
    simp only [bind_ok, need_ok, ensure_ok, pure_ok]
    constructor
    · rintro ⟨_, hfound, rule, rfl, _, hsame, rfl⟩
      exact .inl ⟨rfl, hexists, rule, hfound, hsame⟩
    · rintro (⟨rfl, -, rule, hfound, hsame⟩ | ⟨-, habsent⟩)
      · exact ⟨_, hfound, rule, rfl, (), hsame, rfl⟩
      · obtain ⟨rule, hmem, hid⟩ := hexists
        exact absurd hid (habsent rule hmem)
  · next hnone =>
    have habsent :
        ∀ rule ∈ snapshot.data.rules, rule.id ≠ destination.ruleId := by simpa using hnone
    constructor
    · rintro ⟨⟩
      exact .inr ⟨rfl, habsent⟩
    · rintro (⟨-, ⟨rule, hmem, hid⟩, -⟩ | ⟨rfl, -⟩)
      · exact absurd hid (habsent rule hmem)
      · rfl

/-- What a duplicate operation that is accepted has built: a tree with the
destination rule, and its context. -/
structure DuplicateAccepted (deps : Deps) (model : CoreconfModel) (active : ActiveContext)
    (operation : DecodedDuplicateOperation) (tree expectedRule : Json)
    (prepared : PreparedContext) : Prop where
  expected : expectedDuplicateTree deps model active.snapshot operation.request
    operation.instances = .ok tree
  destination : checkDestination active.snapshot operation.request.destination = .ok ()
  constructed : findTreeRule tree model.compositeModel operation.request.destination =
    .ok (some expectedRule)
  prepared : active.prepareCandidate deps tree = .ok prepared

theorem duplicateCandidate_ok :
    duplicateCandidate deps model active operation = .ok (prepared, existing) ↔
      ∃ tree expectedRule, DuplicateAccepted deps model active operation
        tree expectedRule prepared ∧
        checkExisting model active.snapshot operation.request.destination expectedRule =
          .ok existing := by
  simp only [duplicateCandidate, bind_ok, mapError_ok, need_ok, pure_ok, Prod.mk.injEq]
  constructor
  · rintro ⟨tree, hexpected, _, hdestination, _, hfound, expectedRule, rfl, _, hprepared, _,
      hexisting, rfl, rfl⟩
    exact ⟨tree, expectedRule, ⟨hexpected, hdestination, hfound, hprepared⟩, hexisting⟩
  · rintro ⟨tree, expectedRule, h, hexisting⟩
    exact ⟨tree, h.expected, _, h.destination, _, h.constructed, expectedRule, rfl, _, h.prepared,
      _, hexisting, rfl, rfl⟩

/-- An accepted operation is applied where its destination is new: one
publication of the tree it describes. -/
def DuplicateApplied (deps : Deps) (model : CoreconfModel) (active : ActiveContext)
    (operation : DecodedDuplicateOperation) (active' : ActiveContext) : Prop :=
  ∃ tree expectedRule prepared,
    DuplicateAccepted deps model active operation tree expectedRule prepared ∧
      (∀ rule ∈ active.snapshot.data.rules, rule.id ≠ operation.request.destination.ruleId) ∧
      active.publishLocked prepared = some active'

def DuplicateReplay (deps : Deps) (model : CoreconfModel) (active : ActiveContext)
    (operation : DecodedDuplicateOperation) : Prop :=
  ∃ tree expectedRule prepared,
    DuplicateAccepted deps model active operation tree expectedRule prepared ∧
      Replayed model active.snapshot operation.request.destination expectedRule

theorem DuplicateApplied.publishes (h : DuplicateApplied deps model active operation active') :
    ∃ tree, expectedDuplicateTree deps model active.snapshot operation.request
        operation.instances = .ok tree ∧ Publishes deps active tree active' := by
  obtain ⟨tree, _, prepared, haccepted, -, hpublish⟩ := h
  obtain ⟨hprepared, hvalid⟩ := ActiveContext.prepareCandidate_ok haccepted.prepared
  exact ⟨tree, haccepted.expected, prepared, hprepared, hvalid, hpublish⟩

theorem applyDuplicateOperation_cases (deps : Deps) (model : CoreconfModel) (active : ActiveContext)
    (operation : DecodedDuplicateOperation) :
    ((∀ result, (applyDuplicateOperation deps model active operation).result ≠ some (.ok result)) ∧
      (applyDuplicateOperation deps model active operation).state = active) ∨
    (DuplicateReplay deps model active operation ∧
      applyDuplicateOperation deps model active operation =
        { result := some (.ok (.idempotent active.snapshot.generation active.snapshot.data.tag))
          state := active }) ∨
    ∃ active', DuplicateApplied deps model active operation active' ∧
      applyDuplicateOperation deps model active operation =
        { result := some (.ok (.applied active'.snapshot.generation active'.snapshot.data.tag))
          state := active' } := by
  cases hcandidate : duplicateCandidate deps model active operation with
  | error error => exact .inl ⟨by simp [applyDuplicateOperation, hcandidate],
      by simp [applyDuplicateOperation, hcandidate]⟩
  | ok candidate =>
    obtain ⟨prepared, existing⟩ := candidate
    obtain ⟨tree, expectedRule, haccepted, hexisting⟩ := duplicateCandidate_ok.mp hcandidate
    rcases checkExisting_ok.mp hexisting with ⟨rfl, hreplayed⟩ | ⟨rfl, habsent⟩
    · exact .inr (.inl ⟨⟨tree, expectedRule, prepared, haccepted, hreplayed⟩,
        by simp [applyDuplicateOperation, hcandidate]⟩)
    · cases hpublish : active.publishLocked prepared with
      | none => exact .inl ⟨by simp [applyDuplicateOperation, hcandidate, hpublish],
          by simp [applyDuplicateOperation, hcandidate, hpublish]⟩
      | some active' =>
        exact .inr (.inr ⟨active', ⟨tree, expectedRule, prepared, haccepted, habsent,
          hpublish⟩, by simp [applyDuplicateOperation, hcandidate, hpublish]⟩)

theorem applyDuplicateOperation_replay (h : DuplicateReplay deps model active operation) :
    applyDuplicateOperation deps model active operation =
      { result := some (.ok (.idempotent active.snapshot.generation active.snapshot.data.tag))
        state := active } := by
  obtain ⟨tree, expectedRule, prepared, haccepted, hreplayed⟩ := h
  have hcandidate : duplicateCandidate deps model active operation = .ok (prepared, true) :=
    duplicateCandidate_ok.mpr
      ⟨tree, expectedRule, haccepted, checkExisting_ok.mpr (.inl ⟨rfl, hreplayed⟩)⟩
  simp [applyDuplicateOperation, hcandidate]

-- ---------------------------------------------------------------------------
-- The service is a writer
-- ---------------------------------------------------------------------------

theorem applyTargetIpatch_writes (deps : Deps) (model : CoreconfModel) (active : ActiveContext)
    (request : Request) (ifMatch : Option ContextTag) :
    Writes deps active (applyTargetIpatch deps model active request ifMatch).state := by
  rcases applyTargetIpatch_cases deps model active request ifMatch with
    ⟨-, hstate⟩ | ⟨_, _, tree, active', -, -, -, hpublish, heq⟩
  · exact .inl hstate
  · rw [heq]
    exact .inr ⟨tree, hpublish⟩

theorem applyDuplicateOperation_writes (deps : Deps) (model : CoreconfModel)
    (active : ActiveContext) (operation : DecodedDuplicateOperation) :
    Writes deps active (applyDuplicateOperation deps model active operation).state := by
  rcases applyDuplicateOperation_cases deps model active operation with
    ⟨-, hstate⟩ | ⟨-, heq⟩ | ⟨active', happlied, heq⟩
  · exact .inl hstate
  · rw [heq]
    exact .inl rfl
  · obtain ⟨tree, -, hpublish⟩ := happlied.publishes
    rw [heq]
    exact .inr ⟨tree, hpublish⟩

theorem DuplicateApplied.of_generation
    (h : (applyDuplicateOperation deps model active operation).state.snapshot.generation ≠
      active.snapshot.generation) :
    DuplicateApplied deps model active operation
      (applyDuplicateOperation deps model active operation).state := by
  rcases applyDuplicateOperation_cases deps model active operation with
    ⟨-, hstate⟩ | ⟨-, heq⟩ | ⟨active', happlied, heq⟩
  · exact absurd (congrArg (·.snapshot.generation) hstate) h
  · exact absurd (by rw [heq]) h
  · rw [heq]
    exact happlied

namespace InspectionService

theorem handleTargetIpatch_writes (deps : Deps) (self : InspectionService) (state : BackendState)
    (packet : Packet) :
    Writes deps state.active (self.handleTargetIpatch deps state packet).state.active := by
  unfold handleTargetIpatch
  split
  · exact .inl rfl
  · split
    · exact .inl rfl
    · exact applyTargetIpatch_writes ..

theorem handleInspection_writes (deps : Deps) (self : InspectionService) (state : BackendState)
    (packet : Packet) :
    WritesAll deps state.active (self.handleInspection deps state packet).state.active := by
  unfold handleInspection
  split
  · exact .refl
  · split
    · exact .refl
    · split
      · exact .refl
      · exact BackendProgram.run_writes ..

theorem handleDatagram_writes (deps : Deps) (self : InspectionService) (state : BackendState)
    (datagram : Bytes) :
    WritesAll deps state.active (self.handleDatagram deps state datagram).state.active := by
  unfold handleDatagram
  split
  · exact .refl
  · next packet _ =>
    split
    · exact .refl
    · split
      · split
        · exact .refl
        · exact .single (handleTargetIpatch_writes deps self state packet)
      · split
        · exact .refl
        · split
          · exact handleInspection_writes deps self state packet
          · exact .refl

theorem handleDatagramNoResponse_writes (deps : Deps) (self : InspectionService)
    (state : BackendState) (datagram : Bytes) :
    WritesAll deps state.active (self.handleDatagramNoResponse deps state
      datagram).state.active := by
  unfold handleDatagramNoResponse
  split
  · exact .refl
  · split
    · split
      · exact .refl
      · exact .single (applyDuplicateOperation_writes ..)
    · exact handleDatagram_writes deps self state datagram

end InspectionService

-- ---------------------------------------------------------------------------
-- Operations and their runs
-- ---------------------------------------------------------------------------

/-- One management operation: a datagram given to the service, or a replacement
through a backend handle, whatever that handle last observed. -/
inductive Operation
  | datagram (datagram : Bytes)
  | datagramNoResponse (datagram : Bytes)
  | replaceTree (backend : ActiveContextBackend) (tree : Json)

namespace InspectionService

def operation (deps : Deps) (self : InspectionService) (state : BackendState) :
    Operation → BackendState
  | .datagram datagram => (self.handleDatagram deps state datagram).state
  | .datagramNoResponse datagram => (self.handleDatagramNoResponse deps state datagram).state
  | .replaceTree backend tree =>
    { state with active :=
        (BackendState.replaceTree deps { active := state.active, backend } tree).state.active }

def operate (deps : Deps) (self : InspectionService) (state : BackendState)
    (operations : List Operation) : BackendState :=
  Runs.run (self.operation deps) state operations

theorem operation_writes (deps : Deps) (self : InspectionService) (state : BackendState)
    (op : Operation) : WritesAll deps state.active (self.operation deps state op).active := by
  cases op with
  | datagram datagram => exact handleDatagram_writes deps self state datagram
  | datagramNoResponse datagram => exact handleDatagramNoResponse_writes deps self state datagram
  | replaceTree backend tree => exact .single (BackendState.replaceTree_writes deps _ tree)

theorem operate_writes (deps : Deps) (self : InspectionService) (state : BackendState)
    (operations : List Operation) :
    WritesAll deps state.active (self.operate deps state operations).active :=
  Runs.run_rel (R := fun before after : BackendState => WritesAll deps before.active after.active)
    (fun _ => .refl) (fun _ _ _ hfirst hsecond => hfirst.trans hsecond) (self.operation_writes deps)

end InspectionService

-- ---------------------------------------------------------------------------
-- The reachable contexts
-- ---------------------------------------------------------------------------

/-- The contexts that operations reach from one loaded from a source. -/
def Reached (deps : Deps) (recipe : ContextRecipe) (source : ContextSource)
    (prepared : PreparedContext) (active : ActiveContext) : Prop :=
  PreparedContext.fromSource deps recipe source = .ok prepared ∧
    ∃ (service : InspectionService) (backend : ActiveContextBackend) (operations : List Operation),
      active = (service.operate deps { active := .new prepared, backend } operations).active

namespace Reached

theorem of_source (service : InspectionService)
    (h : PreparedContext.fromSource deps recipe source = .ok prepared) :
    Reached deps recipe source prepared (.new prepared) :=
  ⟨h, service, (ActiveContext.new prepared).backend, [], rfl⟩

theorem writes {recipe : ContextRecipe} (h : Reached deps recipe source prepared active) :
    WritesAll deps (.new prepared) active := by
  obtain ⟨-, service, backend, operations, rfl⟩ := h
  exact service.operate_writes deps { active := .new prepared, backend } operations

theorem sidJson {recipe : ContextRecipe} (h : Reached deps recipe source prepared active) :
    active.recipe.sidJson = recipe.sidJson := by
  rw [h.writes.recipe_eq]
  exact (PreparedContext.fromSource_ok h.1).2.1

theorem sound {recipe : ContextRecipe} (h : Reached deps recipe source prepared active) :
    ActiveContext.Sound deps prepared.data.protectedRules active :=
  h.writes.sound (ActiveContext.sound_new h.1)

theorem split {recipe : ContextRecipe} (hreads : ReadsRuleByRule deps recipe.sidJson)
    (h : Reached deps recipe source prepared active) : ActiveContext.Split deps active := by
  have hrecipe : (ActiveContext.new prepared).recipe.sidJson = recipe.sidJson :=
    (PreparedContext.fromSource_ok h.1).2.1
  exact h.writes.split (hrecipe ▸ hreads) (ActiveContext.split_new hreads h.1)

end Reached

structure SnapshotInvariant (deps : Deps) (sidJson : String) (initial : ProtectedRules)
    (publications : Nat) (snapshot : ContextSnapshot) : Prop where
  canonical : normalizeTree snapshot.data.tree = .ok snapshot.data.tree
  encoded : ∃ model, deps.rustconf.coreconfModel sidJson = .ok model ∧
    EncodedAs deps.ciborium model snapshot.data.tree snapshot.data.sor ∧
    (snapshot.data.tree.ZeroFree →
      encodeTree deps.ciborium model snapshot.data.tree = .ok snapshot.data.sor)
  tag : ∃ digest, digestContext deps snapshot.data.tree snapshot.data.sor = .ok digest ∧
    snapshot.data.tag.bytes = digest.take 8
  ruleIds : snapshot.data.ruleIds = snapshot.data.rules.map (·.id)
  applicationRuleIds : snapshot.data.applicationRuleIds =
    snapshot.data.ruleIds.filter fun id => !snapshot.data.protectedRules.contains id
  generation : snapshot.generation = 1 + publications
  protectedRules : snapshot.data.protectedRules = initial

/-- Every snapshot of every run, from any source and recipe. -/
theorem reachable_snapshot {recipe : ContextRecipe} {snapshot : ContextSnapshot}
    (hreads : ReadsRuleByRule deps recipe.sidJson)
    (hreached : Reached deps recipe source prepared active)
    (hsnapshot : active.snapshots.values = later ++ snapshot :: earlier) :
    SnapshotInvariant deps recipe.sidJson prepared.data.protectedRules earlier.length snapshot := by
  have hmem : snapshot ∈ active.snapshots.values := by
    rw [hsnapshot]
    exact List.mem_append_right later List.mem_cons_self
  have hsound := hreached.sound
  have hderived := hsound.data snapshot hmem
  obtain ⟨model, hmodel, hencoded⟩ := hderived.encoded
  rw [hreached.sidJson] at hmodel
  exact {
    canonical := hderived.canonical
    encoded := ⟨model, hmodel, hencoded, hencoded.encodeTree⟩
    tag := ⟨_, hderived.digest, congrArg ContextTag.bytes hderived.tag⟩
    ruleIds := hderived.ruleIds
    applicationRuleIds := (hreached.split hreads snapshot hmem).ruleIds
    generation := hsound.generation later snapshot earlier hsnapshot
    protectedRules := hsound.protectedRules snapshot hmem }

section
open Fixture

theorem Reached.of_loaded {world : World} {rules : List Rule}
    (h : loaded world rules = .ok prepared) (operations : List Operation) :
    Reached (deps world) recipe (.sor (sorBytes rules)) prepared
      ((service world).operate (deps world) (start prepared) operations).active :=
  ⟨h, service world, (start prepared).backend, operations, rfl⟩

theorem turned_evaluated : holds (PreparedContext.fromSource turningDeps recipe
    (.sor (zeroBytes positiveZero))) (fun prepared =>
      holds (encodeTree turningDeps.ciborium turningModel prepared.data.tree)
        (· ≠ prepared.data.sor)) = true := by
  decide +kernel

/-- A tree with a floating-point zero can have the bytes of the other zero. -/
theorem snapshot_encodes_other_zero : ∃ prepared bytes,
    ReadsRuleByRule turningDeps recipe.sidJson ∧
    Reached turningDeps recipe (.sor (zeroBytes positiveZero)) prepared (.new prepared) ∧
    turningDeps.rustconf.coreconfModel recipe.sidJson = .ok turningModel ∧
    encodeTree turningDeps.ciborium turningModel (ActiveContext.new prepared).snapshot.data.tree =
      .ok bytes ∧ bytes ≠ (ActiveContext.new prepared).snapshot.data.sor := by
  obtain ⟨prepared, hprepared, heval⟩ := holds_iff.mp turned_evaluated
  obtain ⟨bytes, hbytes, hother⟩ := holds_iff.mp heval
  exact ⟨prepared, bytes, turning_readsRuleByRule,
    Reached.of_source (service updateWorld) hprepared, rfl, hbytes, of_decide_eq_true hother⟩

theorem updated_evaluated : holds (loaded updateWorld rulesBefore) (fun prepared =>
    let active := ((service updateWorld).operate (deps updateWorld) (start prepared)
      [.datagram patchDatagram]).active
    active.snapshots.previous.length = 1 ∧ active.snapshot.data.tree = tree rulesAfter) = true := by
  decide +kernel

theorem reachable_snapshot_updated : ∃ prepared active,
    Reached (deps updateWorld) recipe (.sor (sorBytes rulesBefore)) prepared active ∧
    active.snapshot.data.tree = tree rulesAfter ∧
    SnapshotInvariant (deps updateWorld) sidText
      prepared.data.protectedRules 1 active.snapshot := by
  obtain ⟨prepared, hprepared, hupdated⟩ := holds_iff.mp updated_evaluated
  obtain ⟨hprevious, htree⟩ := of_decide_eq_true hupdated
  have hreached := Reached.of_loaded hprepared [.datagram patchDatagram]
  exact ⟨prepared, _, hreached, htree, hprevious ▸
    reachable_snapshot (readsRuleByRule updateWorld_checked) hreached (List.nil_append _).symm⟩

end

end SchcCoreconf
