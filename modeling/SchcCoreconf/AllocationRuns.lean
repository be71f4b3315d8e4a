import SchcCoreconf.AllocationReference
import SchcCoreconf.Fixture.Duplicates
import SchcCoreconf.Operations
import Mathlib.Data.Set.Finite.Lemmas
import Mathlib.Data.Finite.Prod
import Mathlib.Order.Interval.Finset.Nat

/-!
# Allocation over runs

Loading and every publication check that no rule strays onto the branch of the
namespace, so the allocator never meets a collision. An allocated RuleID is the
least free leaf; once its rule is installed, the free leaves that remain are
larger and do not overlap it, and there are only finitely many leaves.
-/

namespace SchcCoreconf

open Fallible
open ActiveContext (WritesAll Publishes)

def ContextSnapshot.occupied (snapshot : ContextSnapshot) : List RuleId :=
  snapshot.data.rules.map (·.id)

-- ---------------------------------------------------------------------------
-- One snapshot
-- ---------------------------------------------------------------------------

namespace DynamicRuleIdNamespace

theorem validate_self_wellFormed {ns : DynamicRuleIdNamespace} (h : ns.validate = .ok ns) :
    ns.WellFormed := (validate_ok.mp h).1

theorem not_collision {ns : DynamicRuleIdNamespace} (h : ns.WellFormed)
    (hids : ∀ id ∈ occupied, RuleId.Explicit id)
    (hbranch : ∀ id ∈ occupied, overlaps id ns.prefixSpec.ruleId = true → ns.accepts id = true) :
    ¬ns.Collision occupied := by
  rintro ⟨id, hmem, hoverlap, hleaf⟩
  have haccepts := hbranch id hmem ((overlaps_iff (hids id hmem) h.prefix_explicit).mpr hoverlap)
  exact hleaf ((accepts_iff h (hids id hmem)).mp haccepts)

theorem leaves_finite (ns : DynamicRuleIdNamespace) : ns.leaves.Finite := by
  refine Set.Finite.of_injOn (f := fun id : RuleId => (id.bitLen, id.value))
    (t := Set.Iic 32 ×ˢ Set.Iio (2 ^ 32)) (fun id hid => ?_) ?_
    ((Set.finite_Iic 32).prod (Set.finite_Iio _))
  · obtain ⟨-, ⟨-, hlength, hvalue⟩, -⟩ := hid
    exact ⟨hlength, hvalue.trans_le (Nat.pow_le_pow_right (by decide) hlength)⟩
  · rintro ⟨_, _⟩ - ⟨_, _⟩ - heq
    obtain ⟨rfl, rfl⟩ := Prod.mk.inj heq
    rfl

theorem freeLeaves_anti {ns : DynamicRuleIdNamespace} {occupied occupied' : List RuleId}
    (h : occupied ⊆ occupied') : ns.freeLeaves occupied' ⊆ ns.freeLeaves occupied :=
  fun _ hid => ⟨hid.1, fun other hother => hid.2 other (h hother)⟩

end DynamicRuleIdNamespace

structure Allocatable (ns : DynamicRuleIdNamespace) (occupied : List RuleId) : Prop where
  admissible : ns.Admissible occupied
  free : ¬ns.Collision occupied

theorem ContextData.Derived.allocatable {recipe : ContextRecipe} {data : ContextData}
    (h : data.Derived deps recipe) (hexplicit : LoadsExplicit deps recipe.sidJson)
    (hns : recipe.dynamicRuleIds = some ns) : Allocatable ns (data.rules.map (·.id)) := by
  obtain ⟨registry, context, hregistry, hcontext, hrules, -⟩ := h.full
  obtain ⟨hvalid, hbranch⟩ := h.inNamespace ns hns
  have hwell := DynamicRuleIdNamespace.validate_self_wellFormed hvalid
  have hids : ∀ id ∈ data.rules.map (·.id), RuleId.Explicit id := fun id hid => by
    obtain ⟨rule, hrule, rfl⟩ := List.mem_map.mp hid
    exact hexplicit hregistry hcontext rule (hrules ▸ hrule)
  refine ⟨⟨hwell, hids⟩, DynamicRuleIdNamespace.not_collision hwell hids fun id hid hoverlap => ?_⟩
  obtain ⟨rule, hrule, rfl⟩ := List.mem_map.mp hid
  exact hbranch rule hrule hoverlap

namespace Allocatable

theorem allocate_cases {ns : DynamicRuleIdNamespace} (h : Allocatable ns occupied) :
    (∃ id, ns.allocate occupied = .ok id ∧ IsLeast (ns.freeLeaves occupied) id) ∨
      ns.allocate occupied = .error .exhausted := by
  obtain ⟨hok, hexhausted⟩ :=
    DynamicRuleIdNamespace.allocate_free h.admissible.1 h.admissible.2 h.free
  rcases Set.eq_empty_or_nonempty (ns.freeLeaves occupied) with hnone | hsome
  · exact .inr (hexhausted.mpr hnone)
  · have hfinite : (ns.freeLeaves occupied).Finite := ns.leaves_finite.subset fun _ hid => hid.1
    obtain ⟨id, hid, hleast⟩ := Set.exists_min_image _ (fun id : RuleId => id) hfinite hsome
    exact .inl ⟨id, (hok id).mpr ⟨hid, hleast⟩, hid, hleast⟩

theorem allocate_ok {ns : DynamicRuleIdNamespace} (h : Allocatable ns occupied) {id : RuleId}
    (hid : ns.allocate occupied = .ok id) : IsLeast (ns.freeLeaves occupied) id :=
  ((DynamicRuleIdNamespace.allocate_free h.admissible.1 h.admissible.2 h.free).1 id).mp hid

end Allocatable

structure AllocatedIn (snapshot : ContextSnapshot) (id : RuleId) : Prop where
  accepted : ∀ destination : RuleSelector, destination.ruleId = id →
    checkDestination snapshot destination = .ok ()
  unprotected : id ∉ snapshot.data.protectedRules.ids
  prefixFree : ∀ other ∈ snapshot.occupied, ¬RuleId.Overlap other id

theorem AllocatedIn.of_allocate {recipe : ContextRecipe} {snapshot : ContextSnapshot} {id : RuleId}
    (hderived : snapshot.data.Derived deps recipe)
    (hexplicit : LoadsExplicit deps recipe.sidJson)
    (hns : recipe.dynamicRuleIds = some ns) (hprofile : snapshot.dynamicRuleIds = some ns)
    (h : ns.allocate snapshot.occupied = .ok id) : AllocatedIn snapshot id := by
  have hallocatable := hderived.allocatable hexplicit hns
  have hfree : id ∈ ns.freeLeaves snapshot.occupied := (hallocatable.allocate_ok h).1
  refine ⟨?_, fun hprotected => ?_, fun other hother hoverlap => hfree.2 other hother hoverlap.symm⟩
  · rintro destination rfl
    refine checkDestination_ok.mpr fun other hother => .inr ?_
    cases hprofile.symm.trans hother
    exact (DynamicRuleIdNamespace.accepts_iff hallocatable.admissible.1 hfree.1.2.1).mpr hfree.1
  · have hmem := hderived.protected_mem hprotected
    rw [hderived.ruleIds] at hmem
    exact hfree.2 id hmem .refl

-- ---------------------------------------------------------------------------
-- Plan, then apply
-- ---------------------------------------------------------------------------

def Keeps (before after : ActiveContext) : Prop :=
  before.snapshot.occupied ⊆ after.snapshot.occupied

/-- The planner allocates a destination and the duplicate is applied; before and after
it other writers may publish, as long as they remove no rule. -/
structure PlanApplied (deps : Deps) (model : CoreconfModel) (before : ActiveContext) (id : RuleId)
    (after : ActiveContext) : Prop where
  planned : ∃ ns, before.snapshot.dynamicRuleIds = some ns ∧
    ns.allocate before.snapshot.occupied = .ok id
  applied : ∃ current operation next, WritesAll deps before current ∧ Keeps before current ∧
    operation.request.destination.ruleId = id ∧
    DuplicateApplied deps model current operation next ∧ Keeps current next ∧
    WritesAll deps next after ∧ Keeps next after

theorem PlanApplied.of_applied {before : ActiveContext} (operation : DecodedDuplicateOperation)
    (hns : before.snapshot.dynamicRuleIds = some ns)
    (hallocate : ns.allocate before.snapshot.occupied = .ok operation.request.destination.ruleId)
    (happlied : DuplicateApplied deps model before operation after)
    (hkeeps : Keeps before after) :
    PlanApplied deps model before operation.request.destination.ruleId after where
  planned := ⟨ns, hns, hallocate⟩
  applied := ⟨before, operation, after, .refl, List.Subset.refl _, rfl, happlied, hkeeps, .refl,
    List.Subset.refl _⟩

inductive PlanRun (deps : Deps) (model : CoreconfModel) :
    ActiveContext → List RuleId → ActiveContext → Prop
  | nil {active} : PlanRun deps model active [] active
  | cons {before middle after} {id : RuleId} {ids : List RuleId} :
      PlanApplied deps model before id middle → PlanRun deps model middle ids after →
      PlanRun deps model before (id :: ids) after

structure Managed (deps : Deps) (model : CoreconfModel) (ns : DynamicRuleIdNamespace)
    (active : ActiveContext) : Prop where
  sound : ∃ initial, ActiveContext.Sound deps initial active
  dynamicRuleIds : active.recipe.dynamicRuleIds = some ns
  loaded : deps.rustconf.coreconfModel active.recipe.sidJson = .ok model
  explicit : LoadsExplicit deps active.recipe.sidJson
  treeRules : LoadsTreeRules deps active.recipe.sidJson

theorem Managed.writes (hwrites : WritesAll deps active active')
    (h : Managed deps model ns active) : Managed deps model ns active' := by
  have hrecipe := hwrites.recipe_eq
  obtain ⟨initial, hsound⟩ := h.sound
  exact ⟨⟨initial, hwrites.sound hsound⟩, hrecipe ▸ h.dynamicRuleIds, hrecipe ▸ h.loaded,
    hrecipe ▸ h.explicit, hrecipe ▸ h.treeRules⟩

theorem Managed.allocatable (h : Managed deps model ns active) :
    Allocatable ns active.snapshot.occupied := by
  obtain ⟨_, hsound⟩ := h.sound
  exact hsound.current.allocatable h.explicit h.dynamicRuleIds

theorem DuplicateApplied.installed (h : Managed deps model ns active)
    (happlied : DuplicateApplied deps model active operation active') :
    operation.request.destination.ruleId ∈ active'.snapshot.occupied := by
  obtain ⟨tree, expectedRule, prepared, haccepted, -, hstore⟩ := happlied
  obtain ⟨hprepared, hvalid⟩ := ActiveContext.prepareCandidate_ok haccepted.prepared
  have hpublish : Publishes deps active tree active' := ⟨prepared, hprepared, hvalid, hstore⟩
  have hafter : Managed deps model ns active' := h.writes (.single (.inr ⟨tree, hpublish⟩))
  obtain ⟨_, hsound⟩ := hafter.sound
  obtain ⟨model', hmodel', hencoded⟩ := hsound.current.encoded
  obtain ⟨registry, context, hregistry, hcontext, hrules, -⟩ := hsound.current.full
  cases hafter.loaded.symm.trans hmodel'
  obtain ⟨rule, hrule, hid⟩ := hafter.treeRules hafter.loaded hregistry
    (hencoded.congr hpublish.snapshot.1) hcontext haccepted.constructed
  exact List.mem_map.mpr ⟨rule, hrules ▸ hrule, hid⟩

/-- One step: the least free leaf is taken, and occupied from then on. -/
structure Takes (ns : DynamicRuleIdNamespace) (before : ActiveContext) (id : RuleId)
    (after : ActiveContext) : Prop where
  least : IsLeast (ns.freeLeaves before.snapshot.occupied) id
  keeps : Keeps before after
  installed : id ∈ after.snapshot.occupied

theorem PlanApplied.takes {id : RuleId} (h : Managed deps model ns before)
    (hstep : PlanApplied deps model before id after) :
    WritesAll deps before after ∧ Takes ns before id after := by
  obtain ⟨⟨ns', hns', hallocate⟩, current, operation, next, hbefore, hkeeps, rfl, happlied, hkeeps',
    hafter, hkeeps''⟩ := hstep
  obtain ⟨_, hsound⟩ := h.sound
  have hns : ns' = ns :=
    Option.some.inj (hns'.symm.trans (hsound.current_profile.trans h.dynamicRuleIds))
  subst hns
  obtain ⟨tree, -, hpublish⟩ := happlied.publishes
  have hwrite : WritesAll deps current next := .single (.inr ⟨tree, hpublish⟩)
  refine ⟨(hbefore.trans hwrite).trans hafter,
    h.allocatable.allocate_ok hallocate, fun id hid => hkeeps'' (hkeeps' (hkeeps hid)), hkeeps'' ?_⟩
  exact happlied.installed (h.writes hbefore)

theorem Takes.later {id later : RuleId} (h : Takes ns before id after)
    (hlater : later ∈ ns.freeLeaves after.snapshot.occupied) :
    later ∈ ns.freeLeaves before.snapshot.occupied ∧ id < later ∧ ¬RuleId.Overlap id later := by
  have hfree := DynamicRuleIdNamespace.freeLeaves_anti h.keeps hlater
  have hoverlap : ¬RuleId.Overlap later id := hlater.2 id h.installed
  refine ⟨hfree, lt_of_le_of_ne (h.least.2 hfree) fun heq => ?_, fun hid => hoverlap hid.symm⟩
  exact hoverlap (heq ▸ .refl)

/-- Along a run the allocated RuleIDs increase, and none starts another. -/
theorem PlanRun.pairwise (h : Managed deps model ns before)
    (hrun : PlanRun deps model before ids after) :
    (∀ id ∈ ids, id ∈ ns.freeLeaves before.snapshot.occupied) ∧
      ids.Pairwise fun earlier later => earlier < later ∧ ¬RuleId.Overlap earlier later := by
  induction hrun with
  | nil => exact ⟨fun _ hid => absurd hid List.not_mem_nil, .nil⟩
  | cons hstep _ ih =>
    obtain ⟨hwrites, htakes⟩ := hstep.takes h
    obtain ⟨hfree, hpairwise⟩ := ih (h.writes hwrites)
    refine ⟨fun id hid => ?_, .cons (fun later hlater => (htakes.later (hfree later hlater)).2)
      hpairwise⟩
    rcases List.mem_cons.mp hid with rfl | hid
    · exact htakes.least.1
    · exact (htakes.later (hfree id hid)).1

/-- The planner goes on as long as the allocator answers. -/
def PlansOn (deps : Deps) (model : CoreconfModel) (ns : DynamicRuleIdNamespace)
    (contexts : Nat → ActiveContext) : Prop :=
  ∀ n id, ns.allocate (contexts n).snapshot.occupied = .ok id →
    PlanApplied deps model (contexts n) id (contexts (n + 1))

/-- There are finitely many leaves, and each step takes a larger one. -/
theorem PlansOn.exhausted {contexts : Nat → ActiveContext} (h : Managed deps model ns (contexts 0))
    (hplans : PlansOn deps model ns contexts) :
    ∃ n, ns.allocate (contexts n).snapshot.occupied = .error .exhausted := by
  by_contra hnever
  have hallocates : ∀ n, Managed deps model ns (contexts n) →
      ∃ id, ns.allocate (contexts n).snapshot.occupied = .ok id := fun n hmanaged => by
    rcases hmanaged.allocatable.allocate_cases with ⟨id, hid, -⟩ | hexhausted
    · exact ⟨id, hid⟩
    · exact absurd ⟨n, hexhausted⟩ hnever
  have hmanaged : ∀ n, Managed deps model ns (contexts n) := fun n => by
    induction n with
    | zero => exact h
    | succ n ih =>
      obtain ⟨id, hid⟩ := hallocates n ih
      exact ih.writes ((hplans n id hid).takes ih).1
  choose taken htaken using fun n => hallocates n (hmanaged n)
  have hleast : ∀ n, IsLeast (ns.freeLeaves (contexts n).snapshot.occupied) (taken n) := fun n =>
    (hmanaged n).allocatable.allocate_ok (htaken n)
  have hmono : StrictMono taken := strictMono_nat_of_lt_succ fun n =>
    (((hplans n _ (htaken n)).takes (hmanaged n)).2.later (hleast (n + 1)).1).2.1
  exact Set.infinite_of_injective_forall_mem hmono.injective (fun n => (hleast n).1.1)
    ns.leaves_finite

-- ---------------------------------------------------------------------------
-- Allocation over runs
-- ---------------------------------------------------------------------------

/-- On every reachable snapshot the allocator and the application of a duplicate agree,
and plan-then-apply runs hand out ever larger RuleIDs until none is left. -/
theorem allocation_over_runs {recipe : ContextRecipe} {snapshot : ContextSnapshot}
    (hexplicit : LoadsExplicit deps recipe.sidJson)
    (htreeRules : LoadsTreeRules deps recipe.sidJson)
    (hmodel : deps.rustconf.coreconfModel recipe.sidJson = .ok model)
    (hreached : Reached deps recipe source prepared active)
    (hns : active.recipe.dynamicRuleIds = some ns)
    (hsnapshot : snapshot ∈ active.snapshots.values) :
    snapshot.dynamicRuleIds = some ns ∧
    (∀ message, ns.allocate snapshot.occupied ≠ .error (.invalid message)) ∧
    (∀ value length, ns.allocate snapshot.occupied ≠ .error (.collision value length)) ∧
    (∀ id, ns.allocate snapshot.occupied = .ok id → AllocatedIn snapshot id) ∧
    (∀ ids after, PlanRun deps model active ids after →
      ids.Pairwise fun earlier later => earlier < later ∧ ¬RuleId.Overlap earlier later) ∧
    ∀ contexts : Nat → ActiveContext, contexts 0 = active → PlansOn deps model ns contexts →
      ∃ n, ns.allocate (contexts n).snapshot.occupied = .error .exhausted := by
  have hsid := hreached.sidJson
  have hmanaged : Managed deps model ns active := ⟨⟨_, hreached.sound⟩, hns, hsid.symm ▸ hmodel,
    hsid.symm ▸ hexplicit, hsid.symm ▸ htreeRules⟩
  have hderived := hreached.sound.data snapshot hsnapshot
  have hprofile := (hreached.sound.profile snapshot hsnapshot).trans hns
  have hcases := (hderived.allocatable hmanaged.explicit hns).allocate_cases
  refine ⟨hprofile, fun message hinvalid => ?_, fun value length hcollision => ?_,
    fun id => AllocatedIn.of_allocate hderived hmanaged.explicit hns hprofile,
    fun ids after hrun => (hrun.pairwise hmanaged).2, ?_⟩
  · rcases hcases with ⟨id, hid, -⟩ | hexhausted
    · exact nomatch hid.symm.trans hinvalid
    · exact nomatch hexhausted.symm.trans hinvalid
  · rcases hcases with ⟨id, hid, -⟩ | hexhausted
    · exact nomatch hid.symm.trans hcollision
    · exact nomatch hexhausted.symm.trans hcollision
  · rintro contexts rfl hplans
    exact hplans.exhausted hmanaged

section
open Fixture

def dynamicNamespace : DynamicRuleIdNamespace where
  prefixSpec := { value := 32, length := 7 }
  allowedLengths := [8]

def dynamicRecipe : ContextRecipe := { recipe with dynamicRuleIds := some dynamicNamespace }

def rulesFilled : List Rule := [application 20 5, application 64 7, application 65 8, management]

def filledWorld : World where
  complete := duplicateWorld.complete ++ [rulesFilled]
  digests := duplicateWorld.digests ++ [
    ⟨#[209, 1, 214, 162, 91, 24, 105, 226, 113, 127, 213, 53, 57, 157, 232, 207, 194, 134, 172, 57,
      119, 42, 84, 87, 7, 67, 248, 228, 22, 30, 77, 96], rfl⟩]
  requests := []

theorem filledWorld_checked : filledWorld.Checked :=
  .of_checks (by decide +kernel) (by decide +kernel) (by decide +kernel) (by decide +kernel)

def applied (active : ActiveContext) (operation : DecodedDuplicateOperation) : ActiveContext :=
  (applyDuplicateOperation (deps filledWorld) (coreconfModel filledWorld) active operation).state

def filling (prepared : PreparedContext) : Nat → ActiveContext
  | 0 => .new prepared
  | 1 => applied (.new prepared) duplicateOperation
  | _ + 2 => applied (applied (.new prepared) duplicateOperation) nextOperation

theorem filled_evaluated : holds (PreparedContext.fromSource (deps filledWorld) dynamicRecipe
    (.sor (sorBytes rulesBefore))) (fun prepared =>
      prepared.recipe.dynamicRuleIds = some dynamicNamespace &&
      (List.range 3).all (fun n => (filling prepared n).snapshot.generation = n + 1 &&
        (filling prepared n).snapshot.dynamicRuleIds = some dynamicNamespace &&
        (filling prepared n).snapshot.occupied =
          ([rulesBefore, rulesCopied, rulesFilled].getD n []).map (·.id))) = true := by
  decide +kernel

/-- Two duplicates take both RuleIDs of the namespace, and exhaust it. -/
theorem allocation_over_runs_exhausted : ∃ prepared : PreparedContext,
    let ids : List RuleId := [{ value := 64, bitLen := 8 }, { value := 65, bitLen := 8 }]
    PlanRun (deps filledWorld) (coreconfModel filledWorld) (.new prepared) ids
      (filling prepared 2) ∧
    PlansOn (deps filledWorld) (coreconfModel filledWorld) dynamicNamespace (filling prepared) ∧
    AllocatedIn (ActiveContext.new prepared).snapshot { value := 64, bitLen := 8 } ∧
    ids.Pairwise (fun earlier later => earlier < later ∧ ¬RuleId.Overlap earlier later) ∧
    ∃ n, dynamicNamespace.allocate (filling prepared n).snapshot.occupied =
      .error .exhausted := by
  obtain ⟨prepared, hprepared, heval⟩ := holds_iff.mp filled_evaluated
  simp only [Bool.and_eq_true, decide_eq_true_eq, List.all_eq_true, List.mem_range] at heval
  obtain ⟨hns, hfilled⟩ := heval
  obtain ⟨⟨hfirst, hns₀⟩, hids₀⟩ := hfilled 0 (by decide)
  obtain ⟨⟨hsecond, hns₁⟩, hids₁⟩ := hfilled 1 (by decide)
  obtain ⟨⟨hthird, -⟩, hids₂⟩ := hfilled 2 (by decide)
  have hfree : dynamicNamespace.allocate (filling prepared 0).snapshot.occupied =
      .ok { value := 64, bitLen := 8 } := by
    rw [hids₀]
    decide +kernel
  have hnextFree : dynamicNamespace.allocate (filling prepared 1).snapshot.occupied =
      .ok { value := 65, bitLen := 8 } := by
    rw [hids₁]
    decide +kernel
  have hfull : dynamicNamespace.allocate (filling prepared 2).snapshot.occupied =
      .error .exhausted := by
    rw [hids₂]
    decide +kernel
  have hstep : PlanApplied (deps filledWorld) (coreconfModel filledWorld) (filling prepared 0)
      { value := 64, bitLen := 8 } (filling prepared 1) :=
    .of_applied duplicateOperation hns₀ hfree
      (.of_generation (hsecond.trans_ne (by rw [hfirst]; decide)))
      (by rw [Keeps, hids₀, hids₁]; decide)
  have hnext : PlanApplied (deps filledWorld) (coreconfModel filledWorld) (filling prepared 1)
      { value := 65, bitLen := 8 } (filling prepared 2) :=
    .of_applied nextOperation hns₁ hnextFree
      (.of_generation (hthird.trans_ne (by rw [hsecond]; decide)))
      (by rw [Keeps, hids₁, hids₂]; decide)
  have hplans : PlansOn (deps filledWorld) (coreconfModel filledWorld) dynamicNamespace
      (filling prepared) := by
    intro n id hid
    rcases n with _ | _ | n
    · cases hfree.symm.trans hid
      exact hstep
    · cases hnextFree.symm.trans hid
      exact hnext
    · exact nomatch hfull.symm.trans hid
  have hreached : Reached (deps filledWorld) dynamicRecipe (.sor (sorBytes rulesBefore)) prepared
      (.new prepared) := .of_source (service filledWorld) hprepared
  have hruns := allocation_over_runs (loadsExplicit filledWorld_checked)
    (loadsTreeRules filledWorld_checked) rfl hreached hns (ActiveContext.mem_values_new.mpr rfl)
  obtain ⟨-, -, -, hallocated, hpairwise, hexhausted⟩ := hruns
  have hrun := PlanRun.cons hstep (.cons hnext .nil)
  exact ⟨prepared, hrun, hplans, hallocated _ hfree, hpairwise _ _ hrun, hexhausted _ rfl hplans⟩

end

end SchcCoreconf
