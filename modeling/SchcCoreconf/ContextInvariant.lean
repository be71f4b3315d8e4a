import SchcCoreconf.Assumptions
import Mathlib.Logic.Relation

/-!
# What every snapshot satisfies

A prepared context is derived from one canonical tree: its bytes encode the
tree, its digest and tag identify both, its rules are those read from the bytes.
All three writers of an active context publish a candidate built from a tree and
validated against the current snapshot (`Writes`), so the derivation and the
protected rules survive every write.
-/

namespace SchcCoreconf

open Fallible

-- ---------------------------------------------------------------------------
-- The rule list of a SoR
-- ---------------------------------------------------------------------------

theorem findSome?_setCborMapEntry {entries : List (Cbor × Cbor)}
    (h : (entries.findSome? fun (key, value) => if key.asI64 = some sid then some value else none) =
      some old) :
    ((setCborMapEntry sid next entries).findSome? fun (key, value) =>
      if key.asI64 = some sid then some value else none) = some next := by
  induction entries with
  | nil => cases h
  | cons entry rest ih =>
    obtain ⟨key, value⟩ := entry
    by_cases hkey : key.asI64 = some sid
    · simp [setCborMapEntry, hkey]
    · simp only [setCborMapEntry, if_neg hkey, List.findSome?_cons] at h ⊢
      exact ih h

theorem cborMapValue_setCborMapValue (h : cborMapValue value sid = some old) :
    cborMapValue (setCborMapValue value sid next) sid = some next := by
  cases value with
  | map entries => exact findSome?_setCborMapEntry h
  | _ => cases h

theorem RuleSids.rules_setRules {sids : RuleSids} (h : sids.rules value = .ok members) :
    sids.rules (sids.setRules value members') = .ok members' := by
  simp only [rules, bind_ok, need_ok] at h
  obtain ⟨root, hroot, hlist⟩ := h
  obtain ⟨list, hlist, -⟩ := Option.bind_eq_some_iff.mp hlist
  simp only [rules, setRules, hroot, bind_ok, need_ok]
  refine ⟨_, cborMapValue_setCborMapValue hroot, ?_⟩
  rw [cborMapValue_setCborMapValue hlist]
  rfl

theorem forall₂_filter {read : α → Option β} {keep : α → Bool} {pass : β → Bool}
    (hkeep : ∀ a b, read a = some b → keep a = pass b)
    (hall : List.Forall₂ (fun a b => read a = some b) as bs)
    (hkept : List.Forall₂ (fun a b => read a = some b) (as.filter keep) bs') :
    bs' = bs.filter pass := by
  induction hall generalizing bs' with
  | nil =>
    cases hkept
    rfl
  | @cons a b as bs hab _ ih =>
    rw [List.filter_cons, hkeep a b hab] at hkept
    rw [List.filter_cons]
    split at hkept
    · next hpass =>
      rw [if_pos hpass]
      cases hkept with
      | cons hab' hrest => rw [Option.some.inj (hab'.symm.trans hab), ih hrest]
    · next hpass =>
      rw [if_neg hpass]
      exact ih hkept

-- ---------------------------------------------------------------------------
-- Loading
-- ---------------------------------------------------------------------------

/-- The parts of a loaded context that its tree determines. -/
structure LoadedContext.Consistent (deps : Deps) (sidJson : String) (loaded : LoadedContext) :
    Prop where
  model : deps.rustconf.coreconfModel sidJson = .ok loaded.model
  registry : deps.rschc.sidRegistry sidJson = .ok loaded.sidRegistry
  canonical : Canonical loaded.tree
  encoded : EncodedAs deps.ciborium loaded.model loaded.tree loaded.sor
  decoded : ∃ read, loaded.model.toValue loaded.sor = .ok read ∧
    normalizeTree read = .ok loaded.tree
  rules : loaded.sidRegistry.ruleContext loaded.sor = .ok loaded.ruleContext
  derived : ProtectedRules.derive deps.rschc loaded.ruleContext = .ok loaded.protectedRules

theorem LoadedContext.fromSor_ok {sor : Bytes}
    (h : LoadedContext.fromSor deps sidJson sor = .ok loaded) :
    loaded.Consistent deps sidJson := by
  simp only [fromSor, bind_ok, mapError_ok, need_ok, ensure_ok, pure_ok] at h
  obtain ⟨model, hmodel, registry, hregistry, _, -, _, -, _, -, _, -, initial, -, bytes, hbytes, _,
    -, read, hread, canonical, hcanonical, _, hsame, context, hcontext, derived, hderived, _, -,
    rfl⟩ := h
  exact ⟨hmodel, hregistry, canonical_of_normalizeTree hcanonical,
    ⟨initial, Json.beq_symm hsame, hbytes⟩, ⟨read, hread, hcanonical⟩, hcontext, hderived⟩

theorem ContextSource.load_ok {source : ContextSource} (h : source.load deps sidJson = .ok loaded) :
    loaded.Consistent deps sidJson ∧
      ∀ candidate, source = .tree candidate → (loaded.tree == candidate) = true := by
  cases source with
  | sor bytes => exact ⟨LoadedContext.fromSor_ok h, fun _ hsource => nomatch hsource⟩
  | tree candidate =>
    simp only [load, bind_ok, mapError_ok, ensure_ok, pure_ok] at h
    obtain ⟨_, -, _, -, _, hnormal, _, -, _, hloaded, _, htree, rfl⟩ := h
    refine ⟨LoadedContext.fromSor_ok hloaded, fun other hsource => ?_⟩
    cases hsource
    exact Json.beq_trans htree hnormal

theorem applicationRuntime_built (h : applicationRuntime deps recipe loaded = .ok (runtime, ids)) :
    ∃ context, deps.rschc.runtime recipe.deviceId context recipe.profile = .ok runtime := by
  unfold applicationRuntime at h
  split at h
  · simp only [bind_ok, mapError_ok, pure_ok, Prod.mk.injEq] at h
    obtain ⟨_, hruntime, rfl, -⟩ := h
    exact ⟨_, hruntime⟩
  · simp only [bind_ok, mapError_ok, pure_ok, Prod.mk.injEq] at h
    obtain ⟨_, -, _, -, _, -, _, -, context, -, _, hruntime, rfl, -⟩ := h
    exact ⟨context, hruntime⟩

theorem applicationRuntime_ok (hreads : ReadsRuleByRule deps recipe.sidJson)
    (hloaded : loaded.Consistent deps recipe.sidJson)
    (h : applicationRuntime deps recipe loaded = .ok (runtime, ids)) :
    ∃ context, deps.rschc.runtime recipe.deviceId context recipe.profile = .ok runtime ∧
      context.rules = loaded.ruleContext.rules.filter
        (fun rule => !loaded.protectedRules.contains rule.id) ∧
      ids = context.rules.map (·.id) := by
  unfold applicationRuntime at h
  split at h
  · next hempty =>
    simp only [bind_ok, mapError_ok, pure_ok, Prod.mk.injEq] at h
    obtain ⟨_, hruntime, rfl, rfl⟩ := h
    refine ⟨loaded.ruleContext, hruntime, ?_, rfl⟩
    -- nothing is protected, so nothing is filtered
    have hnone : ∀ id, loaded.protectedRules.contains id = false := fun id => by
      rw [← Bool.not_eq_true, ProtectedRules.contains_iff, List.isEmpty_iff.mp hempty]
      exact List.not_mem_nil
    simp [hnone]
  · simp only [bind_ok, mapError_ok, pure_ok, Prod.mk.injEq] at h
    obtain ⟨⟨value, position⟩, hvalue, sids, hsids, members, hmembers, bytes, hbytes, context,
      hcontext, _, hruntime, rfl, rfl⟩ := h
    obtain ⟨readRule, hid, hread⟩ := hreads.memberwise hloaded.model hloaded.registry hsids
    refine ⟨context, hruntime, ?_, rfl⟩
    obtain ⟨_, _, all, hreader, hall, hrules⟩ := hread _ _ hloaded.rules
    obtain ⟨_, _, kept, hreader', hkept, hrules'⟩ := hread _ _ hcontext
    obtain ⟨_, hreread⟩ := hreads.reread _ hloaded.model hsids hvalue hmembers hbytes
    obtain ⟨rfl, -⟩ := Prod.mk.inj (Except.ok.inj (hvalue.symm.trans hreader))
    obtain ⟨rfl, -⟩ := Prod.mk.inj (Except.ok.inj (hreread.symm.trans hreader'))
    cases hmembers.symm.trans hall
    cases (RuleSids.rules_setRules hmembers).symm.trans hkept
    refine forall₂_filter (fun member rule hrule => ?_) hrules hrules'
    rw [RuleSids.unprotected, hid member rule hrule]

-- ---------------------------------------------------------------------------
-- Prepared contexts
-- ---------------------------------------------------------------------------

/-- The parts of a context that its bytes and its recipe determine. -/
structure ContextData.Derived (deps : Deps) (recipe : ContextRecipe) (data : ContextData) :
    Prop where
  canonical : Canonical data.tree
  encoded : ∃ model, deps.rustconf.coreconfModel recipe.sidJson = .ok model ∧
    EncodedAs deps.ciborium model data.tree data.sor
  decoded : ∃ model read, deps.rustconf.coreconfModel recipe.sidJson = .ok model ∧
    model.toValue data.sor = .ok read ∧ normalizeTree read = .ok data.tree
  digest : digestContext deps data.tree data.sor = .ok data.digest
  tag : data.tag = contextTag data.digest
  ruleIds : data.ruleIds = data.rules.map (·.id)
  /-- The rules are those of the bytes, and so are the protected ones and the runtime. -/
  full : ∃ registry context, deps.rschc.sidRegistry recipe.sidJson = .ok registry ∧
    registry.ruleContext data.sor = .ok context ∧ data.rules = context.rules ∧
    ProtectedRules.derive deps.rschc context = .ok data.protectedRules ∧
    deps.rschc.runtime recipe.deviceId context recipe.profile = .ok data.runtime
  application : ∃ context,
    deps.rschc.runtime recipe.deviceId context recipe.profile = .ok data.applicationRuntime
  /-- The dynamic namespace is in normal form, and no rule strays onto its branch. -/
  inNamespace : ∀ ns, recipe.dynamicRuleIds = some ns → ns.validate = .ok ns ∧
    ∀ rule ∈ data.rules, overlaps rule.id ns.prefixSpec.ruleId = true → ns.accepts rule.id = true

structure ContextData.ApplicationSplit (deps : Deps) (recipe : ContextRecipe) (data : ContextData) :
    Prop where
  ruleIds : data.applicationRuleIds =
    data.ruleIds.filter fun id => !data.protectedRules.contains id
  runtime : ∃ context,
    deps.rschc.runtime recipe.deviceId context recipe.profile = .ok data.applicationRuntime ∧
    context.rules = data.rules.filter fun rule => !data.protectedRules.contains rule.id

theorem ContextData.Derived.protected_mem {recipe : ContextRecipe}
    {data : ContextData} {id : RuleId} (h : data.Derived deps recipe)
    (hid : id ∈ data.protectedRules.ids) : id ∈ data.ruleIds := by
  obtain ⟨_, context, -, -, hrules, hderive, -⟩ := h.full
  rw [(ProtectedRules.derive_ok hderive).1, ProtectedRules.mem_managementIds] at hid
  obtain ⟨rule, hmem, -, rfl⟩ := hid
  rw [h.ruleIds, hrules]
  exact List.mem_map_of_mem hmem

theorem ContextData.Derived.floatFree {recipe : ContextRecipe} {data : ContextData}
    (h : data.Derived deps recipe) (hfloats : ReadsNoFloats deps recipe.sidJson) :
    data.tree.FloatFree := by
  obtain ⟨model, read, hmodel, hread, hnormal⟩ := h.decoded
  exact normalizeValue_allFloats read hnormal (hfloats model _ read hmodel hread)

theorem sortDedup_idempotent [LinearOrder α] {l : List α} :
    Sorted.sortDedup (· ≤ ·) (Sorted.sortDedup (· ≤ ·) l) = Sorted.sortDedup (· ≤ ·) l :=
  Sorted.sortDedup_congr fun _ => Sorted.mem_sortDedup

theorem validate_normal (h : DynamicRuleIdNamespace.validate ns = .ok normal) :
    normal.validate = .ok normal := by
  obtain ⟨hns, rfl⟩ := DynamicRuleIdNamespace.validate_ok.mp h
  refine DynamicRuleIdNamespace.validate_ok.mpr ⟨hns.normalize, ?_⟩
  simp only [DynamicRuleIdNamespace.normalize, sortDedup_idempotent]

theorem bindRecipe_ok (h : bindRecipe recipe rules = .ok bound) :
    bound.sidJson = recipe.sidJson ∧ bound.deviceId = recipe.deviceId ∧
      bound.profile = recipe.profile ∧
      ∀ ns, bound.dynamicRuleIds = some ns → ns.validate = .ok ns ∧
        ∀ rule ∈ rules, overlaps rule.id ns.prefixSpec.ruleId = true →
        ns.accepts rule.id = true := by
  unfold bindRecipe at h
  split at h
  · next hnone =>
    cases h
    exact ⟨rfl, rfl, rfl, fun ns hns => by simp [hnone] at hns⟩
  · simp only [bind_ok, mapError_ok, pure_ok] at h
    obtain ⟨normal, hvalid, _, hrules, rfl⟩ := h
    refine ⟨rfl, rfl, rfl, fun ns hns => ?_⟩
    cases hns
    refine ⟨validate_normal hvalid, fun rule hrule hoverlap => ?_⟩
    obtain ⟨_, hcheck⟩ := forall₂_left (collect_ok_iff.mp hrules) hrule
    rw [checkNamespace, ensure_ok, hoverlap] at hcheck
    simpa using hcheck

namespace PreparedContext

theorem fromLoaded_ok {recipe : ContextRecipe} (hloaded : loaded.Consistent deps recipe.sidJson)
    (h : fromLoaded deps recipe loaded = .ok prepared) :
    prepared.data.Derived deps prepared.recipe ∧ prepared.recipe.sidJson = recipe.sidJson ∧
      prepared.data.tree = loaded.tree ∧ prepared.data.sor = loaded.sor ∧
      prepared.data.protectedRules = loaded.protectedRules := by
  simp only [fromLoaded, bind_ok, mapError_ok, pure_ok] at h
  obtain ⟨bound, hbound, runtime, hruntime, ⟨appRuntime, ids⟩, happ, digest, hdigest, rfl⟩ := h
  obtain ⟨hsid, -, -, hns⟩ := bindRecipe_ok hbound
  rw [← hsid] at hloaded
  obtain ⟨read, hread, hnormal⟩ := hloaded.decoded
  exact ⟨⟨hloaded.canonical, ⟨loaded.model, hloaded.model, hloaded.encoded⟩,
    ⟨loaded.model, read, hloaded.model, hread, hnormal⟩, hdigest, rfl, rfl,
    ⟨loaded.sidRegistry, loaded.ruleContext, hloaded.registry, hloaded.rules, rfl, hloaded.derived,
      hruntime⟩, applicationRuntime_built happ, hns⟩, hsid, rfl, rfl, rfl⟩

theorem fromLoaded_split {recipe : ContextRecipe} (hreads : ReadsRuleByRule deps recipe.sidJson)
    (hloaded : loaded.Consistent deps recipe.sidJson)
    (h : fromLoaded deps recipe loaded = .ok prepared) :
    prepared.data.ApplicationSplit deps prepared.recipe := by
  simp only [fromLoaded, bind_ok, mapError_ok, pure_ok] at h
  obtain ⟨bound, hbound, _, -, ⟨appRuntime, ids⟩, happ, _, -, rfl⟩ := h
  obtain ⟨hsid, -, -, -⟩ := bindRecipe_ok hbound
  rw [← hsid] at hreads hloaded
  obtain ⟨appContext, happRuntime, happRules, rfl⟩ := applicationRuntime_ok hreads hloaded happ
  refine ⟨?_, appContext, happRuntime, happRules⟩
  rw [happRules, List.filter_map]
  rfl

theorem fromSource_ok {recipe : ContextRecipe}
    (h : fromSource deps recipe source = .ok prepared) :
    prepared.data.Derived deps prepared.recipe ∧ prepared.recipe.sidJson = recipe.sidJson ∧
      ∀ candidate, source = .tree candidate → (prepared.data.tree == candidate) = true := by
  simp only [fromSource, bind_ok] at h
  obtain ⟨loaded, hload, h⟩ := h
  obtain ⟨hconsistent, htree⟩ := ContextSource.load_ok hload
  obtain ⟨hderived, hsid, hsame, -⟩ := fromLoaded_ok hconsistent h
  exact ⟨hderived, hsid, fun candidate hsource => hsame ▸ htree candidate hsource⟩

theorem fromSource_split {recipe : ContextRecipe} (hreads : ReadsRuleByRule deps recipe.sidJson)
    (h : fromSource deps recipe source = .ok prepared) :
    prepared.data.ApplicationSplit deps prepared.recipe := by
  simp only [fromSource, bind_ok] at h
  obtain ⟨loaded, hload, h⟩ := h
  exact fromLoaded_split hreads (ContextSource.load_ok hload).1 h

/-- Contexts of one source and one SID document have one tree, and protect the same rules. -/
theorem fromSource_congr {recipe recipe' : ContextRecipe}
    (hsid : recipe.sidJson = recipe'.sidJson) (h : fromSource deps recipe source = .ok prepared)
    (h' : fromSource deps recipe' source = .ok prepared') :
    prepared.data.tree = prepared'.data.tree ∧ prepared.data.sor = prepared'.data.sor ∧
      prepared.data.protectedRules = prepared'.data.protectedRules := by
  simp only [fromSource, bind_ok, hsid] at h h'
  obtain ⟨loaded, hload, h⟩ := h
  obtain ⟨loaded', hload', h'⟩ := h'
  cases hload.symm.trans hload'
  have hconsistent := (ContextSource.load_ok hload).1
  obtain ⟨-, -, htree', hsor', hprotected'⟩ := fromLoaded_ok hconsistent h'
  rw [← hsid] at hconsistent
  obtain ⟨-, -, htree, hsor, hprotected⟩ := fromLoaded_ok hconsistent h
  exact ⟨htree.trans htree'.symm, hsor.trans hsor'.symm, hprotected.trans hprotected'.symm⟩

theorem fromTreeForRecipe_tree {recipe : ContextRecipe}
    (hfloats : ReadsNoFloats deps recipe.sidJson)
    (h : fromTreeForRecipe deps recipe tree = .ok prepared) : prepared.data.tree = tree := by
  obtain ⟨hderived, hsid, htree⟩ := fromSource_ok h
  exact ((hderived.floatFree (hsid ▸ hfloats)).zeroFree.eq_of_beq
    (Json.beq_symm (htree tree rfl))).symm

end PreparedContext

-- ---------------------------------------------------------------------------
-- Writing
-- ---------------------------------------------------------------------------

namespace ActiveContext

theorem validateCandidate_ok {self : ActiveContext}
    (h : self.validateCandidate deps current prepared = .ok u) :
    prepared.recipe = self.recipe ∧
      current.data.protectedRules = prepared.data.protectedRules := by
  simp only [validateCandidate, bind_ok, ensure_ok, decide_eq_true_eq] at h
  obtain ⟨_, hrecipe, _, -, _, -, henforce⟩ := h
  exact ⟨hrecipe, ProtectedRules.eq_of_enforce henforce⟩

theorem publishLocked_eq_some {self : ActiveContext}
    (h : self.publishLocked prepared = some active') :
    self.snapshot.generation + 1 < 2 ^ 64 ∧ active' = { self with
      snapshots := self.snapshots.store
        (.fromPrepared prepared (self.snapshot.generation + 1)) } := by
  simp only [publishLocked] at h
  split at h
  · next hlt => exact ⟨hlt, (Option.some.inj h).symm⟩
  · cases h

/-- One publication: a candidate tree was prepared, validated against the
current snapshot, and stored in its place. -/
def Publishes (deps : Deps) (active : ActiveContext) (tree : Json) (active' : ActiveContext) :
    Prop :=
  ∃ prepared, PreparedContext.fromTreeForRecipe deps active.recipe tree = .ok prepared ∧
    active.validateCandidate deps active.snapshot prepared = .ok () ∧
    active.publishLocked prepared = some active'

/-- What a writer may do to the context: nothing, or one publication. -/
def Writes (deps : Deps) (active active' : ActiveContext) : Prop :=
  active' = active ∨ ∃ tree, Publishes deps active tree active'

/-- Every snapshot is derived from its tree, numbered by the publications before
it, and protects the rules `initial`. -/
structure Sound (deps : Deps) (initial : ProtectedRules) (active : ActiveContext) : Prop where
  data : ∀ snapshot ∈ active.snapshots.values, snapshot.data.Derived deps active.recipe
  protectedRules : ∀ snapshot ∈ active.snapshots.values, snapshot.data.protectedRules = initial
  profile : ∀ snapshot ∈ active.snapshots.values,
    snapshot.dynamicRuleIds = active.recipe.dynamicRuleIds
  generation : ∀ later snapshot earlier,
    active.snapshots.values = later ++ snapshot :: earlier →
      snapshot.generation = 1 + earlier.length

theorem Sound.current (h : Sound deps initial active) :
    active.snapshot.data.Derived deps active.recipe := h.data _ List.mem_cons_self

theorem Sound.current_protectedRules (h : Sound deps initial active) :
    active.snapshot.data.protectedRules = initial := h.protectedRules _ List.mem_cons_self

theorem Sound.current_profile (h : Sound deps initial active) :
    active.snapshot.dynamicRuleIds = active.recipe.dynamicRuleIds := h.profile _ List.mem_cons_self

theorem Sound.current_generation (h : Sound deps initial active) :
    active.snapshot.generation = 1 + active.snapshots.stores :=
  h.generation [] _ _ rfl

@[simp] theorem mem_values_new {snapshot : ContextSnapshot} :
    snapshot ∈ (ActiveContext.new prepared).snapshots.values ↔
      snapshot = .fromPrepared prepared 1 := by
  simp [new, ArcSwap.fromPointee, ArcSwap.values]

theorem sound_new {recipe : ContextRecipe}
    (h : PreparedContext.fromSource deps recipe source = .ok prepared) :
    Sound deps prepared.data.protectedRules (ActiveContext.new prepared) where
  data snapshot hmem := by
    rw [mem_values_new.mp hmem]
    exact (PreparedContext.fromSource_ok h).1
  protectedRules snapshot hmem := by
    rw [mem_values_new.mp hmem]
    rfl
  profile snapshot hmem := by
    rw [mem_values_new.mp hmem]
    rfl
  generation later snapshot earlier hsplit := by
    simp only [new, ArcSwap.fromPointee, ArcSwap.values] at hsplit
    rcases List.cons_eq_append_iff.mp hsplit with ⟨-, hone⟩ | ⟨_, -, hnone⟩
    · cases hone
      rfl
    · simp at hnone

theorem sound_publishes (h : Sound deps initial active)
    (hpub : Publishes deps active tree active') : Sound deps initial active' := by
  obtain ⟨prepared, hprepared, hvalid, hstore⟩ := hpub
  obtain ⟨-, rfl⟩ := publishLocked_eq_some hstore
  obtain ⟨hrecipe, hprotected⟩ := validateCandidate_ok hvalid
  have hderived := (PreparedContext.fromSource_ok hprepared).1
  rw [hrecipe] at hderived
  refine ⟨?_, ?_, ?_, ?_⟩
  · intro snapshot hmem
    rcases (ArcSwap.mem_values_store _).mp hmem with rfl | hmem
    · exact hderived
    · exact h.data snapshot hmem
  · intro snapshot hmem
    rcases (ArcSwap.mem_values_store _).mp hmem with rfl | hmem
    · exact hprotected.symm.trans h.current_protectedRules
    · exact h.protectedRules snapshot hmem
  · intro snapshot hmem
    rcases (ArcSwap.mem_values_store _).mp hmem with rfl | hmem
    · exact congrArg ContextRecipe.dynamicRuleIds hrecipe
    · exact h.profile snapshot hmem
  · intro later snapshot earlier hsplit
    rcases List.cons_eq_append_iff.mp hsplit with ⟨-, hhead⟩ | ⟨later', -, htail⟩
    · obtain ⟨rfl, rfl⟩ := List.cons.inj hhead
      have hcurrent := h.current_generation
      simp only [ContextSnapshot.fromPrepared, ArcSwap.store, List.length_cons,
        ArcSwap.stores] at hcurrent ⊢
      omega
    · exact h.generation later' snapshot earlier htail

def Split (deps : Deps) (active : ActiveContext) : Prop :=
  ∀ snapshot ∈ active.snapshots.values, snapshot.data.ApplicationSplit deps active.recipe

theorem split_new {recipe : ContextRecipe} (hreads : ReadsRuleByRule deps recipe.sidJson)
    (h : PreparedContext.fromSource deps recipe source = .ok prepared) :
    Split deps (ActiveContext.new prepared) := fun snapshot hmem => by
  rw [mem_values_new.mp hmem]
  exact PreparedContext.fromSource_split hreads h

theorem split_publishes (hreads : ReadsRuleByRule deps active.recipe.sidJson)
    (h : Split deps active) (hpub : Publishes deps active tree active') : Split deps active' := by
  obtain ⟨prepared, hprepared, hvalid, hstore⟩ := hpub
  obtain ⟨-, rfl⟩ := publishLocked_eq_some hstore
  have hsplit := PreparedContext.fromSource_split hreads hprepared
  rw [(validateCandidate_ok hvalid).1] at hsplit
  intro snapshot hmem
  rcases (ArcSwap.mem_values_store _).mp hmem with rfl | hmem
  · exact hsplit
  · exact h snapshot hmem

theorem Publishes.recipe_eq (h : Publishes deps active tree active') :
    active'.recipe = active.recipe := by
  obtain ⟨_, _, _, hstore⟩ := h
  rw [(publishLocked_eq_some hstore).2]

theorem Publishes.snapshot (h : Publishes deps active tree active') :
    (active'.snapshot.data.tree == tree) = true ∧
      active'.snapshot.generation = active.snapshot.generation + 1 ∧
      active'.snapshots.previous = active.snapshots.values := by
  obtain ⟨prepared, hprepared, -, hstore⟩ := h
  obtain ⟨-, rfl⟩ := publishLocked_eq_some hstore
  exact ⟨(PreparedContext.fromSource_ok hprepared).2.2 tree rfl, rfl, rfl⟩

theorem Publishes.tree_eq (hfloats : ReadsNoFloats deps active.recipe.sidJson)
    (h : Publishes deps active tree active') : active'.snapshot.data.tree = tree := by
  obtain ⟨prepared, hprepared, -, hstore⟩ := h
  obtain ⟨-, rfl⟩ := publishLocked_eq_some hstore
  exact PreparedContext.fromTreeForRecipe_tree hfloats hprepared

-- ---------------------------------------------------------------------------
-- Any number of writes
-- ---------------------------------------------------------------------------

abbrev WritesAll (deps : Deps) : ActiveContext → ActiveContext → Prop :=
  Relation.ReflTransGen (Writes deps)

/-- What a publication preserves, any writes preserve. -/
theorem WritesAll.preserves {P : ActiveContext → Prop}
    (hstep : ∀ {active tree active'}, P active → Publishes deps active tree active' → P active')
    (hwrites : WritesAll deps active active') (h : P active) : P active' := by
  induction hwrites with
  | refl => exact h
  | tail _ hwrite ih =>
    rcases hwrite with rfl | ⟨tree, hpub⟩
    · exact ih
    · exact hstep ih hpub

theorem WritesAll.recipe_eq (h : WritesAll deps active active') : active'.recipe = active.recipe :=
  h.preserves (P := fun a => a.recipe = active.recipe)
    (fun hsame hpub => hpub.recipe_eq.trans hsame)
    rfl

theorem WritesAll.sound (hwrites : WritesAll deps active active') (h : Sound deps initial active) :
    Sound deps initial active' :=
  hwrites.preserves sound_publishes h

theorem WritesAll.split (hreads : ReadsRuleByRule deps active.recipe.sidJson)
    (hwrites : WritesAll deps active active') (h : Split deps active) : Split deps active' := by
  have hboth : active'.recipe = active.recipe ∧ Split deps active' :=
    hwrites.preserves (P := fun a => a.recipe = active.recipe ∧ Split deps a)
      (fun ⟨hsame, hsplit⟩ hpub => ⟨hpub.recipe_eq.trans hsame,
        split_publishes (hsame ▸ hreads) hsplit hpub⟩) ⟨rfl, h⟩
  exact hboth.2

end ActiveContext

-- ---------------------------------------------------------------------------
-- The backend is a writer
-- ---------------------------------------------------------------------------

theorem ActiveContext.commit_cases (self : ActiveContext) (answer : α)
    (candidate : Except ε PreparedContext) :
    ((∀ a, (self.commit answer candidate).result ≠ some (.ok a)) ∧
      (self.commit answer candidate).state = self) ∨
    ∃ prepared active', candidate = .ok prepared ∧ self.publishLocked prepared = some active' ∧
      self.commit answer candidate = { result := some (.ok answer), state := active' } := by
  cases candidate with
  | error error => exact .inl ⟨by simp [commit], rfl⟩
  | ok prepared =>
    cases hpublish : self.publishLocked prepared with
    | none => exact .inl ⟨by simp [commit, hpublish], by simp [commit, hpublish]⟩
    | some active' => exact .inr ⟨prepared, active', rfl, hpublish, by simp [commit, hpublish]⟩

theorem BackendState.candidate_ok {self : BackendState}
    (h : self.candidate deps next = .ok prepared) :
    self.backend.observed = some self.active.snapshot.data.digest ∧
      PreparedContext.fromTreeForRecipe deps self.active.recipe next = .ok prepared ∧
      self.active.validateCandidate deps self.active.snapshot prepared = .ok () := by
  simp only [candidate, bind_ok, mapError_ok, ensure_ok, pure_ok, decide_eq_true_eq] at h
  obtain ⟨_, hobserved, _, hprepared, _, hvalid, rfl⟩ := h
  exact ⟨hobserved, hprepared, hvalid⟩

theorem BackendState.replaceTree_cases (deps : Deps) (self : BackendState) (next : Json) :
    ((self.replaceTree deps next).result ≠ some (.ok ()) ∧
      (self.replaceTree deps next).state = self) ∨
    ∃ active', self.backend.observed = some self.active.snapshot.data.digest ∧
      ActiveContext.Publishes deps self.active next active' ∧
      self.replaceTree deps next =
        { result := some (.ok ()),
          state := { active := active', backend := active'.backend } } := by
  rcases self.active.commit_cases () (self.candidate deps next) with
    ⟨hresult, hstate⟩ | ⟨prepared, active', hcandidate, hpublish, hcommit⟩
  · refine .inl ?_
    unfold replaceTree
    simp only
    split
    · next hok => exact absurd hok (hresult ())
    · exact ⟨hresult (), by rw [hstate]⟩
  · obtain ⟨hobserved, hprepared, hvalid⟩ := candidate_ok hcandidate
    refine .inr ⟨active', hobserved, ⟨prepared, hprepared, hvalid, hpublish⟩, ?_⟩
    rw [replaceTree, hcommit]

theorem BackendState.replaceTree_writes (deps : Deps) (self : BackendState) (next : Json) :
    ActiveContext.Writes deps self.active (self.replaceTree deps next).state.active := by
  rcases self.replaceTree_cases deps next with ⟨-, hstate⟩ | ⟨active', -, hpublish, hreplace⟩
  · rw [hstate]
    exact .inl rfl
  · rw [hreplace]
    exact .inr ⟨next, hpublish⟩

end SchcCoreconf
