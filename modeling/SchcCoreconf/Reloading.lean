import SchcCoreconf.Operations

/-!
# Loading what was loaded

A loaded context without a floating-point zero is a fixed point of loading: its
bytes load to it, and so does its tree, so the three ways of computing a canonical
Set-of-Rules agree. The check before a publication recomputes what the tree
constructor computed, and compares recipes whose namespaces are in normal form: it
can refuse a constructed candidate only for its protected rules.
-/

namespace SchcCoreconf

open Fallible

-- ---------------------------------------------------------------------------
-- Bytes and trees
-- ---------------------------------------------------------------------------

/-- The canonical bytes of a loaded context load to that very context. -/
theorem LoadedContext.fromSor_again {sor : Bytes} (hrooted : LoadsRooted deps sidJson)
    (h : fromSor deps sidJson sor = .ok loaded) (hzeros : loaded.tree.ZeroFree) :
    fromSor deps sidJson loaded.sor = .ok loaded := by
  simp only [fromSor, bind_ok, mapError_ok, need_ok, ensure_ok, pure_ok] at h ⊢
  obtain ⟨model, hmodel, registry, hregistry, _, -, rootSid, hroot, _, -, _, -, initial, hinitial,
    bytes, hbytes, value, hvalue, read, hread, canonical, hcanonical, _, hsame, context, hcontext,
    derived, hderived, guard, hguard, rfl⟩ := h
  obtain rfl : initial = canonical := hzeros.eq_of_beq (Json.beq_symm hsame)
  refine ⟨model, hmodel, registry, hregistry, value, hvalue, rootSid, hroot, (),
    hrooted hmodel hregistry hroot hvalue hcontext, read, hread, initial, hcanonical, bytes, hbytes,
    value, hvalue, read, hread, initial, hcanonical, (), hsame, context,
    hcontext, derived, hderived, guard, hguard, rfl⟩

theorem ContextSource.load_tree_ok {tree : Json} (h : load deps sidJson (.tree tree) = .ok loaded)
    (hzeros : loaded.tree.ZeroFree) :
    ∃ model sor, deps.rustconf.coreconfModel sidJson = .ok model ∧
      encodeTree deps.ciborium model loaded.tree = .ok sor ∧
      LoadedContext.fromSor deps sidJson sor = .ok loaded := by
  simp only [load, bind_ok, mapError_ok, ensure_ok, pure_ok] at h
  obtain ⟨model, hmodel, normal, -, _, -, sor, hsor, _, hloaded, _, hsame, rfl⟩ := h
  obtain rfl : normal = _ := hzeros.eq_of_beq (Json.beq_symm hsame)
  exact ⟨model, sor, hmodel, hsor, hloaded⟩

theorem ContextSource.load_tree_of {sor : Bytes} (hnormal : Canonical loaded.tree)
    (hmodel : deps.rustconf.coreconfModel sidJson = .ok model)
    (hsor : encodeTree deps.ciborium model loaded.tree = .ok sor)
    (hloaded : LoadedContext.fromSor deps sidJson sor = .ok loaded) :
    load deps sidJson (.tree loaded.tree) = .ok loaded := by
  simp only [load, bind_ok, mapError_ok, ensure_ok, pure_ok]
  exact ⟨model, hmodel, loaded.tree, hnormal, (), loaded.tree.beq_self, sor,
    hsor, loaded, hloaded, (), loaded.tree.beq_self, rfl⟩

theorem canonicalSorFromTree_of_load
    (h : ContextSource.load deps sidJson (.tree tree) = .ok loaded)
    (hzeros : loaded.tree.ZeroFree) :
    canonicalSorFromTree deps sidJson loaded.tree = .ok loaded.sor := by
  have hnormal := (ContextSource.load_ok h).1.canonical
  obtain ⟨model, sor, hmodel, hsor, hloaded⟩ := ContextSource.load_tree_ok h hzeros
  simp only [canonicalSorFromTree, bind_ok, mapError_ok, ensure_ok, pure_ok]
  exact ⟨model, hmodel, loaded.tree, hnormal, (), loaded.tree.beq_self, sor,
    hsor, loaded, hloaded, (), loaded.tree.beq_self, rfl⟩

theorem LoadedContext.load_tree {sor : Bytes} (hrooted : LoadsRooted deps sidJson)
    (h : fromSor deps sidJson sor = .ok loaded) (hzeros : loaded.tree.ZeroFree) :
    ContextSource.load deps sidJson (.tree loaded.tree) = .ok loaded := by
  have hconsistent := fromSor_ok h
  exact ContextSource.load_tree_of hconsistent.canonical hconsistent.model
    (hconsistent.encoded.encodeTree hzeros) (fromSor_again hrooted h hzeros)

-- ---------------------------------------------------------------------------
-- Prepared contexts
-- ---------------------------------------------------------------------------

theorem PreparedContext.fromLoaded_data {recipe : ContextRecipe}
    (h : fromLoaded deps recipe loaded = .ok prepared) :
    prepared.data.tree = loaded.tree ∧ prepared.data.sor = loaded.sor ∧
      bindRecipe recipe loaded.ruleContext.rules = .ok prepared.recipe := by
  simp only [fromLoaded, bind_ok, mapError_ok, pure_ok] at h
  obtain ⟨bound, hbound, _, -, _, -, _, -, rfl⟩ := h
  exact ⟨rfl, rfl, hbound⟩

theorem PreparedContext.fromSource_again {recipe : ContextRecipe} {sor : Bytes}
    (hrooted : LoadsRooted deps recipe.sidJson)
    (h : fromSource deps recipe (.sor sor) = .ok prepared) (hzeros : prepared.data.tree.ZeroFree) :
    fromSource deps recipe (.sor prepared.data.sor) = .ok prepared ∧
      fromTreeForRecipe deps recipe prepared.data.tree = .ok prepared := by
  simp only [fromTreeForRecipe, fromSource, bind_ok] at h ⊢
  obtain ⟨loaded, hload, h⟩ := h
  obtain ⟨htree, hsor, -⟩ := fromLoaded_data h
  rw [htree] at hzeros
  rw [htree, hsor]
  exact ⟨⟨loaded, LoadedContext.fromSor_again hrooted hload hzeros, h⟩,
    ⟨loaded, LoadedContext.load_tree hrooted hload hzeros, h⟩⟩

-- ---------------------------------------------------------------------------
-- The check before a publication
-- ---------------------------------------------------------------------------

/-- The first recipe is the second, with any spelling of its namespace. -/
def ContextRecipe.Spells (recipe normal : ContextRecipe) : Prop :=
  ∃ spelling, recipe = { normal with dynamicRuleIds := spelling } ∧
    spelling.mapM DynamicRuleIdNamespace.validate = .ok normal.dynamicRuleIds

theorem bindRecipe_spells (h : bindRecipe recipe rules = .ok bound) : recipe.Spells bound := by
  unfold bindRecipe at h
  split at h
  · next hnone =>
    cases h
    exact ⟨none, by rw [← hnone], by rw [hnone]; rfl⟩
  · next ns hns =>
    simp only [bind_ok, mapError_ok, pure_ok] at h
    obtain ⟨normal, hvalid, _, -, rfl⟩ := h
    refine ⟨some ns, by rw [← hns], ?_⟩
    simp only [Option.mapM_some, hvalid]
    rfl

theorem bindRecipe_of_spells (hspells : recipe.Spells normal)
    (h : bindRecipe recipe rules = .ok bound) : bound = normal := by
  obtain ⟨spelling, rfl, hspelling⟩ := hspells
  cases spelling with
  | none =>
    cases h
    have hnone : none = normal.dynamicRuleIds := Except.ok.inj hspelling
    rw [hnone]
  | some ns =>
    simp only [Option.mapM_some, map_ok] at hspelling
    obtain ⟨valid, hvalid, hsome⟩ := hspelling
    simp only [bindRecipe, bind_ok, mapError_ok, pure_ok] at h
    obtain ⟨_, hvalid', _, -, rfl⟩ := h
    cases hvalid.symm.trans hvalid'
    rw [hsome]

theorem ContextRecipe.Spells.self {recipe : ContextRecipe} (h : recipe.Spells normal) :
    normal.Spells normal := by
  obtain ⟨spelling, -, hspelling⟩ := h
  refine ⟨normal.dynamicRuleIds, rfl, ?_⟩
  cases spelling with
  | none =>
    rw [show normal.dynamicRuleIds = none from (Except.ok.inj hspelling).symm]
    rfl
  | some ns =>
    simp only [Option.mapM_some, map_ok] at hspelling
    obtain ⟨valid, hvalid, hsome⟩ := hspelling
    rw [← hsome]
    simp only [Option.mapM_some, validate_normal hvalid]
    rfl

theorem Reached.bound {recipe : ContextRecipe} (h : Reached deps recipe source prepared active) :
    ∃ rules, bindRecipe recipe rules = .ok active.recipe := by
  have hprepared := h.1
  simp only [PreparedContext.fromSource, bind_ok] at hprepared
  obtain ⟨loaded, -, hprepared⟩ := hprepared
  rw [h.writes.recipe_eq]
  exact ⟨_, (PreparedContext.fromLoaded_data hprepared).2.2⟩

theorem Reached.spells {recipe : ContextRecipe} (h : Reached deps recipe source prepared active) :
    recipe.Spells active.recipe := by
  obtain ⟨rules, hbound⟩ := h.bound
  exact bindRecipe_spells hbound

theorem Reached.recipe_eq {recipe : ContextRecipe} (h : Reached deps recipe source prepared active)
    (h' : Reached deps recipe source' prepared' active') : active.recipe = active'.recipe := by
  obtain ⟨rules, hbound⟩ := h.bound
  exact bindRecipe_of_spells h'.spells hbound

theorem ActiveContext.validateCandidate_constructed {active : ActiveContext}
    {recipe : ContextRecipe} (hspells : ContextRecipe.Spells recipe active.recipe)
    (h : PreparedContext.fromTreeForRecipe deps recipe tree = .ok prepared)
    (hzeros : prepared.data.tree.ZeroFree) (current : ContextSnapshot) :
    active.validateCandidate deps current prepared =
      current.data.protectedRules.enforce prepared.data.protectedRules := by
  simp only [PreparedContext.fromTreeForRecipe, PreparedContext.fromSource, bind_ok] at h
  obtain ⟨loaded, hload, h⟩ := h
  obtain ⟨htree, hsor, hbound⟩ := PreparedContext.fromLoaded_data h
  have hrecipe : prepared.recipe = active.recipe := bindRecipe_of_spells hspells hbound
  obtain ⟨_, rfl, -⟩ := hspells
  have hcanonical : canonicalSorFromTree deps active.recipe.sidJson prepared.data.tree =
      .ok prepared.data.sor := by
    rw [htree, hsor]
    exact canonicalSorFromTree_of_load hload (htree ▸ hzeros)
  simp [validateCandidate, hrecipe, hcanonical, ensure, bind, Except.bind]

theorem ProtectedRules.enforceRule_error {candidate : ProtectedRules}
    (h : enforceRule candidate expected = .error error) :
    ∃ message, error = .protectedRuleChanged message := by
  simp only [enforceRule, bind_error, need_error, ensure_error] at h
  rcases h with ⟨-, rfl⟩ | ⟨_, -, -, rfl⟩
  · exact ⟨_, rfl⟩
  · exact ⟨_, rfl⟩

theorem ProtectedRules.enforce_error {self candidate : ProtectedRules}
    (h : self.enforce candidate = .error error) :
    ∃ message, error = .protectedRuleChanged message := by
  simp only [enforce, bind_error, ensure_error] at h
  rcases h with ⟨-, rfl⟩ | ⟨_, -, h | ⟨_, -, h⟩⟩
  · exact ⟨_, rfl⟩
  · obtain ⟨_, -, h⟩ := collect_error h
    exact enforceRule_error h
  · cases h

-- ---------------------------------------------------------------------------
-- Everything that was loaded is settled
-- ---------------------------------------------------------------------------

/-- What loading, building and publishing settle on, for one SID file, where trees have no
floating-point zero. -/
structure Settled (deps : Deps) (sidJson : String) : Prop where
  bytes : ∀ {sor loaded}, LoadedContext.fromSor deps sidJson sor = .ok loaded →
    loaded.tree.ZeroFree → LoadedContext.fromSor deps sidJson loaded.sor = .ok loaded
  tree : ∀ {sor loaded}, LoadedContext.fromSor deps sidJson sor = .ok loaded →
    loaded.tree.ZeroFree → ContextSource.load deps sidJson (.tree loaded.tree) = .ok loaded
  canonicalSor : ∀ {sor loaded}, LoadedContext.fromSor deps sidJson sor = .ok loaded →
    loaded.tree.ZeroFree → canonicalSorFromTree deps sidJson loaded.tree = .ok loaded.sor
  prepared : ∀ {recipe : ContextRecipe} {sor prepared}, recipe.sidJson = sidJson →
    PreparedContext.fromSource deps recipe (.sor sor) = .ok prepared →
    prepared.data.tree.ZeroFree →
      PreparedContext.fromSource deps recipe (.sor prepared.data.sor) = .ok prepared ∧
        PreparedContext.fromTreeForRecipe deps recipe prepared.data.tree = .ok prepared
  spelled : ∀ {recipe : ContextRecipe} {source prepared active}, recipe.sidJson = sidJson →
    Reached deps recipe source prepared active →
      recipe.Spells active.recipe ∧ active.recipe.Spells active.recipe
  published : ∀ {recipe : ContextRecipe} {source prepared active other tree candidate error},
    recipe.sidJson = sidJson → Reached deps recipe source prepared active →
    ContextRecipe.Spells other active.recipe →
    PreparedContext.fromTreeForRecipe deps other tree = .ok candidate →
    candidate.data.tree.ZeroFree →
    active.validateCandidate deps active.snapshot candidate = .error error →
      ∃ message, error = .protectedRuleChanged message

theorem canonicalization_settles (hrooted : LoadsRooted deps sidJson) : Settled deps sidJson where
  bytes := LoadedContext.fromSor_again hrooted
  tree := LoadedContext.load_tree hrooted
  canonicalSor h hzeros := canonicalSorFromTree_of_load
    (LoadedContext.load_tree hrooted h hzeros) hzeros
  prepared hsid h hzeros := by
    subst hsid
    exact PreparedContext.fromSource_again hrooted h hzeros
  spelled _ hreached := ⟨hreached.spells, hreached.spells.self⟩
  published _ _ hspells hcandidate hzeros herror := by
    rw [ActiveContext.validateCandidate_constructed hspells hcandidate hzeros] at herror
    exact ProtectedRules.enforce_error herror

section
open Fixture

theorem turned_again_evaluated : holds (LoadedContext.fromSor turningDeps sidText
    (zeroBytes positiveZero)) (fun loaded =>
      holds (LoadedContext.fromSor turningDeps sidText loaded.sor) fun again =>
        again.sor ≠ loaded.sor ∧ again.tree ≠ loaded.tree) = true := by
  decide +kernel

/-- A context with a floating-point zero can load from its own bytes to another. -/
theorem zero_loads_to_other : ∃ loaded again, LoadsRooted turningDeps sidText ∧
    LoadedContext.fromSor turningDeps sidText (zeroBytes positiveZero) = .ok loaded ∧
    LoadedContext.fromSor turningDeps sidText loaded.sor = .ok again ∧
    again.sor ≠ loaded.sor ∧ again.tree ≠ loaded.tree := by
  obtain ⟨loaded, hloaded, heval⟩ := holds_iff.mp turned_again_evaluated
  obtain ⟨again, hagain, hother⟩ := holds_iff.mp heval
  exact ⟨loaded, again, turning_loadsRooted, hloaded, hagain, of_decide_eq_true hother⟩

def looseNamespace : DynamicRuleIdNamespace where
  prefixSpec := { value := 2, length := 2 }
  allowedLengths := [9, 8, 9]

def namespacedRecipe : ContextRecipe := { recipe with dynamicRuleIds := some looseNamespace }

theorem namespaced_evaluated : holds (LoadedContext.fromSor (deps updateWorld) sidText
      (sorBytes rulesBefore)) (fun loaded => loaded.tree.ZeroFree) = true ∧
    holds (PreparedContext.fromSource (deps updateWorld) namespacedRecipe
      (.sor (sorBytes rulesBefore))) (fun prepared => prepared.data.tree.ZeroFree) = true ∧
    holds (PreparedContext.fromTreeForRecipe (deps updateWorld) namespacedRecipe (tree rulesAfter))
      (fun prepared => prepared.data.tree.ZeroFree) = true := by
  decide +kernel

theorem canonicalization_settles_namespaced : ∃ loaded prepared candidate,
    LoadedContext.fromSor (deps updateWorld) sidText (sorBytes rulesBefore) = .ok loaded ∧
    LoadedContext.fromSor (deps updateWorld) sidText loaded.sor = .ok loaded ∧
    canonicalSorFromTree (deps updateWorld) sidText loaded.tree = .ok loaded.sor ∧
    PreparedContext.fromSource (deps updateWorld) namespacedRecipe (.sor (sorBytes rulesBefore)) =
      .ok prepared ∧
    PreparedContext.fromTreeForRecipe (deps updateWorld) namespacedRecipe prepared.data.tree =
      .ok prepared ∧
    PreparedContext.fromTreeForRecipe (deps updateWorld) namespacedRecipe (tree rulesAfter) =
      .ok candidate ∧
    ∀ error, (ActiveContext.new prepared).validateCandidate (deps updateWorld)
      (ActiveContext.new prepared).snapshot candidate = .error error →
        ∃ message, error = .protectedRuleChanged message := by
  obtain ⟨hloaded, hprepared, hcandidate⟩ := namespaced_evaluated
  obtain ⟨loaded, hloaded, hzeros⟩ := holds_iff.mp hloaded
  obtain ⟨prepared, hprepared, hzeros'⟩ := holds_iff.mp hprepared
  obtain ⟨candidate, hcandidate, hzeros''⟩ := holds_iff.mp hcandidate
  have hzeros := of_decide_eq_true hzeros
  have settled := canonicalization_settles (loadsRooted updateWorld_checked)
  have hreached : Reached (deps updateWorld) namespacedRecipe (.sor (sorBytes rulesBefore)) prepared
      (.new prepared) := .of_source (service updateWorld) hprepared
  refine ⟨loaded, prepared, candidate, hloaded, settled.bytes hloaded hzeros,
    settled.canonicalSor hloaded hzeros, hprepared,
    (settled.prepared rfl hprepared (of_decide_eq_true hzeros')).2,
    hcandidate, fun error herror => ?_⟩
  exact settled.published rfl hreached (settled.spelled rfl hreached).1 hcandidate
    (of_decide_eq_true hzeros'') herror

end

end SchcCoreconf
