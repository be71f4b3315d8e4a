import SchcCoreconf.TargetFrame

/-!
# Applying a target patch again

A target patch that published its tree accepts that tree as its own base: the
leaf it reads is the one it wrote, at the same width, and writing it again
changes nothing. So a second application prepares the very same candidate, and
only the If-Match tag can refuse it.
-/

namespace SchcCoreconf

open Fallible FirstMatch
open ActiveContext (Publishes)

section
variable {deps : Deps} {put : LeafAddress → Json → Json → Option Json} {model : CoreconfModel}
  {sids : ModelSids} {target : TargetPatch}

theorem patchedTree_again {entry : EntryAddress} (stores : SetsLeaves deps sidJson put)
    (reads : ReadsLeaves deps sidJson) (laws : DatastoreLaws deps sidJson)
    (hmodel : deps.rustconf.coreconfModel sidJson = .ok model)
    (hsids : ModelSids.resolve model.compositeModel = .ok sids)
    (hcomponents : target.path.components = targetComponents sids entry index)
    (h : patchedTree deps model sids tree target = .ok tree') :
    patchedTree deps model sids tree' target = .ok tree' := by
  simp only [patchedTree, orConflict, inspectionConflict, bind_ok, mapError_ok, need_ok, ensure_ok,
    pure_ok, Bool.and_eq_true, decide_eq_true_eq] at h
  obtain ⟨store, -, sid, hsid, xpath, hxpath, path, hpath, _, hread, current, rfl, _, -,
    currentBytes, -, entryXpath, hentryXpath, _, hentry, found, rfl, key, hkey, fieldLength,
    hfieldLength, _, hcurrent, replacement, hreplacement, wire, hwire, bytes, hbytes, _, hlength, _,
    hfits, store', hset, rfl⟩ := h
  obtain ⟨-, -, -, -, hentrySid, -, hfieldSid, -⟩ := ModelSids.resolve_ok hsids
  have hnamed := stores.target_namedBy hsids hcomponents hsid
  have hkeys : entry.keys = target.path.keys.take 3 := by
    rw [targetComponents_keys hcomponents]
    rfl
  have hthere : ((targetAddress entry index).read store.tree).isSome = true := by
    rw [← reads.leaf hmodel hxpath hnamed hread]
    rfl
  have hfound := reads.entry hmodel hentryXpath hentrySid hkeys hentry
  have htree := stores.set_write hmodel hxpath hnamed hthere hset
  -- the leaf is what was written, in the entry there was
  have hxpath' := laws.xpath store' hmodel hxpath
  have hentryXpath' := laws.xpath store' hmodel hentryXpath
  obtain ⟨leaf, hread'⟩ := laws.readable hmodel hset hread
  have hleaf : leaf = some replacement := by
    rw [reads.leaf hmodel hxpath' hnamed hread', htree, LeafAddress.read_write hthere]
  obtain ⟨entry', hentry'⟩ := laws.readable hmodel hset hentry
  have hentryRead : entry' = some ((targetAddress entry index).leaf.write replacement found) := by
    rw [reads.entry hmodel hentryXpath' hentrySid hkeys hentry', htree]
    have hbefore : (targetAddress entry index).entry.read store.tree = some found := hfound.symm
    have hafter : entry.read ((targetAddress entry index).write replacement store.tree) =
        ((targetAddress entry index).entry.read store.tree).map
          ((targetAddress entry index).leaf.write replacement) :=
      LeafAddress.entry_read_write replacement store.tree
    rwa [hbefore] at hafter
  have hkept :
      ((targetAddress entry index).leaf.write replacement found).get key = found.get key := by
    have hlast :
        lastSegment "/ietf-schc:schc/rule/entry-universal/field-length" = "field-length" := by
      simp [lastSegment]
    rw [treeKey_of_name (stores.names hmodel) hfieldSid hkey, hlast]
    exact EntryLeaf.get_write_of_ne (by simp [targetAddress, EntryLeaf.holder]) _
  -- writing it again leaves the tree
  obtain ⟨again, hagain⟩ := laws.again hmodel hxpath hnamed rfl hset
  have hsame : again.tree = store'.tree := by
    have hthere' : ((targetAddress entry index).read store'.tree).isSome = true := by
      rw [htree, LeafAddress.read_write hthere]
      rfl
    rw [stores.set_write hmodel hxpath' hnamed hthere' hagain, htree, LeafAddress.write_write]
  subst hleaf hentryRead
  simp only [patchedTree, orConflict, inspectionConflict, bind_ok, mapError_ok, need_ok, ensure_ok,
    pure_ok]
  exact ⟨store', laws.reload hmodel hset, sid, hsid, xpath, hxpath', path, hpath, _, hread',
    replacement, rfl, wire, hwire, bytes, hbytes, entryXpath, hentryXpath', _, hentry', _, rfl, key,
    hkey, fieldLength, by rw [hkept]; exact hfieldLength, (), by simp [hfits, hcurrent.2],
    replacement, hreplacement, wire, hwire, bytes, hbytes, (), by simp, (), hfits, again, hagain,
    hsame⟩

-- ---------------------------------------------------------------------------
-- The second candidate
-- ---------------------------------------------------------------------------

/-- The context after a target patch: what was prepared from the patched tree. -/
structure Applied (deps : Deps) (model : CoreconfModel) (sids : ModelSids) (target : TargetPatch)
    (before : ActiveContext) (prepared : PreparedContext) (after : ActiveContext) : Prop where
  patched : patchedTree deps model sids before.snapshot.data.tree target = .ok prepared.data.tree
  fromTree : PreparedContext.fromTreeForRecipe deps before.recipe prepared.data.tree = .ok prepared
  valid : before.validateCandidate deps before.snapshot prepared = .ok ()
  recipe : after.recipe = before.recipe
  data : after.snapshot.data = prepared.data

theorem Applied.of_publishes (hfloats : ReadsNoFloats deps before.recipe.sidJson)
    (hpatched : patchedTree deps model sids before.snapshot.data.tree target = .ok tree)
    (hpublish : Publishes deps before tree after) :
    ∃ prepared, prepared.data.tree = tree ∧
      Applied deps model sids target before prepared after := by
  obtain ⟨prepared, hprepared, hvalid, hstore⟩ := hpublish
  obtain ⟨-, rfl⟩ := ActiveContext.publishLocked_eq_some hstore
  have htree := PreparedContext.fromTreeForRecipe_tree hfloats hprepared
  subst htree
  exact ⟨prepared, rfl, hpatched, hprepared, hvalid, rfl, rfl⟩

theorem ActiveContext.validateCandidate_again {before after : ActiveContext}
    (h : before.validateCandidate deps before.snapshot prepared = .ok ())
    (hrecipe : after.recipe = before.recipe) (hdata : after.snapshot.data = prepared.data) :
    after.validateCandidate deps after.snapshot prepared = .ok () := by
  simp only [validateCandidate, bind_ok, ensure_ok] at h ⊢
  obtain ⟨_, hsame, sor, hsor, _, hcanonical, -⟩ := h
  rw [hrecipe, hdata]
  exact ⟨(), hsame, sor, hsor, (), hcanonical, prepared.data.protectedRules.enforce_self⟩

theorem prepareCandidate_again (h : Applied deps model sids target before prepared after) :
    after.prepareCandidate deps prepared.data.tree = .ok prepared := by
  simp only [ActiveContext.prepareCandidate, bind_ok, pure_ok, h.recipe]
  exact ⟨prepared, h.fromTree, (), ActiveContext.validateCandidate_again
    h.valid h.recipe h.data, rfl⟩

theorem ids_of_stated {rules rules' : List Rule}
    (h : List.Forall₂ (fun member rule => RuleKeys.yang.selects rule.id.selector member = true)
      members rules)
    (h' : List.Forall₂ (fun member rule => RuleKeys.yang.selects rule.id.selector member = true)
      members rules') : rules.map (·.id) = rules'.map (·.id) := by
  induction h generalizing rules' with
  | nil =>
    cases h'
    rfl
  | cons hrule _ ih =>
    cases h' with
    | cons hrule' hrest =>
      have hid := congrArg RuleSelector.ruleId (RuleKeys.selects_unique hrule hrule')
      rw [List.map_cons, List.map_cons, ih hrest]
      exact congrArg (· :: _) hid

theorem Applied.ruleIds (stores : SetsLeaves deps before.recipe.sidJson put)
    (hstated : LoadsStatedRules deps before.recipe.sidJson)
    (hmodel : deps.rustconf.coreconfModel before.recipe.sidJson = .ok model)
    (hdecode : decodeTargetPatch deps model request = .ok (sids, target))
    (hbefore : before.snapshot.data.Derived deps before.recipe)
    (hcheck : checkTargetRule before.snapshot ifMatch target = .ok ())
    (h : Applied deps model sids target before prepared after) :
    prepared.data.rules.map (·.id) = before.snapshot.data.rules.map (·.id) := by
  have hafter := (PreparedContext.fromSource_ok h.fromTree).1
  rw [(ActiveContext.validateCandidate_ok h.valid).1] at hafter
  obtain ⟨rule, hrule⟩ := hbefore.finds_target hstated hcheck
  obtain ⟨registry, context, hregistry, hcontext, hrules, -⟩ := hbefore.full
  obtain ⟨registry', context', hregistry', hcontext', hrules', -⟩ := hafter.full
  obtain ⟨model', hmodel', hsor⟩ := hbefore.encoded
  obtain ⟨model'', hmodel'', hsor'⟩ := hafter.encoded
  obtain ⟨members, hmembers, hall⟩ := hstated.stated hmodel' hregistry hsor hcontext
  obtain ⟨members', hmembers', hall'⟩ := hstated.stated hmodel'' hregistry' hsor' hcontext'
  -- the tree is the one before, with another rule of the same RuleID
  obtain ⟨hsids, entry, -, htarget⟩ := decodeTargetPatch_ok hdecode
  obtain ⟨entryIndex, index, hcomponents, hpath, -⟩ := targetPatchFromInstance_ok htarget
  rw [← hpath] at hcomponents
  obtain ⟨store, sid, xpath, _, _, store', hstore, hsid, hxpath, -, -, hset, htree⟩ :=
    patchedTree_ok h.patched
  have hbase := stores.tree hmodel hstore
  obtain ⟨next, hnext, hstored⟩ := stores.set_ok hmodel hxpath
    (stores.target_namedBy hsids hcomponents hsid) (hbase ▸ hrule) hset
  rw [htree, hstored, hbase,
    RuleKeys.updateRule_of_rules hmembers, RuleKeys.rules_setRules hmembers] at hmembers'
  cases hmembers'
  rw [hrules, hrules']
  refine ids_of_stated hall' (forall₂_updateFirst hall fun member loaded hfound hselects => ?_)
  rw [RuleKeys.find, hmembers, Option.bind_some] at hrule
  cases hrule.symm.trans hfound
  exact (stores.selects hnext _).trans hselects

theorem checkTargetRule_again (stores : SetsLeaves deps before.recipe.sidJson put)
    (hstated : LoadsStatedRules deps before.recipe.sidJson)
    (hmodel : deps.rustconf.coreconfModel before.recipe.sidJson = .ok model)
    (hdecode : decodeTargetPatch deps model request = .ok (sids, target))
    (hbefore : before.snapshot.data.Derived deps before.recipe)
    (hcheck : checkTargetRule before.snapshot ifMatch target = .ok ())
    (h : Applied deps model sids target before prepared after) :
    checkTargetRule after.snapshot ifMatch target =
      ensure (ifMatch.all (· = after.snapshot.data.tag))
        (.precondition "If-Match context tag does not match the current context") := by
  have hids := h.ruleIds stores hstated hmodel hdecode hbefore hcheck
  simp only [checkTargetRule, bind_ok, ensure_ok] at hcheck
  obtain ⟨_, -, _, hprotected, hexists⟩ := hcheck
  have hexists' : after.snapshot.data.rules.any (·.id = target.selector.ruleId) = true := by
    have hmem : target.selector.ruleId ∈ before.snapshot.data.rules.map (·.id) := by
      simpa using hexists
    rw [← hids] at hmem
    simpa [h.data] using hmem
  have hprotected' :
      (!after.snapshot.data.protectedRules.contains target.selector.ruleId) = true := by
    rw [h.data, ← (ActiveContext.validateCandidate_ok h.valid).2]
    exact hprotected
  unfold checkTargetRule
  simp only [hexists', hprotected']
  cases ifMatch.all (· = after.snapshot.data.tag) <;> rfl

/-- A second application prepares what is published already, unless If-Match refuses it. -/
theorem targetCandidate_again (stores : SetsLeaves deps before.recipe.sidJson put)
    (hstated : LoadsStatedRules deps before.recipe.sidJson)
    (reads : ReadsLeaves deps before.recipe.sidJson)
    (laws : DatastoreLaws deps before.recipe.sidJson)
    (hmodel : deps.rustconf.coreconfModel before.recipe.sidJson = .ok model)
    (hdecode : decodeTargetPatch deps model request = .ok (sids, target))
    (hbefore : before.snapshot.data.Derived deps before.recipe)
    (hcheck : checkTargetRule before.snapshot ifMatch target = .ok ())
    (h : Applied deps model sids target before prepared after) :
    targetCandidate deps model after ifMatch sids target =
      if ifMatch.all (· = after.snapshot.data.tag) then .ok prepared
      else .error (.precondition "If-Match context tag does not match the current context") := by
  obtain ⟨hsids, entry, -, htarget⟩ := decodeTargetPatch_ok hdecode
  obtain ⟨entryIndex, index, hcomponents, hpath, -⟩ := targetPatchFromInstance_ok htarget
  have hagain := patchedTree_again stores reads laws hmodel hsids (hpath ▸ hcomponents) h.patched
  rw [targetCandidate, checkTargetRule_again stores hstated hmodel hdecode hbefore hcheck h, h.data]
  cases ifMatch.all (· = prepared.data.tag) with
  | false => rfl
  | true => simp [ensure, hagain, prepareCandidate_again h, bind, Except.bind, Except.mapError]

end

end SchcCoreconf
