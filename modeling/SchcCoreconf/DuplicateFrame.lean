import SchcCoreconf.DuplicateTree
import SchcCoreconf.Fixture.Duplicates
import SchcCoreconf.Operations

/-!
# What a duplicate operation changes

An applied operation adds one rule to the rule list, in its place in RuleID order,
and changes nothing else of the tree. The rule is its source under the new RuleID,
with the leaves set that its overrides name.
-/

namespace SchcCoreconf

open Fallible FirstMatch
open ActiveContext (Publishes)

-- ---------------------------------------------------------------------------
-- The rules of a context
-- ---------------------------------------------------------------------------

theorem ContextData.Derived.ordered {recipe : ContextRecipe} {data : ContextData}
    (hstated : LoadsStatedRules deps recipe.sidJson)
    (hseparated : LoadsSeparated deps recipe.sidJson) (h : data.Derived deps recipe) :
    ∃ rules, RuleKeys.yang.rules data.tree = some rules ∧ RuleKeys.Ordered rules ∧
      List.Forall₂ (fun member rule => RuleKeys.yang.selects rule.id.selector member = true) rules
        data.rules := by
  obtain ⟨model, hmodel, hencoded⟩ := h.encoded
  obtain ⟨registry, context, hregistry, hcontext, hrules, -⟩ := h.full
  obtain ⟨rules, hlist, hall⟩ := hstated.stated hmodel hregistry hencoded hcontext
  refine ⟨rules, hlist, ⟨fun rule hrule => ?_, ?_⟩, hrules ▸ hall⟩
  · obtain ⟨loaded, -, hselects⟩ := forall₂_mem_left hall hrule
    exact ⟨_, hselects⟩
  · have hdistinct : rules.Pairwise fun left right =>
        RuleKeys.yang.sortKey left ≠ RuleKeys.yang.sortKey right := by
      refine forall₂_pairwise (fun left right loaded other hleft hright hapart hkeys => ?_) hall
        (hseparated hregistry hcontext)
      rw [RuleKeys.sortKey_of_selects hleft, RuleKeys.sortKey_of_selects hright] at hkeys
      have hsame : loaded.id = other.id := RuleId.orderKey_injective hkeys
      exact hapart (hsame ▸ RuleId.Overlap.refl)
    exact (Canonical.rules_sorted h.canonical hlist).1.imp₂ (fun _ _ => lt_of_le_of_ne) hdistinct

theorem ContextData.Derived.identified {recipe : ContextRecipe} {data : ContextData}
    {rules : List Json}
    (hstated : LoadsStatedRules deps recipe.sidJson) (h : data.Derived deps recipe)
    (hrules : RuleKeys.yang.rules data.tree = some rules) : ∀ rule ∈ rules, rule.Identified := by
  obtain ⟨model, hmodel, hencoded⟩ := h.encoded
  obtain ⟨registry, context, hregistry, hcontext, -⟩ := h.full
  exact hstated.identified hmodel hregistry hencoded hcontext hrules

theorem not_selects_of_absent {selector : RuleSelector} {rules : List Rule}
    (hall : List.Forall₂ (fun member rule => RuleKeys.yang.selects rule.id.selector member = true)
      members rules) (habsent : ∀ rule ∈ rules, rule.id ≠ selector.ruleId) :
    ∀ member ∈ members, RuleKeys.yang.selects selector member = false := by
  intro member hmember
  by_contra hselects
  obtain ⟨rule, hrule, hstated⟩ := forall₂_mem_left hall hmember
  have hsame : selector = rule.id.selector :=
    RuleKeys.selects_unique (by simpa using hselects) hstated
  exact habsent rule hrule (hsame ▸ rfl)

theorem RuleKeys.selects_lt {selector : RuleSelector}
    (h : RuleKeys.yang.selects selector rule = true) :
    selector.value < 2 ^ 64 ∧ selector.bits < 2 ^ 64 := by
  simp only [selects, Bool.and_eq_true, decide_eq_true_eq] at h
  obtain ⟨_, -, hvalue⟩ := Option.bind_eq_some_iff.mp h.1
  obtain ⟨_, -, hbits⟩ := Option.bind_eq_some_iff.mp h.2
  exact ⟨Json.asU64_lt hvalue, Json.asU64_lt hbits⟩

-- ---------------------------------------------------------------------------
-- The new rule
-- ---------------------------------------------------------------------------

/-- The rule is the source with another RuleID and the named leaves set: where the
source has the leaves, nothing else is written. -/
structure CopiedRule (destination : RuleSelector) (named : List (LeafAddress × Json))
    (source new : Json) : Prop where
  value : new.get "rule-id-value" = some (.ofNat destination.value)
  length : new.get "rule-id-length" = some (.ofNat destination.bits)
  members : ∀ key, key ≠ "rule-id-value" → key ≠ "rule-id-length" → key ≠ "entry-universal" →
    new.get key = source.get key
  entries : Option.Rel (List.Forall₂ (EntryFrame (named.map Prod.fst)))
    (source.items "entry-universal") (new.items "entry-universal")
  leaves : ∀ item ∈ named, item.1.readRule new = some item.2 ∧
    (item.1.entry.readRule source).isSome = true
  written : (∀ item ∈ named, (item.1.readRule source).isSome = true) →
    new = writeAll named (copyRule destination source)

theorem copyRule_items {destination : RuleSelector} {rule : Json} :
    (copyRule destination rule).items "entry-universal" = rule.items "entry-universal" := by
  rw [Json.items, Json.items, copyRule_get (by decide) (by decide)]

theorem DuplicateBuilds.copied (laws : SetsLeaves deps sidJson put)
    {request : RuleDuplicateRequest} {named : List (LeafAddress × Json)}
    (h : DuplicateBuilds deps put model snapshot request instances rules named source new)
    (hident : new.Identified) : CopiedRule request.destination named source new := by
  obtain ⟨members, rfl⟩ := RuleKeys.object_of_selects (List.find?_some h.found)
  have hrules : ∀ item ∈ named, item.1.entry.rule = request.destination := fun item hitem => by
    obtain ⟨_, -, hname⟩ := forall₂_mem_right h.names hitem
    exact hname.rule_eq
  have hframe := putAll_frame laws h.built hident
  have hentry (address : EntryAddress) :
      address.readRule (copyRule request.destination (.object members)) =
        address.readRule (.object members) := by
    rw [EntryAddress.readRule, EntryAddress.readRule, Json.findIn, Json.findIn, copyRule_items]
  have hreads := putAll_reads laws h.built hident h.distinct hrules
  refine ⟨?_, ?_, fun key hvalue hlength hentries => ?_, ?_, fun item hitem => ?_, fun hthere => ?_⟩
  · rw [hframe.members _ (by decide), copyRule_value]
  · rw [hframe.members _ (by decide), copyRule_length]
  · rw [hframe.members key hentries, copyRule_get hvalue hlength]
  · rw [← copyRule_items]
    exact hframe.entries
  · rw [← hentry]
    exact hreads item hitem
  · refine putAll_writes laws h.built h.distinct hrules fun item hitem => ?_
    rw [LeafAddress.readRule, hentry]
    exact hthere item hitem

theorem DuplicateApplied.builds (hstated : LoadsStatedRules deps active.recipe.sidJson)
    (hseparated : LoadsSeparated deps active.recipe.sidJson)
    (stores : SetsLeaves deps active.recipe.sidJson put)
    (hmodel : deps.rustconf.coreconfModel active.recipe.sidJson = .ok model)
    (hsound : ActiveContext.Sound deps initial active)
    (h : DuplicateApplied deps model active operation active') :
    ∃ rules source new named, RuleKeys.yang.rules active.snapshot.data.tree = some rules ∧
      RuleKeys.Ordered rules ∧
      DuplicateBuilds deps put model active.snapshot operation.request operation.instances rules
        named source new ∧
      RuleKeys.yang.selects operation.request.destination new = true ∧
      (∀ rule ∈ rules, RuleKeys.yang.selects operation.request.destination rule = false) ∧
      Publishes deps active (RuleKeys.yang.setRules active.snapshot.data.tree
        (placeRule .yang operation.request.destination rules new)) active' := by
  obtain ⟨tree, expectedRule, candidate, haccepted, habsent, -⟩ := id h
  obtain ⟨_, hexpected, hpublish⟩ := h.publishes
  cases haccepted.expected.symm.trans hexpected
  obtain ⟨rules, hrules, hordered, hall⟩ := hsound.current.ordered hstated hseparated
  have hselects : RuleKeys.yang.selects operation.request.destination expectedRule = true := by
    have hfound := findTreeRule_yang (stores.names hmodel) haccepted.constructed
    obtain ⟨_, -, hfind⟩ := Option.bind_eq_some_iff.mp hfound.symm
    exact List.find?_some hfind
  obtain ⟨hvalue, hbits⟩ := RuleKeys.selects_lt hselects
  obtain ⟨source, new, named, hbuilds, rfl⟩ :=
    expectedDuplicateTree_ok stores hmodel hrules hordered hvalue hbits haccepted.expected
  obtain ⟨members, hmembers⟩ := RuleKeys.object_of_selects (List.find?_some hbuilds.found)
  have hnew : RuleKeys.yang.selects operation.request.destination new = true := by
    rw [putAll_selects stores hbuilds.built, hmembers]
    exact copyRule_selects hvalue hbits
  exact ⟨rules, source, new, named, hrules, hordered, hbuilds, hnew,
    not_selects_of_absent hall habsent, hpublish⟩

-- ---------------------------------------------------------------------------
-- The tree
-- ---------------------------------------------------------------------------

/-- The second tree is the first with one more rule, in its place. -/
structure AddsRule (model : CompositeModel) (request : RuleDuplicateRequest)
    (instances : List Instance) (before after : List Json) (source new : Json)
    (named : List (LeafAddress × Json)) (tree tree' : Json) : Prop where
  rules : RuleKeys.yang.rules tree = some (before ++ after)
  tree : tree' = RuleKeys.yang.setRules tree (before ++ new :: after)
  sorted : (before ++ new :: after).Pairwise fun left right =>
    RuleKeys.yang.sortKey left < RuleKeys.yang.sortKey right
  found : source ∈ before ++ after ∧ RuleKeys.yang.selects request.source source = true
  names : List.Forall₂ (OverrideNames model request.destination) instances named
  distinct : (named.map Prod.fst).Nodup
  copied : CopiedRule request.destination named source new

theorem duplicate_adds_rule {recipe : ContextRecipe}
    (hstated : LoadsStatedRules deps recipe.sidJson)
    (hseparated : LoadsSeparated deps recipe.sidJson) (laws : SetsLeaves deps recipe.sidJson put)
    (hreached : Reached deps recipe original prepared active)
    (hmodel : deps.rustconf.coreconfModel recipe.sidJson = .ok model)
    (happlied : (applyDuplicateOperation deps model active operation).result =
      some (.ok (.applied generation tag))) :
    ∃ before after source new named, AddsRule model.compositeModel operation.request
      operation.instances before after source new named active.snapshot.data.tree
      (applyDuplicateOperation deps model active operation).state.snapshot.data.tree := by
  rcases applyDuplicateOperation_cases deps model active operation with
    ⟨hnone, -⟩ | ⟨-, hreplay⟩ | ⟨active', happlies, heq⟩
  · exact absurd happlied (hnone _)
  · simp [hreplay] at happlied
  rw [← hreached.sidJson] at hstated hseparated hmodel laws
  obtain ⟨rules, source, new, named, hrules, hordered, hbuilds, hnew, habsent, hpublish⟩ :=
    happlies.builds hstated hseparated laws hmodel hreached.sound
  obtain ⟨before, after, rfl, hplaced⟩ := hordered.placeRule_new hnew habsent
  have hsorted := (hordered.placeRule hnew).strict
  rw [hplaced] at hpublish hsorted
  -- r-schc loaded the new tree, so its entries have their field-ids
  have hident : new.Identified := by
    have hlist :
        RuleKeys.yang.rules active'.snapshot.data.tree = some (before ++ new :: after) := by
      rw [hpublish.tree_eq laws.floatFree, RuleKeys.rules_setRules hrules]
    rw [← hpublish.recipe_eq] at hstated
    exact (ActiveContext.sound_publishes hreached.sound hpublish).current.identified
      hstated hlist new (List.mem_append_right before List.mem_cons_self)
  refine ⟨before, after, source, new, named, hrules, ?_, hsorted,
    ⟨List.mem_of_find?_eq_some hbuilds.found, List.find?_some hbuilds.found⟩, hbuilds.names,
    hbuilds.distinct, hbuilds.copied laws hident⟩
  rw [heq, hpublish.tree_eq laws.floatFree]

section
open Fixture

def appliedAs (generation : Nat) :
    Option (Except InspectionError DuplicateRuleResult) → Option ContextTag
  | some (.ok (.applied found tag)) => if found = generation then some tag else none
  | _ => none

theorem appliedAs_some (h : appliedAs generation result = some tag) :
    result = some (.ok (.applied generation tag)) := by
  unfold appliedAs at h
  split at h
  · obtain ⟨rfl, rfl⟩ := by simpa using h
    rfl
  · cases h

theorem duplicated_evaluated : holds (loaded duplicateWorld rulesBefore) (fun prepared =>
    let outcome := applyDuplicateOperation (deps duplicateWorld) (coreconfModel duplicateWorld)
      (.new prepared) duplicateOperation
    prepared.data.tree = tree rulesBefore && (appliedAs 2 outcome.result).isSome &&
      outcome.state.snapshot.data.tree = tree rulesCopied) = true := by
  decide +kernel

theorem duplicate_adds_rule_copied : ∃ before after source new named,
    AddsRule (coreconfModel duplicateWorld).compositeModel duplicateOperation.request
      duplicateOperation.instances before after source new named (tree rulesBefore)
      (tree rulesCopied) := by
  obtain ⟨prepared, hprepared, heval⟩ := holds_iff.mp duplicated_evaluated
  simp only [Bool.and_eq_true, decide_eq_true_eq] at heval
  obtain ⟨⟨hbefore, happlied⟩, hafter⟩ := heval
  obtain ⟨tag, htag⟩ := Option.isSome_iff_exists.mp happlied
  rw [← hbefore, ← hafter]
  exact duplicate_adds_rule (loadsStatedRules duplicateWorld_checked) duplicateWorld_separated
    setsLeaves (Reached.of_loaded hprepared []) rfl (appliedAs_some htag)

end

end SchcCoreconf
