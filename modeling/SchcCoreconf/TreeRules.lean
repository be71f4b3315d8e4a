import SchcCoreconf.Leaves

/-!
# The rule list of a tree

A tree with another rule list is otherwise the same tree. Where every rule of a
list states its RuleID and the list is in strict RuleID order, a rule is found by
its RuleID, and the list is determined by its members: putting a rule in its place
replaces the rule with that RuleID, or adds one.
-/

namespace SchcCoreconf

open Fallible FirstMatch

def RuleId.selector (id : RuleId) : RuleSelector := { value := id.value, bits := id.bitLen }

-- ---------------------------------------------------------------------------
-- Another rule list
-- ---------------------------------------------------------------------------

namespace RuleKeys

variable {rules : List Json}

theorem yang_setRules (tree : Json) (rules : List Json) :
    yang.setRules tree rules = tree.modify "ietf-schc:schc" (·.set "rule" (.array rules)) := by
  cases tree with
  | object members =>
    simp only [setRules, yang, Json.modify, Json.get, Json.set]
    cases hroot : Json.lookup members "ietf-schc:schc" with
    | none => rfl
    | some root =>
      cases root with
      | object inner => rfl
      | _ => exact congrArg Json.object (Json.setMember_self hroot).symm
  | _ => rfl

theorem rules_setRules (h : yang.rules tree = some old) (rules : List Json) :
    yang.rules (yang.setRules tree rules) = some rules := by
  rw [LeafAddress.yang_rules] at h ⊢
  obtain ⟨root, hroot, hitems⟩ := Option.bind_eq_some_iff.mp h
  rw [yang_setRules, Json.get_modify_self, hroot]
  exact Json.items_set hitems rules

theorem setRules_setRules (tree : Json) (first second : List Json) :
    yang.setRules (yang.setRules tree first) second = yang.setRules tree second := by
  simp only [yang_setRules, Json.modify_modify]
  exact Json.modify_congr fun root _ => Json.set_set _ _

theorem setRules_self (h : yang.rules tree = some rules) : yang.setRules tree rules = tree := by
  rw [LeafAddress.yang_rules] at h
  rw [yang_setRules]
  refine Json.modify_id fun root hroot => ?_
  rw [hroot] at h
  exact Json.set_self (Json.get_of_items h)

/-- The first rule of the tree with this RuleID. -/
def find (keys : RuleKeys) (tree : Json) (selector : RuleSelector) : Option Json :=
  (keys.rules tree).bind (·.find? (keys.selects selector))

def updateRule (keys : RuleKeys) (selector : RuleSelector) (f : Json → Json) (tree : Json) : Json :=
  match keys.rules tree with
  | none => tree
  | some rules => keys.setRules tree (updateFirst (keys.selects selector) f rules)

theorem updateRule_of_rules {selector : RuleSelector} {f : Json → Json}
    (h : yang.rules tree = some rules) :
    yang.updateRule selector f tree =
      yang.setRules tree (updateFirst (yang.selects selector) f rules) := by
  rw [updateRule, h]

theorem write_eq_updateRule (address : LeafAddress) (value tree : Json) :
    address.write value tree = yang.updateRule address.entry.rule
      (address.writeRule value) tree := by
  unfold updateRule LeafAddress.write
  rw [LeafAddress.yang_rules]
  cases hroot : tree.get "ietf-schc:schc" with
  | none => simp [Json.modify, hroot]
  | some root =>
    rw [Option.bind_some]
    cases hitems : root.items "rule" with
    | none =>
      refine Json.modify_id fun other hother => ?_
      cases hroot.symm.trans hother
      simp [Json.updateIn, hitems]
    | some rules =>
      simp only [yang_setRules]
      refine Json.modify_congr fun other hother => ?_
      cases hroot.symm.trans hother
      simp [Json.updateIn, hitems]

theorem findTreeRule_eq (hnames : SidNames model) (hsids : ModelSids.resolve model = .ok sids)
    (tree : Json) (selector : RuleSelector) :
    findTreeRule tree model selector = .ok (yang.find tree selector) := by
  simp only [findTreeRule, bind_ok, pure_ok]
  exact ⟨sids, hsids, yang, ruleKeys_yang hnames hsids, rfl⟩

theorem read_of_find {address : LeafAddress} (h : yang.find tree address.entry.rule = some rule) :
    address.read tree = address.readRule rule := by
  rw [find, LeafAddress.yang_rules] at h
  rw [LeafAddress.read, LeafAddress.readRule, EntryAddress.read]
  cases hroot : tree.get "ietf-schc:schc" with
  | none => simp [hroot] at h
  | some root =>
    rw [hroot, Option.bind_some] at h
    have hfind : root.findIn "rule" (yang.selects address.entry.rule) = some rule := h
    simp [hfind]

theorem find_of_read {address : EntryAddress} (h : address.read tree = some entry) :
    ∃ rule, yang.find tree address.rule = some rule := by
  simp only [EntryAddress.read, Option.bind_eq_bind] at h
  obtain ⟨root, hroot, h⟩ := Option.bind_eq_some_iff.mp h
  obtain ⟨rule, hrule, -⟩ := Option.bind_eq_some_iff.mp h
  refine ⟨rule, ?_⟩
  rw [find, LeafAddress.yang_rules, hroot]
  exact hrule

theorem floatFree_of_find {selector : RuleSelector} (htree : tree.FloatFree)
    (h : yang.find tree selector = some rule) : rule.FloatFree := by
  rw [find, LeafAddress.yang_rules] at h
  obtain ⟨rules, hrules, hrule⟩ := Option.bind_eq_some_iff.mp h
  obtain ⟨root, hroot, hitems⟩ := Option.bind_eq_some_iff.mp hrules
  obtain ⟨list, hlist, harray⟩ := Option.bind_eq_some_iff.mp hitems
  have hlist := Json.allFloats_get (Json.allFloats_get htree hroot) hlist
  cases list with
  | array items =>
    cases harray
    exact allFloatsItems_iff.mp hlist rule (List.mem_of_find?_eq_some hrule)
  | _ => cases harray

theorem updateRule_congr {selector : RuleSelector} {f g : Json → Json}
    (h : ∀ rule, yang.find tree selector = some rule → f rule = g rule) :
    yang.updateRule selector f tree = yang.updateRule selector g tree := by
  unfold updateRule
  split
  · rfl
  · next rules hrules =>
    rw [updateFirst_congr fun rule hrule => h rule (by rw [find, hrules, Option.bind_some, hrule])]

theorem write_of_find {address : LeafAddress} (h : yang.find tree address.entry.rule = some rule)
    (value : Json) : address.write value tree =
      yang.updateRule address.entry.rule (fun _ => address.writeRule value rule) tree := by
  rw [write_eq_updateRule]
  refine updateRule_congr fun other hother => ?_
  cases h.symm.trans hother
  rfl

-- ---------------------------------------------------------------------------
-- RuleIDs
-- ---------------------------------------------------------------------------

theorem sortKey_of_selects {selector : RuleSelector} (h : yang.selects selector rule = true) :
    yang.sortKey rule = toLex (selector.bits, selector.value) := by
  simp only [selects, Bool.and_eq_true, decide_eq_true_eq] at h
  rw [sortKey, h.1, h.2, Option.getD_some, Option.getD_some]

theorem selects_unique {left right : RuleSelector} (hl : yang.selects left rule = true)
    (hr : yang.selects right rule = true) : left = right := by
  have hkeys := (sortKey_of_selects hl).symm.trans (sortKey_of_selects hr)
  obtain ⟨hbits, hvalue⟩ := Prod.mk.inj (toLex.injective hkeys)
  cases left
  cases right
  simp_all

/-- A rule list as it is in a context: every rule has a RuleID, in strict order. -/
structure Ordered (rules : List Json) : Prop where
  stated : ∀ rule ∈ rules, ∃ selector, yang.selects selector rule = true
  strict : rules.Pairwise fun left right => yang.sortKey left < yang.sortKey right

namespace Ordered

theorem ext {left right : List Json} (hl : Ordered left) (hr : Ordered right)
    (h : ∀ rule, rule ∈ left ↔ rule ∈ right) :
    left = right :=
  Sorted.eq_of_strict hl.strict hr.strict h

theorem nodup (h : Ordered rules) : rules.Nodup :=
  h.strict.imp fun hlt heq => (heq ▸ hlt).false

theorem sublist {part : List Json} (h : Ordered rules) (hsub : part.Sublist rules) : Ordered part :=
  ⟨fun rule hrule => h.stated rule (hsub.subset hrule), h.strict.sublist hsub⟩

theorem eq_of_selects {selector : RuleSelector} (h : Ordered rules) (hl : left ∈ rules)
    (hr : right ∈ rules) (hleft : yang.selects selector left = true)
    (hright : yang.selects selector right = true) : left = right := by
  have : Std.Symm fun left right : Json => yang.sortKey left ≠ yang.sortKey right :=
    ⟨fun _ _ => Ne.symm⟩
  by_contra hne
  exact (h.strict.imp fun hlt => hlt.ne).forall hl hr hne
    ((sortKey_of_selects hleft).trans (sortKey_of_selects hright).symm)

theorem find?_eq_some {selector : RuleSelector} (h : Ordered rules) :
    rules.find? (yang.selects selector) = some rule ↔
      rule ∈ rules ∧ yang.selects selector rule = true := by
  constructor
  · intro hfind
    exact ⟨List.mem_of_find?_eq_some hfind, List.find?_some hfind⟩
  · rintro ⟨hmem, hselects⟩
    cases hfind : rules.find? (yang.selects selector) with
    | none => exact absurd hselects (List.find?_eq_none.mp hfind rule hmem)
    | some found =>
      rw [h.eq_of_selects (List.mem_of_find?_eq_some hfind) hmem (List.find?_some hfind) hselects]

end Ordered

-- ---------------------------------------------------------------------------
-- Putting a rule in its place
-- ---------------------------------------------------------------------------

theorem mem_placeRule {destination : RuleSelector} :
    other ∈ placeRule yang destination rules rule ↔
      (other ∈ rules ∧ yang.selects destination other = false) ∨ other = rule := by
  rw [placeRule, List.mem_insertionSort, List.mem_append, List.mem_filter, List.mem_singleton,
    Bool.not_eq_true']

theorem Ordered.placeRule {destination : RuleSelector} (h : Ordered rules)
    (hrule : yang.selects destination rule = true) :
    Ordered (placeRule yang destination rules rule) where
  stated other hother := by
    rcases mem_placeRule.mp hother with ⟨hmem, -⟩ | rfl
    · exact h.stated other hmem
    · exact ⟨destination, hrule⟩
  strict := by
    refine Sorted.strict_insertionSort (List.pairwise_append.mpr
      ⟨(h.strict.imp fun hlt => hlt.ne).filter _, List.pairwise_singleton _ _, ?_⟩)
    intro other hother rule' hrule'
    cases List.mem_singleton.mp hrule'
    obtain ⟨hmem, hnot⟩ := List.mem_filter.mp hother
    obtain ⟨selector, hselects⟩ := h.stated other hmem
    rw [sortKey_of_selects hselects, sortKey_of_selects hrule]
    intro hkeys
    obtain ⟨hbits, hvalue⟩ := Prod.mk.inj (toLex.injective hkeys)
    have hsame : selector = destination := by
      cases selector
      cases destination
      simp_all
    simp [← hsame, hselects] at hnot

/-- A rule with a new RuleID stands between the rules there were. -/
theorem Ordered.placeRule_new {destination : RuleSelector} (h : Ordered rules)
    (hrule : yang.selects destination rule = true)
    (hnew : ∀ other ∈ rules, yang.selects destination other = false) :
    ∃ before after, rules = before ++ after ∧
      SchcCoreconf.placeRule yang destination rules rule = before ++ rule :: after := by
  have hordered := h.placeRule hrule
  obtain ⟨before, after, hsplit⟩ := List.append_of_mem
    (mem_placeRule.mpr (.inr rfl) : rule ∈ SchcCoreconf.placeRule yang destination rules rule)
  have hsub : (before ++ after).Sublist (before ++ rule :: after) :=
    (List.Sublist.refl before).append (List.sublist_cons_self rule after)
  refine ⟨before, after, h.ext ((hsplit ▸ hordered).sublist hsub) fun other => ?_, hsplit⟩
  have hmem : other ∈ before ++ rule :: after ↔
      (other ∈ rules ∧ yang.selects destination other = false) ∨ other = rule := by
    rw [← hsplit, mem_placeRule]
  have honce : rule ∉ before ++ after := (List.nodup_cons.mp
    (List.nodup_middle.mp (hsplit ▸ hordered).nodup)).1
  constructor
  · intro hother
    have hne : other ≠ rule := by
      rintro rfl
      exact absurd hrule (by simp [hnew other hother])
    simpa [hne] using hmem.mpr (.inl ⟨hother, hnew other hother⟩)
  · intro hother
    rcases hmem.mp (hsub.subset hother) with ⟨hmem, -⟩ | rfl
    · exact hmem
    · exact absurd hother honce

theorem Ordered.mem_updateFirst {selector : RuleSelector} {f : Json → Json} (h : Ordered rules)
    (hfind : rules.find? (yang.selects selector) = some rule) :
    other ∈ updateFirst (yang.selects selector) f rules ↔
      (other ∈ rules ∧ yang.selects selector other = false) ∨ other = f rule := by
  obtain ⟨hrule, before, after, rfl, hbefore⟩ := List.find?_eq_some_iff_append.mp hfind
  have hfirst : ∀ other ∈ before, yang.selects selector other = false := by simpa using hbefore
  have hlast : ∀ other ∈ after, yang.selects selector other = false := fun other hother => by
    by_contra hselects
    have hsame := h.eq_of_selects (List.mem_append_right before (List.mem_cons_of_mem rule hother))
      (List.mem_append_right before List.mem_cons_self) (by simpa using hselects) hrule
    have honce := (List.nodup_cons.mp (List.nodup_middle.mp h.nodup)).1
    exact honce (List.mem_append_right before (hsame ▸ hother))
  rw [updateFirst_append hfirst hrule]
  simp only [List.mem_append, List.mem_cons]
  constructor
  · rintro (hother | rfl | hother)
    · exact .inl ⟨.inl hother, hfirst other hother⟩
    · exact .inr rfl
    · exact .inl ⟨.inr (.inr hother), hlast other hother⟩
  · rintro (⟨hother | rfl | hother, hnot⟩ | rfl)
    · exact .inl hother
    · simp [hrule] at hnot
    · exact .inr (.inr hother)
    · exact .inr (.inl rfl)

theorem Ordered.updateFirst {selector : RuleSelector} {f : Json → Json} (h : Ordered rules)
    (hkeeps : ∀ rule, yang.selects selector rule = true → yang.selects selector (f rule) = true) :
    Ordered (updateFirst (yang.selects selector) f rules) where
  stated other hother := by
    cases hfind : rules.find? (yang.selects selector) with
    | none => exact h.stated other (updateFirst_of_find?_none hfind ▸ hother)
    | some rule =>
      rcases (h.mem_updateFirst hfind).mp hother with ⟨hmem, -⟩ | rfl
      · exact h.stated other hmem
      · exact ⟨selector, hkeeps rule (List.find?_some hfind)⟩
  strict := by
    have hsame : ∀ rule, yang.selects selector rule = true →
        yang.sortKey (f rule) = yang.sortKey rule := fun rule hrule =>
      (sortKey_of_selects (hkeeps rule hrule)).trans (sortKey_of_selects hrule).symm
    rw [← List.pairwise_map (f := yang.sortKey) (R := (· < ·)), map_updateFirst hsame]
    exact List.pairwise_map.mpr h.strict

theorem Ordered.placeRule_found {destination : RuleSelector} (h : Ordered rules)
    (hfind : rules.find? (yang.selects destination) = some old)
    (hrule : yang.selects destination rule = true) :
    SchcCoreconf.placeRule yang destination rules rule =
      FirstMatch.updateFirst (yang.selects destination) (fun _ => rule) rules := by
  refine (h.placeRule hrule).ext (h.updateFirst fun _ _ => hrule) fun other => ?_
  rw [mem_placeRule, h.mem_updateFirst hfind]

theorem Ordered.placeRule_placeRule {destination : RuleSelector} (h : Ordered rules)
    (hfirst : yang.selects destination first = true)
    (hsecond : yang.selects destination second = true) :
    SchcCoreconf.placeRule yang destination
        (SchcCoreconf.placeRule yang destination rules first) second =
      SchcCoreconf.placeRule yang destination rules second := by
  refine ((h.placeRule hfirst).placeRule hsecond).ext (h.placeRule hsecond) fun other => ?_
  simp only [mem_placeRule]
  constructor
  · rintro (⟨⟨hother, hnot⟩ | rfl, hnot'⟩ | rfl)
    · exact .inl ⟨hother, hnot⟩
    · simp [hfirst] at hnot'
    · exact .inr rfl
  · rintro (⟨hother, hnot⟩ | rfl)
    · exact .inl ⟨.inl ⟨hother, hnot⟩, hnot⟩
    · exact .inr rfl

theorem Ordered.find?_placeRule {destination : RuleSelector} (h : Ordered rules)
    (hrule : yang.selects destination rule = true) :
    (SchcCoreconf.placeRule yang destination rules rule).find? (yang.selects destination) =
      some rule :=
  (h.placeRule hrule).find?_eq_some.mpr ⟨mem_placeRule.mpr (.inr rfl), hrule⟩

end RuleKeys

-- ---------------------------------------------------------------------------
-- Canonical trees
-- ---------------------------------------------------------------------------

theorem lookup_normalizeMembers {members normals : List (String × Json)}
    (h : normalizeMembers members = .ok normals) (hlookup : Json.lookup normals key = some normal) :
    ∃ value, Json.lookup members key = some value ∧
    normalizeValue value (some key) = .ok normal := by
  induction members generalizing normals with
  | nil =>
    cases h
    cases hlookup
  | cons member rest ih =>
    obtain ⟨name, value⟩ := member
    simp only [normalizeMembers, bind_ok, pure_ok] at h
    obtain ⟨first, hfirst, others, hothers, rfl⟩ := h
    simp only [Json.lookup] at hlookup ⊢
    split at hlookup
    · next hname =>
      cases hlookup
      exact ⟨value, if_pos hname, hname ▸ hfirst⟩
    · next hname =>
      rw [if_neg hname]
      exact ih hothers hlookup

theorem normalizeValue_get (h : normalizeValue value context = .ok value)
    (hget : value.get key = some member) : normalizeValue member (some key) = .ok member := by
  cases value with
  | object members =>
    simp only [normalizeValue, bind_ok, pure_ok, Json.object.injEq] at h
    obtain ⟨_, hmembers, rfl⟩ := h
    obtain ⟨original, hlookup, hnormal⟩ := lookup_normalizeMembers hmembers hget
    cases hlookup.symm.trans hget
    exact hnormal
  | _ => cases hget

/-- A list of a normalized tree is in order, and its items are canonical. -/
theorem normalizeValue_items (h : normalizeValue value context = .ok value)
    (hitems : value.items key = some items) :
    orderItems (some key) items = .ok items ∧ ∀ item ∈ items, Canonical item := by
  have hlist := normalizeValue_get h (Json.get_of_items hitems)
  simp only [normalizeValue, bind_ok, pure_ok, Json.array.injEq] at hlist
  obtain ⟨normals, hnormals, _, hordered, rfl⟩ := hlist
  exact ⟨orderItems_idempotent hordered, fun item hitem =>
    normalizeItems_canonical _ hnormals item ((orderItems_mem hordered).mp hitem)⟩

namespace Canonical

variable {tree : Json}

theorem rules_sorted (h : Canonical tree) (hrules : RuleKeys.yang.rules tree = some rules) :
    rules.Pairwise (Sorted.byKey RuleKeys.yang.sortKey) ∧ ∀ rule ∈ rules, Canonical rule := by
  rw [LeafAddress.yang_rules] at hrules
  obtain ⟨root, hroot, hitems⟩ := Option.bind_eq_some_iff.mp hrules
  obtain ⟨hordered, hcanonical⟩ := normalizeValue_items (normalizeValue_get h hroot) hitems
  refine ⟨?_, hcanonical⟩
  have hsorted : rules.insertionSort (Sorted.byKey ruleSortKey) = rules := Except.ok.inj hordered
  rw [← hsorted]
  exact List.pairwise_insertionSort _ rules

end Canonical

end SchcCoreconf
