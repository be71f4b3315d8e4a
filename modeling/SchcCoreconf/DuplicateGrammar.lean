import SchcCoreconf.CommandGrammar

/-!
# The grammar of the duplicate command

Two RuleIDs, and groups of overrides: an entry, and one to three leaves of
different kinds. The parser keeps the last group open until the next entry or
the end; what it has read at any point are the groups so far, all but the last
complete.
-/

namespace SchcCoreconf

open Fallible Arguments

-- ---------------------------------------------------------------------------
-- Groups
-- ---------------------------------------------------------------------------

inductive DuplicateItem
  | entry (entryIndex : Nat)
  | leaf (kind : DuplicateLeaf) (value : String)
  deriving DecidableEq, Repr

def DuplicateLeaf.keyword : DuplicateLeaf → String
  | target => "tv"
  | matchingOperator => "mo"
  | cda => "cda"

namespace DuplicateItem

def keyword : DuplicateItem → String
  | entry _ => "entry"
  | leaf kind _ => kind.keyword

theorem keyword_plain (item : DuplicateItem) : '=' ∉ item.keyword.toList := by
  cases item with
  | entry => simp [keyword]
  | leaf kind => cases kind <;> simp [keyword, DuplicateLeaf.keyword]

def Value (value : String) : DuplicateItem → Prop
  | entry entryIndex => Decimal value entryIndex
  | leaf _ text => value = text

def Spells (item : DuplicateItem) (word : String) : Prop :=
  ∃ value, word = item.keyword ++ "=" ++ value ∧ value.isEmpty = false ∧ item.Value value

end DuplicateItem

/-- An entry, and the leaves that are written after it. -/
structure OverrideGroup where
  entryIndex : Nat
  leaves : List (DuplicateLeaf × String)
  deriving DecidableEq, Repr

namespace OverrideGroup

def items (group : OverrideGroup) : List DuplicateItem :=
  .entry group.entryIndex :: group.leaves.map fun leaf => .leaf leaf.1 leaf.2

def Distinct (group : OverrideGroup) : Prop := (group.leaves.map Prod.fst).Nodup

/-- The override of the group: every leaf it has, and no other. -/
def override (group : OverrideGroup) : RuleDuplicateOverride where
  entryIndex := group.entryIndex
  targetValue := group.leaves.lookup .target
  matchingOperator := group.leaves.lookup .matchingOperator
  cda := group.leaves.lookup .cda

def add (group : OverrideGroup) (kind : DuplicateLeaf) (value : String) : OverrideGroup :=
  { group with leaves := group.leaves ++ [(kind, value)] }

end OverrideGroup

def RuleDuplicateOverride.leaf (item : RuleDuplicateOverride) : DuplicateLeaf → Option String
  | .target => item.targetValue
  | .matchingOperator => item.matchingOperator
  | .cda => item.cda

def RuleDuplicateOverride.withLeaf (item : RuleDuplicateOverride) (value : String) :
    DuplicateLeaf → RuleDuplicateOverride
  | .target => { item with targetValue := some value }
  | .matchingOperator => { item with matchingOperator := some value }
  | .cda => { item with cda := some value }

namespace OverrideGroup

theorem override_leaf (group : OverrideGroup) (kind : DuplicateLeaf) :
    group.override.leaf kind = group.leaves.lookup kind := by
  cases kind <;> rfl

theorem leaf_eq_none {group : OverrideGroup} :
    group.override.leaf kind = none ↔ kind ∉ group.leaves.map Prod.fst := by
  rw [override_leaf, List.lookup_eq_none_iff, List.mem_map, not_exists]
  refine forall_congr' fun leaf => ?_
  rw [bne_iff_ne, not_and, ne_comm]

theorem complete_iff {group : OverrideGroup} :
    (!(group.override.targetValue.isNone && group.override.matchingOperator.isNone &&
      group.override.cda.isNone)) = true ↔ group.leaves ≠ [] := by
  cases hleaves : group.leaves with
  | nil => simp [override, hleaves]
  | cons leaf rest => obtain ⟨kind, value⟩ := leaf; cases kind <;> simp [override, hleaves]

theorem override_add {group : OverrideGroup} (hnew : kind ∉ group.leaves.map Prod.fst) :
    (group.add kind value).override = group.override.withLeaf value kind := by
  have hlookup (other : DuplicateLeaf) : (group.add kind value).leaves.lookup other =
      if other = kind then some value else group.leaves.lookup other := by
    rw [add, List.lookup_append]
    by_cases h : other = kind
    · rw [leaf_eq_none.symm, override_leaf] at hnew
      rw [h, if_pos rfl, hnew, Option.none_or, List.lookup_cons_self]
    · have hlast : [(kind, value)].lookup other = none :=
        List.lookup_eq_none_iff.mpr (by simpa using h)
      rw [if_neg h, hlast, Option.or_none]
  cases kind <;> simp [override, hlookup, RuleDuplicateOverride.withLeaf] <;> rfl

theorem distinct_add {group : OverrideGroup} (hdistinct : group.Distinct)
    (hnew : kind ∉ group.leaves.map Prod.fst) : (group.add kind value).Distinct := by
  rw [Distinct, add, List.map_append, List.nodup_append]
  refine ⟨hdistinct, List.nodup_singleton _, ?_⟩
  intro known hknown other hother
  rw [List.map_singleton, List.mem_singleton] at hother
  rw [hother]
  exact ne_of_mem_of_not_mem hknown hnew

end OverrideGroup

namespace DuplicateArguments

/-- The parser's state once the groups were read, the last of them still open. -/
def reading (groups : List OverrideGroup) : DuplicateArguments where
  overrides := groups.dropLast.map OverrideGroup.override
  current := groups.getLast?.map OverrideGroup.override

def Step (self : DuplicateArguments) (item : DuplicateItem) (next : DuplicateArguments) : Prop :=
  match item with
  | .entry entryIndex => ∃ overrides, self.close = .ok overrides ∧
      (∀ known ∈ overrides, known.entryIndex ≠ entryIndex) ∧
      next = { overrides, current := some (OverrideGroup.override ⟨entryIndex, []⟩) }
  | .leaf kind value => ∃ current, self.current = some current ∧ current.leaf kind = none ∧
      next = { self with current := some (current.withLeaf value kind) }

theorem keyValue_ok {self : DuplicateArguments} :
    self.keyValue kind value = .ok next ↔
      ∃ item : DuplicateItem, item.keyword = kind ∧ item.Value value ∧ self.Step item next := by
  constructor
  · intro h
    unfold keyValue at h
    split at h
    · simp only [bind_ok, ensure_ok, pure_ok, parseUnsignedArgument_ok] at h
      obtain ⟨overrides, hclose, entryIndex, hvalue, _, hnew, rfl⟩ := h
      exact ⟨.entry entryIndex, rfl, hvalue, overrides, hclose, by simpa using hnew, rfl⟩
    · simp only [bind_ok, ensure_ok, need_ok, pure_ok, Option.isNone_iff_eq_none] at h
      obtain ⟨current, hcurrent, _, hnone, rfl⟩ := h
      exact ⟨.leaf .target value, rfl, rfl, current, hcurrent, hnone, rfl⟩
    · simp only [bind_ok, ensure_ok, need_ok, pure_ok, Option.isNone_iff_eq_none] at h
      obtain ⟨current, hcurrent, _, hnone, rfl⟩ := h
      exact ⟨.leaf .matchingOperator value, rfl, rfl, current, hcurrent, hnone, rfl⟩
    · simp only [bind_ok, ensure_ok, need_ok, pure_ok, Option.isNone_iff_eq_none] at h
      obtain ⟨current, hcurrent, _, hnone, rfl⟩ := h
      exact ⟨.leaf .cda value, rfl, rfl, current, hcurrent, hnone, rfl⟩
    · cases h
  · rintro ⟨item, rfl, hvalue, hstep⟩
    cases item with
    | entry entryIndex =>
      obtain ⟨overrides, hclose, hnew, rfl⟩ := hstep
      simp only [DuplicateItem.keyword, keyValue, bind_ok, ensure_ok, pure_ok,
        parseUnsignedArgument_ok]
      exact ⟨overrides, hclose, entryIndex, hvalue, (), by simpa using hnew, rfl⟩
    | leaf leaf text =>
      cases hvalue
      obtain ⟨current, hcurrent, hnone, rfl⟩ := hstep
      cases leaf <;> simp only [DuplicateItem.keyword, DuplicateLeaf.keyword, keyValue, bind_ok,
        ensure_ok, need_ok, pure_ok, Option.isNone_iff_eq_none] <;>
        exact ⟨current, hcurrent, (), hnone, rfl⟩

theorem argument_ok {self : DuplicateArguments} :
    self.argument word = .ok next ↔ ∃ item, DuplicateItem.Spells item word ∧
      self.Step item next := by
  simp only [argument, bind_ok, ensure_ok, need_ok, Bool.not_eq_true']
  constructor
  · rintro ⟨⟨kind, value⟩, hsplit, _, hnonempty, hread⟩
    obtain ⟨item, rfl, hvalue, hstep⟩ := keyValue_ok.mp hread
    exact ⟨item, ⟨value, (splitOnce_eq_some.mp hsplit).1, hnonempty, hvalue⟩, hstep⟩
  · rintro ⟨item, ⟨value, hword, hnonempty, hvalue⟩, hstep⟩
    exact ⟨(item.keyword, value), splitOnce_eq_some.mpr ⟨hword, item.keyword_plain⟩, (), hnonempty,
      keyValue_ok.mpr ⟨item, rfl, hvalue, hstep⟩⟩

structure Open (groups : List OverrideGroup) : Prop where
  complete : ∀ group ∈ groups.dropLast, group.leaves ≠ []
  distinct : ∀ group ∈ groups, group.Distinct
  indices : (groups.map OverrideGroup.entryIndex).Nodup

theorem reading_concat (done : List OverrideGroup) (last : OverrideGroup) :
    reading (done ++ [last]) =
      { overrides := done.map OverrideGroup.override, current := some last.override } := by
  simp [reading]

theorem close_reading {groups : List OverrideGroup} {overrides : List RuleDuplicateOverride} :
    (reading groups).close = .ok overrides ↔
      (∀ last ∈ groups.getLast?, last.leaves ≠ []) ∧
      overrides = groups.map OverrideGroup.override := by
  induction groups using List.reverseRecOn with
  | nil => exact ⟨fun h => ⟨nofun, (Except.ok.inj h).symm⟩, fun h => congrArg _ h.2.symm⟩
  | append_singleton done last =>
    rw [reading_concat, close]
    simp only [bind_ok, ensure_ok, pure_ok, OverrideGroup.complete_iff]
    simp only [List.getLast?_concat, Option.mem_def, Option.some.injEq, forall_eq', List.map_append]
    constructor
    · rintro ⟨_, hleaves, rfl⟩
      exact ⟨hleaves, rfl⟩
    · rintro ⟨hleaves, rfl⟩
      exact ⟨(), hleaves, rfl⟩

theorem Open.complete_all {groups : List OverrideGroup} (hopen : Open groups)
    (hlast : ∀ last ∈ groups.getLast?, last.leaves ≠ []) : ∀ group ∈ groups, group.leaves ≠ [] := by
  induction groups using List.reverseRecOn with
  | nil => exact nofun
  | append_singleton done last =>
    have hdone := hopen.complete
    rw [List.dropLast_concat] at hdone
    rw [List.forall_mem_append, List.forall_mem_singleton]
    exact ⟨hdone, hlast last List.getLast?_concat⟩

theorem Step.groups {groups : List OverrideGroup} (hopen : Open groups)
    (h : (reading groups).Step item next) :
    ∃ grown, Open grown ∧ grown.flatMap OverrideGroup.items =
      groups.flatMap OverrideGroup.items ++ [item] ∧
      next = reading grown := by
  cases item with
  | entry entryIndex =>
    obtain ⟨overrides, hclose, hnew, rfl⟩ := h
    obtain ⟨hlast, rfl⟩ := close_reading.mp hclose
    refine ⟨groups ++ [⟨entryIndex, []⟩], ⟨?_, ?_, ?_⟩, ?_, (reading_concat _ _).symm⟩
    · rw [List.dropLast_concat]
      exact hopen.complete_all hlast
    · rw [List.forall_mem_append, List.forall_mem_singleton]
      exact ⟨hopen.distinct, List.nodup_nil⟩
    · rw [List.map_append, List.nodup_append]
      refine ⟨hopen.indices, List.nodup_singleton _, ?_⟩
      intro index hindex other hother
      obtain ⟨group, hgroup, rfl⟩ := List.mem_map.mp hindex
      rw [List.map_singleton, List.mem_singleton] at hother
      rw [hother]
      exact hnew _ (List.mem_map_of_mem hgroup)
    · rw [List.flatMap_append, List.flatMap_singleton]
      rfl
  | leaf kind value =>
    obtain ⟨current, hcurrent, hnone, rfl⟩ := h
    rcases List.eq_nil_or_concat groups with rfl | ⟨done, last, rfl⟩
    · cases hcurrent
    · rw [List.concat_eq_append] at hopen hcurrent ⊢
      rw [reading_concat] at hcurrent ⊢
      obtain rfl := Option.some.inj hcurrent
      have hnew := OverrideGroup.leaf_eq_none.mp hnone
      have hdistinct := hopen.distinct
      rw [List.forall_mem_append, List.forall_mem_singleton] at hdistinct
      refine ⟨done ++ [last.add kind value], ⟨?_, ?_, ?_⟩, ?_, ?_⟩
      · have hdone := hopen.complete
        rw [List.dropLast_concat] at hdone ⊢
        exact hdone
      · rw [List.forall_mem_append, List.forall_mem_singleton]
        exact ⟨hdistinct.1, OverrideGroup.distinct_add hdistinct.2 hnew⟩
      · have hindices := hopen.indices
        rw [List.map_append] at hindices ⊢
        exact hindices
      · rw [List.flatMap_append, List.flatMap_append, List.append_assoc]
        congr 1
        simp [OverrideGroup.items, OverrideGroup.add]
      · rw [reading_concat, OverrideGroup.override_add hnew]

theorem open_nil : Open [] := ⟨nofun, nofun, List.nodup_nil⟩

theorem run_groups (h : words.foldlM argument {} = .ok final) :
    ∃ groups, Open groups ∧ List.Forall₂ DuplicateItem.Spells
      (groups.flatMap OverrideGroup.items) words ∧ final = reading groups := by
  induction words using List.reverseRecOn generalizing final with
  | nil =>
    cases h
    exact ⟨[], open_nil, .nil, rfl⟩
  | append_singleton words word ih =>
    simp only [List.foldlM_append, List.foldlM_cons, List.foldlM_nil, bind_ok, pure_ok] at h
    obtain ⟨state, hwords, _, hword, rfl⟩ := h
    obtain ⟨groups, hopen, hspells, rfl⟩ := ih hwords
    obtain ⟨item, hitem, hstep⟩ := argument_ok.mp hword
    obtain ⟨grown, hgrown, hitems, rfl⟩ := hstep.groups hopen
    refine ⟨grown, hgrown, ?_, rfl⟩
    rw [hitems]
    exact List.rel_append hspells (.cons hitem .nil)

theorem run_leaves {leaves : List (DuplicateLeaf × String)}
    (hspells : List.Forall₂ DuplicateItem.Spells (leaves.map fun leaf => .leaf leaf.1 leaf.2) words)
    (hdistinct : ((group.leaves ++ leaves).map Prod.fst).Nodup) :
    words.foldlM argument (reading (done ++ [group])) =
      .ok (reading (done ++ [⟨group.entryIndex, group.leaves ++ leaves⟩])) := by
  induction leaves generalizing words group with
  | nil =>
    cases hspells
    rw [List.append_nil]
    rfl
  | cons leaf leaves ih =>
    obtain ⟨kind, value⟩ := leaf
    cases hspells with
    | cons hword hwords =>
      have hnew : kind ∉ group.leaves.map Prod.fst := by
        rw [List.map_append, List.nodup_append] at hdistinct
        exact fun hmem => hdistinct.2.2 kind hmem kind (by simp) rfl
      have hstep : (reading (done ++ [group])).Step (.leaf kind value)
          (reading (done ++ [group.add kind value])) := by
        rw [reading_concat, reading_concat, OverrideGroup.override_add hnew]
        exact ⟨_, rfl, OverrideGroup.leaf_eq_none.mpr hnew, rfl⟩
      rw [List.append_cons group.leaves] at hdistinct ⊢
      rw [List.foldlM_cons, argument_ok.mpr ⟨_, hword, hstep⟩]
      exact ih hwords hdistinct

theorem groups_run {groups : List OverrideGroup} (hopen : Open groups)
    (hspells : List.Forall₂ DuplicateItem.Spells (groups.flatMap OverrideGroup.items) words) :
    words.foldlM argument {} = .ok (reading groups) := by
  induction groups using List.reverseRecOn generalizing words with
  | nil =>
    cases hspells
    rfl
  | append_singleton done last ih =>
    obtain ⟨entryIndex, leaves⟩ := last
    have hdone := hopen.complete
    have hdistinct := hopen.distinct
    have hindices := hopen.indices
    rw [List.dropLast_concat] at hdone
    rw [List.forall_mem_append, List.forall_mem_singleton] at hdistinct
    rw [List.map_append, List.nodup_append] at hindices
    rw [List.flatMap_append, List.flatMap_singleton] at hspells
    have hbefore := List.forall₂_take_append _ _ _ hspells.flip
    have hafter := List.forall₂_drop_append _ _ _ hspells.flip
    rw [← List.take_append_drop (done.flatMap OverrideGroup.items).length words, List.foldlM_append,
      ih ⟨fun group hmem => hdone group (List.mem_of_mem_dropLast hmem), hdistinct.1, hindices.1⟩
        hbefore.flip]
    generalize words.drop (done.flatMap OverrideGroup.items).length = rest at hafter
    cases hafter with
    | cons hword hwords =>
      have hstep :
          (reading done).Step (.entry entryIndex) (reading (done ++ [⟨entryIndex, []⟩])) := by
        rw [reading_concat]
        refine ⟨_, close_reading.mpr ⟨fun last hlast =>
          hdone last (List.mem_of_getLast? hlast), rfl⟩, ?_, rfl⟩
        intro known hknown
        obtain ⟨group, hgroup, rfl⟩ := List.mem_map.mp hknown
        exact hindices.2.2 _ (List.mem_map_of_mem hgroup) _ List.mem_cons_self
      show List.foldlM argument (reading done) (_ :: _) = _
      rw [List.foldlM_cons, argument_ok.mpr ⟨_, hword, hstep⟩]
      exact run_leaves hwords.flip hdistinct.2

end DuplicateArguments

theorem duplicateSelector_ok {deps : Deps} {words : List String} {index : Nat}
    (hwords : ∀ word ∈ words, IsWord word) : duplicateSelector deps role
      words[index]? = .ok selector ↔ ∃ word, words[index]? = some word ∧
        SpellsRuleId selector word := by
  rw [duplicateSelector, mapError_ok]
  cases hword : words[index]? with
  | none => exact iff_of_false nofun nofun
  | some word =>
    have hmem : word ∈ words := List.mem_of_getElem? hword
    simp only [need, Except.bind, parseRuleSelector_ok (hwords word hmem), Option.some.injEq,
      exists_eq_left']

/-- The duplicate parser accepts two RuleIDs and groups of distinct entries, and returns the
groups. -/
theorem duplicate_command_grammar (deps : Deps) (input : String) (request : RuleDuplicateRequest) :
    parseRuleDuplicateCommand deps input = .ok request ↔ ∃ (source destination : String)
      (arguments : List String) (groups : List OverrideGroup),
      splitWhitespace input = "rule" :: "duplicate" :: source :: destination :: arguments ∧
      SpellsRuleId request.source source ∧ SpellsRuleId request.destination destination ∧
      List.Forall₂ DuplicateItem.Spells (groups.flatMap OverrideGroup.items) arguments ∧
      (∀ group ∈ groups, group.leaves ≠ [] ∧ group.Distinct) ∧
      (groups.map OverrideGroup.entryIndex).Nodup ∧
      request.overrides = groups.map OverrideGroup.override := by
  constructor
  · intro h
    unfold parseRuleDuplicateCommand at h
    split at h
    · next words hwords =>
      have hword : ∀ word ∈ words, IsWord word := fun word hmem =>
        isWord_of_mem (hwords ▸ List.mem_cons_of_mem _ (List.mem_cons_of_mem _ hmem))
      simp only [bind_ok, pure_ok, duplicateSelector_ok hword] at h
      obtain ⟨source, ⟨sourceWord, hfirst, hsource⟩, destination, ⟨destinationWord, hsecond,
        hdestination⟩, read, hread, overrides, hclose, rfl⟩ := h
      obtain ⟨groups, hopen, hspells, rfl⟩ := DuplicateArguments.run_groups hread
      obtain ⟨hlast, rfl⟩ := DuplicateArguments.close_reading.mp hclose
      refine ⟨sourceWord, destinationWord, words.drop 2, groups, ?_, hsource, hdestination, hspells,
        fun group hgroup => ⟨hopen.complete_all hlast group hgroup, hopen.distinct group hgroup⟩,
        hopen.indices, rfl⟩
      cases words with
      | nil => cases hfirst
      | cons first rest =>
        cases rest with
        | nil => cases hsecond
        | cons second rest =>
          cases hfirst
          cases hsecond
          exact hwords
    · cases h
  · rintro ⟨source, destination, arguments, groups, hwords, hsource, hdestination, hspells, hgroups,
      hindices, hoverrides⟩
    have hword : ∀ word ∈ source :: destination :: arguments, IsWord word := fun word hmem =>
      isWord_of_mem (hwords ▸ List.mem_cons_of_mem _ (List.mem_cons_of_mem _ hmem))
    have hread := DuplicateArguments.groups_run
      ⟨fun group hmem => (hgroups group (List.mem_of_mem_dropLast hmem)).1,
        fun group hmem => (hgroups group hmem).2, hindices⟩ hspells
    have hclose := DuplicateArguments.close_reading.mpr
      ⟨fun last hlast => (hgroups last (List.mem_of_getLast? hlast)).1, rfl⟩
    simp only [parseRuleDuplicateCommand, hwords, bind_ok, pure_ok, duplicateSelector_ok hword]
    refine ⟨request.source, ⟨source, rfl, hsource⟩, request.destination, ⟨destination, rfl,
      hdestination⟩, _, hread, _, hclose, ?_⟩
    rw [← hoverrides]

end SchcCoreconf
