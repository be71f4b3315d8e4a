import SchcCoreconf.Assumptions

/-!
# Setting the leaves of a rule

`putAll` sets some leaves of a rule, one after the other. The rule keeps its
entries, and they keep all members and leaves that are not named; each leaf that
is named has its value in the end, and its entry was there.
-/

namespace SchcCoreconf

open Fallible FirstMatch

-- ---------------------------------------------------------------------------
-- What is left alone
-- ---------------------------------------------------------------------------

/-- Only the named leaves of the entry may differ. -/
structure EntryFrame (named : List LeafAddress) (before after : Json) : Prop where
  members : ∀ key, (∀ address ∈ named,
      hasU64 before "entry-index" address.entry.entryIndex = true → address.leaf.holder ≠ key) →
    after.get key = before.get key
  leaves : ∀ leaf, (∀ address ∈ named,
      hasU64 before "entry-index" address.entry.entryIndex = true → address.leaf ≠ leaf) →
    leaf.read after = leaf.read before

namespace EntryFrame

theorem refl {entry : Json} : EntryFrame named entry entry := ⟨fun _ _ => rfl, fun _ _ => rfl⟩

theorem get_of_ne_holder {before after : Json} (h : EntryFrame named before after)
    (hkey : ∀ leaf : EntryLeaf, leaf.holder ≠ key) : after.get key = before.get key :=
  h.members key fun address _ _ => hkey address.leaf

theorem index {before after : Json} (h : EntryFrame named before after) (number : Nat) :
    hasU64 after "entry-index" number = hasU64 before "entry-index" number := by
  rw [hasU64, hasU64, h.get_of_ne_holder fun leaf => EntryLeaf.index_ne_holder.symm]

theorem trans {first second third : Json} (h : EntryFrame named first second)
    (h' : EntryFrame named' second third) : EntryFrame (named ++ named') first third where
  members key hkey := by
    refine (h'.members key fun address haddress hindex => ?_).trans
      (h.members key fun address haddress hindex => ?_)
    · exact hkey address (List.mem_append_right named haddress) (h.index _ ▸ hindex)
    · exact hkey address (List.mem_append_left named' haddress) hindex
  leaves leaf hleaf := by
    refine (h'.leaves leaf fun address haddress hindex => ?_).trans
      (h.leaves leaf fun address haddress hindex => ?_)
    · exact hleaf address (List.mem_append_right named haddress) (h.index _ ▸ hindex)
    · exact hleaf address (List.mem_append_left named' haddress) hindex

theorem of_sets {address : LeafAddress} (h : address.leaf.Sets value before after)
    (hindex : hasU64 before "entry-index" address.entry.entryIndex = true) :
    EntryFrame [address] before after where
  members key hkey := h.members key (hkey address List.mem_cons_self hindex).symm
  leaves leaf hleaf := h.others leaf (hleaf address List.mem_cons_self hindex).symm

end EntryFrame

structure RuleFrame (named : List LeafAddress) (before after : Json) : Prop where
  members : ∀ key, key ≠ "entry-universal" → after.get key = before.get key
  entries : Option.Rel (List.Forall₂ (EntryFrame named)) (before.items "entry-universal")
    (after.items "entry-universal")

theorem EntryAddress.index_of_readRule {address : EntryAddress} {rule : Json}
    (h : address.readRule rule = some entry) :
    hasU64 entry "entry-index" address.entryIndex = true := by
  obtain ⟨entries, -, hfind⟩ := Option.bind_eq_some_iff.mp h
  exact (List.find?_eq_some_iff_append.mp hfind).1

theorem hasU64_unique {value : Json} (h : hasU64 value key left = true)
    (h' : hasU64 value key right = true) : left = right := by
  simp only [hasU64, decide_eq_true_eq] at h h'
  exact Option.some.inj (h.symm.trans h')

namespace RuleFrame

theorem refl {rule : Json} : RuleFrame named rule rule where
  members _ _ := rfl
  entries := by
    cases rule.items "entry-universal" with
    | none => exact .none
    | some entries => exact .some (List.forall₂_same.mpr fun _ _ => .refl)

theorem trans {first second third : Json} (h : RuleFrame named first second)
    (h' : RuleFrame named' second third) : RuleFrame (named ++ named') first third where
  members key hkey := (h'.members key hkey).trans (h.members key hkey)
  entries := by
    have hall := h.entries
    have hall' := h'.entries
    revert hall hall'
    cases first.items "entry-universal" <;> cases second.items "entry-universal" <;>
      cases third.items "entry-universal" <;> rintro (hall | _) (hall' | _)
    · exact .none
    · exact .some (forall₂_trans (fun _ _ _ hab hbc => hab.trans hbc) hall hall')

variable {before after : Json}

theorem selects (h : RuleFrame named before after) (selector : RuleSelector) :
    RuleKeys.yang.selects selector after = RuleKeys.yang.selects selector before := by
  rw [RuleKeys.yang_selects, RuleKeys.yang_selects, hasU64, hasU64,
    h.members "rule-id-value" (by decide), h.members "rule-id-length" (by decide)]
  rfl

theorem identified (h : RuleFrame named before after) (hafter : after.Identified) :
    before.Identified := by
  intro entries hentries entry hentry
  have hall := h.entries
  rw [hentries] at hall
  cases hentries' : after.items "entry-universal" with
  | none => simp [hentries'] at hall
  | some entries' =>
    rw [hentries', Option.rel_some_some] at hall
    obtain ⟨entry', hentry', hframe⟩ := forall₂_mem_left hall hentry
    have hkey : ∀ leaf : EntryLeaf, leaf.holder ≠ "field-id" := by
      intro leaf
      cases leaf <;> simp [EntryLeaf.holder]
    rw [← hframe.get_of_ne_holder hkey]
    exact hafter entries' hentries' entry' hentry'

theorem readRule (h : RuleFrame named before after) (address : EntryAddress) :
    Option.Rel (EntryFrame named) (address.readRule before) (address.readRule after) := by
  have hall := h.entries
  rw [EntryAddress.readRule, EntryAddress.readRule, Json.findIn, Json.findIn]
  revert hall
  cases before.items "entry-universal" <;> cases after.items "entry-universal" <;>
    rintro (hall | _)
  · exact .none
  · exact forall₂_find? (fun _ _ hframe => (hframe.index _).symm) hall

theorem readRule_of_notMem {address : LeafAddress} (h : RuleFrame named before after)
    (hrule : ∀ other ∈ named, other.entry.rule = address.entry.rule) (hnot : address ∉ named) :
    address.readRule after = address.readRule before := by
  rw [LeafAddress.readRule, LeafAddress.readRule]
  have hrel := h.readRule address.entry
  generalize hbefore : address.entry.readRule before = found at hrel ⊢
  generalize address.entry.readRule after = found' at hrel ⊢
  cases hrel with
  | none => rfl
  | some hframe =>
    refine hframe.leaves address.leaf fun other hother hindex hleaf => hnot ?_
    have hsame := hasU64_unique hindex (EntryAddress.index_of_readRule hbefore)
    have heq : other = address := by
      have hruleId := hrule other hother
      obtain ⟨⟨_, _⟩, _⟩ := other
      obtain ⟨⟨_, _⟩, _⟩ := address
      simp_all
    exact heq ▸ hother

end RuleFrame

-- ---------------------------------------------------------------------------
-- Setting one leaf
-- ---------------------------------------------------------------------------

def EntryAddress.replaceIn (address : EntryAddress) (entry rule : Json) : Json :=
  rule.updateIn "entry-universal" (hasU64 · "entry-index" address.entryIndex) fun _ => entry

section
variable {address : LeafAddress} {rule entry entry' : Json}

theorem ruleFrame_replaceIn (hentry : address.entry.readRule rule = some entry)
    (hsets : address.leaf.Sets value entry entry') :
    RuleFrame [address] rule (address.entry.replaceIn entry' rule) where
  members key hkey := Json.get_updateIn_of_ne hkey
  entries := by
    obtain ⟨entries, hentries, hfind⟩ := Option.bind_eq_some_iff.mp hentry
    obtain ⟨hindex, before, after, rfl, hbefore⟩ := List.find?_eq_some_iff_append.mp hfind
    have hfirst : ∀ other ∈ before,
        hasU64 other "entry-index" address.entry.entryIndex = false := by simpa using hbefore
    rw [EntryAddress.replaceIn, Json.items_updateIn, hentries, Option.map_some,
      updateFirst_append hfirst hindex]
    exact .some (List.rel_append (List.forall₂_same.mpr fun _ _ => .refl)
      (.cons (.of_sets hsets hindex) (List.forall₂_same.mpr fun _ _ => .refl)))

theorem LeafAddress.writeRule_eq_replaceIn (address : LeafAddress)
    (hentry : address.entry.readRule rule = some entry) (value : Json) :
    address.writeRule value rule = address.entry.replaceIn
      (address.leaf.write value entry) rule := by
  refine Json.updateIn_congr fun other hother => ?_
  cases hentry.symm.trans hother
  rfl

theorem readRule_replaceIn (hentry : address.entry.readRule rule = some entry)
    (hsets : address.leaf.Sets value entry entry') :
    address.readRule (address.entry.replaceIn entry' rule) = some value := by
  have hindex : hasU64 entry' "entry-index" address.entry.entryIndex = true :=
    (hsets.index _).trans (EntryAddress.index_of_readRule hentry)
  have hread : address.entry.readRule (address.entry.replaceIn entry' rule) = some entry' := by
    rw [EntryAddress.readRule, EntryAddress.replaceIn, Json.findIn_updateIn fun _ _ => hindex]
    exact congrArg (Option.map _) hentry
  rw [LeafAddress.readRule, hread, Option.bind_some, hsets.reads]

end

-- ---------------------------------------------------------------------------
-- Setting several leaves
-- ---------------------------------------------------------------------------

/-- Sets the leaves in turn, as long as they can be set. -/
def putAll (put : LeafAddress → Json → Json → Option Json) :
    List (LeafAddress × Json) → Json → Option Json
  | [], rule => some rule
  | (address, value) :: rest, rule => (put address value rule).bind (putAll put rest)

def writeAll : List (LeafAddress × Json) → Json → Json
  | [], rule => rule
  | (address, value) :: rest, rule => writeAll rest (address.writeRule value rule)

section
variable {put : LeafAddress → Json → Json → Option Json} {named : List (LeafAddress × Json)}
  {rule rule' : Json}

theorem SetsLeaves.selects (laws : SetsLeaves deps sidJson put)
    (h : put address value rule = some rule') (selector : RuleSelector) :
    RuleKeys.yang.selects selector rule' = RuleKeys.yang.selects selector rule := by
  rw [RuleKeys.yang_selects, RuleKeys.yang_selects, hasU64, hasU64,
    laws.members h "rule-id-value" (by decide), laws.members h "rule-id-length" (by decide)]
  rfl

/-- A leaf was set in an entry that was there, or the rule has an entry without a field-id. -/
theorem SetsLeaves.put_cases (laws : SetsLeaves deps sidJson put)
    (h : put address value rule = some rule') :
    (RuleFrame [address] rule rule' ∧ address.readRule rule' = some value ∧
      (address.entry.readRule rule).isSome = true) ∨ ¬rule'.Identified := by
  cases hentry : address.entry.readRule rule with
  | none => exact .inr (laws.unidentified h hentry)
  | some entry =>
    obtain ⟨entry', hsets, rfl⟩ := laws.added h hentry
    exact .inl ⟨ruleFrame_replaceIn hentry hsets, readRule_replaceIn hentry hsets, rfl⟩

theorem putAll_selects (laws : SetsLeaves deps sidJson put) (h : putAll put named rule = some rule')
    (selector : RuleSelector) :
    RuleKeys.yang.selects selector rule' = RuleKeys.yang.selects selector rule := by
  induction named generalizing rule with
  | nil =>
    cases h
    rfl
  | cons item rest ih =>
    obtain ⟨next, hput, hrest⟩ := Option.bind_eq_some_iff.mp h
    exact (ih hrest).trans (laws.selects hput selector)

/-- The named leaves of an identified rule have been set, and nothing else. -/
theorem putAll_frame (laws : SetsLeaves deps sidJson put) (h : putAll put named rule = some rule')
    (hident : rule'.Identified) : RuleFrame (named.map Prod.fst) rule rule' := by
  induction named generalizing rule with
  | nil =>
    cases h
    exact .refl
  | cons item rest ih =>
    obtain ⟨next, hput, hrest⟩ := Option.bind_eq_some_iff.mp h
    have hframe := ih hrest
    rcases laws.put_cases hput with ⟨hfirst, -⟩ | hnot
    · exact hfirst.trans hframe
    · exact absurd (hframe.identified hident) hnot

theorem putAll_reads (laws : SetsLeaves deps sidJson put) (h : putAll put named rule = some rule')
    (hident : rule'.Identified) (hdistinct : (named.map Prod.fst).Nodup)
    (hrules : ∀ item ∈ named, item.1.entry.rule = selector) :
    ∀ item ∈ named, item.1.readRule rule' = some item.2 ∧
      (item.1.entry.readRule rule).isSome = true := by
  induction named generalizing rule with
  | nil => exact fun _ hitem => absurd hitem List.not_mem_nil
  | cons first rest ih =>
    obtain ⟨next, hput, hrest⟩ := Option.bind_eq_some_iff.mp h
    obtain ⟨hnot, hdistinct⟩ := List.nodup_cons.mp hdistinct
    have hrule : first.1.entry.rule = selector := hrules first List.mem_cons_self
    have hothers : ∀ item ∈ rest, item.1.entry.rule = selector := fun item hitem =>
      hrules item (List.mem_cons_of_mem first hitem)
    have hframe := putAll_frame laws hrest hident
    rcases laws.put_cases hput with ⟨hfirst, hread, hentry⟩ | hunidentified
    · rintro item (_ | ⟨_, hitem⟩)
      · refine ⟨(hframe.readRule_of_notMem (fun other hother => ?_) hnot).trans hread, hentry⟩
        obtain ⟨pair, hpair, rfl⟩ := List.mem_map.mp hother
        exact (hothers pair hpair).trans hrule.symm
      · obtain ⟨hread, hentry⟩ := ih hrest hdistinct hothers item hitem
        refine ⟨hread, ?_⟩
        have hrel := hfirst.readRule item.1.entry
        revert hrel hentry
        cases item.1.entry.readRule next <;> cases item.1.entry.readRule rule <;> simp
    · exact absurd (hframe.identified hident) hunidentified

theorem putAll_writes (laws : SetsLeaves deps sidJson put) (h : putAll put named rule = some rule')
    (hdistinct : (named.map Prod.fst).Nodup)
    (hrules : ∀ item ∈ named, item.1.entry.rule = selector)
    (hthere : ∀ item ∈ named, (item.1.readRule rule).isSome = true) :
    rule' = writeAll named rule := by
  induction named generalizing rule with
  | nil =>
    cases h
    rfl
  | cons first rest ih =>
    obtain ⟨next, hput, hrest⟩ := Option.bind_eq_some_iff.mp h
    obtain ⟨hnot, hdistinct⟩ := List.nodup_cons.mp hdistinct
    have hfirst := hthere first List.mem_cons_self
    cases laws.replaced hput hfirst
    refine ih hrest hdistinct (fun item hitem => hrules item (List.mem_cons_of_mem first hitem))
      fun item hitem => ?_
    obtain ⟨current, hcurrent⟩ := Option.isSome_iff_exists.mp hfirst
    obtain ⟨_, hentry, hleaf⟩ := Option.bind_eq_some_iff.mp hcurrent
    have hframe : RuleFrame [first.1] rule (first.1.writeRule first.2 rule) := by
      rw [first.1.writeRule_eq_replaceIn hentry]
      exact ruleFrame_replaceIn hentry (EntryLeaf.sets_write (by simp [hleaf]) first.2)
    rw [hframe.readRule_of_notMem]
    · exact hthere item (List.mem_cons_of_mem first hitem)
    · intro other hother
      rw [List.mem_singleton.mp hother, hrules first List.mem_cons_self,
        hrules item (List.mem_cons_of_mem first hitem)]
    · intro hsame
      exact hnot (List.mem_singleton.mp hsame ▸ List.mem_map_of_mem hitem)

end

end SchcCoreconf
