import SchcCoreconf.Lib.FirstMatch
import SchcCoreconf.Update

/-!
# The leaves of the rules in a tree

A leaf of a rule is named by its RuleID, the index of its entry, and what it is
there. Setting a leaf replaces its value where it stands; reading it then gives
that value, every other leaf reads as before, and the RuleIDs stay.
-/

namespace SchcCoreconf

open Fallible FirstMatch

-- ---------------------------------------------------------------------------
-- Members of objects
-- ---------------------------------------------------------------------------

namespace Json

variable {members : List (String × Json)} {key : String}

def set (value : Json) (key : String) (next : Json) : Json :=
  match value with
  | .object members => .object (setMember members key next)
  | value => value

theorem lookup_setMember_self (h : (lookup members key).isSome = true) (next : Json) :
    lookup (setMember members key next) key = some next := by
  induction members with
  | nil => cases h
  | cons member rest ih =>
    obtain ⟨name, value⟩ := member
    by_cases hname : name = key
    · simp [setMember, lookup, hname]
    · simp only [lookup, hname, if_false] at h
      simp [setMember, lookup, hname, ih h]

theorem lookup_setMember_of_ne {other : String} (h : other ≠ key) (next : Json) :
    lookup (setMember members key next) other = lookup members other := by
  induction members with
  | nil => rfl
  | cons member rest ih =>
    obtain ⟨name, value⟩ := member
    by_cases hname : name = key
    · simp [setMember, lookup, hname, Ne.symm h]
    · simp [setMember, lookup, hname, ih]

theorem setMember_setMember (first second : Json) :
    setMember (setMember members key first) key second = setMember members key second := by
  induction members with
  | nil => rfl
  | cons member rest ih =>
    obtain ⟨name, value⟩ := member
    by_cases hname : name = key
    · simp [setMember, hname]
    · simp [setMember, hname, ih]

theorem setMember_self {value : Json} (h : lookup members key = some value) :
    setMember members key value = members := by
  induction members with
  | nil => rfl
  | cons member rest ih =>
    obtain ⟨name, old⟩ := member
    by_cases hname : name = key
    · simp only [lookup, hname, if_true, Option.some.injEq] at h
      simp [setMember, hname, h]
    · simp only [lookup, hname, if_false] at h
      simp [setMember, hname, ih h]

variable {value : Json}

theorem get_set_self (h : (value.get key).isSome = true) (next : Json) :
    (value.set key next).get key = some next := by
  cases value with
  | object members => exact lookup_setMember_self h next
  | _ => cases h

theorem get_set_of_ne {other : String} (h : other ≠ key) (next : Json) :
    (value.set key next).get other = value.get other := by
  cases value with
  | object members => exact lookup_setMember_of_ne h next
  | _ => rfl

theorem set_set (first second : Json) :
    (value.set key first).set key second = value.set key second := by
  cases value with
  | object members => exact congrArg object (setMember_setMember first second)
  | _ => rfl

theorem set_self {current : Json} (h : value.get key = some current) :
    value.set key current = value := by
  cases value with
  | object members => exact congrArg object (setMember_self h)
  | _ => rfl

-- ---------------------------------------------------------------------------
-- Lists of members
-- ---------------------------------------------------------------------------

variable {p q : Json → Bool} {f g : Json → Json}

def items (value : Json) (key : String) : Option (List Json) := (value.get key).bind asArray

def findIn (value : Json) (key : String) (p : Json → Bool) : Option Json :=
  (value.items key).bind (·.find? p)

/-- The object with the first of them that matches changed. -/
def updateIn (value : Json) (key : String) (p : Json → Bool) (f : Json → Json) : Json :=
  match value.items key with
  | none => value
  | some items => value.set key (.array (updateFirst p f items))

theorem get_of_items {list : List Json} (h : value.items key = some list) :
    value.get key = some (.array list) := by
  obtain ⟨holder, hholder, hitems⟩ := Option.bind_eq_some_iff.mp h
  cases holder <;> cases hitems
  exact hholder

theorem items_set {old : List Json} (h : value.items key = some old) (list : List Json) :
    (value.set key (.array list)).items key = some list := by
  rw [items, get_set_self (by simp [get_of_items h])]
  rfl

theorem items_updateIn :
    (value.updateIn key p f).items key = (value.items key).map (updateFirst p f) := by
  cases h : value.items key with
  | none => simp [updateIn, h]
  | some list =>
    simp only [updateIn, h]
    exact items_set h _

theorem findIn_updateIn (h : ∀ item, p item = true → p (f item) = true) :
    (value.updateIn key p f).findIn key p = (value.findIn key p).map f := by
  rw [findIn, findIn, items_updateIn]
  cases value.items key with
  | none => rfl
  | some list => exact find?_updateFirst h list

theorem findIn_updateIn_of_disjoint (h : ∀ item, p item = true →
    q item = false ∧ q (f item) = false) : (value.updateIn key p f).findIn key q =
      value.findIn key q := by
  rw [findIn, findIn, items_updateIn]
  cases value.items key with
  | none => rfl
  | some list => exact find?_updateFirst_of_disjoint h list

theorem updateIn_updateIn (h : ∀ item, p item = true → p (f item) = true) :
    (value.updateIn key p f).updateIn key p g = value.updateIn key p (g ∘ f) := by
  cases hlist : value.items key with
  | none => simp [updateIn, hlist]
  | some list =>
    simp only [updateIn, hlist, items_set hlist, set_set, updateFirst_updateFirst h]

theorem updateIn_congr (h : ∀ item, value.findIn key p = some item → f item = g item) :
    value.updateIn key p f = value.updateIn key p g := by
  cases hlist : value.items key with
  | none => simp [updateIn, hlist]
  | some list =>
    simp only [updateIn, hlist]
    rw [updateFirst_congr fun item hitem => h item (by simp [findIn, hlist, hitem])]

theorem updateIn_id (h : ∀ item, value.findIn key p = some item → f item = item) :
    value.updateIn key p f = value := by
  cases hlist : value.items key with
  | none => simp [updateIn, hlist]
  | some list =>
    simp only [updateIn, hlist]
    rw [updateFirst_id fun item hitem => h item (by simp [findIn, hlist, hitem]),
      set_self (get_of_items hlist)]

theorem get_updateIn_of_ne {other : String} (h : other ≠ key) :
    (value.updateIn key p f).get other = value.get other := by
  unfold updateIn
  split
  · rfl
  · exact get_set_of_ne h _

def modify (value : Json) (key : String) (f : Json → Json) : Json :=
  match value.get key with
  | none => value
  | some old => value.set key (f old)

theorem get_modify_self : (value.modify key f).get key = (value.get key).map f := by
  cases h : value.get key with
  | none => simp [modify, h]
  | some old =>
    simp only [modify, h]
    exact get_set_self (by simp [h]) _

theorem modify_modify : (value.modify key f).modify key g = value.modify key (g ∘ f) := by
  cases h : value.get key with
  | none => simp [modify, h]
  | some old =>
    have hself : (value.set key (f old)).get key = some (f old) := get_set_self (by simp [h]) _
    simp only [modify, h, hself, set_set, Function.comp]

theorem modify_congr (h : ∀ old, value.get key = some old → f old = g old) :
    value.modify key f = value.modify key g := by
  unfold modify
  split
  · rfl
  · next old hold => rw [h old hold]

theorem modify_id (h : ∀ old, value.get key = some old →
    f old = old) : value.modify key f = value := by
  unfold modify
  split
  · rfl
  · next old hold => rw [h old hold, set_self hold]

end Json

theorem hasU64_set_of_ne {value : Json} {key other : String} (h : other ≠ key) (next : Json)
    (number : Nat) : hasU64 (value.set key next) other number = hasU64 value other number := by
  rw [hasU64, hasU64, Json.get_set_of_ne h]

-- ---------------------------------------------------------------------------
-- The leaves of an entry
-- ---------------------------------------------------------------------------

/-- A leaf of an entry that a request can name. -/
inductive EntryLeaf
  | target (index : Nat)
  | matchingOperator
  | cda
  deriving DecidableEq, Repr

namespace EntryLeaf

def holder : EntryLeaf → String
  | .target _ => "target-value"
  | .matchingOperator => "matching-operator"
  | .cda => "comp-decomp-action"

def read (leaf : EntryLeaf) (entry : Json) : Option Json :=
  match leaf with
  | .target index => (entry.findIn "target-value" (hasU64 · "index" index)).bind (·.get "value")
  | leaf => entry.get leaf.holder

def write (leaf : EntryLeaf) (value entry : Json) : Json :=
  match leaf with
  | .target index => entry.updateIn "target-value" (hasU64 · "index" index) (·.set "value" value)
  | leaf => entry.set leaf.holder value

def path : EntryLeaf → String
  | .target _ => "/ietf-schc:schc/rule/entry-universal/target-value/value"
  | .matchingOperator => "/ietf-schc:schc/rule/entry-universal/matching-operator"
  | .cda => "/ietf-schc:schc/rule/entry-universal/comp-decomp-action"

variable {leaf : EntryLeaf} {entry : Json}

theorem setValue_index (index : Nat) (value item : Json) (h : hasU64 item "index" index = true) :
    hasU64 (item.set "value" value) "index" index = true := by
  rwa [hasU64_set_of_ne (by decide)]

theorem read_write (h : (leaf.read entry).isSome = true) (value : Json) :
    leaf.read (leaf.write value entry) = some value := by
  cases leaf with
  | target index =>
    obtain ⟨current, hcurrent⟩ := Option.isSome_iff_exists.mp h
    obtain ⟨item, hitem, hvalue⟩ := Option.bind_eq_some_iff.mp hcurrent
    simp only [read, write, Json.findIn_updateIn (setValue_index index value), hitem,
      Option.map_some, Option.bind_some]
    exact Json.get_set_self (by simp [hvalue]) value
  | matchingOperator => exact Json.get_set_self h value
  | cda => exact Json.get_set_self h value

theorem write_write (first second : Json) :
    leaf.write second (leaf.write first entry) = leaf.write second entry := by
  cases leaf with
  | target index =>
    simp only [write, Json.updateIn_updateIn (setValue_index index first)]
    exact Json.updateIn_congr fun item _ => Json.set_set first second
  | matchingOperator => exact Json.set_set first second
  | cda => exact Json.set_set first second

theorem write_self {current : Json} (h : leaf.read entry = some current) :
    leaf.write current entry = entry := by
  cases leaf with
  | target index =>
    obtain ⟨item, hitem, hvalue⟩ := Option.bind_eq_some_iff.mp h
    refine Json.updateIn_id fun other hother => ?_
    cases hitem.symm.trans hother
    exact Json.set_self hvalue
  | matchingOperator => exact Json.set_self h
  | cda => exact Json.set_self h

theorem get_write_of_ne {key : String} (h : key ≠ leaf.holder) (value : Json) :
    (leaf.write value entry).get key = entry.get key := by
  cases leaf with
  | target index => exact Json.get_updateIn_of_ne h
  | matchingOperator => exact Json.get_set_of_ne h value
  | cda => exact Json.get_set_of_ne h value

theorem holder_injective {other : EntryLeaf} (h : other.holder = leaf.holder) :
    other = leaf ∨ ∃ index otherIndex, leaf = .target index ∧ other = .target otherIndex := by
  cases leaf <;> cases other <;> simp [holder] at h ⊢

theorem read_write_of_ne {other : EntryLeaf} (h : other ≠ leaf) (value : Json) :
    other.read (leaf.write value entry) = other.read entry := by
  by_cases hholder : other.holder = leaf.holder
  · obtain rfl | ⟨index, otherIndex, rfl, rfl⟩ := holder_injective hholder
    · exact absurd rfl h
    · have hne : index ≠ otherIndex := fun heq => h (heq ▸ rfl)
      simp only [read, write]
      rw [Json.findIn_updateIn_of_disjoint fun item hitem => ?_]
      have hindex : hasU64 item "index" otherIndex = false := by
        simp only [hasU64, decide_eq_true_eq] at hitem
        simp [hasU64, hitem, hne]
      exact ⟨hindex, by rwa [hasU64_set_of_ne (by decide)]⟩
  · cases other with
    | target index =>
      have hsame : (leaf.write value entry).get "target-value" = entry.get "target-value" :=
        get_write_of_ne hholder value
      simp only [read, Json.findIn, Json.items, hsame]
    | matchingOperator => exact get_write_of_ne hholder value
    | cda => exact get_write_of_ne hholder value

/-- The leaf now has this value, and the entry is otherwise the one before. -/
structure Sets (leaf : EntryLeaf) (value before after : Json) : Prop where
  reads : leaf.read after = some value
  others : ∀ other, other ≠ leaf → other.read after = other.read before
  members : ∀ key, key ≠ leaf.holder → after.get key = before.get key

theorem sets_write (h : (leaf.read entry).isSome = true) (value : Json) :
    leaf.Sets value entry (leaf.write value entry) where
  reads := read_write h value
  others _ hne := read_write_of_ne hne value
  members _ hne := get_write_of_ne hne value

theorem index_ne_holder : "entry-index" ≠ leaf.holder := by
  cases leaf <;> simp [holder]

theorem Sets.index {value after : Json} (h : leaf.Sets value entry after) (number : Nat) :
    hasU64 after "entry-index" number = hasU64 entry "entry-index" number := by
  rw [hasU64, hasU64, h.members "entry-index" index_ne_holder]

theorem write_index (value : Json) (number : Nat) (entry : Json)
    (h : hasU64 entry "entry-index" number = true) :
    hasU64 (leaf.write value entry) "entry-index" number = true := by
  rwa [hasU64, get_write_of_ne index_ne_holder]

end EntryLeaf

-- ---------------------------------------------------------------------------
-- The leaves of a tree
-- ---------------------------------------------------------------------------

def RuleKeys.yang : RuleKeys where
  root := "ietf-schc:schc"
  list := "rule"
  value := "rule-id-value"
  length := "rule-id-length"

/-- A model names a SID by the path the SID is of. -/
def SidNames (model : CompositeModel) : Prop :=
  ∀ {path sid}, model.getSid path = some sid → model.getIdentifier sid = some path

theorem ModelSids.resolve_ok (h : ModelSids.resolve model = .ok sids) :
    model.getSid "/ietf-schc:schc" = some sids.root ∧
      model.getSid "/ietf-schc:schc/rule" = some sids.rule ∧
      model.getSid "/ietf-schc:schc/rule/rule-id-length" = some sids.ruleIdLength ∧
      model.getSid "/ietf-schc:schc/rule/rule-id-value" = some sids.ruleIdValue ∧
      model.getSid "/ietf-schc:schc/rule/entry-universal" = some sids.entry ∧
      model.getSid "/ietf-schc:schc/rule/entry-universal/entry-index" = some sids.entryIndex ∧
      model.getSid "/ietf-schc:schc/rule/entry-universal/field-length" = some sids.fieldLength ∧
      model.getSid "/ietf-schc:schc/rule/entry-universal/target-value" = some sids.target ∧
      model.getSid "/ietf-schc:schc/rule/entry-universal/target-value/index" =
        some sids.targetIndex ∧
      model.getSid "/ietf-schc:schc/rule/entry-universal/target-value/value" =
        some sids.targetValue ∧
      model.getSid "/ietf-schc:schc/rule/entry-universal/matching-operator" =
        some sids.matchingOperator ∧
      model.getSid "/ietf-schc:schc/rule/entry-universal/comp-decomp-action" = some sids.cda := by
  simp only [ModelSids.resolve, bind_ok, need_ok, pure_ok] at h
  obtain ⟨_, hroot, _, hrule, _, hlength, _, hvalue, _, hentry, _, hindex, _, hfield, _, htarget, _,
    htargetIndex, _, htargetValue, _, -, _, -, _, -, _, -, _, -, _, -, _, -, _, -, _, -, _,
    hmatching, _, hcda, rfl⟩ := h
  exact ⟨hroot, hrule, hlength, hvalue, hentry, hindex, hfield, htarget, htargetIndex, htargetValue,
    hmatching, hcda⟩

theorem ruleKey_of_name {path : String} (hnames : SidNames model)
    (hsid : model.getSid path = some sid) (key : String) (hkey : lastSegment path = key)
    (hne : key.isEmpty = false) : ruleKey model sid = .ok key := by
  rw [ruleKey, need_ok, hnames hsid]
  simp [hkey, Option.filter, hne]

theorem ruleKeys_yang (hnames : SidNames model) (h : ModelSids.resolve model = .ok sids) :
    ruleKeys model sids = .ok .yang := by
  obtain ⟨hroot, hrule, hlength, hvalue, -⟩ := ModelSids.resolve_ok h
  simp only [ruleKeys, ruleKey_of_name hnames hroot "ietf-schc:schc" (by simp [lastSegment]) rfl,
    ruleKey_of_name hnames hrule "rule" (by simp [lastSegment]) rfl,
    ruleKey_of_name hnames hvalue "rule-id-value" (by simp [lastSegment]) rfl,
    ruleKey_of_name hnames hlength "rule-id-length" (by simp [lastSegment]) rfl]
  rfl

theorem findTreeRule_yang (hnames : SidNames model) {selector : RuleSelector} :
    findTreeRule tree model selector = .ok found →
      found = (RuleKeys.yang.rules tree).bind (·.find? (RuleKeys.yang.selects selector)) := by
  intro h
  simp only [findTreeRule, bind_ok, pure_ok] at h
  obtain ⟨sids, hsids, keys, hkeys, rfl⟩ := h
  cases hkeys.symm.trans (ruleKeys_yang hnames hsids)
  rfl

theorem RuleKeys.yang_selects (selector : RuleSelector) (rule : Json) :
    RuleKeys.yang.selects selector rule =
      (hasU64 rule "rule-id-value" selector.value && hasU64 rule "rule-id-length" selector.bits) :=
    rfl

structure EntryAddress where
  rule : RuleSelector
  entryIndex : Nat
  deriving DecidableEq, Repr

structure LeafAddress where
  entry : EntryAddress
  leaf : EntryLeaf
  deriving DecidableEq, Repr

namespace EntryAddress

def keys (address : EntryAddress) : List Json :=
  [.ofNat address.rule.value, .ofNat address.rule.bits, .ofNat address.entryIndex]

def readRule (address : EntryAddress) (rule : Json) : Option Json :=
  rule.findIn "entry-universal" (hasU64 · "entry-index" address.entryIndex)

def read (address : EntryAddress) (tree : Json) : Option Json := do
  let root ← tree.get "ietf-schc:schc"
  let rule ← root.findIn "rule" (RuleKeys.yang.selects address.rule)
  address.readRule rule

end EntryAddress

namespace LeafAddress

variable {address : LeafAddress}

def keys (address : LeafAddress) : List Json :=
  address.entry.keys ++ match address.leaf with
    | .target index => [.ofNat index]
    | _ => []

/-- A leaf SID and keys that start with those of the leaf name it. -/
structure NamedBy (address : LeafAddress) (model : CompositeModel) (sid : Int) (keys : List Json) :
    Prop where
  sid : model.getSid address.leaf.path = some sid
  keys : address.keys <+: keys

def readRule (address : LeafAddress) (rule : Json) : Option Json :=
  (address.entry.readRule rule).bind address.leaf.read

def read (address : LeafAddress) (tree : Json) : Option Json :=
  (address.entry.read tree).bind address.leaf.read

def writeRule (address : LeafAddress) (value rule : Json) : Json :=
  rule.updateIn "entry-universal" (hasU64 · "entry-index" address.entry.entryIndex)
    (address.leaf.write value)

def write (address : LeafAddress) (value tree : Json) : Json :=
  tree.modify "ietf-schc:schc" fun root =>
    root.updateIn "rule" (RuleKeys.yang.selects address.entry.rule) (address.writeRule value)

theorem selects_writeRule (selector : RuleSelector) (value rule : Json) :
    RuleKeys.yang.selects selector (address.writeRule value rule) =
      RuleKeys.yang.selects selector rule := by
  have hvalue : (address.writeRule value rule).get "rule-id-value" = rule.get "rule-id-value" :=
    Json.get_updateIn_of_ne (by decide)
  have hlength : (address.writeRule value rule).get "rule-id-length" = rule.get "rule-id-length" :=
    Json.get_updateIn_of_ne (by decide)
  rw [RuleKeys.yang_selects, RuleKeys.yang_selects, hasU64, hasU64, hvalue, hlength]
  rfl

theorem yang_rules (tree : Json) :
    RuleKeys.yang.rules tree = (tree.get "ietf-schc:schc").bind (·.items "rule") := by
  rw [RuleKeys.rules, RuleKeys.yang]
  cases tree.get "ietf-schc:schc" with
  | none => rfl
  | some root => cases root <;> rfl

theorem entry_read_write (value tree : Json) :
    address.entry.read (address.write value tree) =
      (address.entry.read tree).map (address.leaf.write value) := by
  simp only [EntryAddress.read, write, Json.get_modify_self, Option.bind_eq_bind]
  cases tree.get "ietf-schc:schc" with
  | none => rfl
  | some root =>
    simp only [Option.map_some, Option.bind_some]
    rw [Json.findIn_updateIn fun rule hrule => (selects_writeRule _ value rule).trans hrule]
    cases root.findIn "rule" (RuleKeys.yang.selects address.entry.rule) with
    | none => rfl
    | some rule => exact Json.findIn_updateIn (EntryLeaf.write_index value _)

theorem read_write {tree : Json} (h : (address.read tree).isSome = true) (value : Json) :
    address.read (address.write value tree) = some value := by
  obtain ⟨current, hcurrent⟩ := Option.isSome_iff_exists.mp h
  obtain ⟨entry, hentry, hleaf⟩ := Option.bind_eq_some_iff.mp hcurrent
  rw [read, entry_read_write, hentry]
  exact EntryLeaf.read_write (by simp [hleaf]) value

theorem write_write (first second tree : Json) :
    address.write second (address.write first tree) = address.write second tree := by
  rw [write, write, Json.modify_modify]
  refine Json.modify_congr fun root _ => ?_
  simp only [Function.comp]
  rw [Json.updateIn_updateIn fun rule hrule => (selects_writeRule _ first rule).trans hrule]
  refine Json.updateIn_congr fun rule _ => ?_
  simp only [Function.comp, writeRule]
  rw [Json.updateIn_updateIn (EntryLeaf.write_index first _)]
  exact Json.updateIn_congr fun entry _ => EntryLeaf.write_write first second

end LeafAddress

end SchcCoreconf
