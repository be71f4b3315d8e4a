import SchcCoreconf.Commands
import SchcCoreconf.TargetWidths
import SchcCoreconf.Lib.Arguments

/-!
# The grammars of the commands

What the two command parsers accept, and what they return for it. An update is
a RuleID and arguments in any order, each of its own key; a duplicate is two
RuleIDs and groups of overrides, each after the entry they are for.
-/

namespace SchcCoreconf

open Fallible Arguments

-- ---------------------------------------------------------------------------
-- Words
-- ---------------------------------------------------------------------------

def IsWord (word : String) : Prop := ∀ c ∈ word.toList, isTrimmed c = false

theorem isWord_of_mem (h : word ∈ splitWhitespace input) : IsWord word := by
  obtain ⟨letters, hletters, rfl⟩ := List.mem_map.mp h
  rw [IsWord, String.toList_ofList]
  exact not_of_mem_splitOnP (List.mem_filter.mp hletters).1

theorem trim_word {text : List Char} (h : ∀ c ∈ text, isTrimmed c = false) : trim text = text := by
  have hfront : text.dropWhile isTrimmed = text := by
    cases text with
    | nil => rfl
    | cons c rest => exact List.dropWhile_cons_of_neg (by simp [h c List.mem_cons_self])
  have hback : text.reverse.dropWhile isTrimmed = text.reverse := by
    cases hreverse : text.reverse with
    | nil => rfl
    | cons c rest =>
      have hmem : c ∈ text := List.mem_reverse.mp (hreverse ▸ List.mem_cons_self)
      exact List.dropWhile_cons_of_neg (by simp [h c hmem])
  rw [trim, hfront, hback, List.reverse_reverse]

theorem splitOnce_eq_some {separator : Char} {text before after : String} :
    splitOnce separator text = some (before, after) ↔
      text = before ++ separator.toString ++ after ∧ separator ∉ before.toList := by
  have hletters : text = before ++ separator.toString ++ after ↔
      text.toList = before.toList ++ separator :: after.toList := by
    rw [← String.toList_inj]
    simp
  rw [hletters, eq_append_cons_iff]
  simp only [splitOnce]
  constructor
  · intro h
    split at h
    · cases h
    · next c rest hdrop =>
      obtain ⟨rfl, rfl⟩ := Prod.mk.inj (Option.some.inj h)
      rw [String.toList_ofList, String.toList_ofList]
      exact ⟨rfl, c, hdrop⟩
  · rintro ⟨hbefore, c, hdrop⟩
    rw [← hbefore] at hdrop
    rw [hdrop, hbefore]
    simp only [String.ofList_toList]

/-- A decimal spelling of a `u64`. -/
structure Decimal (text : String) (number : Nat) : Prop where
  nonempty : text.isEmpty = false
  digits : text.toList.all Char.isDigit = true
  value : Nat.ofDigitChars 10 text.toList 0 = number
  range : number < 2 ^ 64

theorem parseU64_iff : parseU64 text = some number ↔ Decimal text number := by
  constructor
  · intro h
    simp only [parseU64, Option.ite_none_right_eq_some, Bool.and_eq_true, Bool.not_eq_true',
      decide_eq_true_eq, Option.some.injEq] at h
    obtain ⟨⟨⟨hnonempty, hdigits⟩, hrange⟩, rfl⟩ := h
    exact ⟨hnonempty, hdigits, rfl, hrange⟩
  · rintro ⟨hnonempty, hdigits, rfl, hrange⟩
    simp only [parseU64, hnonempty, hdigits, decide_eq_true hrange]
    rfl

theorem parseUnsignedArgument_ok :
    parseUnsignedArgument value key = .ok number ↔ Decimal value number := by
  simp only [parseUnsignedArgument, bind_ok, ensure_ok, need_ok, parseU64_iff]
  constructor
  · rintro ⟨_, -, h⟩
    exact h
  · intro h
    exact ⟨(), h.digits, h⟩

/-- The spelling of a RuleID: a value and a bit length it fits. -/
structure SpellsRuleId (selector : RuleSelector) (word : String) : Prop where
  spelled : ∃ value bits, word = value ++ "/" ++ bits ∧ Decimal value selector.value ∧
    Decimal bits selector.bits
  bits : 1 ≤ selector.bits ∧ selector.bits ≤ 64
  value : selector.value < 2 ^ selector.bits

theorem RuleSelector.new_iff {value bits : Nat} (hvalue : value < 2 ^ 64) :
    RuleSelector.new value bits = .ok selector ↔
      selector = ⟨value, bits⟩ ∧ (1 ≤ bits ∧ bits ≤ 64) ∧ value < 2 ^ bits := by
  simp only [RuleSelector.new, bind_ok, ensure_ok, pure_ok, narrow_check hvalue, decide_eq_true_eq]
  constructor
  · rintro ⟨_, hbits, _, hfits, rfl⟩
    exact ⟨rfl, hbits, hfits⟩
  · rintro ⟨rfl, hbits, hfits⟩
    exact ⟨(), hbits, (), hfits, rfl⟩

theorem not_mem_digits {text : String} (h : text.toList.all Char.isDigit = true) {c : Char}
    (hc : c.isDigit = false) : c ∉ text.toList := fun hmem =>
  absurd (List.all_eq_true.mp h c hmem) (Bool.eq_false_iff.mp hc)

theorem parseRuleSelector_ok (hword : IsWord word) :
    parseRuleSelector word = .ok selector ↔ SpellsRuleId selector word := by
  have htrim : String.ofList (trim word.toList) = word := by
    rw [trim_word hword, String.ofList_toList]
  simp only [parseRuleSelector, htrim, bind_ok, ensure_ok, need_ok, parseU64_iff]
  constructor
  · rintro ⟨⟨value, bits⟩, hsplit, _, -, _, -, number, hvalue, length, hbits, hnew⟩
    obtain ⟨rfl, hlength, hfits⟩ := (RuleSelector.new_iff hvalue.range).mp hnew
    exact ⟨⟨value, bits, (splitOnce_eq_some.mp hsplit).1, hvalue, hbits⟩, hlength, hfits⟩
  · rintro ⟨⟨value, bits, hspelled, hvalue, hbits⟩, hlength, hfits⟩
    have hslash {text : String} (h : text.toList.all Char.isDigit = true) : '/' ∉ text.toList :=
      not_mem_digits h rfl
    refine ⟨(value, bits), splitOnce_eq_some.mpr ⟨hspelled, hslash hvalue.digits⟩,
      (), ?_, (), ?_, _, hvalue, _, hbits,
      (RuleSelector.new_iff hvalue.range).mpr ⟨rfl, hlength, hfits⟩⟩
    · simp [hvalue.nonempty, hbits.nonempty, hslash hvalue.digits, hslash hbits.digits]
    · rw [hvalue.digits, hbits.digits]
      rfl

-- ---------------------------------------------------------------------------
-- rule update
-- ---------------------------------------------------------------------------

inductive UpdateItem
  | ifMatch
  | entry (entryIndex : Nat)
  | fid (name : String)
  | position (fieldPosition : Nat)
  | direction (name : String)
  | target (value : String)
  deriving DecidableEq, Repr

inductive UpdateKey
  | ifMatch
  | entry
  | fid
  | position
  | direction
  | target
  deriving DecidableEq, Repr

namespace UpdateItem

def key : UpdateItem → UpdateKey
  | ifMatch => .ifMatch
  | entry _ => .entry
  | fid _ => .fid
  | position _ => .position
  | direction _ => .direction
  | target _ => .target

def keyword : UpdateItem → String
  | ifMatch => "--if-match"
  | entry _ => "entry"
  | fid _ => "fid"
  | position _ => "fp"
  | direction _ => "di"
  | target _ => "tv"

theorem keyword_plain (item : UpdateItem) :
    item.keyword.isEmpty = false ∧ '=' ∉ item.keyword.toList := by
  cases item <;> exact ⟨rfl, by simp [keyword]⟩

def Value (value : String) : UpdateItem → Prop
  | ifMatch => False
  | entry entryIndex => Decimal value entryIndex
  | fid name => value = name ∧ ∀ c ∈ name.toList, isControl c = false
  | position fieldPosition => Decimal value fieldPosition ∧ 1 ≤ fieldPosition
  | direction name => value = name ∧ name ∈ ["bi", "up", "down"]
  | target text => value = text ∧ ∀ c ∈ text.toList, isControl c = false

/-- The spelling of an item: the flag, or a keyword and a value that is not empty and has no
equals sign. -/
def Spells (item : UpdateItem) (word : String) : Prop :=
  item = ifMatch ∧ word = "--if-match" ∨
    ∃ value, word = item.keyword ++ "=" ++ value ∧ value.isEmpty = false ∧ '=' ∉ value.toList ∧
      item.Value value

end UpdateItem

/-- The items select the entry: by its index alone, or by its field, and where given its
position and direction. -/
def RuleEntrySelector.SelectedBy (items : List UpdateItem) : RuleEntrySelector → Prop
  | .entry entryIndex =>
    .entry entryIndex ∈ items ∧ ∀ item ∈ items, item.key ≠ .fid ∧
    item.key ≠ .position ∧ item.key ≠ .direction
  | .field fid fieldPosition direction =>
    .fid fid ∈ items ∧ (∀ item ∈ items, item.key ≠ .entry) ∧
      (∀ position, fieldPosition = some position ↔ .position position ∈ items) ∧
      ∀ name, direction = some name ↔ .direction name ∈ items

theorem RuleEntrySelector.selectedBy_congr {selector : RuleEntrySelector}
    {items others : List UpdateItem}
    (h : ∀ item, item ∈ items ↔ item ∈ others) : selector.SelectedBy items ↔
    selector.SelectedBy others := by
  cases selector <;> simp only [SelectedBy, h]

/-- The items are arguments of this request, each key at most once. -/
structure RuleUpdateRequest.DescribedBy (request : RuleUpdateRequest) (items : List UpdateItem) :
    Prop where
  distinct : (items.map UpdateItem.key).Nodup
  target : .target request.targetValue ∈ items
  entry : request.entry.SelectedBy items
  ifMatch : request.ifMatch = true ↔ .ifMatch ∈ items

namespace UpdateArguments

def Has (self : UpdateArguments) : UpdateItem → Prop
  | .ifMatch => self.ifMatch = true
  | .entry entryIndex => self.entryIndex = some entryIndex
  | .fid name => self.fid = some name
  | .position position => self.fieldPosition = some position
  | .direction name => self.direction = some name
  | .target value => self.targetValue = some value

def take (self : UpdateArguments) : UpdateItem → UpdateArguments
  | .ifMatch => { self with ifMatch := true }
  | .entry entryIndex => { self with entryIndex := some entryIndex }
  | .fid name => { self with fid := some name }
  | .position position => { self with fieldPosition := some position }
  | .direction name => { self with direction := some name }
  | .target value => { self with targetValue := some value }

def Empty (self : UpdateArguments) : UpdateKey → Prop
  | .ifMatch => self.ifMatch = false
  | .entry => self.entryIndex = none
  | .fid => self.fid = none
  | .position => self.fieldPosition = none
  | .direction => self.direction = none
  | .target => self.targetValue = none

theorem fresh_iff {self : UpdateArguments} :
    Fresh UpdateItem.key Has self item ↔ self.Empty item.key := by
  constructor
  · intro h
    cases item with
    | ifMatch => exact Bool.eq_false_iff.mpr fun hread => h .ifMatch hread rfl
    | entry =>
      exact Option.eq_none_iff_forall_ne_some.mpr fun read hread => h (.entry read) hread rfl
    | fid => exact Option.eq_none_iff_forall_ne_some.mpr fun read hread => h (.fid read) hread rfl
    | position =>
      exact Option.eq_none_iff_forall_ne_some.mpr fun read hread => h (.position read) hread rfl
    | direction =>
      exact Option.eq_none_iff_forall_ne_some.mpr fun read hread => h (.direction read) hread rfl
    | target =>
      exact Option.eq_none_iff_forall_ne_some.mpr fun read hread => h (.target read) hread rfl
  · intro hempty other hother hkey
    rw [← hkey] at hempty
    cases other <;> simp_all [Has, Empty, UpdateItem.key]

theorem has_take {self : UpdateArguments} (hfresh : Fresh UpdateItem.key Has self item) :
    (self.take item).Has other ↔ other = item ∨ self.Has other := by
  rw [fresh_iff] at hfresh
  cases item <;> cases other <;> simp only [UpdateItem.key, Empty] at hfresh <;>
    simp [Has, take, hfresh] <;> exact eq_comm

theorem not_any_control {text : String} :
    (!text.toList.any isControl) = true ↔ ∀ c ∈ text.toList, isControl c = false := by
  simp

theorem validFidToken_iff {text : String} (hword : IsWord text) (hnonempty : text.isEmpty = false) :
    validFidToken text = true ↔ ∀ c ∈ text.toList, isControl c = false := by
  simp only [validFidToken, hnonempty, Bool.not_false, Bool.true_and,
    Bool.not_eq_true', List.any_eq_false, Bool.or_eq_true, not_or, Bool.not_eq_true]
  exact forall₂_congr fun c hc => and_iff_right (hword c hc)

theorem keyValue_value {self : UpdateArguments} {item : UpdateItem} (hword : IsWord value)
    (hnonempty : value.isEmpty = false) (hvalue : item.Value value)
    (hfresh : Fresh UpdateItem.key Has self item) :
    self.keyValue item.keyword value = .ok (self.take item) := by
  rw [fresh_iff] at hfresh
  cases item with
  | ifMatch => cases hvalue
  | entry entryIndex =>
    simp only [UpdateItem.keyword, keyValue, bind_ok, ensure_ok, pure_ok, parseUnsignedArgument_ok,
      Option.isNone_iff_eq_none]
    exact ⟨(), hfresh, _, hvalue, rfl⟩
  | fid name =>
    obtain ⟨rfl, hcontrol⟩ := hvalue
    simp only [UpdateItem.keyword, keyValue, bind_ok, ensure_ok, pure_ok, Option.isNone_iff_eq_none]
    exact ⟨(), hfresh, (), (validFidToken_iff hword hnonempty).mpr hcontrol, rfl⟩
  | position fieldPosition =>
    simp only [UpdateItem.keyword, keyValue, bind_ok, ensure_ok, pure_ok, parseUnsignedArgument_ok,
      Option.isNone_iff_eq_none]
    exact ⟨(), hfresh, _, hvalue.1, (), decide_eq_true (Nat.one_le_iff_ne_zero.mp hvalue.2), rfl⟩
  | direction name =>
    obtain ⟨rfl, hname⟩ := hvalue
    simp only [UpdateItem.keyword, keyValue, bind_ok, ensure_ok, pure_ok, Option.isNone_iff_eq_none,
      List.contains_iff_mem]
    exact ⟨(), hfresh, (), hname, rfl⟩
  | target text =>
    obtain ⟨rfl, hcontrol⟩ := hvalue
    simp only [UpdateItem.keyword, keyValue, bind_ok, ensure_ok, pure_ok, Option.isNone_iff_eq_none,
      not_any_control]
    exact ⟨(), hfresh, (), hcontrol, rfl⟩

theorem keyValue_ok {self : UpdateArguments} (hword : IsWord value)
    (hnonempty : value.isEmpty = false) :
    self.keyValue key value = .ok next ↔ ∃ item : UpdateItem, item.keyword =
    key ∧ item.Value value ∧
      Fresh UpdateItem.key Has self item ∧ next = self.take item := by
  constructor
  · intro h
    unfold keyValue at h
    split at h
    · simp only [bind_ok, ensure_ok, pure_ok, parseUnsignedArgument_ok,
        Option.isNone_iff_eq_none] at h
      obtain ⟨_, hempty, entryIndex, hvalue, rfl⟩ := h
      exact ⟨.entry entryIndex, rfl, hvalue, fresh_iff.mpr hempty, rfl⟩
    · simp only [bind_ok, ensure_ok, pure_ok, Option.isNone_iff_eq_none] at h
      obtain ⟨_, hempty, _, hvalid, rfl⟩ := h
      exact ⟨.fid value, rfl, ⟨rfl, (validFidToken_iff hword hnonempty).mp hvalid⟩,
        fresh_iff.mpr hempty, rfl⟩
    · simp only [bind_ok, ensure_ok, pure_ok, parseUnsignedArgument_ok,
        Option.isNone_iff_eq_none] at h
      obtain ⟨_, hempty, position, hvalue, _, hpos, rfl⟩ := h
      exact ⟨.position position, rfl,
        ⟨hvalue, Nat.one_le_iff_ne_zero.mpr (of_decide_eq_true hpos)⟩, fresh_iff.mpr hempty, rfl⟩
    · simp only [bind_ok, ensure_ok, pure_ok, Option.isNone_iff_eq_none, List.contains_iff_mem] at h
      obtain ⟨_, hempty, _, hname, rfl⟩ := h
      exact ⟨.direction value, rfl, ⟨rfl, hname⟩, fresh_iff.mpr hempty, rfl⟩
    · simp only [bind_ok, ensure_ok, pure_ok, Option.isNone_iff_eq_none, not_any_control] at h
      obtain ⟨_, hempty, _, hcontrol, rfl⟩ := h
      exact ⟨.target value, rfl, ⟨rfl, hcontrol⟩, fresh_iff.mpr hempty, rfl⟩
    · cases h
  · rintro ⟨item, rfl, hvalue, hfresh, rfl⟩
    exact keyValue_value hword hnonempty hvalue hfresh

theorem argument_ok {self : UpdateArguments} (hword : IsWord word) :
    self.argument word = .ok next ↔ ∃ item, UpdateItem.Spells item word ∧
      Fresh UpdateItem.key Has self item ∧ next = self.take item := by
  unfold argument
  split
  · next hflag =>
    subst hflag
    simp only [bind_ok, ensure_ok, pure_ok, Bool.not_eq_true']
    constructor
    · rintro ⟨_, hempty, rfl⟩
      exact ⟨.ifMatch, .inl ⟨rfl, rfl⟩, fresh_iff.mpr hempty, rfl⟩
    · rintro ⟨item, ⟨rfl, -⟩ | ⟨value, hspelled, -⟩, hfresh, rfl⟩
      · exact ⟨(), fresh_iff.mp hfresh, rfl⟩
      · have hmem : '=' ∈ (item.keyword ++ "=" ++ value).toList := by simp
        rw [← hspelled] at hmem
        exact absurd hmem (by decide)
  · next hflag =>
    simp only [bind_ok, ensure_ok, need_ok]
    constructor
    · rintro ⟨⟨key, value⟩, hsplit, _, hplain, hread⟩
      obtain ⟨rfl, hfirst⟩ := splitOnce_eq_some.mp hsplit
      simp only [Bool.not_eq_true', Bool.or_eq_false_iff, List.contains_eq_mem,
        decide_eq_false_iff_not] at hplain
      obtain ⟨⟨hkey, hnonempty⟩, hequals⟩ := hplain
      have hvalue : IsWord value := fun c hc => hword c (by simp [hc])
      obtain ⟨item, rfl, hitem, hfresh, rfl⟩ := (keyValue_ok hvalue hnonempty).mp hread
      exact ⟨item, .inr ⟨value, rfl, hnonempty, hequals, hitem⟩, hfresh, rfl⟩
    · rintro ⟨item, ⟨rfl, h⟩ | ⟨value, rfl, hnonempty, hequals, hitem⟩, hfresh, rfl⟩
      · exact absurd h hflag
      · have hvalue : IsWord value := fun c hc => hword c (by simp [hc])
        have hkeyword := item.keyword_plain
        refine ⟨(item.keyword, value), splitOnce_eq_some.mpr ⟨rfl, hkeyword.2⟩, (), ?_,
          keyValue_value hvalue hnonempty hitem hfresh⟩
        simp [hkeyword.1, hnonempty, hequals]

theorem reads : Reads argument IsWord UpdateItem.Spells UpdateItem.key Has take where
  step_ok := argument_ok
  has_take := has_take

theorem not_has_nothing (item : UpdateItem) : ¬({} : UpdateArguments).Has item := by
  cases item <;> exact nofun

theorem has_nothing_foldl {items : List UpdateItem} (hkeys : (items.map UpdateItem.key).Nodup)
    (item : UpdateItem) : (items.foldl take {}).Has item ↔ item ∈ items := by
  rw [reads.has_foldl hkeys fun _ _ other hother => absurd hother (not_has_nothing other),
    or_iff_left (not_has_nothing item)]

section

variable {self : UpdateArguments} {items : List UpdateItem}
  (hitems : ∀ item, self.Has item ↔ item ∈ items)

include hitems

theorem empty_iff (item : UpdateItem) :
    self.Empty item.key ↔ ∀ other ∈ items, other.key ≠ item.key := by
  rw [← fresh_iff]
  exact forall_congr' fun other => imp_congr_left (hitems other)

theorem entry_ok : self.entry = .ok selector ↔ selector.SelectedBy items := by
  have hindex (entryIndex : Nat) : self.entryIndex = some entryIndex ↔ .entry entryIndex ∈ items :=
    hitems (.entry entryIndex)
  have hfid (name : String) : self.fid = some name ↔ .fid name ∈ items := hitems (.fid name)
  have hposition (position : Nat) :
      self.fieldPosition = some position ↔ .position position ∈ items :=
    hitems (.position position)
  have hdirection (name : String) : self.direction = some name ↔ .direction name ∈ items :=
    hitems (.direction name)
  have hnoindex : self.entryIndex = none ↔ ∀ item ∈ items, item.key ≠ .entry :=
    empty_iff hitems (.entry 0)
  have hnofid : self.fid = none ↔ ∀ item ∈ items, item.key ≠ .fid := empty_iff hitems (.fid "")
  have hnoposition : self.fieldPosition = none ↔ ∀ item ∈ items, item.key ≠ .position :=
    empty_iff hitems (.position 0)
  have hnodirection : self.direction = none ↔ ∀ item ∈ items, item.key ≠ .direction :=
    empty_iff hitems (.direction "")
  cases selector with
  | entry entryIndex =>
    simp only [RuleEntrySelector.SelectedBy, forall_and, ← hindex, ← hnofid, ← hnoposition,
      ← hnodirection]
    unfold entry
    cases hentry : self.entryIndex <;> cases self.fid <;> cases self.fieldPosition <;>
      cases self.direction <;> simp
  | field fid fieldPosition direction =>
    simp only [RuleEntrySelector.SelectedBy, ← hfid, ← hnoindex, ← hposition, ← hdirection,
      ← Option.ext_iff]
    rw [eq_comm (a := fieldPosition), eq_comm (a := direction)]
    unfold entry
    cases self.entryIndex <;> cases self.fid <;> cases self.fieldPosition <;>
      cases self.direction <;> simp

end

end UpdateArguments

theorem parseRuleUpdateCommand_ok {deps : Deps} :
    parseRuleUpdateCommand deps input = .ok request ↔ ∃ ruleId arguments items,
      splitWhitespace input = "rule" :: "update" :: ruleId :: arguments ∧
      SpellsRuleId request.rule ruleId ∧ List.Forall₂ UpdateItem.Spells items arguments ∧
      request.DescribedBy items := by
  constructor
  · intro h
    unfold parseRuleUpdateCommand at h
    split at h
    · next words hwords =>
      split at h
      · next ruleId arguments =>
        have hword : ∀ word ∈ ruleId :: arguments, IsWord word := fun word hmem =>
          isWord_of_mem (hwords ▸ List.mem_cons_of_mem _ (List.mem_cons_of_mem _ hmem))
        obtain ⟨hruleId, harguments⟩ := List.forall_mem_cons.mp hword
        simp only [bind_ok, mapError_ok, need_ok, pure_ok, parseRuleSelector_ok hruleId,
          UpdateArguments.reads.run_ok harguments] at h
        obtain ⟨rule, hrule, read, ⟨items, hspells, hkeys, hnew, rfl⟩,
          target, htarget, entry, hentry, rfl⟩ := h
        have hitems (item : UpdateItem) := UpdateArguments.has_nothing_foldl hkeys item
        exact ⟨ruleId, arguments, items, hwords, hrule, hspells, hkeys,
          (hitems (.target target)).mp htarget, (UpdateArguments.entry_ok hitems).mp hentry,
          hitems .ifMatch⟩
      · cases h
    · cases h
  · rintro ⟨ruleId, arguments, items, hwords, hrule, hspells, hkeys, htarget, hentry, hifMatch⟩
    have hword : ∀ word ∈ ruleId :: arguments, IsWord word := fun word hmem =>
      isWord_of_mem (hwords ▸ List.mem_cons_of_mem _ (List.mem_cons_of_mem _ hmem))
    obtain ⟨hruleId, harguments⟩ := List.forall_mem_cons.mp hword
    have hitems (item : UpdateItem) := UpdateArguments.has_nothing_foldl hkeys item
    simp only [parseRuleUpdateCommand, hwords, bind_ok, mapError_ok, need_ok, pure_ok,
      parseRuleSelector_ok hruleId, UpdateArguments.reads.run_ok harguments]
    refine ⟨request.rule, hrule, _, ⟨items, hspells, hkeys, ?_, rfl⟩, request.targetValue,
      (hitems (.target request.targetValue)).mpr htarget, request.entry,
      (UpdateArguments.entry_ok hitems).mpr hentry, ?_⟩
    · exact fun item _ other hother => absurd hother (UpdateArguments.not_has_nothing other)
    · have hflag : (items.foldl UpdateArguments.take {}).ifMatch = request.ifMatch :=
        Bool.eq_iff_iff.mpr ((hitems .ifMatch).trans hifMatch.symm)
      rw [hflag]

/-- The order of the arguments after the RuleID is of no matter. -/
theorem parseRuleUpdateCommand_perm {deps : Deps} {arguments permuted : List String}
    (hinput : splitWhitespace input = "rule" :: "update" :: ruleId :: arguments)
    (hother : splitWhitespace other = "rule" :: "update" :: ruleId :: permuted)
    (hperm : arguments.Perm permuted) (h : parseRuleUpdateCommand deps input = .ok request) :
    parseRuleUpdateCommand deps other = .ok request := by
  obtain ⟨_, _, items, hwords, hrule, hspells, hkeys, htarget, hentry, hifMatch⟩ :=
    parseRuleUpdateCommand_ok.mp h
  cases hinput.symm.trans hwords
  obtain ⟨reordered, hspells, hitems⟩ := List.perm_comp_forall₂ hperm.symm hspells.flip
  have hmem (item : UpdateItem) : item ∈ items ↔ item ∈ reordered := hitems.symm.mem_iff
  refine parseRuleUpdateCommand_ok.mpr ⟨ruleId, permuted, reordered, hother, hrule, hspells.flip,
    (hitems.map _).nodup_iff.mpr hkeys, (hmem _).mp htarget, ?_, hifMatch.trans (hmem _)⟩
  exact (RuleEntrySelector.selectedBy_congr hmem).mp hentry

/-- The update parser accepts its grammar and nothing else, in any order of the arguments. -/
theorem update_command_grammar (deps : Deps) (input : String) :
    (∀ request, parseRuleUpdateCommand deps input = .ok request ↔ ∃ ruleId arguments items,
      splitWhitespace input = "rule" :: "update" :: ruleId :: arguments ∧
      SpellsRuleId request.rule ruleId ∧ List.Forall₂ UpdateItem.Spells items arguments ∧
      request.DescribedBy items) ∧
    ∀ other ruleId arguments permuted,
      splitWhitespace input = "rule" :: "update" :: ruleId :: arguments →
      splitWhitespace other = "rule" :: "update" :: ruleId :: permuted → arguments.Perm permuted →
      ∀ request, parseRuleUpdateCommand deps input = .ok request ↔
        parseRuleUpdateCommand deps other = .ok request := by
  refine ⟨fun _ => parseRuleUpdateCommand_ok, ?_⟩
  intro other ruleId arguments permuted hinput hother hperm request
  exact ⟨parseRuleUpdateCommand_perm hinput hother hperm,
    parseRuleUpdateCommand_perm hother hinput hperm.symm⟩

end SchcCoreconf
