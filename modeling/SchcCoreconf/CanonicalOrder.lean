import SchcCoreconf.Codec
import Mathlib.Data.List.Perm.Basic

/-!
# The order of keyed lists

A list whose members have keys says the same in any order. The normal form sorts
the rules and the entries of a rule by their keys, and leaves the target values
of an entry as they are: two trees that differ by the order of members have one
normal form exactly where no target values are reordered.
-/

namespace SchcCoreconf

open Fallible

-- ---------------------------------------------------------------------------
-- Reordered trees
-- ---------------------------------------------------------------------------

/-- The members that are the key of a list, by the member that holds it. -/
def keyNames : Option String → List String
  | some "rule" => ["rule-id-length", "rule-id-value"]
  | some "entry-universal" => ["entry-index"]
  | some "target-value" => ["index"]
  | _ => []

def itemKey (list : Option String) (item : Json) : List Nat :=
  (keyNames list).map (numericMember item)

def keyedLists : List String := ["rule", "entry-universal", "target-value"]

def sortedLists : List String := ["rule", "entry-universal"]

mutual
/-- The other tree is this one with the members of some of the free lists in another order. -/
def Reordered (free : List String) : Option String → Json → Json → Prop
  | _, .object members, other =>
    ∃ others, other = .object others ∧ ReorderedMembers free members others
  | list, .array items, other => ∃ changed others, other = .array others ∧
      ReorderedItems free items changed ∧
      if ∃ name ∈ free, list = some name then changed.Perm others else changed = others
  | _, value, other => other = value
def ReorderedItems (free : List String) : List Json → List Json → Prop
  | [], changed => changed = []
  | item :: rest, changed =>
    ∃ item' rest', changed = item' :: rest' ∧ Reordered free none item item' ∧
      ReorderedItems free rest rest'
def ReorderedMembers (free : List String) : List (String × Json) → List (String × Json) → Prop
  | [], others => others = []
  | (key, value) :: rest, others => ∃ value' rest', others = (key, value') :: rest' ∧
      Reordered free (some key) value value' ∧ ReorderedMembers free rest rest'
end

mutual
def DistinctKeys : Option String → Json → Prop
  | _, .object members => DistinctMembers members
  | list, .array items => DistinctItems items ∧
      ((∃ name ∈ keyedLists, list = some name) → (items.map (itemKey list)).Nodup)
  | _, _ => True
def DistinctItems : List Json → Prop
  | [] => True
  | item :: rest => DistinctKeys none item ∧ DistinctItems rest
def DistinctMembers : List (String × Json) → Prop
  | [] => True
  | (key, value) :: rest => DistinctKeys (some key) value ∧ DistinctMembers rest
end

mutual
def EntriesIndexed : Option String → Json → Prop
  | _, .object members => EntriesIndexedMembers members
  | list, .array items => EntriesIndexedItems items ∧ (list = some "entry-universal" →
      (∀ item ∈ items, ((item.get "entry-index").bind Json.asU64).isSome) ∧
        (items.map entrySortKey).Nodup)
  | _, _ => True
def EntriesIndexedItems : List Json → Prop
  | [] => True
  | item :: rest => EntriesIndexed none item ∧ EntriesIndexedItems rest
def EntriesIndexedMembers : List (String × Json) → Prop
  | [] => True
  | (key, value) :: rest => EntriesIndexed (some key) value ∧ EntriesIndexedMembers rest
end

/-- The identity of a tree: its normal form, the Set-of-Rules of that, and the tag of both. -/
def canonicalIdentity (deps : Deps) (model : CoreconfModel) (tree : Json) :
    Except ContextError (Json × Bytes × ContextTag) := do
  let normal ← normalizeTree tree
  let sor ← encodeTree deps.ciborium model normal
  let digest ← digestContext deps normal sor
  return (normal, sor, contextTag digest)

-- ---------------------------------------------------------------------------
-- Trees and their parts
-- ---------------------------------------------------------------------------

theorem Json.treeInduction {motive : Json → Prop}
    (hobject : ∀ members, (∀ member ∈ members, motive member.2) → motive (.object members))
    (harray : ∀ items, (∀ item ∈ items, motive item) → motive (.array items))
    (hplain : ∀ value, value.asObject = none → value.asArray = none → motive value) (value : Json) :
    motive value :=
  match value with
  | .object members => hobject members fun member hmember =>
    have : sizeOf member.2 < 1 + sizeOf members := by
      have := List.sizeOf_lt_of_mem hmember
      cases member
      simp at this ⊢
      omega
    treeInduction hobject harray hplain member.2
  | .array items => harray items fun item hitem =>
    have : sizeOf item < 1 + sizeOf items := by
      have := List.sizeOf_lt_of_mem hitem
      omega
    treeInduction hobject harray hplain item
  | .null | .bool _ | .int _ | .float _ | .string _ => hplain _ rfl rfl
termination_by sizeOf value

theorem normalizeItems_ok {items normals : List Json} : normalizeItems items = .ok normals ↔
    List.Forall₂ (fun item normal => normalizeValue item none = .ok normal) items normals := by
  induction items generalizing normals with
  | nil => simp [normalizeItems, eq_comm]
  | cons item rest ih =>
    simp only [normalizeItems, bind_ok, pure_ok, List.forall₂_cons_left_iff]
    constructor
    · rintro ⟨normal, hitem, normals, hrest, rfl⟩
      exact ⟨normal, normals, hitem, ih.mp hrest, rfl⟩
    · rintro ⟨normal, normals, hitem, hrest, rfl⟩
      exact ⟨normal, hitem, normals, ih.mpr hrest, rfl⟩

theorem normalizeMembers_ok {members normals : List (String × Json)} :
    normalizeMembers members = .ok normals ↔ List.Forall₂ (fun member normal =>
      normal.1 = member.1 ∧ normalizeValue member.2 (some member.1) =
        .ok normal.2) members normals := by
  induction members generalizing normals with
  | nil => simp [normalizeMembers, eq_comm]
  | cons member rest ih =>
    obtain ⟨key, value⟩ := member
    simp only [normalizeMembers, bind_ok, pure_ok, List.forall₂_cons_left_iff]
    constructor
    · rintro ⟨normal, hvalue, normals, hrest, rfl⟩
      exact ⟨(key, normal), normals, ⟨rfl, hvalue⟩, ih.mp hrest, rfl⟩
    · rintro ⟨⟨_, normal⟩, normals, ⟨rfl, hvalue⟩, hrest, rfl⟩
      exact ⟨normal, hvalue, normals, ih.mpr hrest, rfl⟩

theorem reorderedItems_iff {items changed : List Json} :
    ReorderedItems free items changed ↔ List.Forall₂ (Reordered free none) items changed := by
  induction items generalizing changed with
  | nil => simp [ReorderedItems]
  | cons item rest ih =>
    simp only [ReorderedItems, List.forall₂_cons_left_iff, ih]
    constructor
    · rintro ⟨item', rest', rfl, hitem, hrest⟩
      exact ⟨item', rest', hitem, hrest, rfl⟩
    · rintro ⟨item', rest', hitem, hrest, rfl⟩
      exact ⟨item', rest', rfl, hitem, hrest⟩

theorem reorderedMembers_iff {members others : List (String × Json)} :
    ReorderedMembers free members others ↔ List.Forall₂ (fun member other =>
      other.1 = member.1 ∧ Reordered free (some member.1) member.2 other.2) members others := by
  induction members generalizing others with
  | nil => simp [ReorderedMembers]
  | cons member rest ih =>
    obtain ⟨key, value⟩ := member
    simp only [ReorderedMembers, List.forall₂_cons_left_iff, ih]
    constructor
    · rintro ⟨value', rest', rfl, hvalue, hrest⟩
      exact ⟨(key, value'), rest', ⟨rfl, hvalue⟩, hrest, rfl⟩
    · rintro ⟨⟨_, value'⟩, rest', ⟨rfl, hvalue⟩, hrest, rfl⟩
      exact ⟨value', rest', rfl, hvalue, hrest⟩

theorem distinctItems_iff {items : List Json} :
    DistinctItems items ↔ ∀ item ∈ items, DistinctKeys none item := by
  induction items with
  | nil => simp [DistinctItems]
  | cons item rest ih => rw [DistinctItems, ih, List.forall_mem_cons]

theorem distinctMembers_iff {members : List (String × Json)} :
    DistinctMembers members ↔ ∀ member ∈ members, DistinctKeys (some member.1) member.2 := by
  induction members with
  | nil => simp [DistinctMembers]
  | cons member rest ih => rw [DistinctMembers, ih, List.forall_mem_cons]

theorem entriesIndexedItems_iff {items : List Json} :
    EntriesIndexedItems items ↔ ∀ item ∈ items, EntriesIndexed none item := by
  induction items with
  | nil => simp [EntriesIndexedItems]
  | cons item rest ih => rw [EntriesIndexedItems, ih, List.forall_mem_cons]

theorem entriesIndexedMembers_iff {members : List (String × Json)} :
    EntriesIndexedMembers members ↔ ∀ member ∈ members, EntriesIndexed
      (some member.1) member.2 := by
  induction members with
  | nil => simp [EntriesIndexedMembers]
  | cons member rest ih => rw [EntriesIndexedMembers, ih, List.forall_mem_cons]

-- ---------------------------------------------------------------------------
-- Numbers are kept
-- ---------------------------------------------------------------------------

def SameNumbers (value other : Json) : Prop :=
  ∀ name, (other.get name).bind Json.asU64 = (value.get name).bind Json.asU64

theorem asU64_normalizeValue (h : normalizeValue value list = .ok normal) :
    normal.asU64 = value.asU64 := by
  cases value with
  | object members =>
    simp only [normalizeValue, bind_ok, pure_ok] at h
    obtain ⟨normals, -, rfl⟩ := h
    rfl
  | array items =>
    simp only [normalizeValue, bind_ok, pure_ok] at h
    obtain ⟨normals, -, ordered, -, rfl⟩ := h
    rfl
  | _ =>
    simp only [normalizeValue, Except.ok.injEq] at h
    subst h
    rfl

theorem asU64_reordered (h : Reordered free list value other) : other.asU64 = value.asU64 := by
  cases value with
  | object members =>
    obtain ⟨others, rfl, -⟩ := h
    rfl
  | array items =>
    obtain ⟨changed, others, rfl, -⟩ := h
    rfl
  | _ =>
    cases h
    rfl

theorem sameNumbers_members {members others : List (String × Json)}
    (h : List.Forall₂ (fun member other => other.1 = member.1 ∧
      other.2.asU64 = member.2.asU64) members others) :
    SameNumbers (.object members) (.object others) := by
  intro name
  show (Json.lookup others name).bind Json.asU64 = (Json.lookup members name).bind Json.asU64
  induction h with
  | nil => rfl
  | @cons member other members others hmember _ ih =>
    obtain ⟨key, value⟩ := member
    obtain ⟨_, value'⟩ := other
    obtain ⟨rfl, hvalue⟩ := hmember
    simp only [Json.lookup]
    split
    · exact hvalue
    · exact ih

theorem sameNumbers_normalizeValue (h : normalizeValue value list = .ok normal) :
    SameNumbers value normal := by
  cases value with
  | object members =>
    simp only [normalizeValue, bind_ok, pure_ok] at h
    obtain ⟨normals, hmembers, rfl⟩ := h
    exact sameNumbers_members ((normalizeMembers_ok.mp hmembers).imp fun _ _ hmember =>
      ⟨hmember.1, asU64_normalizeValue hmember.2⟩)
  | array items =>
    simp only [normalizeValue, bind_ok, pure_ok] at h
    obtain ⟨normals, -, ordered, -, rfl⟩ := h
    exact fun _ => rfl
  | _ =>
    simp only [normalizeValue, Except.ok.injEq] at h
    subst h
    exact fun _ => rfl

theorem sameNumbers_reordered (h : Reordered free list value other) : SameNumbers value other := by
  cases value with
  | object members =>
    obtain ⟨others, rfl, hmembers⟩ := h
    exact sameNumbers_members ((reorderedMembers_iff.mp hmembers).imp fun _ _ hmember =>
      ⟨hmember.1, asU64_reordered hmember.2⟩)
  | array items =>
    obtain ⟨changed, others, rfl, -⟩ := h
    exact fun _ => rfl
  | _ =>
    cases h
    exact fun _ => rfl

theorem SameNumbers.numericMember (h : SameNumbers value other) (name : String) :
    SchcCoreconf.numericMember other name = SchcCoreconf.numericMember value name := by
  rw [SchcCoreconf.numericMember, h name]
  rfl

theorem SameNumbers.itemKey (h : SameNumbers value other) (list : Option String) :
    SchcCoreconf.itemKey list other = SchcCoreconf.itemKey list value :=
  List.map_congr_left fun name _ => h.numericMember name

-- ---------------------------------------------------------------------------
-- Trees that have a normal form
-- ---------------------------------------------------------------------------

def Indexed (items : List Json) : Prop :=
  (∀ item ∈ items, ((item.get "entry-index").bind Json.asU64).isSome) ∧
  (items.map entrySortKey).Nodup

theorem entrySortKey_of_index (h : (entry.get "entry-index").bind Json.asU64 = some index) :
    entrySortKey entry = index := by
  rw [entrySortKey, numericMember, h, Option.getD_some]

theorem checkEntryIndexes_ok {seen : List Nat} {items : List Json} :
    checkEntryIndexes seen items = .ok () ↔ Indexed items ∧
      ∀ item ∈ items, entrySortKey item ∉ seen := by
  induction items generalizing seen with
  | nil => simp [checkEntryIndexes, Indexed]
  | cons entry rest ih =>
    simp only [checkEntryIndexes, bind_ok, need_ok, ensure_ok, ih, Indexed, Bool.not_eq_true',
      List.contains_eq_mem, decide_eq_false_iff_not, List.mem_cons (a := entrySortKey _), not_or]
    rw [List.forall_mem_cons, List.forall_mem_cons, List.map_cons, List.nodup_cons]
    constructor
    · rintro ⟨index, hindex, _, hseen, ⟨hrest, hdistinct⟩, hnew⟩
      have hkey := entrySortKey_of_index hindex
      refine ⟨⟨⟨by rw [hindex]; rfl, hrest⟩, ?_, hdistinct⟩, hkey ▸ hseen,
        fun item hitem => (hnew item hitem).2⟩
      rw [List.mem_map]
      rintro ⟨item, hitem, hsame⟩
      exact (hnew item hitem).1 (hsame.trans hkey)
    · rintro ⟨⟨⟨hindex, hrest⟩, hfirst, hdistinct⟩, hseen, hnew⟩
      obtain ⟨index, hindex⟩ := Option.isSome_iff_exists.mp hindex
      have hkey := entrySortKey_of_index hindex
      refine ⟨index, hindex, (), hkey ▸ hseen, ⟨hrest, hdistinct⟩,
        fun item hitem => ⟨?_, hnew item hitem⟩⟩
      rintro hsame
      exact hfirst (List.mem_map.mpr ⟨item, hitem, hsame.trans hkey.symm⟩)

theorem Indexed.perm {items others : List Json} (h : items.Perm others) :
    Indexed items ↔ Indexed others :=
  and_congr (by simp only [h.mem_iff]) (h.map _).nodup_iff

theorem Indexed.congr {items others : List Json} (h : List.Forall₂ SameNumbers items others) :
    Indexed items ↔ Indexed others := by
  have hkeys : items.map entrySortKey = others.map entrySortKey := by
    induction h with
    | nil => rfl
    | cons hitem _ ih =>
      rw [List.map_cons, List.map_cons, ih, entrySortKey, entrySortKey, hitem.numericMember]
  unfold Indexed
  rw [hkeys]
  refine and_congr_left' ?_
  clear hkeys
  induction h with
  | nil => simp
  | cons hitem _ ih => rw [List.forall_mem_cons, List.forall_mem_cons, ih, hitem "entry-index"]

theorem entriesIndexed_array {items : List Json} : EntriesIndexed list (.array items) ↔
    (∀ item ∈ items, EntriesIndexed none item) ∧
    (list = some "entry-universal" → Indexed items) := by
  rw [EntriesIndexed, entriesIndexedItems_iff]
  rfl

theorem orderItems_ok {items : List Json} : orderItems list items = .ok ordered ↔
    (list = some "entry-universal" → Indexed items) ∧
      ordered = if list = some "rule" then items.insertionSort (Sorted.byKey ruleSortKey)
        else if list = some "entry-universal" then items.insertionSort (Sorted.byKey entrySortKey)
        else items := by
  have hsorted : Indexed (items.insertionSort (Sorted.byKey entrySortKey)) ↔ Indexed items :=
    Indexed.perm (List.perm_insertionSort _ _)
  unfold orderItems
  split
  · simp [eq_comm]
  · simp only [bind_ok, pure_ok]
    constructor
    · rintro ⟨_, hcheck, rfl⟩
      exact ⟨fun _ => hsorted.mp (checkEntryIndexes_ok.mp hcheck).1, rfl⟩
    · rintro ⟨hindexed, rfl⟩
      exact ⟨(), checkEntryIndexes_ok.mpr ⟨hsorted.mpr (hindexed trivial), by simp⟩, rfl⟩
  · next hrule hentry =>
    have hrule : list ≠ some "rule" := hrule
    have hentry : list ≠ some "entry-universal" := hentry
    simp [hrule, hentry, eq_comm]

theorem normalizeValue_plain {value : Json} (hobject : value.asObject = none)
    (harray : value.asArray = none) (list : Option String) :
    normalizeValue value list = .ok value := by
  cases value with
  | object => cases hobject
  | array => cases harray
  | _ => simp only [normalizeValue]

theorem entriesIndexed_plain {value : Json} (hobject : value.asObject = none)
    (harray : value.asArray = none) (list : Option String) : EntriesIndexed list value := by
  cases value with
  | object => cases hobject
  | array => cases harray
  | _ => simp only [EntriesIndexed]

theorem reordered_plain {value : Json} (hobject : value.asObject = none)
    (harray : value.asArray = none) : Reordered free list value other ↔ other = value := by
  cases value with
  | object => cases hobject
  | array => cases harray
  | _ => simp only [Reordered]

theorem normalizes_iff :
    (∃ normal, normalizeValue value list = .ok normal) ↔ EntriesIndexed list value := by
  induction value using Json.treeInduction generalizing list with
  | hobject members ih =>
    rw [EntriesIndexed, entriesIndexedMembers_iff]
    simp only [normalizeValue, bind_ok, pure_ok]
    constructor
    · rintro ⟨_, normals, hmembers, -⟩ member hmember
      obtain ⟨normal, -, -, hnormal⟩ := forall₂_mem_left (normalizeMembers_ok.mp hmembers) hmember
      exact (ih member hmember).mp ⟨_, hnormal⟩
    · intro h
      have hpartners (member : String × Json) (hmember : member ∈ members) :
          ∃ normal : String × Json,
            normal.1 = member.1 ∧ normalizeValue member.2 (some member.1) = .ok normal.2 := by
        obtain ⟨normal, hnormal⟩ := (ih member hmember).mpr (h member hmember)
        exact ⟨(member.1, normal), rfl, hnormal⟩
      obtain ⟨normals, hnormals⟩ := forall₂_of_exists hpartners
      exact ⟨_, normals, normalizeMembers_ok.mpr hnormals, rfl⟩
  | harray items ih =>
    have hindexed {normals : List Json} (hnormals : normalizeItems items = .ok normals) :
        Indexed items ↔ Indexed normals :=
      Indexed.congr ((normalizeItems_ok.mp hnormals).imp fun _ _ => sameNumbers_normalizeValue)
    rw [entriesIndexed_array]
    simp only [normalizeValue, bind_ok, pure_ok, orderItems_ok]
    constructor
    · rintro ⟨_, normals, hitems, _, ⟨horder, -⟩, -⟩
      refine ⟨fun item hitem => ?_, fun hlist => (hindexed hitems).mpr (horder hlist)⟩
      obtain ⟨normal, -, hnormal⟩ := forall₂_mem_left (normalizeItems_ok.mp hitems) hitem
      exact (ih item hitem).mp ⟨_, hnormal⟩
    · rintro ⟨hitems, horder⟩
      obtain ⟨normals, hnormals⟩ := forall₂_of_exists fun item hitem =>
        (ih item hitem).mpr (hitems item hitem)
      have hnormals := normalizeItems_ok.mpr hnormals
      exact ⟨_, normals, hnormals, _,
        ⟨fun hlist => (hindexed hnormals).mp (horder hlist), rfl⟩, rfl⟩
  | hplain value hobject harray =>
    exact iff_of_true ⟨_, normalizeValue_plain hobject harray list⟩
      (entriesIndexed_plain hobject harray list)

theorem Reordered.entriesIndexed (h : Reordered free list value other) :
    EntriesIndexed list value ↔ EntriesIndexed list other := by
  induction value using Json.treeInduction generalizing list other with
  | hobject members ih =>
    obtain ⟨others, rfl, hmembers⟩ := h
    have hmembers := reorderedMembers_iff.mp hmembers
    rw [EntriesIndexed, EntriesIndexed, entriesIndexedMembers_iff, entriesIndexedMembers_iff]
    constructor
    · intro h other hother
      obtain ⟨member, hmember, hkey, hvalue⟩ := forall₂_mem_right hmembers hother
      rw [hkey]
      exact (ih member hmember hvalue).mp (h member hmember)
    · intro h member hmember
      obtain ⟨other, hother, hkey, hvalue⟩ := forall₂_mem_left hmembers hmember
      exact (ih member hmember hvalue).mpr (hkey ▸ h other hother)
  | harray items ih =>
    obtain ⟨changed, others, rfl, hitems, horder⟩ := h
    have hitems := reorderedItems_iff.mp hitems
    have hperm : changed.Perm others := by
      split at horder
      · exact horder
      · exact .of_eq horder
    have hindexed : Indexed items ↔ Indexed others :=
      (Indexed.congr (hitems.imp fun _ _ => sameNumbers_reordered)).trans (Indexed.perm hperm)
    rw [entriesIndexed_array, entriesIndexed_array, hindexed]
    refine and_congr_left' ?_
    simp only [← hperm.mem_iff]
    constructor
    · intro h other hother
      obtain ⟨item, hitem, hsame⟩ := forall₂_mem_right hitems hother
      exact (ih item hitem hsame).mp (h item hitem)
    · intro h item hitem
      obtain ⟨other, hother, hsame⟩ := forall₂_mem_left hitems hitem
      exact (ih item hitem hsame).mpr (h other hother)
  | hplain value hobject harray =>
    rw [(reordered_plain hobject harray).mp h]

theorem reordered_object {members others : List (String × Json)}
    (h : List.Forall₂ (fun member other => other.1 = member.1 ∧
      Reordered free (some member.1) member.2 other.2) members others) :
    Reordered free list (.object members) (.object others) :=
  ⟨others, rfl, reorderedMembers_iff.mpr h⟩

theorem reordered_array {items others : List Json}
    (h : List.Forall₂ (Reordered free none) items others) :
    Reordered free list (.array items) (.array others) := by
  refine ⟨others, others, rfl, reorderedItems_iff.mpr h, ?_⟩
  split
  · exact .refl others
  · rfl

theorem reordered_self (value : Json) (list : Option String) : Reordered free list value value := by
  induction value using Json.treeInduction generalizing list with
  | hobject members ih =>
    exact reordered_object (List.forall₂_same.mpr fun member hmember => ⟨rfl, ih member hmember _⟩)
  | harray items ih =>
    exact reordered_array (List.forall₂_same.mpr fun item hitem => ih item hitem _)
  | hplain value hobject harray => exact (reordered_plain hobject harray).mpr rfl

-- ---------------------------------------------------------------------------
-- Trees with one normal form
-- ---------------------------------------------------------------------------

theorem map_itemKey (h : List.Forall₂ SameNumbers items others) (list : Option String) :
    others.map (itemKey list) = items.map (itemKey list) := by
  induction h with
  | nil => rfl
  | cons hitem _ ih => rw [List.map_cons, List.map_cons, ih, hitem.itemKey]

theorem ruleSortKey_nodup {items : List Json} (h : (items.map (itemKey (some "rule"))).Nodup) :
    (items.map ruleSortKey).Nodup := by
  rw [List.nodup_iff_pairwise_ne, List.pairwise_map] at h ⊢
  refine h.imp fun hne heq => hne ?_
  obtain ⟨hlength, hvalue⟩ := Prod.mk.inj (toLex.injective heq)
  simp only [itemKey, keyNames, List.map_cons, List.map_nil, hlength, hvalue]

theorem orderItems_congr {items others : List Json} (h : items.Perm others)
    (hsorted : ∃ name ∈ sortedLists, list = some name)
    (hdistinct : (items.map (itemKey list)).Nodup) :
    orderItems list items = .ok ordered → orderItems list others = .ok ordered := by
  rw [orderItems_ok, orderItems_ok, Indexed.perm h]
  rintro ⟨hindexed, rfl⟩
  refine ⟨hindexed, ?_⟩
  obtain ⟨name, hname, rfl⟩ := hsorted
  simp only [sortedLists, List.mem_cons, List.not_mem_nil, or_false] at hname
  rcases hname with rfl | rfl
  · simp only [if_true]
    exact Sorted.insertionSort_congr h (ruleSortKey_nodup hdistinct)
  · have hentries := ((Indexed.perm h).mpr (hindexed rfl)).2
    simp only [Option.some.injEq, if_true]
    exact Sorted.insertionSort_congr h hentries

theorem keyed_of_sorted (h : ∃ name ∈ sortedLists, list = some name) :
    ∃ name ∈ keyedLists, list = some name := by
  obtain ⟨name, hname, hlist⟩ := h
  simp only [sortedLists, List.mem_cons, List.not_mem_nil, or_false] at hname
  exact ⟨name, by rcases hname with rfl | rfl <;> simp [keyedLists], hlist⟩

theorem orderItems_perm {items : List Json} (h : orderItems list items = .ok ordered) :
    ordered.Perm items := by
  obtain ⟨-, rfl⟩ := orderItems_ok.mp h
  split
  · exact List.perm_insertionSort _ items
  · split
    · exact List.perm_insertionSort _ items
    · exact .refl items

theorem orderItems_unsorted {items : List Json} (h : orderItems list items = .ok ordered)
    (hlist : ¬∃ name ∈ sortedLists, list = some name) : ordered = items := by
  obtain ⟨-, rfl⟩ := orderItems_ok.mp h
  rw [if_neg fun h => hlist ⟨_, by simp [sortedLists], h⟩, if_neg fun h =>
    hlist ⟨_, by simp [sortedLists], h⟩]

/-- Trees that differ by the order of sorted lists have one normal form. -/
theorem Reordered.normalizeValue (h : Reordered sortedLists list value other)
    (hdistinct : DistinctKeys list value)
    (hnormal : SchcCoreconf.normalizeValue value list = .ok normal) :
    SchcCoreconf.normalizeValue other list = .ok normal := by
  induction value using Json.treeInduction generalizing list other normal with
  | hobject members ih =>
    obtain ⟨others, rfl, hmembers⟩ := h
    rw [DistinctKeys, distinctMembers_iff] at hdistinct
    simp only [SchcCoreconf.normalizeValue, bind_ok, pure_ok] at hnormal ⊢
    obtain ⟨normals, hnormals, rfl⟩ := hnormal
    refine ⟨normals, normalizeMembers_ok.mpr ?_, rfl⟩
    refine forall₂_join (reorderedMembers_iff.mp hmembers) (normalizeMembers_ok.mp hnormals) ?_
    rintro member hmember other normal ⟨hkey, hvalue⟩ ⟨hnormalKey, hnormal⟩
    refine ⟨hnormalKey.trans hkey.symm, ?_⟩
    rw [hkey]
    exact ih member hmember hvalue (hdistinct member hmember) hnormal
  | harray items ih =>
    obtain ⟨changed, others, rfl, hitems, horder⟩ := h
    have hitems := reorderedItems_iff.mp hitems
    rw [DistinctKeys, distinctItems_iff] at hdistinct
    simp only [SchcCoreconf.normalizeValue, bind_ok, pure_ok] at hnormal ⊢
    obtain ⟨normals, hnormals, ordered, hordered, rfl⟩ := hnormal
    have hnormals := normalizeItems_ok.mp hnormals
    have hchanged := forall₂_join hitems hnormals fun item hitem other normal hsame hnormal =>
      ih item hitem hsame (hdistinct.1 item hitem) hnormal
    split at horder
    · next hsorted =>
      obtain ⟨normals', hothers, hperm⟩ := List.perm_comp_forall₂ horder.symm hchanged
      refine ⟨normals', normalizeItems_ok.mpr hothers, ordered, ?_, rfl⟩
      refine orderItems_congr hperm.symm hsorted ?_ hordered
      rw [map_itemKey (hnormals.imp fun _ _ => sameNumbers_normalizeValue)]
      exact hdistinct.2 (keyed_of_sorted hsorted)
    · subst horder
      exact ⟨normals, normalizeItems_ok.mpr hchanged, ordered, hordered, rfl⟩
  | hplain value hobject harray =>
    rwa [(reordered_plain hobject harray).mp h]

/-- Trees with one normal form differ by the order of sorted lists only. -/
theorem Reordered.of_normalizeValue (h : Reordered keyedLists list value other)
    (hdistinct : DistinctKeys list value)
    (hvalue : SchcCoreconf.normalizeValue value list = .ok normal)
    (hother : SchcCoreconf.normalizeValue other list = .ok normal) :
    Reordered sortedLists list value other := by
  induction value using Json.treeInduction generalizing list other normal with
  | hobject members ih =>
    obtain ⟨others, rfl, hmembers⟩ := h
    rw [DistinctKeys, distinctMembers_iff] at hdistinct
    simp only [SchcCoreconf.normalizeValue, bind_ok, pure_ok] at hvalue hother
    obtain ⟨normals, hnormals, rfl⟩ := hvalue
    obtain ⟨normals', hnormals', heq⟩ := hother
    cases heq
    refine ⟨others, rfl, reorderedMembers_iff.mpr ?_⟩
    refine forall₂_common (reorderedMembers_iff.mp hmembers) (normalizeMembers_ok.mp hnormals)
      (normalizeMembers_ok.mp hnormals') ?_
    rintro member hmember other normal ⟨hkey, hsame⟩ ⟨-, hnormal⟩ ⟨-, hnormal'⟩
    rw [hkey] at hnormal'
    exact ⟨hkey, ih member hmember hsame (hdistinct member hmember) hnormal hnormal'⟩
  | harray items ih =>
    obtain ⟨changed, others, rfl, hitems, horder⟩ := h
    have hitems := reorderedItems_iff.mp hitems
    rw [DistinctKeys, distinctItems_iff] at hdistinct
    simp only [SchcCoreconf.normalizeValue, bind_ok, pure_ok] at hvalue hother
    obtain ⟨normals, hnormals, ordered, hordered, rfl⟩ := hvalue
    obtain ⟨normals', hothers, ordered', hordered', heq⟩ := hother
    cases heq
    have hnormals := normalizeItems_ok.mp hnormals
    have hothers := normalizeItems_ok.mp hothers
    have hkeys (list : Option String) :=
      map_itemKey (hnormals.imp fun _ _ => sameNumbers_normalizeValue) list
    have hchangedKeys (list : Option String) :=
      map_itemKey (hitems.imp fun _ _ => sameNumbers_reordered) list
    have hcommon (hchanged : List.Forall₂ (fun item normal =>
        SchcCoreconf.normalizeValue item none = .ok normal) changed normals) :
        ReorderedItems sortedLists items changed :=
      reorderedItems_iff.mpr (forall₂_common hitems hnormals hchanged
        fun item hitem other normal hsame hnormal hnormal' =>
          ih item hitem hsame (hdistinct.1 item hitem) hnormal hnormal')
    by_cases hsorted : ∃ name ∈ sortedLists, list = some name
    · -- the sort tells nothing of the order; the keys single out the partners
      rw [if_pos (keyed_of_sorted hsorted)] at horder
      obtain ⟨partners, hpartners, hperm⟩ := List.perm_comp_forall₂ horder hothers
      have hmembers : normals.Perm partners :=
        (orderItems_perm hordered).symm.trans ((orderItems_perm hordered').trans hperm.symm)
      have hpartnerKeys : normals.map (itemKey list) = partners.map (itemKey list) := by
        rw [hkeys, ← hchangedKeys, map_itemKey (hpartners.imp fun _ _ =>
          sameNumbers_normalizeValue)]
      have hsame : normals = partners := by
        refine Sorted.eq_of_perm_of_map hmembers hpartnerKeys ?_
        rw [hkeys]
        exact hdistinct.2 (keyed_of_sorted hsorted)
      refine ⟨changed, others, rfl, hcommon (hsame ▸ hpartners), ?_⟩
      rw [if_pos hsorted]
      exact horder
    · -- the order is kept, and so the keys are in the same order
      have hsame : normals = normals' :=
        (orderItems_unsorted hordered hsorted).symm.trans (orderItems_unsorted hordered' hsorted)
      subst hsame
      have horder : changed = others := by
        split at horder
        · next hkeyed =>
          have hothersKeys : changed.map (itemKey list) = others.map (itemKey list) := by
            rw [hchangedKeys, ← hkeys,
              map_itemKey (hothers.imp fun _ _ => sameNumbers_normalizeValue)]
          refine Sorted.eq_of_perm_of_map horder hothersKeys ?_
          rw [hchangedKeys]
          exact hdistinct.2 hkeyed
        · exact horder
      subst horder
      refine ⟨changed, changed, rfl, hcommon hothers, ?_⟩
      rw [if_neg hsorted]
  | hplain value hobject harray =>
    rw [(reordered_plain hobject harray).mp h]
    exact (reordered_plain hobject harray).mpr rfl

/-- Two trees are one for all that compares contexts: their normal forms, Sets-of-Rules and tags. -/
def SameIdentity (tree other : Json) : Prop :=
  (normalizeTree tree).toOption = (normalizeTree other).toOption ∧
    ∀ deps model, (canonicalIdentity deps model tree).toOption =
      (canonicalIdentity deps model other).toOption

/-- Entries alone are refused, and reordering is forgotten but for the target values. -/
theorem canonical_order_exact (tree other : Json) :
    ((∃ normal, normalizeTree tree = .ok normal) ↔ EntriesIndexed none tree) ∧
    (DistinctKeys none tree → Reordered keyedLists none tree other →
      (SameIdentity tree other ↔ ¬EntriesIndexed none tree ∨
        Reordered sortedLists none tree other)) := by
  refine ⟨normalizes_iff, ?_⟩
  intro hdistinct hreordered
  constructor
  · rintro ⟨hnormal, -⟩
    by_cases hindexed : EntriesIndexed none tree
    · obtain ⟨normal, htree⟩ := normalizes_iff.mpr hindexed
      have htree : normalizeTree tree = .ok normal := htree
      rw [htree] at hnormal
      have hother : normalizeTree other = .ok normal := toOption_eq_some.mp hnormal.symm
      exact .inr (hreordered.of_normalizeValue hdistinct htree hother)
    · exact .inl hindexed
  · intro h
    by_cases hindexed : EntriesIndexed none tree
    · obtain ⟨normal, htree⟩ := normalizes_iff.mpr hindexed
      have htree : normalizeTree tree = .ok normal := htree
      have hother : normalizeTree other = .ok normal :=
        (h.resolve_left (not_not.mpr hindexed)).normalizeValue hdistinct htree
      refine ⟨by rw [htree, hother], fun deps model => ?_⟩
      rw [canonicalIdentity, canonicalIdentity, htree, hother]
    · -- neither tree has a normal form
      have hfails {value : Json} (h : ¬EntriesIndexed none value) :
          ∃ error, normalizeTree value = .error error := by
        cases hvalue : normalizeTree value with
        | error error => exact ⟨error, rfl⟩
        | ok normal => exact absurd (normalizes_iff.mp ⟨normal, hvalue⟩) h
      obtain ⟨_, htree⟩ := hfails hindexed
      obtain ⟨_, hother⟩ := hfails fun h => hindexed (hreordered.entriesIndexed.mpr h)
      refine ⟨by rw [htree, hother]; rfl, fun deps model => ?_⟩
      rw [canonicalIdentity, canonicalIdentity, htree, hother]
      rfl

section

def bareRule (value : Int) : Json :=
  .object [("rule-id-length", .int 8), ("rule-id-value", .int value)]

def rulesTree (rules : List Json) : Json :=
  .object [("ietf-schc:schc", .object [("rule", .array rules)])]

theorem rulesTree_reordered {free : List String} {rules others : List Json} (hfree : "rule" ∈ free)
    (h : rules.Perm others) : Reordered free none (rulesTree rules) (rulesTree others) := by
  have hrules : Reordered free (some "rule") (.array rules) (.array others) := by
    refine ⟨rules, others, rfl, reorderedItems_iff.mpr
      (List.forall₂_same.mpr fun _ _ => reordered_self _ _), ?_⟩
    rw [if_pos ⟨"rule", hfree, rfl⟩]
    exact h
  exact reordered_object (.cons ⟨rfl, reordered_object (.cons ⟨rfl, hrules⟩ .nil)⟩ .nil)

theorem rule_order_forgotten :
    SameIdentity (rulesTree [bareRule 20, bareRule 16]) (rulesTree [bareRule 16, bareRule 20]) := by
  refine ((canonical_order_exact _ _).2 ?_ ?_).mpr (.inr ?_)
  · simp [rulesTree, bareRule, DistinctKeys, DistinctMembers, DistinctItems, itemKey, keyNames,
      numericMember, Json.get, Json.lookup, Json.asU64]
  · exact rulesTree_reordered (by simp [keyedLists]) (.swap _ _ _)
  · exact rulesTree_reordered (by simp [sortedLists]) (.swap _ _ _)

def targetsTree (targets : List Json) : Json :=
  .object [("ietf-schc:schc", .object [("rule", .array [.object [
    ("entry-universal", .array [.object [("entry-index", .int 0),
      ("target-value", .array targets)]]),
    ("rule-id-length", .int 8), ("rule-id-value", .int 20)]])])]

def targetMember (index : Int) (value : String) : Json :=
  .object [("index", .int index), ("value", .string value)]

theorem targetsTree_reordered {targets others : List Json} (h : targets.Perm others) :
    Reordered keyedLists none (targetsTree targets) (targetsTree others) := by
  have htargets : Reordered keyedLists (some "target-value") (.array targets) (.array others) := by
    refine ⟨targets, others, rfl, reorderedItems_iff.mpr
      (List.forall₂_same.mpr fun _ _ => reordered_self _ _), ?_⟩
    rw [if_pos ⟨"target-value", by simp [keyedLists], rfl⟩]
    exact h
  have hentry : Reordered keyedLists none
      (.object [("entry-index", .int 0), ("target-value", .array targets)])
      (.object [("entry-index", .int 0), ("target-value", .array others)]) :=
    reordered_object (.cons ⟨rfl, reordered_self _ _⟩ (.cons ⟨rfl, htargets⟩ .nil))
  have hkey (name : String) (number : Int) :
      Reordered keyedLists (some name) (.int number) (.int number) :=
    reordered_self _ _
  refine reordered_object (.cons ⟨rfl, reordered_object (.cons ⟨rfl, ?_⟩ .nil)⟩ .nil)
  refine reordered_array (.cons (reordered_object (.cons ⟨rfl, ?_⟩ ?_)) .nil)
  · exact reordered_array (.cons hentry .nil)
  · exact .cons ⟨rfl, hkey _ _⟩ (.cons ⟨rfl, hkey _ _⟩ .nil)

/-- Two target values in the other order: another normal form. -/
theorem target_order_kept :
    ∃ tree other, DistinctKeys none tree ∧ Reordered keyedLists none tree other ∧
      EntriesIndexed none tree ∧ normalizeTree tree = .ok tree ∧ normalizeTree other = .ok other ∧
      tree ≠ other := by
  refine ⟨targetsTree [targetMember 0 "AQ==", targetMember 1 "Ag=="],
    targetsTree [targetMember 1 "Ag==", targetMember 0 "AQ=="], ?_, ?_, ?_, ?_, ?_, ?_⟩
  · simp [targetsTree, targetMember, DistinctKeys, DistinctMembers,
      DistinctItems, itemKey, keyNames, numericMember, Json.get, Json.lookup, Json.asU64]
  · exact targetsTree_reordered (.swap _ _ _)
  · exact normalizes_iff.mp ⟨_, rfl⟩
  · rfl
  · rfl
  · decide

end

end SchcCoreconf
