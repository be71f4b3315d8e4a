import SchcCoreconf.Base64
import SchcCoreconf.Leaves
import Mathlib.Algebra.Order.BigOperators.Group.List

/-!
# The sizes of CBOR items

What an item takes in its shortest form, and what a container takes at least for some
of its members. ciborium writes items in this form; rustconf keys the members of a
container by SIDs relative to that of the container.
-/

namespace SchcCoreconf

open Fallible

def headSize (n : Nat) : Nat :=
  if n < 24 then 1 else if n < 2 ^ 8 then 2 else if n < 2 ^ 16 then 3
    else if n < 2 ^ 32 then 5 else 9

theorem headSize_pos (n : Nat) : 1 ≤ headSize n := by
  unfold headSize
  split_ifs <;> omega

namespace Cbor

mutual
/-- The bytes of an item in its shortest form, given those of doubles. -/
def size (floatSize : UInt64 → Nat) : Cbor → Nat
  | .integer value => if 0 ≤ value then headSize value.toNat else headSize (-1 - value).toNat
  | .bytes value => headSize value.length + value.length
  | .text value => headSize value.toUTF8.size + value.toUTF8.size
  | .array items => headSize items.length + sizeItems floatSize items
  | .map entries => headSize entries.length + sizeEntries floatSize entries
  | .tag number value => headSize number.toNat + size floatSize value
  | .bool _ => 1
  | .null => 1
  | .float bits => floatSize bits
def sizeItems (floatSize : UInt64 → Nat) : List Cbor → Nat
  | [] => 0
  | item :: rest => size floatSize item + sizeItems floatSize rest
def sizeEntries (floatSize : UInt64 → Nat) : List (Cbor × Cbor) → Nat
  | [] => 0
  | (key, value) :: rest => size floatSize key + size floatSize value + sizeEntries floatSize rest
end

mutual
/-- Made of integers of 64 bits and a sign, of byte strings and of maps. -/
def Plain : Cbor → Prop
  | .integer value => -2 ^ 64 ≤ value ∧ value < 2 ^ 64
  | .bytes value => value.length < 2 ^ 64
  | .map entries => entries.length < 2 ^ 64 ∧ PlainEntries entries
  | _ => False
def PlainEntries : List (Cbor × Cbor) → Prop
  | [] => True
  | (key, value) :: rest => Plain key ∧ Plain value ∧ PlainEntries rest
end

def entrySize (floatSize : UInt64 → Nat) (entry : Cbor × Cbor) : Nat :=
  size floatSize entry.1 + size floatSize entry.2

theorem sizeEntries_eq (floatSize : UInt64 → Nat) (entries : List (Cbor × Cbor)) :
    sizeEntries floatSize entries = (entries.map (entrySize floatSize)).sum := by
  induction entries with
  | nil => rfl
  | cons entry entries ih =>
    obtain ⟨key, value⟩ := entry
    rw [sizeEntries, ih, List.map_cons, List.sum_cons, entrySize]

end Cbor

-- ---------------------------------------------------------------------------
-- The crates
-- ---------------------------------------------------------------------------

/-- ciborium writes every item in its shortest form; into a vector, that does not fail. -/
structure WritesShortest (ciborium : Ciborium) : Prop where
  total : ∀ {value : Cbor}, value.Plain → ∃ bytes, ciborium.intoWriter value = .ok bytes
  size : ∃ floatSize, ∀ {value bytes}, ciborium.intoWriter value = .ok bytes →
    bytes.length = value.size floatSize

mutual
/-- The item states this value of a node with this path: an unsigned or signed number, a
binary value, or a container whose members have the SIDs of its children, less its own. -/
def Json.StatedBy (model : CompositeModel) (path : String) : Json → Cbor → Prop
  | .int number, raw => raw = .integer number
  | .string text, raw => ∃ bytes, raw = .bytes bytes ∧ text.toUTF8.toList = base64Encode bytes
  | .array items, raw =>
    ∃ bytes : Bytes, raw = .bytes bytes ∧ items = bytes.map fun byte => .ofNat byte.toNat
  | .object members, raw => ∃ entries stated, raw = .map entries ∧ entries.Perm stated ∧
      MembersStatedBy model path members stated
  | _, _ => False
def Json.MembersStatedBy (model : CompositeModel) (path : String) :
    List (String × Json) → List (Cbor × Cbor) → Prop
  | [], stated => stated = []
  | (name, value) :: rest, stated => ∃ parent sid raw others, model.getSid path = some parent ∧
      model.getSid (path ++ "/" ++ name) = some sid ∧
      stated = (.integer (sid - parent), raw) :: others ∧
      value.StatedBy model (path ++ "/" ++ name) raw ∧ MembersStatedBy model path rest others
end

-- ---------------------------------------------------------------------------
-- Members of a container
-- ---------------------------------------------------------------------------

theorem sum_indicator_le {κ : Type} [DecidableEq κ] {keys : List κ}
    (hkeys : keys.Nodup) (k : κ) (n : Nat) :
    (keys.map fun key => if key = k then n else 0).sum ≤ n := by
  induction keys with
  | nil => exact Nat.zero_le n
  | cons key keys ih =>
    obtain ⟨hnew, hkeys⟩ := List.nodup_cons.mp hkeys
    rw [List.map_cons, List.sum_cons]
    by_cases h : key = k
    · have hrest : (keys.map fun key => if key = k then n else 0) = keys.map fun _ => 0 :=
        List.map_congr_left fun other hother => if_neg (ne_of_mem_of_not_mem hother (h ▸ hnew))
      simp [h, hrest]
    · rw [if_neg h, Nat.zero_add]
      exact ih hkeys

theorem sum_find_le {κ : Type} [DecidableEq κ] {key : α → κ} {cost : α → Nat} {keys : List κ}
    (hkeys : keys.Nodup) (items : List α) :
    (keys.map fun k => ((items.find? (key · = k)).map cost).getD 0).sum ≤ (items.map cost).sum := by
  induction items with
  | nil => simp
  | cons item items ih =>
    have hterm (k : κ) : (((item :: items).find? (key · = k)).map cost).getD 0 ≤
        (if k = key item then cost item else 0) + ((items.find? (key · = k)).map cost).getD 0 := by
      by_cases h : key item = k
      · simp [h]
      · simp [h]
    calc (keys.map fun k => (((item :: items).find? (key · = k)).map cost).getD 0).sum
        ≤ (keys.map fun k => (if k = key item then cost item else 0) +
            ((items.find? (key · = k)).map cost).getD 0).sum := List.sum_le_sum fun k _ => hterm k
      _ = (keys.map fun k => if k = key item then cost item else 0).sum +
            (keys.map fun k => ((items.find? (key · = k)).map cost).getD 0).sum := List.sum_map_add
      _ ≤ cost item + (items.map cost).sum := Nat.add_le_add (sum_indicator_le hkeys _ _) ih
      _ = ((item :: items).map cost).sum := by rw [List.map_cons, List.sum_cons]

section
variable {model : CompositeModel} {path : String} {members : List (String × Json)}
  {entries stated : List (Cbor × Cbor)}

theorem Json.MembersStatedBy.length_eq (h : MembersStatedBy model path members stated) :
    members.length = stated.length := by
  induction members generalizing stated with
  | nil =>
    rw [MembersStatedBy] at h
    rw [h]
    rfl
  | cons member rest ih =>
    rw [MembersStatedBy] at h
    obtain ⟨_, _, _, others, -, -, rfl, -, hrest⟩ := h
    rw [List.length_cons, List.length_cons, ih hrest]

theorem Json.MembersStatedBy.find (h : MembersStatedBy model path members stated)
    (hlookup : lookup members name = some value) :
    ∃ parent sid raw, model.getSid path = some parent ∧
    model.getSid (path ++ "/" ++ name) = some sid ∧
      value.StatedBy model (path ++ "/" ++ name) raw ∧
      (members.zip stated).find? (·.1.1 = name) =
        some ((name, value), (.integer (sid - parent), raw)) := by
  induction members generalizing stated with
  | nil => cases hlookup
  | cons member rest ih =>
    obtain ⟨other, first⟩ := member
    rw [MembersStatedBy] at h
    obtain ⟨parent, sid, raw, others, hparent, hsid, rfl, hfirst, hrest⟩ := h
    rw [lookup] at hlookup
    by_cases hname : other = name
    · rw [if_pos hname] at hlookup
      cases hlookup
      subst hname
      exact ⟨parent, sid, raw, hparent, hsid, hfirst, by simp⟩
    · rw [if_neg hname] at hlookup
      obtain ⟨parent, sid, raw, hparent, hsid, hvalue, hfind⟩ := ih hrest hlookup
      exact ⟨parent, sid, raw, hparent, hsid, hvalue, by simp [hname, hfind]⟩

theorem Json.MembersStatedBy.size_le (h : MembersStatedBy model path members stated)
    (hperm : entries.Perm stated) (floatSize : UInt64 → Nat) (found : List (String × Cbor × Cbor))
    (hnames : (found.map Prod.fst).Nodup)
    (hfound : ∀ item ∈ found, ∃ value,
      (members.zip stated).find? (·.1.1 = item.1) = some ((item.1, value), item.2)) :
    (found.map fun item => Cbor.entrySize floatSize item.2).sum ≤
      Cbor.sizeEntries floatSize entries := by
  have hsame : (found.map fun item => Cbor.entrySize floatSize item.2) =
      (found.map Prod.fst).map fun name =>
        (((members.zip stated).find? (·.1.1 = name)).map fun pair =>
        Cbor.entrySize floatSize pair.2).getD 0 := by
    rw [List.map_map]
    refine List.map_congr_left fun item hitem => ?_
    obtain ⟨value, hfind⟩ := hfound item hitem
    rw [Function.comp_apply, hfind]
    rfl
  calc (found.map fun item => Cbor.entrySize floatSize item.2).sum
      ≤ ((members.zip stated).map fun pair => Cbor.entrySize floatSize pair.2).sum :=
        hsame ▸ sum_find_le hnames _
    _ = (((members.zip stated).map Prod.snd).map (Cbor.entrySize floatSize)).sum := by
        rw [List.map_map]
        rfl
    _ = Cbor.sizeEntries floatSize entries := by
        rw [List.map_snd_zip h.length_eq.ge, Cbor.sizeEntries_eq, (hperm.map _).sum_eq]

end

end SchcCoreconf
