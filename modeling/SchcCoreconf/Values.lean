import Mathlib.Algebra.Group.Int.Defs
import Mathlib.Algebra.Group.Nat.Defs
import Mathlib.Data.List.Sort

/-!
# The two value types

`Json` is `serde_json::Value`, the identifier-keyed datastore tree; an object
lists its members in key order, as serde's `BTreeMap` does. `Cbor` is
`ciborium::value::Value`. The equality of both, `==`, is the crate's
`PartialEq`, which compares floats as numbers: the two zeros are equal.
-/

namespace SchcCoreconf

abbrev Bytes := List UInt8

-- ---------------------------------------------------------------------------
-- serde_json::Value
-- ---------------------------------------------------------------------------

/-- The bits of an `f64`; a `Number` holds finite ones only. -/
structure F64 where
  bits : UInt64
  finite : bits &&& 0x7ff0000000000000 ≠ 0x7ff0000000000000
  deriving DecidableEq, Repr

namespace F64

def isZero (value : F64) : Bool := value.bits &&& 0x7fffffffffffffff == 0

instance : BEq F64 := ⟨fun a b => a.bits == b.bits || (a.isZero && b.isZero)⟩

/-- The number, with one zero. -/
def unsigned (value : F64) : F64 :=
  if value.isZero then { bits := 0, finite := by decide } else value

theorem beq_iff (a b : F64) : (a == b) = true ↔ a.unsigned = b.unsigned := by
  obtain ⟨a, ha⟩ := a
  obtain ⟨b, hb⟩ := b
  simp only [BEq.beq, unsigned, isZero]
  grind

theorem eq_of_beq {a b : F64} (h : (a == b) = true) (hb : b.isZero = false) : a = b := by
  obtain ⟨a, ha⟩ := a
  obtain ⟨b, hb'⟩ := b
  simp only [BEq.beq, isZero] at h hb
  grind

end F64

/-- `Number` is one integer in `i64 ∪ u64`, or a finite float. -/
inductive Json where
  | null
  | bool (value : Bool)
  | int (value : Int)
  | float (value : F64)
  | string (value : String)
  | array (items : List Json)
  | object (members : List (String × Json))
  deriving Repr, Inhabited

namespace Json

mutual
def eqBy (floats : F64 → F64 → Bool) : Json → Json → Bool
  | .null, .null => true
  | .bool a, .bool b => a == b
  | .int a, .int b => a == b
  | .float a, .float b => floats a b
  | .string a, .string b => a == b
  | .array a, .array b => eqItemsBy floats a b
  | .object a, .object b => eqMembersBy floats a b
  | _, _ => false
def eqItemsBy (floats : F64 → F64 → Bool) : List Json → List Json → Bool
  | [], [] => true
  | a :: as, b :: bs => eqBy floats a b && eqItemsBy floats as bs
  | _, _ => false
def eqMembersBy (floats : F64 → F64 → Bool) :
    List (String × Json) → List (String × Json) → Bool
  | [], [] => true
  | (k, a) :: as, (l, b) :: bs => k == l && eqBy floats a b && eqMembersBy floats as bs
  | _, _ => false
end

mutual
def mapFloats (f : F64 → F64) : Json → Json
  | .float value => .float (f value)
  | .array items => .array (mapFloatsItems f items)
  | .object members => .object (mapFloatsMembers f members)
  | .null => .null
  | .bool value => .bool value
  | .int value => .int value
  | .string value => .string value
def mapFloatsItems (f : F64 → F64) : List Json → List Json
  | [] => []
  | item :: rest => mapFloats f item :: mapFloatsItems f rest
def mapFloatsMembers (f : F64 → F64) : List (String × Json) → List (String × Json)
  | [] => []
  | (key, value) :: rest => (key, mapFloats f value) :: mapFloatsMembers f rest
end

section
variable {floats : F64 → F64 → Bool} {f : F64 → F64}

-- where floats are compared through `f`, so are values
mutual
theorem eqBy_iff (hf : ∀ a b, floats a b = true ↔ f a = f b) :
    (a b : Json) → (eqBy floats a b = true ↔ a.mapFloats f = b.mapFloats f)
  | .array a, .array b => by simpa [eqBy, mapFloats] using eqItemsBy_iff hf a b
  | .object a, .object b => by simpa [eqBy, mapFloats] using eqMembersBy_iff hf a b
  | .float a, .float b => by simpa [eqBy, mapFloats] using hf a b
  | .null, b => by cases b <;> simp [eqBy, mapFloats]
  | .bool _, b => by cases b <;> simp [eqBy, mapFloats]
  | .int _, b => by cases b <;> simp [eqBy, mapFloats]
  | .string _, b => by cases b <;> simp [eqBy, mapFloats]
  | .float _, .null | .float _, .bool _ | .float _, .int _ | .float _, .string _
  | .float _, .array _ | .float _, .object _ => by simp [eqBy, mapFloats]
  | .array _, .null | .array _, .bool _ | .array _, .int _ | .array _, .float _
  | .array _, .string _ | .array _, .object _ => by simp [eqBy, mapFloats]
  | .object _, .null | .object _, .bool _ | .object _, .int _ | .object _, .float _
  | .object _, .string _ | .object _, .array _ => by simp [eqBy, mapFloats]
theorem eqItemsBy_iff (hf : ∀ a b, floats a b = true ↔ f a = f b) :
    (as bs : List Json) →
      (eqItemsBy floats as bs = true ↔ mapFloatsItems f as = mapFloatsItems f bs)
  | [], bs => by cases bs <;> simp [eqItemsBy, mapFloatsItems]
  | _ :: _, [] => by simp [eqItemsBy, mapFloatsItems]
  | a :: as, b :: bs => by
    simp [eqItemsBy, mapFloatsItems, eqBy_iff hf a b, eqItemsBy_iff hf as bs]
theorem eqMembersBy_iff (hf : ∀ a b, floats a b = true ↔ f a = f b) :
    (as bs : List (String × Json)) →
      (eqMembersBy floats as bs = true ↔ mapFloatsMembers f as = mapFloatsMembers f bs)
  | [], bs => by cases bs <;> simp [eqMembersBy, mapFloatsMembers]
  | _ :: _, [] => by simp [eqMembersBy, mapFloatsMembers]
  | (k, a) :: as, (l, b) :: bs => by
    simp [eqMembersBy, mapFloatsMembers, eqBy_iff hf a b, eqMembersBy_iff hf as bs]
end

end

mutual
@[simp] theorem mapFloats_id : (value : Json) → value.mapFloats id = value
  | .array items => by rw [mapFloats, mapFloatsItems_id items]
  | .object members => by rw [mapFloats, mapFloatsMembers_id members]
  | .null | .bool _ | .int _ | .float _ | .string _ => rfl
@[simp] theorem mapFloatsItems_id : (items : List Json) → mapFloatsItems id items = items
  | [] => rfl
  | item :: rest => by rw [mapFloatsItems, mapFloats_id item, mapFloatsItems_id rest]
@[simp] theorem mapFloatsMembers_id :
    (members : List (String × Json)) → mapFloatsMembers id members = members
  | [] => rfl
  | (key, value) :: rest => by
    rw [mapFloatsMembers, mapFloats_id value, mapFloatsMembers_id rest]
end

/-- Equality of the very representations, which tells the zeros apart. -/
instance : DecidableEq Json := fun a b =>
  decidable_of_iff (eqBy (fun x y => decide (x = y)) a b = true)
    ((eqBy_iff (f := id) (by simp) a b).trans (by simp))

/-- serde's equality. -/
instance : BEq Json := ⟨eqBy (· == ·)⟩

theorem beq_iff (a b : Json) :
    (a == b) = true ↔ a.mapFloats F64.unsigned = b.mapFloats F64.unsigned :=
  eqBy_iff F64.beq_iff a b

@[simp] theorem beq_self (a : Json) : (a == a) = true := (beq_iff a a).mpr rfl

theorem beq_symm {a b : Json} (h : (a == b) = true) : (b == a) = true :=
  (beq_iff b a).mpr ((beq_iff a b).mp h).symm

theorem beq_trans {a b c : Json} (h : (a == b) = true) (h' : (b == c) = true) : (a == c) = true :=
  (beq_iff a c).mpr (((beq_iff a b).mp h).trans ((beq_iff b c).mp h'))

mutual
def allFloats (p : F64 → Bool) : Json → Bool
  | .float value => p value
  | .array items => allFloatsItems p items
  | .object members => allFloatsMembers p members
  | _ => true
def allFloatsItems (p : F64 → Bool) : List Json → Bool
  | [] => true
  | item :: rest => allFloats p item && allFloatsItems p rest
def allFloatsMembers (p : F64 → Bool) : List (String × Json) → Bool
  | [] => true
  | (_, value) :: rest => allFloats p value && allFloatsMembers p rest
end

/-- No number of the value is a float. -/
def FloatFree (value : Json) : Prop := value.allFloats (fun _ => false) = true

/-- No number of the value is a floating-point zero. -/
def ZeroFree (value : Json) : Prop := value.allFloats (!·.isZero) = true

instance (value : Json) : Decidable value.FloatFree := inferInstanceAs (Decidable (_ = true))
instance (value : Json) : Decidable value.ZeroFree := inferInstanceAs (Decidable (_ = true))

mutual
theorem allFloats_imp {p q : F64 → Bool} (hpq : ∀ x, p x = true → q x = true) :
    (value : Json) → value.allFloats p = true → value.allFloats q = true
  | .float value, h => hpq value h
  | .array items, h => allFloatsItems_imp hpq items h
  | .object members, h => allFloatsMembers_imp hpq members h
  | .null, _ | .bool _, _ | .int _, _ | .string _, _ => rfl
theorem allFloatsItems_imp {p q : F64 → Bool} (hpq : ∀ x, p x = true → q x = true) :
    (items : List Json) → allFloatsItems p items = true → allFloatsItems q items = true
  | [], _ => rfl
  | item :: rest, h => by
    simp only [allFloatsItems, Bool.and_eq_true] at h ⊢
    exact ⟨allFloats_imp hpq item h.1, allFloatsItems_imp hpq rest h.2⟩
theorem allFloatsMembers_imp {p q : F64 → Bool} (hpq : ∀ x, p x = true → q x = true) :
    (members : List (String × Json)) →
      allFloatsMembers p members = true → allFloatsMembers q members = true
  | [], _ => rfl
  | (_, value) :: rest, h => by
    simp only [allFloatsMembers, Bool.and_eq_true] at h ⊢
    exact ⟨allFloats_imp hpq value h.1, allFloatsMembers_imp hpq rest h.2⟩
end

theorem FloatFree.zeroFree {value : Json} (h : value.FloatFree) : value.ZeroFree :=
  allFloats_imp (fun _ hnever => absurd hnever Bool.false_ne_true) value h

-- without a zero on one side, floats are equal as they are represented
mutual
theorem mapFloats_inj : (a b : Json) → b.allFloats (!·.isZero) = true →
    a.mapFloats F64.unsigned = b.mapFloats F64.unsigned → a = b
  | a, .float b, hb, h => by
    cases a <;> simp only [mapFloats, reduceCtorEq, float.injEq] at h
    rw [F64.eq_of_beq ((F64.beq_iff _ _).mpr h) (by simpa [allFloats] using hb)]
  | a, .array bs, hb, h => by
    cases a <;> simp only [mapFloats, reduceCtorEq, array.injEq] at h
    rw [mapFloatsItems_inj _ bs hb h]
  | a, .object bs, hb, h => by
    cases a <;> simp only [mapFloats, reduceCtorEq, object.injEq] at h
    rw [mapFloatsMembers_inj _ bs hb h]
  | a, .null, _, h | a, .bool _, _, h | a, .int _, _, h | a, .string _, _, h => by
    cases a <;> simp_all only [mapFloats, reduceCtorEq]
theorem mapFloatsItems_inj : (as bs : List Json) → allFloatsItems (!·.isZero) bs = true →
    mapFloatsItems F64.unsigned as = mapFloatsItems F64.unsigned bs → as = bs
  | [], [], _, _ => rfl
  | [], _ :: _, _, h | _ :: _, [], _, h => nomatch h
  | a :: as, b :: bs, hb, h => by
    simp only [allFloatsItems, Bool.and_eq_true] at hb
    simp only [mapFloatsItems, List.cons.injEq] at h
    rw [mapFloats_inj a b hb.1 h.1, mapFloatsItems_inj as bs hb.2 h.2]
theorem mapFloatsMembers_inj : (as bs : List (String × Json)) →
    allFloatsMembers (!·.isZero) bs = true →
    mapFloatsMembers F64.unsigned as = mapFloatsMembers F64.unsigned bs → as = bs
  | [], [], _, _ => rfl
  | [], _ :: _, _, h | _ :: _, [], _, h => nomatch h
  | (k, a) :: as, (l, b) :: bs, hb, h => by
    simp only [allFloatsMembers, Bool.and_eq_true] at hb
    simp only [mapFloatsMembers, List.cons.injEq, Prod.mk.injEq] at h
    rw [h.1.1, mapFloats_inj a b hb.1 h.1.2, mapFloatsMembers_inj as bs hb.2 h.2]
end

/-- serde takes no other value as equal to one without a floating-point zero. -/
theorem ZeroFree.eq_of_beq {a b : Json} (hb : b.ZeroFree) (h : (a == b) = true) : a = b :=
  mapFloats_inj a b hb ((beq_iff a b).mp h)

def lookup (members : List (String × Json)) (key : String) : Option Json :=
  match members with
  | [] => none
  | (k, v) :: rest => if k = key then some v else lookup rest key

/-- `Value::get` with a string index: `None` unless the value is an object with that member. -/
def get (value : Json) (key : String) : Option Json :=
  match value with
  | .object members => lookup members key
  | _ => none

def asU64 : Json → Option Nat
  | .int value => if 0 ≤ value ∧ value < 2 ^ 64 then some value.toNat else none
  | _ => none

def asArray : Json → Option (List Json)
  | .array items => some items
  | _ => none

def asObject : Json → Option (List (String × Json))
  | .object members => some members
  | _ => none

def isString : Json → Bool
  | .string _ => true
  | _ => false

def ofNat (n : Nat) : Json := .int n

/-- `Map::insert`: replaces the member of that key, or adds it in key order. -/
def insertMember (members : List (String × Json)) (key : String) (value : Json) :
    List (String × Json) :=
  match members with
  | [] => [(key, value)]
  | (k, v) :: rest =>
    if k = key then (key, value) :: rest
    else if key < k then (key, value) :: (k, v) :: rest
    else (k, v) :: insertMember rest key value

/-- `Map::get_mut` followed by an assignment; a missing key changes nothing. -/
def setMember (members : List (String × Json)) (key : String) (value : Json) :
    List (String × Json) :=
  match members with
  | [] => []
  | (k, v) :: rest => if k = key then (k, value) :: rest else (k, v) :: setMember rest key value

theorem allFloats_lookup (hp : allFloatsMembers p members = true)
    (h : lookup members key = some value) : value.allFloats p = true := by
  induction members with
  | nil => cases h
  | cons member rest ih =>
    obtain ⟨name, first⟩ := member
    simp only [allFloatsMembers, Bool.and_eq_true] at hp
    by_cases hname : name = key
    · rw [lookup, if_pos hname] at h
      exact Option.some.inj h ▸ hp.1
    · rw [lookup, if_neg hname] at h
      exact ih hp.2 h

theorem allFloats_get (hp : allFloats p tree = true) (h : tree.get key = some value) :
    value.allFloats p = true := by
  cases tree with
  | object members => exact allFloats_lookup hp h
  | _ => cases h

theorem asU64_ofNat (h : n < 2 ^ 64) : (ofNat n).asU64 = some n := by
  simp only [ofNat, asU64, Int.toNat_natCast]
  rw [if_pos (by omega)]

theorem asU64_lt (h : asU64 v = some n) : n < 2 ^ 64 := by
  cases v <;> simp [asU64] at h
  omega

end Json

-- ---------------------------------------------------------------------------
-- ciborium::value::Value
-- ---------------------------------------------------------------------------

inductive Cbor where
  | integer (value : Int)
  | bytes (value : Bytes)
  | float (bits : UInt64)
  | text (value : String)
  | bool (value : Bool)
  | null
  | tag (tag : UInt64) (value : Cbor)
  | array (items : List Cbor)
  | map (entries : List (Cbor × Cbor))
  deriving Repr, Inhabited

namespace Cbor

/-- IEEE equality of two doubles given by their bits: no NaN equals anything,
and the two zeros are equal. -/
def floatEq (a b : UInt64) : Bool :=
  let magnitude := 0x7fffffffffffffff
  let isNaN (x : UInt64) : Bool := x &&& magnitude > 0x7ff0000000000000
  !isNaN a && !isNaN b && (a == b || (a &&& magnitude == 0 && b &&& magnitude == 0))

mutual
def eqBy (floats : UInt64 → UInt64 → Bool) : Cbor → Cbor → Bool
  | .integer a, .integer b => a == b
  | .bytes a, .bytes b => a == b
  | .float a, .float b => floats a b
  | .text a, .text b => a == b
  | .bool a, .bool b => a == b
  | .null, .null => true
  | .tag s a, .tag t b => s == t && eqBy floats a b
  | .array a, .array b => eqItemsBy floats a b
  | .map a, .map b => eqEntriesBy floats a b
  | _, _ => false
def eqItemsBy (floats : UInt64 → UInt64 → Bool) : List Cbor → List Cbor → Bool
  | [], [] => true
  | a :: as, b :: bs => eqBy floats a b && eqItemsBy floats as bs
  | _, _ => false
def eqEntriesBy (floats : UInt64 → UInt64 → Bool) :
    List (Cbor × Cbor) → List (Cbor × Cbor) → Bool
  | [], [] => true
  | (k, a) :: as, (l, b) :: bs => eqBy floats k l && eqBy floats a b && eqEntriesBy floats as bs
  | _, _ => false
end

def beq : Cbor → Cbor → Bool := eqBy floatEq

instance : BEq Cbor := ⟨beq⟩

mutual
theorem eqBy_bits_iff : (a b : Cbor) → (eqBy (· == ·) a b = true ↔ a = b)
  | .array a, .array b => by simpa [eqBy] using eqItemsBy_bits_iff a b
  | .map a, .map b => by simpa [eqBy] using eqEntriesBy_bits_iff a b
  | .tag s a, .tag t b => by simp [eqBy, eqBy_bits_iff a b]
  | .integer _, b => by cases b <;> simp [eqBy]
  | .bytes _, b => by cases b <;> simp [eqBy]
  | .float _, b => by cases b <;> simp [eqBy]
  | .text _, b => by cases b <;> simp [eqBy]
  | .bool _, b => by cases b <;> simp [eqBy]
  | .null, b => by cases b <;> simp [eqBy]
  | .tag _ _, .integer _ | .tag _ _, .bytes _ | .tag _ _, .float _ | .tag _ _, .text _
  | .tag _ _, .bool _ | .tag _ _, .null | .tag _ _, .array _ | .tag _ _, .map _
  | .array _, .integer _ | .array _, .bytes _ | .array _, .float _ | .array _, .text _
  | .array _, .bool _ | .array _, .null | .array _, .tag _ _ | .array _, .map _
  | .map _, .integer _ | .map _, .bytes _ | .map _, .float _ | .map _, .text _
  | .map _, .bool _ | .map _, .null | .map _, .tag _ _ | .map _, .array _ => by simp [eqBy]
theorem eqItemsBy_bits_iff : (as bs : List Cbor) → (eqItemsBy (· == ·) as bs = true ↔ as = bs)
  | [], bs => by cases bs <;> simp [eqItemsBy]
  | _ :: _, [] => by simp [eqItemsBy]
  | a :: as, b :: bs => by simp [eqItemsBy, eqBy_bits_iff a b, eqItemsBy_bits_iff as bs]
theorem eqEntriesBy_bits_iff : (as bs : List (Cbor × Cbor)) →
    (eqEntriesBy (· == ·) as bs = true ↔ as = bs)
  | [], bs => by cases bs <;> simp [eqEntriesBy]
  | _ :: _, [] => by simp [eqEntriesBy]
  | (k, a) :: as, (l, b) :: bs => by
    simp [eqEntriesBy, eqBy_bits_iff k l, eqBy_bits_iff a b, eqEntriesBy_bits_iff as bs,
      Prod.ext_iff]
end

/-- Equality of representations, which tells the two zeros apart. -/
def decEq (a b : Cbor) : Decidable (a = b) := decidable_of_iff _ (eqBy_bits_iff a b)

def asI64 : Cbor → Option Int
  | .integer value => if -(2 ^ 63) ≤ value ∧ value < 2 ^ 63 then some value else none
  | _ => none

def asU64 : Cbor → Option Nat
  | .integer value => if 0 ≤ value ∧ value < 2 ^ 64 then some value.toNat else none
  | _ => none

end Cbor

end SchcCoreconf
