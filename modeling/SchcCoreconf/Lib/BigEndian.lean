import Mathlib.Data.List.Induction
import Mathlib.Data.Nat.Bitwise
import Mathlib.Tactic.Ring

/-!
# Numbers as bytes, the most significant first

`toNat` reads the bytes as a program does, a shift and an or for each; `ofNat`
writes the low-order bytes of a number in a given width. Reading what was
written gives the number modulo the width (`toNat_ofNat`).
-/

namespace BigEndian

def toNat (bytes : List UInt8) : Nat := bytes.foldl (fun value byte => value <<< 8 ||| byte.toNat) 0

def ofNat : Nat → Nat → List UInt8
  | 0, _ => []
  | width + 1, number => ofNat width (number / 256) ++ [UInt8.ofNat number]

theorem shiftLeft_or (value : Nat) (byte : UInt8) :
    value <<< 8 ||| byte.toNat = value * 256 + byte.toNat := by
  rw [← Nat.shiftLeft_add_eq_or_of_lt byte.toNat_lt, Nat.shiftLeft_eq]

@[simp] theorem toNat_nil : toNat [] = 0 := rfl

@[simp] theorem toNat_concat (bytes : List UInt8) (byte : UInt8) :
    toNat (bytes ++ [byte]) = toNat bytes * 256 + byte.toNat := by
  rw [toNat, List.foldl_append]
  exact shiftLeft_or _ byte

theorem toNat_append (left right : List UInt8) :
    toNat (left ++ right) = toNat left * 256 ^ right.length + toNat right := by
  induction right using List.reverseRecOn with
  | nil => simp
  | append_singleton right byte ih =>
    rw [← List.append_assoc, toNat_concat, ih, toNat_concat, List.length_append,
      List.length_singleton, pow_succ]
    ring

theorem toNat_cons (byte : UInt8) (bytes : List UInt8) :
    toNat (byte :: bytes) = byte.toNat * 256 ^ bytes.length + toNat bytes := by
  rw [← List.singleton_append, toNat_append]
  congr 2
  exact toNat_concat [] byte |>.trans (by simp)

theorem toNat_eq_zero {bytes : List UInt8} : toNat bytes = 0 ↔ ∀ byte ∈ bytes, byte = 0 := by
  induction bytes with
  | nil => simp
  | cons byte bytes ih =>
    have hbyte : byte.toNat = 0 ↔ byte = 0 := by
      rw [← UInt8.toNat_inj]
      rfl
    simp [toNat_cons, ih, hbyte]

theorem toNat_lt (bytes : List UInt8) : toNat bytes < 256 ^ bytes.length := by
  induction bytes using List.reverseRecOn with
  | nil => decide
  | append_singleton bytes byte ih =>
    have hbyte : byte.toNat < 256 := byte.toNat_lt
    rw [toNat_concat, List.length_append, List.length_singleton, pow_succ]
    omega

@[simp] theorem length_ofNat (width number : Nat) : (ofNat width number).length = width := by
  induction width generalizing number with
  | zero => rfl
  | succ width ih => rw [ofNat, List.length_append, ih, List.length_singleton]

theorem toNat_ofNat (width number : Nat) : toNat (ofNat width number) = number % 256 ^ width := by
  induction width generalizing number with
  | zero => rw [ofNat, toNat_nil, pow_zero, Nat.mod_one]
  | succ width ih =>
    rw [ofNat, toNat_concat, ih, UInt8.toNat_ofNat', show 2 ^ 8 = 256
      from rfl, pow_succ', Nat.mod_mul]
    omega

theorem drop_ofNat (dropped width number : Nat) :
    (ofNat (dropped + width) number).drop dropped = ofNat width number := by
  induction width generalizing number with
  | zero => exact List.drop_eq_nil_of_le (length_ofNat _ _).le
  | succ width ih =>
    rw [← Nat.add_assoc, ofNat, List.drop_append_of_le_length
      (by rw [length_ofNat]; omega), ih, ofNat]

theorem forall_byte {p : UInt8 → Prop} (h : ∀ n < 256, p (UInt8.ofNat n))
    (byte : UInt8) : p byte := by
  have hbyte := h byte.toNat byte.toNat_lt
  rwa [UInt8.ofNat_toNat] at hbyte

@[simp] theorem toNat_replicate_zero (width : Nat) : toNat (List.replicate width 0) = 0 :=
  toNat_eq_zero.mpr fun _ hbyte => List.eq_of_mem_replicate hbyte

/-- The bits of the number are those of the bytes, counted from the first byte's highest. -/
theorem testBit_toNat {bytes : List UInt8} {index : Nat} (h : index < 8 * bytes.length) :
    (toNat bytes).testBit (8 * bytes.length - 1 - index) =
      bytes[index / 8]?.any fun byte => byte.toNat.testBit (7 - index % 8) := by
  induction bytes generalizing index with
  | nil => simp at h
  | cons byte bytes ih =>
    have hpow : 256 ^ bytes.length = 2 ^ (8 * bytes.length) := by
      rw [pow_mul]
      rfl
    have htail : toNat bytes < 2 ^ (8 * bytes.length) := by
      rw [← hpow]
      exact toNat_lt bytes
    rw [List.length_cons] at h
    rw [toNat_cons, hpow, mul_comm, Nat.testBit_two_pow_mul_add _ htail, List.length_cons]
    by_cases hfirst : index < 8
    · rw [if_neg (by omega), Nat.div_eq_of_lt hfirst, Nat.mod_eq_of_lt hfirst,
        List.getElem?_cons_zero, Option.any_some]
      congr 1
      omega
    · have hindex : index / 8 = (index - 8) / 8 + 1 := by omega
      have hbit : index % 8 = (index - 8) % 8 := by omega
      rw [if_pos (by omega), hindex, hbit, List.getElem?_cons_succ, ← ih (by omega)]
      congr 1
      omega

end BigEndian
