import SchcCoreconf.Duplicate
import SchcCoreconf.Lib.BigEndian
import SchcCoreconf.Lib.Sextets
import Mathlib.Data.Fintype.Basic
import Mathlib.Tactic.FinCases

/-!
# Base64

The base64 text of some bytes is decoded as these bytes, and no other text is. It is the
canonical text: a digit for every sextet of the bytes and the least padding.
-/

namespace SchcCoreconf

open Fallible

-- ---------------------------------------------------------------------------
-- Digits
-- ---------------------------------------------------------------------------

theorem byte_ext {left right : UInt8}
    (h : ∀ i : Fin 8, left.toBitVec.getLsbD i = right.toBitVec.getLsbD i) : left = right :=
  UInt8.toBitVec_inj.mp (BitVec.eq_of_getLsbD_eq fun i hi => h ⟨i, hi⟩)

theorem base64Alphabet_eq : base64Alphabet =
    (List.range' 65 26 ++ List.range' 97 26 ++ List.range' 48 10 ++ [43, 47]).map UInt8.ofNat := by
  decide +kernel

def Sextet (byte : UInt8) : Prop := byte &&& 0xc0 = 0

instance (byte : UInt8) : Decidable (Sextet byte) := inferInstanceAs (Decidable (_ = _))

theorem base64Value_digit (h : Sextet index) : base64Value (base64Digit index) = some index := by
  have hall : ∀ byte, Sextet byte → base64Value (base64Digit byte) = some byte :=
    BigEndian.forall_byte (by
      unfold base64Value base64Digit
      rw [base64Alphabet_eq]
      decide +kernel)
  exact hall index h

theorem base64Digit_ne_pad (h : Sextet index) : base64Digit index ≠ base64Pad := by
  have hall : ∀ byte, Sextet byte → base64Digit byte ≠ base64Pad :=
    BigEndian.forall_byte (by
      unfold base64Digit
      rw [base64Alphabet_eq]
      decide +kernel)
  exact hall index h

section
variable (a b c : UInt8)

theorem sextet_first : Sextet (a >>> 2) := by
  refine byte_ext fun i => ?_
  fin_cases i <;> simp

theorem sextet_second : Sextet ((a &&& 0x03) <<< 4 ||| b >>> 4) := by
  refine byte_ext fun i => ?_
  fin_cases i <;> simp

theorem sextet_second_last : Sextet ((a &&& 0x03) <<< 4) := by
  refine byte_ext fun i => ?_
  fin_cases i <;> simp

theorem sextet_third : Sextet ((b &&& 0x0f) <<< 2 ||| c >>> 6) := by
  refine byte_ext fun i => ?_
  fin_cases i <;> simp

theorem sextet_third_last : Sextet ((b &&& 0x0f) <<< 2) := by
  refine byte_ext fun i => ?_
  fin_cases i <;> simp

theorem sextet_fourth : Sextet (c &&& 0x3f) := by
  refine byte_ext fun i => ?_
  fin_cases i <;> simp

theorem byte_first : (a >>> 2) <<< 2 ||| ((a &&& 0x03) <<< 4 ||| b >>> 4) >>> 4 = a := by
  refine byte_ext fun i => ?_
  fin_cases i <;> simp

theorem byte_first_last : (a >>> 2) <<< 2 ||| ((a &&& 0x03) <<< 4) >>> 4 = a := by
  refine byte_ext fun i => ?_
  fin_cases i <;> simp

theorem byte_second :
    ((a &&& 0x03) <<< 4 ||| b >>> 4) <<< 4 ||| ((b &&& 0x0f) <<< 2 ||| c >>> 6) >>> 2 = b := by
  refine byte_ext fun i => ?_
  fin_cases i <;> simp

theorem byte_second_last :
    ((a &&& 0x03) <<< 4 ||| b >>> 4) <<< 4 ||| ((b &&& 0x0f) <<< 2) >>> 2 = b := by
  refine byte_ext fun i => ?_
  fin_cases i <;> simp

theorem byte_third : ((b &&& 0x0f) <<< 2 ||| c >>> 6) <<< 6 ||| (c &&& 0x3f) = c := by
  refine byte_ext fun i => ?_
  fin_cases i <;> simp

end

-- ---------------------------------------------------------------------------
-- Texts
-- ---------------------------------------------------------------------------

theorem base64DecodeChunks_encode (bytes : Bytes) :
    base64DecodeChunks (base64Encode bytes) = .ok bytes := by
  induction bytes using base64Encode.induct with
  | case1 a b c rest ih =>
    rw [base64Encode]
    simp only [List.cons_append, List.nil_append, base64DecodeChunks, base64DecodeChunk,
      base64Value_digit, base64Digit_ne_pad, sextet_first, sextet_second,
      sextet_third, sextet_fourth, if_false, need, ok_bind, decide_false, Bool.false_and,
      Bool.not_false, ensure, if_true, byte_first, byte_second, byte_third, ih]
    rfl
  | case2 a b =>
    simp only [base64Encode, base64DecodeChunks, base64DecodeChunk,
      base64Value_digit, base64Digit_ne_pad, sextet_first, sextet_second, sextet_third_last,
      if_false, if_true, need, ok_bind, decide_false, Bool.false_and,
      Bool.not_false, ensure, byte_first, byte_second_last]
    rfl
  | case3 a =>
    simp only [base64Encode, base64DecodeChunks, base64DecodeChunk,
      base64Value_digit, sextet_first, sextet_second_last, if_true, need, ok_bind, byte_first_last]
    rfl
  | case4 => rfl

theorem base64Encode_length (bytes : Bytes) : (base64Encode bytes).length % 4 = 0 := by
  induction bytes using base64Encode.induct with
  | case1 a b c rest ih =>
    rw [base64Encode, List.length_append, List.length_cons, List.length_cons, List.length_cons,
      List.length_singleton]
    omega
  | case2 => simp [base64Encode]
  | case3 => simp [base64Encode]
  | case4 => rfl

-- ---------------------------------------------------------------------------
-- Canonical texts
-- ---------------------------------------------------------------------------

theorem Sextet.lt (h : Sextet byte) : byte.toNat < 64 := by
  have hall : ∀ byte, Sextet byte → byte.toNat < 64 := BigEndian.forall_byte (by decide +kernel)
  exact hall byte h

open BitString Sextets

theorem bits_six (byte : UInt8) :
    bits byte.toNat 6 = [byte.toBitVec.getLsbD 5, byte.toBitVec.getLsbD 4, byte.toBitVec.getLsbD 3,
      byte.toBitVec.getLsbD 2, byte.toBitVec.getLsbD 1, byte.toBitVec.getLsbD 0] := rfl

theorem bits_eight (byte : UInt8) :
    bits byte.toNat 8 = [byte.toBitVec.getLsbD 7, byte.toBitVec.getLsbD 6, byte.toBitVec.getLsbD 5,
      byte.toBitVec.getLsbD 4, byte.toBitVec.getLsbD 3, byte.toBitVec.getLsbD 2,
    byte.toBitVec.getLsbD 1, byte.toBitVec.getLsbD 0] := rfl

section
variable (a b c : UInt8)

theorem group_bits :
    ofSextets [a >>> 2, (a &&& 0x03) <<< 4 ||| b >>> 4,
      (b &&& 0x0f) <<< 2 ||| c >>> 6, c &&& 0x3f] = ofBytes [a, b, c] := by
  simp only [ofSextets_cons, ofSextets_nil, ofBytes, List.flatMap_cons,
    List.flatMap_nil, bits_six, bits_eight]
  simp

theorem spells_two :
    Spells [a >>> 2, (a &&& 0x03) <<< 4 ||| b >>> 4, (b &&& 0x0f) <<< 2] [a, b] := by
  refine ⟨?_, 2, by decide, ?_⟩
  · simp only [List.forall_mem_cons]
    exact ⟨(sextet_first a).lt, (sextet_second a b).lt, (sextet_third_last b).lt, nofun⟩
  · simp only [ofSextets_cons, ofSextets_nil, ofBytes, List.flatMap_cons,
      List.flatMap_nil, bits_six, bits_eight]
    simp

theorem spells_one : Spells [a >>> 2, (a &&& 0x03) <<< 4] [a] := by
  refine ⟨?_, 4, by decide, ?_⟩
  · simp only [List.forall_mem_cons]
    exact ⟨(sextet_first a).lt, (sextet_second_last a).lt, nofun⟩
  · simp only [ofSextets_cons, ofSextets_nil, ofBytes, List.flatMap_cons,
      List.flatMap_nil, bits_six, bits_eight]
    simp

end

theorem base64Encode_canonical (bytes : Bytes) :
    CanonicalText base64Digit base64Pad bytes (base64Encode bytes) := by
  induction bytes using base64Encode.induct with
  | case1 a b c rest ih =>
    obtain ⟨sextets, pads, hspells, hpads, hgroups, htext⟩ := ih
    refine ⟨_, pads, Spells.append ?_ (group_bits a b c) hspells, hpads, ?_, ?_⟩
    · simp only [List.forall_mem_cons]
      exact ⟨(sextet_first a).lt, (sextet_second a b).lt, (sextet_third b c).lt,
        (sextet_fourth c).lt, nofun⟩
    · rw [List.length_append, List.length_cons, List.length_cons,
        List.length_cons, List.length_singleton]
      omega
    · rw [base64Encode, htext, List.map_append, List.append_assoc]
      rfl
  | case2 a b => exact ⟨_, 1, spells_two a b, by decide, by simp, rfl⟩
  | case3 a => exact ⟨_, 2, spells_one a, by decide, by simp, rfl⟩
  | case4 => exact ⟨[], 0, .nil, by decide, rfl, rfl⟩

/-- The encoder writes the canonical text of the bytes, the only one there is. -/
theorem canonical_iff :
    CanonicalText base64Digit base64Pad bytes text ↔ text = base64Encode bytes := by
  constructor
  · intro h
    exact h.unique (base64Encode_canonical bytes)
  · rintro rfl
    exact base64Encode_canonical bytes

theorem base64Decode_ok {text : String} :
    base64Decode text = .ok bytes ↔ text.toUTF8.toList = base64Encode bytes := by
  simp only [base64Decode, bind_ok, ensure_ok, pure_ok, decide_eq_true_eq]
  constructor
  · rintro ⟨_, -, _, -, _, hsame, rfl⟩
    exact hsame.symm
  · intro h
    rw [h]
    exact ⟨(), base64Encode_length bytes, bytes, base64DecodeChunks_encode bytes, (), rfl, rfl⟩

end SchcCoreconf
