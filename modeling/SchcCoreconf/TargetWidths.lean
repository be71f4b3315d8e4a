import SchcCoreconf.Duplicate
import SchcCoreconf.Lib.BigEndian

/-!
# The widths of target values

A target value given as a number takes the byte width of the value it replaces.
It can be written there if it is in range of that width and of the field's; what
is written then has the width of the old value, and fits the field.
-/

namespace SchcCoreconf

open Fallible

-- ---------------------------------------------------------------------------
-- Numbers as texts and as bytes
-- ---------------------------------------------------------------------------

theorem bigEndian_eq (width number : Nat) :
    bigEndian width number = BigEndian.ofNat width number := by
  induction width generalizing number with
  | zero => rfl
  | succ width ih => rw [bigEndian, BigEndian.ofNat, ih]

@[simp] theorem length_bigEndian (width number : Nat) :
    (bigEndian width number).length = width := by
  rw [bigEndian_eq, BigEndian.length_ofNat]

theorem toNat_bigEndian {width number : Nat} (h : number < 256 ^ width) :
    BigEndian.toNat (bigEndian width number) = number := by
  rw [bigEndian_eq, BigEndian.toNat_ofNat, Nat.mod_eq_of_lt h]

theorem digits_toString (n : Nat) : (toString n).toList.all Char.isDigit = true := by
  rw [List.all_eq_true, Nat.toString_eq_repr, Nat.toList_repr]
  exact fun c hc => Nat.isDigit_of_mem_toDigits (by decide) (by decide) hc

theorem isEmpty_toString (n : Nat) : (toString n).isEmpty = false := by
  rw [Nat.toString_eq_repr]
  simp

theorem ofDigitChars_toString (n : Nat) : Nat.ofDigitChars 10 (toString n).toList 0 = n := by
  rw [Nat.toString_eq_repr, Nat.toList_repr, Nat.ofDigitChars_ten_toDigits]

theorem parseU64_toString {n : Nat} (h : n < 2 ^ 64) : parseU64 (toString n) = some n := by
  simp only [parseU64, ofDigitChars_toString, isEmpty_toString, digits_toString, h]
  rfl

theorem parseU64_ok (h : parseU64 text = some number) :
    text.toList.all Char.isDigit = true ∧ Nat.ofDigitChars 10 text.toList 0 = number ∧
      number < 2 ^ 64 := by
  simp only [parseU64, Option.ite_none_right_eq_some, Bool.and_eq_true, decide_eq_true_eq,
    Option.some.injEq] at h
  obtain ⟨⟨⟨-, hdigits⟩, hrange⟩, rfl⟩ := h
  exact ⟨hdigits, rfl, hrange⟩

theorem parseU64_lengthName {length : FieldLength} :
    parseU64 (lengthName length) = some bits ↔ length = .fixedBits bits ∧ bits < 2 ^ 64 := by
  have hletter (c : Char) (hc : c.isDigit = false) {text : String} (hmem : c ∈ text.toList) :
      parseU64 text ≠ some bits := by
    intro h
    rw [List.all_eq_true.mp (parseU64_ok h).1 c hmem] at hc
    cases hc
  cases length with
  | fixedBits n =>
    constructor
    · intro h
      obtain ⟨-, hnumber, hrange⟩ := parseU64_ok h
      rw [lengthName, ofDigitChars_toString] at hnumber
      exact ⟨congrArg _ hnumber, hrange⟩
    · rintro ⟨hlength, hrange⟩
      rw [lengthName, FieldLength.fixedBits.inj hlength]
      exact parseU64_toString hrange
  | variableBytes => exact iff_of_false (hletter 'v' rfl (by simp [lengthName])) (by simp)
  | variableBits => exact iff_of_false (hletter 'v' rfl (by simp [lengthName])) (by simp)
  | remaining => exact iff_of_false (hletter 'r' rfl (by simp [lengthName])) (by simp)
  | tokenLength => exact iff_of_false (hletter 't' rfl (by simp [lengthName])) (by simp)
  | fromPreviousField entryIndex unit =>
    have hstart : 'f' ∈ (toString "from-entry-").toList := by simp [toString]
    refine iff_of_false (hletter 'f' rfl ?_) (by simp)
    cases unit <;> simp [lengthName, hstart]
  | functionSid sid =>
    have hstart : 's' ∈ (toString "sid:").toList := by simp [toString]
    exact iff_of_false (hletter 's' rfl (by simp [lengthName, hstart])) (by simp)

-- ---------------------------------------------------------------------------
-- Writing a number over a target value
-- ---------------------------------------------------------------------------

/-- A number that can replace a target value of this many bytes. -/
structure WritableTarget (input : String) (width : Nat) (fieldLength : Json) (number : Nat) :
    Prop where
  digits : input.toList.all Char.isDigit = true
  nonempty : input.isEmpty = false
  value : Nat.ofDigitChars 10 input.toList 0 = number
  range : number < 2 ^ 64
  stored : 0 < width
  width : number < 256 ^ width
  field : ∀ bits, fieldLength.asU64 = some bits → bits ≠ 0 ∧ number < 2 ^ bits

/-- A bound that is checked for narrow widths only; no `u64` exceeds a wide one. -/
theorem narrow_check {number width : Nat} (hnumber : number < 2 ^ 64) :
    (!(decide (width < 64) && decide (number ≥ 1 <<< width))) = true ↔ number < 2 ^ width := by
  rw [Nat.one_shiftLeft]
  by_cases hwidth : width < 64
  · simp [hwidth]
  · have hle : 2 ^ 64 ≤ 2 ^ width := Nat.pow_le_pow_right (by decide) (not_lt.mp hwidth)
    simp [hwidth, hnumber.trans_le hle]

theorem numericTargetValue_ok {current : Bytes} :
    numericTargetValue input current fieldLength = .ok value ↔
      ∃ number, WritableTarget input current.length fieldLength number ∧
        value = .array ((bigEndian current.length number).map fun byte => .ofNat byte.toNat) := by
  have hstored : (!current.isEmpty) = true ↔ 0 < current.length := by
    simp [List.length_pos_iff]
  constructor
  · intro h
    cases hfield : fieldLength.asU64 with
    | none =>
      simp only [numericTargetValue, hfield, bind_ok, ensure_ok, pure_ok, hstored] at h
      obtain ⟨_, hdigits, _, hrange, _, hcurrent, _, -, _, hwidth, rfl⟩ := h
      rw [Bool.and_eq_true, Bool.not_eq_true'] at hdigits
      exact ⟨_, ⟨hdigits.2, hdigits.1, rfl, of_decide_eq_true hrange, hcurrent,
        of_decide_eq_true hwidth, by simp [hfield]⟩, rfl⟩
    | some bits =>
      simp only [numericTargetValue, hfield, bind_ok, ensure_ok, pure_ok, hstored] at h
      obtain ⟨_, hdigits, _, hrange, _, hcurrent, _, -, _, hbits, _, hfits, _, hwidth, rfl⟩ := h
      rw [Bool.and_eq_true, Bool.not_eq_true'] at hdigits
      have hnumber := of_decide_eq_true hrange
      refine ⟨_, ⟨hdigits.2, hdigits.1, rfl, hnumber, hcurrent, of_decide_eq_true hwidth, ?_⟩, rfl⟩
      rintro _ hsome
      cases hfield.symm.trans hsome
      exact ⟨of_decide_eq_true hbits, (narrow_check hnumber).mp hfits⟩
  · rintro ⟨number, ⟨hdigits, hnonempty, rfl, hrange, hcurrent, hwidth, hfield⟩, rfl⟩
    have hspelled : (!input.isEmpty && input.toList.all Char.isDigit) = true := by
      rw [hnonempty, hdigits]
      rfl
    have hbytes : Nat.ofDigitChars 10 input.toList 0 < 2 ^ (current.length * 8) := by
      rwa [mul_comm, pow_mul]
    cases hbits : fieldLength.asU64 with
    | none =>
      simp only [numericTargetValue, hbits, bind_ok, ensure_ok, pure_ok]
      exact ⟨(), hspelled, (), decide_eq_true hrange, (), hstored.mpr hcurrent, (),
        (narrow_check hrange).mpr hbytes, (), decide_eq_true hwidth, trivial⟩
    | some bits =>
      obtain ⟨hpos, hfits⟩ := hfield bits hbits
      simp only [numericTargetValue, hbits, bind_ok, ensure_ok, pure_ok]
      exact ⟨(), hspelled, (), decide_eq_true hrange, (), hstored.mpr hcurrent, (),
        (narrow_check hrange).mpr hbytes, (), decide_eq_true hpos, (),
        (narrow_check hrange).mpr hfits, (), decide_eq_true hwidth, trivial⟩

theorem byteOf_ofNat (byte : UInt8) : byteOf (.ofNat byte.toNat) = .ok byte := by
  have hlt : byte.toNat < 256 := byte.toNat_lt
  simp only [byteOf, Json.asU64_ofNat (hlt.trans (by decide)), bind_ok, need_ok, ensure_ok, pure_ok]
  exact ⟨_, rfl, (), decide_eq_true hlt, UInt8.ofNat_toNat⟩

theorem binaryBytes_array (bytes : Bytes) :
    binaryBytes (.array (bytes.map fun byte => .ofNat byte.toNat)) = .ok bytes := by
  simp only [binaryBytes, bind_ok, need_ok]
  refine ⟨_, rfl, collect_ok_iff.mpr ?_⟩
  rw [List.forall₂_map_left_iff]
  exact List.forall₂_same.mpr fun byte _ => byteOf_ofNat byte

-- ---------------------------------------------------------------------------
-- Fitting a field
-- ---------------------------------------------------------------------------

theorem byte_mask {byte : UInt8} {clear : Nat} (hpos : 0 < clear) (hlt : clear < 8) :
    byte &&& (0xff <<< UInt8.ofNat (8 - clear)) = 0 ↔ byte.toNat < 2 ^ (8 - clear) := by
  have hall : ∀ byte : UInt8, ∀ m < 8, 0 < m →
      (byte &&& (0xff <<< UInt8.ofNat (8 - m)) = 0 ↔ byte.toNat < 2 ^ (8 - m)) :=
    BigEndian.forall_byte (by decide +kernel)
  exact hall byte clear hlt hpos

theorem leading_zero {bytes : Bytes} : bytes.any (· ≠ 0) = false ↔ BigEndian.toNat bytes = 0 := by
  simp [BigEndian.toNat_eq_zero]

theorem toNat_cons_lt {byte : UInt8} {tail : Bytes} {used : Nat} :
    BigEndian.toNat (byte :: tail) < 2 ^ (tail.length * 8 + used) ↔ byte.toNat < 2 ^ used := by
  have htail := BigEndian.toNat_lt tail
  have hpow : 2 ^ (tail.length * 8 + used) = 2 ^ used * 256 ^ tail.length := by
    rw [pow_add, mul_comm tail.length, pow_mul, mul_comm]
    rfl
  rw [BigEndian.toNat_cons, hpow]
  constructor
  · intro h
    by_contra hle
    exact absurd h (not_lt.mpr ((Nat.mul_le_mul_right _ (not_lt.mp hle)).trans
      (Nat.le_add_right _ _)))
  · intro h
    calc byte.toNat * 256 ^ tail.length + BigEndian.toNat tail
      _ < byte.toNat * 256 ^ tail.length + 256 ^ tail.length := by omega
      _ = (byte.toNat + 1) * 256 ^ tail.length := by ring
      _ ≤ 2 ^ used * 256 ^ tail.length := Nat.mul_le_mul_right _ h

/-- Bytes fit a field when their number is in its range, and they are wide enough. -/
theorem binaryFitsFieldLength_iff {bytes : Bytes} {fieldLength : Nat} :
    binaryFitsFieldLength bytes fieldLength = true ↔
      0 < fieldLength ∧ fieldLength ≤ bytes.length * 8 ∧
        BigEndian.toNat bytes < 2 ^ fieldLength := by
  by_cases hrange : fieldLength = 0 ∨ fieldLength > bytes.length * 8
  · simp only [binaryFitsFieldLength, if_pos hrange]
    exact iff_of_false (by simp) fun ⟨hpos, hle, _⟩ => by omega
  simp only [binaryFitsFieldLength, if_neg hrange]
  generalize hwhole : (bytes.length * 8 - fieldLength) / 8 = whole
  generalize hremaining : (bytes.length * 8 - fieldLength) % 8 = remaining
  have hsplit : BigEndian.toNat bytes = BigEndian.toNat (bytes.take whole) *
      256 ^ (bytes.drop whole).length + BigEndian.toNat (bytes.drop whole) := by
    rw [← BigEndian.toNat_append, List.take_append_drop]
  have hlength : (bytes.drop whole).length = bytes.length - whole := List.length_drop
  have hbits : 2 ^ ((bytes.drop whole).length * 8) = 256 ^ (bytes.drop whole).length := by
    rw [mul_comm, pow_mul]
    rfl
  by_cases hzero : (bytes.take whole).any (· ≠ 0) = true
  · -- a byte above the field is set
    rw [if_pos hzero]
    refine iff_of_false (by simp) fun ⟨_, _, hlt⟩ => ?_
    have hpos : 0 < BigEndian.toNat (bytes.take whole) := Nat.pos_of_ne_zero fun h => by
      rw [leading_zero.mpr h] at hzero
      cases hzero
    have hle : 2 ^ fieldLength ≤ 256 ^ (bytes.drop whole).length := by
      rw [← hbits]
      exact Nat.pow_le_pow_right (by decide) (by omega)
    have := Nat.le_mul_of_pos_left (256 ^ (bytes.drop whole).length) hpos
    omega
  · rw [if_neg hzero]
    rw [leading_zero.mp (Bool.eq_false_iff.mpr hzero), zero_mul, zero_add] at hsplit
    rw [hsplit]
    by_cases haligned : remaining = 0
    · rw [if_pos haligned]
      have hfield : fieldLength = (bytes.drop whole).length * 8 := by omega
      rw [hfield, hbits]
      exact iff_of_true rfl ⟨by omega, by omega, BigEndian.toNat_lt _⟩
    · rw [if_neg haligned]
      cases hrest : bytes.drop whole with
      | nil =>
        rw [hrest, List.length_nil] at hlength
        omega
      | cons byte tail =>
        rw [hrest, List.length_cons] at hlength
        have hfield : fieldLength = tail.length * 8 + (8 - remaining) := by omega
        have hbyte : bytes[whole]? = some byte := by
          rw [← List.head?_drop, hrest]
          rfl
        rw [hbyte, hfield, toNat_cons_lt, ← byte_mask (by omega) (by omega)]
        simp only [decide_eq_true_eq]
        constructor
        · exact fun h => ⟨by omega, by omega, h⟩
        · exact fun h => h.2.2

end SchcCoreconf
