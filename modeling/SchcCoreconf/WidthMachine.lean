import SchcCoreconf.TargetWidths
import SchcCoreconf.Lib.Machine

/-!
# Width arithmetic at the machine's widths

The two width checks with every product, difference, shift and index done on 64
bits, where an overflow or an index past the end is no value at all. The byte
count is multiplied by eight in a checked product: byte strings whose bits cannot
be counted in a word are refused. Below that the checks are the exact ones.
-/

namespace SchcCoreconf

open Fallible Machine

def binaryFitsFieldLengthChecked (bytes : Bytes) (fieldLength : Nat) : Option Bool :=
  match mul 64 bytes.length 8 with
  | none => some false
  | some storageBits =>
    if fieldLength = 0 ∨ fieldLength > storageBits then some false
    else do
      let excessBits ← sub storageBits fieldLength
      let wholeBytes := excessBits / 8
      let remainingBits := excessBits % 8
      if (bytes.take wholeBytes).any (· ≠ 0) then return false
      else if remainingBits = 0 ∨ wholeBytes ≥ bytes.length then return true
      else
        let byte ← bytes[wholeBytes]?
        let mask ← shlDrop 8 0xff (← sub 8 remainingBits)
        return byte &&& UInt8.ofNat mask = 0

def fillBytes : Nat → Nat → Option (Bytes × Nat)
  | 0, remaining => some ([], remaining)
  | width + 1, remaining => do
    let byte := UInt8.ofNat (remaining &&& 0xff)
    let (front, remaining) ← fillBytes width (← shr 64 remaining 8)
    return (front ++ [byte], remaining)

def exceedsChecked (number bits : Nat) : Option Bool :=
  if bits < 64 then do
    let bound ← shl 64 1 bits
    return number ≥ bound
  else some false

def numericTargetValueChecked (input : String) (currentBytes : Bytes) (fieldLength : Json) :
    Checked InspectionError Json := do
  lift (ensure (!input.isEmpty && input.toList.all Char.isDigit)
    (invalidTarget "tv must be an unsigned decimal value for a binary target"))
  let number ← lift (need (parseU64 input)
    (invalidTarget "tv is out of range for an unsigned target value"))
  lift (ensure (!currentBytes.isEmpty)
    (invalidTarget "existing target value has no byte width to preserve"))
  let storageBits ← lift (need (mul 64 currentBytes.length 8)
    (invalidTarget "existing target value byte width is too large"))
  let wide ← arith (exceedsChecked number storageBits)
  lift (ensure (!wide)
    (invalidTarget s!"tv={input} does not fit existing target width of {storageBits} bits"))
  match fieldLength.asU64 with
  | none => pure ()
  | some bits => do
    lift (ensure (bits ≠ 0) (invalidTarget "selected field has a zero-bit length"))
    let long ← arith (exceedsChecked number bits)
    lift (ensure (!long)
      (invalidTarget s!"tv={input} does not fit selected field length of {bits} bits"))
  let (bytes, remaining) ← arith (fillBytes currentBytes.length number)
  lift (ensure (remaining = 0)
    (invalidTarget s!"tv={input} does not fit existing target width of {storageBits} bits"))
  return .array (bytes.map fun byte => .ofNat byte.toNat)

-- ---------------------------------------------------------------------------
-- No step overflows
-- ---------------------------------------------------------------------------

theorem exceedsChecked_eq {number : Nat} (hnumber : number < 2 ^ 64) (bits : Nat) :
    exceedsChecked number bits = some (decide (2 ^ bits ≤ number)) := by
  unfold exceedsChecked
  split
  · next hbits =>
    have hbound : 1 <<< bits < 2 ^ 64 := by
      rw [Nat.one_shiftLeft]
      exact Nat.pow_lt_pow_right (by decide) hbits
    rw [shl_eq hbits hbound, Nat.one_shiftLeft]
    rfl
  · next hbits =>
    have hle : 2 ^ 64 ≤ 2 ^ bits := Nat.pow_le_pow_right (by decide) (not_lt.mp hbits)
    rw [decide_eq_false (not_le.mpr (hnumber.trans_le hle))]

theorem fillBytes_eq (width number : Nat) :
    fillBytes width number = some (bigEndian width number, number / 256 ^ width) := by
  induction width generalizing number with
  | zero => simp [fillBytes, bigEndian]
  | succ width ih =>
    have hbyte : UInt8.ofNat (number &&& 0xff) = UInt8.ofNat number := by
      rw [← UInt8.toNat_inj, UInt8.toNat_ofNat', UInt8.toNat_ofNat',
        show 0xff = 2 ^ 8 - 1 from rfl, Nat.and_two_pow_sub_one_eq_mod, Nat.mod_mod]
    have hshift : shr 64 number 8 = some (number / 256) := by
      rw [shr_eq (by decide), Nat.shiftRight_eq_div_pow]
    simp only [fillBytes, hshift, Option.bind_eq_bind, Option.bind_some, ih, hbyte]
    rw [bigEndian, Nat.div_div_eq_div_mul, ← pow_succ']
    rfl

theorem numericTargetValueChecked_exact (input : String) (current : Bytes) (fieldLength : Json) :
    Exact (numericTargetValueChecked input current fieldLength) := by
  refine .bind .lift fun _ _ => .bind .lift fun number hnumber => .bind .lift fun _ _ =>
    .bind .lift fun bits hbits => ?_
  obtain ⟨-, -, hrange⟩ := parseU64_ok (need_ok.mp (lift_eq_ok.mp hnumber))
  refine .bind (.arith (exceedsChecked_eq hrange bits)) fun _ _ => .bind .lift fun _ _ => ?_
  have hfill := fillBytes_eq current.length number
  cases fieldLength.asU64 with
  | none => exact .bind (.arith hfill) fun _ _ => .bind .lift fun _ _ => .pure
  | some length =>
    refine .bind .lift fun _ _ => .bind (.arith (exceedsChecked_eq hrange length)) fun _ _ => ?_
    exact .bind .lift fun _ _ => .bind (.arith hfill) fun _ _ => .bind .lift fun _ _ => .pure

-- ---------------------------------------------------------------------------
-- The checks against the exact ones
-- ---------------------------------------------------------------------------

theorem parseU64_digits {text : String} (hnonempty : text.isEmpty = false)
    (hdigits : text.toList.all Char.isDigit = true)
    (hrange : Nat.ofDigitChars 10 text.toList 0 < 2 ^ 64) :
    parseU64 text = some (Nat.ofDigitChars 10 text.toList 0) := by
  simp only [parseU64, hnonempty, hdigits, decide_eq_true hrange]
  rfl

theorem narrow_exceeds {number bits : Nat} (hnumber : number < 2 ^ 64) {wide : Bool}
    (h : exceedsChecked number bits = some wide) : (!wide) = true ↔ number < 2 ^ bits := by
  rw [exceedsChecked_eq hnumber] at h
  rw [← Option.some.inj h, Bool.not_eq_true', decide_eq_false_iff_not, not_le]

theorem numericTargetValueChecked_ok {current : Bytes} :
    numericTargetValueChecked input current fieldLength = lift (.ok value) ↔
      current.length * 8 < 2 ^ 64 ∧
      ∃ number, WritableTarget input current.length fieldLength number ∧
        value = .array ((bigEndian current.length number).map fun byte => .ofNat byte.toNat) := by
  have hstored : (!current.isEmpty) = true ↔ 0 < current.length := by
    simp [List.length_pos_iff]
  have hbytes : 2 ^ (current.length * 8) = 256 ^ current.length := by
    rw [mul_comm, pow_mul]
    rfl
  have hfill (number : Nat) := fillBytes_eq current.length number
  constructor
  · intro h
    simp only [numericTargetValueChecked, bind_eq_ok, lift_eq_ok, arith_eq_ok, ensure_ok, need_ok,
      hstored, mul_eq_some] at h
    obtain ⟨_, hspelled, number, hnumber, _, hcurrent, _, ⟨hstorage, rfl⟩, _,
      hwide, _, hwidth, h⟩ := h
    obtain ⟨hdigits, hvalue, hrange⟩ := parseU64_ok hnumber
    rw [narrow_exceeds hrange hwide, hbytes] at hwidth
    refine ⟨hstorage, number, ⟨hdigits, ?_, hvalue, hrange, hcurrent, hwidth, ?_⟩, ?_⟩
    · rw [Bool.and_eq_true, Bool.not_eq_true'] at hspelled
      exact hspelled.1
    · intro bits hfield
      simp only [hfield, bind_eq_ok, lift_eq_ok, arith_eq_ok, ensure_ok] at h
      obtain ⟨_, hbits, _, hlong, _, hfits, -⟩ := h
      exact ⟨of_decide_eq_true hbits, (narrow_exceeds hrange hlong).mp hfits⟩
    · cases hfield : fieldLength.asU64 with
      | none =>
        simp only [hfield, bind_eq_ok, lift_eq_ok, arith_eq_ok, hfill, pure_eq_ok] at h
        obtain ⟨_, hbytes, _, -, rfl⟩ := h
        rw [← Option.some.inj hbytes]
      | some bits =>
        simp only [hfield, bind_eq_ok, lift_eq_ok, arith_eq_ok, hfill, pure_eq_ok] at h
        obtain ⟨_, -, _, -, _, -, _, hbytes, _, -, rfl⟩ := h
        rw [← Option.some.inj hbytes]
  · rintro ⟨hstorage, number, ⟨hdigits, hnonempty, rfl, hrange, hcurrent, hwidth, hfield⟩, rfl⟩
    have hspelled : (!input.isEmpty && input.toList.all Char.isDigit) = true := by
      rw [hnonempty, hdigits]
      rfl
    have hleft : Nat.ofDigitChars 10 input.toList 0 / 256 ^ current.length = 0 :=
      Nat.div_eq_of_lt hwidth
    have hwide := exceedsChecked_eq hrange (current.length * 8)
    simp only [numericTargetValueChecked, bind_eq_ok, lift_eq_ok, arith_eq_ok, ensure_ok, need_ok,
      hstored, mul_eq_some]
    refine ⟨(), hspelled, _, parseU64_digits hnonempty hdigits hrange, (), hcurrent, _,
      ⟨hstorage, rfl⟩, _, hwide, (), (narrow_exceeds hrange hwide).mpr (hbytes ▸ hwidth), ?_⟩
    cases hbits : fieldLength.asU64 with
    | none =>
      simp only [bind_eq_ok, lift_eq_ok, arith_eq_ok, ensure_ok, pure_eq_ok]
      exact ⟨_, hfill _, (), decide_eq_true hleft, rfl⟩
    | some bits =>
      obtain ⟨hpos, hfits⟩ := hfield bits hbits
      have hlong := exceedsChecked_eq hrange bits
      simp only [bind_eq_ok, lift_eq_ok, arith_eq_ok, ensure_ok, pure_eq_ok]
      exact ⟨(), decide_eq_true hpos, _, hlong, (), (narrow_exceeds hrange hlong).mpr hfits, _,
        hfill _, (), decide_eq_true hleft, rfl⟩

theorem mask_eq {remaining : Nat} (hpos : remaining ≠ 0) (hlt : remaining < 8) :
    UInt8.ofNat (0xff <<< (8 - remaining) % 2 ^ 8) = 0xff <<< UInt8.ofNat (8 - remaining) := by
  have hall : ∀ n < 8, n ≠ 0 →
      UInt8.ofNat (0xff <<< (8 - n) % 2 ^ 8) = 0xff <<< UInt8.ofNat (8 - n) := by
    decide
  exact hall remaining hlt hpos

theorem binaryFitsFieldLengthChecked_eq (bytes : Bytes) (fieldLength : Nat) :
    binaryFitsFieldLengthChecked bytes fieldLength =
      some (decide (bytes.length * 8 < 2 ^ 64) && binaryFitsFieldLength bytes fieldLength) := by
  unfold binaryFitsFieldLengthChecked
  by_cases hstorage : bytes.length * 8 < 2 ^ 64
  · rw [mul_eq hstorage, decide_eq_true hstorage, Bool.true_and]
    simp only [binaryFitsFieldLength]
    by_cases hlength : fieldLength = 0 ∨ fieldLength > bytes.length * 8
    · rw [if_pos hlength, if_pos hlength]
    rw [if_neg hlength, if_neg hlength, sub_eq (by omega)]
    simp only [Option.bind_eq_bind, Option.bind_some]
    generalize hexcess : bytes.length * 8 - fieldLength = excess
    by_cases hzero : (bytes.take (excess / 8)).any (· ≠ 0) = true
    · rw [if_pos hzero, if_pos hzero]
      rfl
    rw [if_neg hzero, if_neg hzero]
    by_cases haligned : excess % 8 = 0
    · rw [if_pos (.inl haligned), if_pos haligned]
      rfl
    rw [if_neg haligned]
    cases hbyte : bytes[excess / 8]? with
    | none =>
      rw [if_pos (.inr (List.getElem?_eq_none_iff.mp hbyte))]
      rfl
    | some byte =>
      have hinside : ¬(excess % 8 = 0 ∨ excess / 8 ≥ bytes.length) := by
        have := (List.getElem?_eq_some_iff.mp hbyte).1
        omega
      have hlt : excess % 8 < 8 := Nat.mod_lt _ (by decide)
      rw [if_neg hinside, Option.bind_some, sub_eq hlt.le, Option.bind_some,
        shlDrop_eq (by omega), Option.bind_some, mask_eq haligned hlt]
      rfl
  · rw [mul_eq_none hstorage, decide_eq_false hstorage, Bool.false_and]

/-- Both checks run without an overflow, and accept what has the right range and width. -/
theorem width_arithmetic_exact :
    (∀ (input : String) (current : Bytes) (fieldLength : Json),
      Exact (numericTargetValueChecked input current fieldLength) ∧
      ∀ value, numericTargetValueChecked input current fieldLength = lift (.ok value) ↔
        current.length * 8 < 2 ^ 64 ∧
        ∃ number, WritableTarget input current.length fieldLength number ∧
          value = .array ((bigEndian current.length number).map fun byte => .ofNat byte.toNat)) ∧
    ∀ (bytes : Bytes) (fieldLength : Nat), ∃ fits,
      binaryFitsFieldLengthChecked bytes fieldLength = some fits ∧
      (fits = true ↔ bytes.length * 8 < 2 ^ 64 ∧ 0 < fieldLength ∧ fieldLength ≤ bytes.length * 8 ∧
        BigEndian.toNat bytes < 2 ^ fieldLength) := by
  constructor
  · intro input current fieldLength
    exact ⟨numericTargetValueChecked_exact input current fieldLength,
      fun _ => numericTargetValueChecked_ok⟩
  · intro bytes fieldLength
    refine ⟨_, binaryFitsFieldLengthChecked_eq bytes fieldLength, ?_⟩
    rw [Bool.and_eq_true, decide_eq_true_eq, binaryFitsFieldLength_iff]

/-- 2^61 zero bytes hold zero in one bit, and neither check takes them. -/
theorem long_bytes_refused :
    ∃ bytes : Bytes, 0 < bytes.length ∧ 1 ≤ bytes.length * 8 ∧ BigEndian.toNat bytes < 2 ^ 1 ∧
      binaryFitsFieldLengthChecked bytes 1 = some false ∧
      WritableTarget "0" bytes.length .null 0 ∧
      ∀ value, numericTargetValueChecked "0" bytes .null ≠ lift (.ok value) := by
  obtain ⟨bytes, hlength, hzero⟩ : ∃ bytes : Bytes, bytes.length = 2 ^ 61 ∧
    BigEndian.toNat bytes = 0 := ⟨List.replicate (2 ^ 61) 0, List.length_replicate,
      BigEndian.toNat_eq_zero.mpr fun _ hbyte => List.eq_of_mem_replicate hbyte⟩
  have hwide : ¬bytes.length * 8 < 2 ^ 64 := by
    rw [hlength]
    decide
  have hpos : 0 < bytes.length := by
    rw [hlength]
    decide
  have htarget : WritableTarget "0" bytes.length .null 0 :=
    ⟨rfl, rfl, rfl, by decide, hpos, Nat.pow_pos (by decide), nofun⟩
  have hnarrow : binaryFitsFieldLengthChecked bytes 1 = some false := by
    rw [binaryFitsFieldLengthChecked_eq, decide_eq_false hwide, Bool.false_and]
  refine ⟨bytes, hpos, by omega, by rw [hzero]; decide, hnarrow, htarget, ?_⟩
  intro value h
  exact hwide (numericTargetValueChecked_ok.mp h).1

end SchcCoreconf
