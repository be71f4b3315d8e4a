import SchcCoreconf.FlowEncoding

/-!
# What the planner's test of a target decides

A target is a number, its bytes the most significant first and aligned to the
last; a test compares numbers, or their top bits. The planner compares bits from
the first byte on. Where the field is not of whole bytes, or the target is not as
wide as the field, these are other bits.
-/

namespace SchcCoreconf

-- ---------------------------------------------------------------------------
-- Tests of a value
-- ---------------------------------------------------------------------------

/-- A field's test, with the targets it has. -/
inductive MatchTest
  | equal (target : Bytes)
  | msb (size : Nat) (target : Bytes)
  | mapping (members : List Bytes)

/-- A test but for the values of its targets: their lengths only. -/
inductive MatchKind
  | equal (length : Nat)
  | msb (size length : Nat)
  | mapping (lengths : List Nat)

namespace MatchTest

def matching : MatchTest → MatchingOperator
  | equal _ => .equal
  | msb size _ => .msb size
  | mapping _ => .matchMapping

def target : MatchTest → TargetValue
  | equal target => .bytes target
  | msb _ target => .bytes target
  | mapping members => .mapping members

def targets : MatchTest → List Bytes
  | equal target => [target]
  | msb _ target => [target]
  | mapping members => members

def kind : MatchTest → MatchKind
  | equal target => .equal target.length
  | msb size target => .msb size target.length
  | mapping members => .mapping (members.map List.length)

def Denotes (test : MatchTest) (width : Nat) : Prop :=
  ∀ target ∈ test.targets, BigEndian.toNat target < 2 ^ width

/-- The meaning of the test: the numbers are equal, their top bits are, or one member is. -/
def Holds (test : MatchTest) (width value : Nat) : Prop :=
  match test with
  | equal target => value = BigEndian.toNat target
  | msb size target =>
    value >>> (width - min size width) = BigEndian.toNat target >>> (width - min size width)
  | mapping members => ∃ member ∈ members, value = BigEndian.toNat member

end MatchTest

/-- Whole bytes on both sides, as many on each; an empty target is all zeros at any width. -/
def SameBytes (width length : Nat) : Prop := 8 ∣ width ∧ (8 * length = width ∨ length = 0)

instance : Decidable (SameBytes width length) := inferInstanceAs (Decidable (_ ∧ _))

/-- No bits are compared, or the bits compared are the same ones. -/
def MatchKind.Aligned (width : Nat) : MatchKind → Prop
  | equal _ => True
  | msb size length => min size width = 0 ∨ SameBytes width length
  | mapping lengths => width = 0 ∨ ∀ length ∈ lengths, SameBytes width length

def MatchKind.lengths : MatchKind → List Nat
  | equal length => [length]
  | msb _ length => [length]
  | mapping lengths => lengths

/-- The planner decides what the test means of the value, whatever else the field has. -/
def MatchTest.Right (width : Nat) (test : MatchTest) (value : Nat) : Prop :=
  ∀ field : FieldRule, field.matching = test.matching → field.target = test.target →
    (fieldMatches field (integerBytes value width) width = true ↔ test.Holds width value)

/-- The planner is right on every test of the kind, and every value of the field. -/
def MatchKind.Right (width : Nat) (kind : MatchKind) : Prop :=
  ∀ test : MatchTest, test.kind = kind → test.Denotes width → ∀ value < 2 ^ width,
    test.Right width value

def leading (size bytes number : Nat) : Nat := number <<< size >>> (8 * bytes)

/-- The first bits of the bytes of the value and of the target, not the top bits of the field. -/
def ReadAs (size width value : Nat) (target : Bytes) : Prop :=
  leading size ((width + 7) / 8) value = leading size target.length (BigEndian.toNat target)

/-- The bits compared are the ones meant, or stand as they do in those. -/
def MatchTest.Decided (width : Nat) (test : MatchTest) (value : Nat) : Prop :=
  match test with
  | equal _ => True
  | msb size target =>
    min size width = 0 ∨ SameBytes width target.length ∨
      (ReadAs (min size width) width value target ↔
        value >>> (width - min size width) = BigEndian.toNat target >>> (width - min size width))
  | mapping members =>
    width = 0 ∨
      (∃ member ∈ members, SameBytes width member.length ∧ value = BigEndian.toNat member) ∨
      ((∃ member ∈ members, ¬SameBytes width member.length ∧ ReadAs width width value member) ↔
        ∃ member ∈ members, ¬SameBytes width member.length ∧ value = BigEndian.toNat member)

instance : Decidable (ReadAs size width value target) := inferInstanceAs (Decidable (_ = _))

instance (test : MatchTest) : Decidable (test.Denotes width) :=
  inferInstanceAs (Decidable (∀ target ∈ test.targets, _))

instance (test : MatchTest) : Decidable (test.Decided width value) :=
  match test with
  | .equal _ => inferInstanceAs (Decidable True)
  | .msb _ _ => inferInstanceAs (Decidable (_ ∨ _))
  | .mapping _ => inferInstanceAs (Decidable (_ ∨ _))

-- ---------------------------------------------------------------------------
-- Bits
-- ---------------------------------------------------------------------------

theorem integerBytes_eq {value bits : Nat} (h : bits ≤ 64) :
    integerBytes value bits = BigEndian.ofNat ((bits + 7) / 8) value := by
  have htotal : toBeBytes64 value = BigEndian.ofNat 8 value := by
    simp [toBeBytes64, BigEndian.ofNat, Nat.shiftRight_eq_div_pow, Nat.div_div_eq_div_mul]
  have hwidth : 8 - (bits + 7) / 8 + (bits + 7) / 8 = 8 := by omega
  simp only [integerBytes, htotal, BigEndian.length_ofNat]
  exact (congrArg (fun width => (BigEndian.ofNat width value).drop
    (8 - (bits + 7) / 8)) hwidth.symm).trans (BigEndian.drop_ofNat _ _ value)

theorem toNat_integerBytes {value bits : Nat} (h : bits ≤ 64) (hvalue : value < 2 ^ bits) :
    BigEndian.toNat (integerBytes value bits) = value := by
  have hle : 2 ^ bits ≤ 256 ^ ((bits + 7) / 8) := by
    rw [show 256 = 2 ^ 8 from rfl, ← pow_mul]
    exact Nat.pow_le_pow_right (by decide) (by omega)
  rw [integerBytes_eq h, BigEndian.toNat_ofNat, Nat.mod_eq_of_lt (hvalue.trans_le hle)]

theorem byte_bit : ∀ byte : UInt8, ∀ index < 8,
    decide (byte &&& (0x80 >>> UInt8.ofNat index) ≠ 0) = byte.toNat.testBit (7 - index) :=
  BigEndian.forall_byte (by decide +kernel)

theorem bitAt_eq {bytes : Bytes} {index : Nat} (h : index < 8 * bytes.length) :
    bitAt bytes index = (BigEndian.toNat bytes).testBit (8 * bytes.length - 1 - index) := by
  rw [BigEndian.testBit_toNat h, bitAt]
  congr 1
  funext byte
  exact byte_bit byte _ (Nat.mod_lt _ (by decide))

theorem bitAt_past {bytes : Bytes} {index : Nat} (h : 8 * bytes.length ≤ index) :
    bitAt bytes index = false := by
  rw [bitAt, List.getElem?_eq_none (by omega)]
  rfl

theorem length_integerBytes_whole {value bytes : Nat} (h : 8 * bytes ≤ 64) :
    (integerBytes value (8 * bytes)).length = bytes := by
  rw [length_integerBytes h]
  omega

-- ---------------------------------------------------------------------------
-- The first bits
-- ---------------------------------------------------------------------------

def SameFirstBits (size : Nat) (actual target : Bytes) : Prop :=
  ∀ index < size, bitAt actual index = bitAt target index

theorem targetMatches_equal :
    targetMatches actual target bits .equal = true ↔ bytesToU64 actual = bytesToU64 target := by
  simp [targetMatches]

theorem targetMatches_msb :
    targetMatches actual target bits (.msb size) = true ↔
      SameFirstBits (min size bits) actual target := by
  simp [targetMatches, SameFirstBits]

theorem targetMatches_mapping :
    targetMatches actual target bits .matchMapping = true ↔ SameFirstBits bits actual target := by
  simp [targetMatches, SameFirstBits]

theorem shiftRight_eq_iff {width size left right : Nat} (hsize : size ≤ width)
    (hleft : left < 2 ^ width) (hright : right < 2 ^ width) :
    left >>> (width - size) = right >>> (width - size) ↔
      ∀ index < size, left.testBit (width - 1 - index) = right.testBit (width - 1 - index) := by
  constructor
  · intro h index hindex
    have hbit := congrArg (Nat.testBit · (size - 1 - index)) h
    simp only [Nat.testBit_shiftRight] at hbit
    rwa [show width - size + (size - 1 - index) = width - 1 - index by omega] at hbit
  · intro h
    apply Nat.eq_of_testBit_eq
    intro index
    rw [Nat.testBit_shiftRight, Nat.testBit_shiftRight]
    by_cases hindex : index < size
    · have hbit := h (size - 1 - index) (by omega)
      rwa [show width - 1 - (size - 1 - index) = width - size + index by omega] at hbit
    · have hpow : 2 ^ width ≤ 2 ^ (width - size + index) :=
        Nat.pow_le_pow_right (by decide) (by omega)
      rw [Nat.testBit_lt_two_pow (hleft.trans_le hpow),
        Nat.testBit_lt_two_pow (hright.trans_le hpow)]

theorem SameBytes.firstBits {width size value : Nat} {target : Bytes} (hwidth : width ≤ 64)
    (hsame : SameBytes width target.length) (hsize : size ≤ width) (hvalue : value < 2 ^ width)
    (htarget : BigEndian.toNat target < 2 ^ width) :
    SameFirstBits size (integerBytes value width) target ↔
      value >>> (width - size) = BigEndian.toNat target >>> (width - size) := by
  rw [shiftRight_eq_iff hsize hvalue htarget]
  obtain ⟨⟨bytes, rfl⟩, hlength⟩ := hsame
  refine forall₂_congr fun index hindex => ?_
  rw [bitAt_eq (by rw [length_integerBytes_whole hwidth]; omega), length_integerBytes_whole hwidth,
    toNat_integerBytes hwidth hvalue]
  rcases hlength with hwide | hempty
  · rw [bitAt_eq (by omega), hwide]
  · rw [bitAt_past (by omega), List.eq_nil_of_length_eq_zero hempty, BigEndian.toNat_nil,
      Nat.zero_testBit]

theorem bitAt_zeros (length index : Nat) : bitAt (List.replicate length 0) index = false := by
  by_cases h : index < 8 * length
  · rw [bitAt_eq (by rwa [List.length_replicate]), BigEndian.toNat_replicate_zero, Nat.zero_testBit]
  · exact bitAt_past (by rw [List.length_replicate]; omega)

/-- Against zeros, the bits of a field with a part of a byte are compared too early. -/
theorem firstBits_early {width size : Nat} (hwidth : width ≤ 64) (hpart : ¬8 ∣ width)
    (hpos : 0 < size) (hsize : size ≤ width) (length : Nat) :
    SameFirstBits size (integerBytes (2 ^ (width - size)) width) (List.replicate length 0) := by
  intro index hindex
  have hvalue : 2 ^ (width - size) < 2 ^ width :=
    Nat.pow_lt_pow_right (by decide) (Nat.sub_lt (hpos.trans_le hsize) hpos)
  have hlength : (integerBytes (2 ^ (width - size)) width).length = (width + 7) / 8 :=
    length_integerBytes hwidth
  rw [bitAt_zeros, bitAt_eq (by rw [hlength]; omega), hlength, toNat_integerBytes hwidth hvalue,
    Nat.testBit_two_pow_of_ne (by omega)]

theorem bitAt_power {width index power : Nat} (hwidth : width ≤ 64) (hwhole : 8 ∣ width)
    (hpower : power < width) (hindex : index < width) :
    bitAt (integerBytes (2 ^ power) width) index = decide (power = width - 1 - index) := by
  obtain ⟨bytes, rfl⟩ := hwhole
  have hvalue : 2 ^ power < 2 ^ (8 * bytes) := Nat.pow_lt_pow_right (by decide) hpower
  rw [bitAt_eq (by rwa [length_integerBytes_whole hwidth]), length_integerBytes_whole hwidth,
    toNat_integerBytes hwidth hvalue, Nat.testBit_two_pow]

/-- A number of a byte width that has one bit, the highest that the width and the field allow. -/
def highest (width length : Nat) : Nat := 2 ^ (min (8 * length) width - 1)

theorem highest_lt {width length : Nat} (hpos : 0 < width) (hlength : length ≠ 0) :
    highest width length < 2 ^ width ∧
    BigEndian.toNat (BigEndian.ofNat length (highest width length)) =
      highest width length := by
  have hbytes : highest width length < 256 ^ length := by
    rw [show 256 = 2 ^ 8 from rfl, ← pow_mul]
    exact Nat.pow_lt_pow_right (by decide) (by omega)
  refine ⟨Nat.pow_lt_pow_right (by decide) (by omega), ?_⟩
  rw [BigEndian.toNat_ofNat, Nat.mod_eq_of_lt hbytes]

theorem not_firstBits {width size length : Nat} (hwidth : width ≤ 64) (hwhole : 8 ∣ width)
    (hpos : 0 < size) (hsize : size ≤ width) (hlength : length ≠ 0) (hne : 8 * length ≠ width) :
    ¬SameFirstBits size (integerBytes (highest width length) width)
      (BigEndian.ofNat length (highest width length)) := by
  intro h
  have hbit := h 0 hpos
  have htarget := (highest_lt (Nat.lt_of_lt_of_le hpos hsize) hlength).2
  rw [highest] at hbit htarget
  rw [bitAt_power hwidth hwhole (by omega) (by omega),
    bitAt_eq (by rw [BigEndian.length_ofNat]; omega), BigEndian.length_ofNat, htarget,
    Nat.testBit_two_pow, decide_eq_decide] at hbit
  omega

theorem not_firstBits_zeros {width : Nat} (hwidth : width ≤ 64) (hwhole : 8 ∣ width)
    (hpos : 0 < width) (length zeros : Nat) :
    ¬SameFirstBits width (integerBytes (highest width length) width) (List.replicate zeros 0) := by
  intro h
  have hbit := h (width - 1 - (min (8 * length) width - 1)) (by omega)
  rw [highest, bitAt_power hwidth hwhole (by omega) (by omega), bitAt_zeros,
    decide_eq_false_iff_not] at hbit
  omega

-- ---------------------------------------------------------------------------
-- The values decided right
-- ---------------------------------------------------------------------------

def MatchTest.field (test : MatchTest) : FieldRule where
  entryIndex := 0
  field := .payload
  fieldPosition := 1
  direction := .bidirectional
  length := .remaining
  target := test.target
  matching := test.matching
  action := .notSent

theorem fieldMatches_field {test : MatchTest} {field : FieldRule}
    (hmatching : field.matching = test.matching) (htarget : field.target = test.target) :
    fieldMatches field actual bits = fieldMatches test.field actual bits := by
  simp only [fieldMatches, hmatching, htarget, MatchTest.field]

theorem MatchTest.right_iff {test : MatchTest} :
    test.Right width value ↔
      (fieldMatches test.field (integerBytes value width) width = true ↔
        test.Holds width value) := by
  constructor
  · intro h
    exact h test.field rfl rfl
  · intro h field hmatching htarget
    rw [fieldMatches_field hmatching htarget]
    exact h

theorem bitAt_leading {bytes : Bytes} {size index : Nat} (h : index < size) :
    bitAt bytes index =
      (leading size bytes.length (BigEndian.toNat bytes)).testBit (size - 1 - index) := by
  rw [leading, Nat.testBit_shiftRight, Nat.testBit_shiftLeft]
  by_cases hinside : index < 8 * bytes.length
  · have hposition :
        8 * bytes.length + (size - 1 - index) - size = 8 * bytes.length - 1 - index := by
      omega
    rw [bitAt_eq hinside, hposition, decide_eq_true (by omega), Bool.true_and]
  · rw [bitAt_past (by omega), decide_eq_false (by omega), Bool.false_and]

theorem leading_lt (size : Nat) (bytes : Bytes) :
    leading size bytes.length (BigEndian.toNat bytes) < 2 ^ size := by
  have hpow : 256 ^ bytes.length = 2 ^ (8 * bytes.length) := by
    rw [show 256 = 2 ^ 8 from rfl, ← pow_mul]
  have hlt := BigEndian.toNat_lt bytes
  rw [leading, Nat.shiftRight_eq_div_pow, Nat.shiftLeft_eq]
  refine Nat.div_lt_of_lt_mul ?_
  exact Nat.mul_lt_mul_of_pos_right (hlt.trans_eq hpow) (Nat.pow_pos (by decide))

theorem firstBits_iff {size : Nat} {actual target : Bytes} :
    SameFirstBits size actual target ↔
      leading size actual.length (BigEndian.toNat actual) =
        leading size target.length (BigEndian.toNat target) := by
  constructor
  · intro h
    apply Nat.eq_of_testBit_eq
    intro index
    by_cases hindex : index < size
    · have hback : size - 1 - index < size := by omega
      have hbit := h (size - 1 - index) hback
      rw [bitAt_leading hback, bitAt_leading hback] at hbit
      rwa [show size - 1 - (size - 1 - index) = index by omega] at hbit
    · have hpow : 2 ^ size ≤ 2 ^ index := Nat.pow_le_pow_right (by decide) (by omega)
      rw [Nat.testBit_lt_two_pow ((leading_lt size actual).trans_le hpow),
        Nat.testBit_lt_two_pow ((leading_lt size target).trans_le hpow)]
  · intro h index hindex
    rw [bitAt_leading hindex, bitAt_leading hindex, h]

theorem readAs_iff {size width value : Nat} {target : Bytes} (hwidth : width ≤ 64)
    (hvalue : value < 2 ^ width) :
    SameFirstBits size (integerBytes value width) target ↔ ReadAs size width value target := by
  rw [firstBits_iff, length_integerBytes hwidth, toNat_integerBytes hwidth hvalue]
  rfl

theorem test_right_equal {width : Nat} (hwidth : width ≤ 64) {target : Bytes}
    (hlength : target.length ≤ 8) (hvalue : value < 2 ^ width) :
    (MatchTest.equal target).Right width value := by
  have hactual : bytesToU64 (integerBytes value width) = some value :=
    bytesToU64_ok.mpr
      ⟨by rw [length_integerBytes hwidth]; omega, toNat_integerBytes hwidth hvalue⟩
  have htarget : bytesToU64 target = some (BigEndian.toNat target) :=
    bytesToU64_ok.mpr ⟨hlength, rfl⟩
  refine MatchTest.right_iff.mpr (targetMatches_equal.trans ?_)
  rw [hactual, htarget, Option.some.injEq]
  rfl

theorem test_right_msb_iff {width size : Nat} (hwidth : width ≤ 64) {target : Bytes}
    (htarget : BigEndian.toNat target < 2 ^ width) (hvalue : value < 2 ^ width) :
    (MatchTest.msb size target).Right width value ↔
      (MatchTest.msb size target).Decided width value := by
  have hread :
      fieldMatches (MatchTest.msb size target).field (integerBytes value width) width = true ↔
      ReadAs (min size width) width value target :=
    targetMatches_msb.trans (readAs_iff hwidth hvalue)
  rw [MatchTest.right_iff, hread]
  constructor
  · intro h
    exact .inr (.inr h)
  · rintro (hnone | hsame | h)
    · rw [MatchTest.Holds, hnone, Nat.sub_zero, Nat.shiftRight_eq_zero _ _ hvalue,
        Nat.shiftRight_eq_zero _ _ htarget, ← readAs_iff hwidth hvalue]
      exact iff_of_true nofun rfl
    · exact (readAs_iff hwidth hvalue).symm.trans
        (hsame.firstBits hwidth (min_le_right _ _) hvalue htarget)
    · exact h

theorem SameBytes.readAs {width value : Nat} {member : Bytes} (hwidth : width ≤ 64)
    (hsame : SameBytes width member.length) (hvalue : value < 2 ^ width)
    (hmember : BigEndian.toNat member < 2 ^ width) :
    ReadAs width width value member ↔ value = BigEndian.toNat member := by
  have hbits := hsame.firstBits hwidth le_rfl hvalue hmember
  rwa [Nat.sub_self, Nat.shiftRight_zero, Nat.shiftRight_zero, readAs_iff hwidth hvalue] at hbits

theorem fieldMatches_mapping {members : List Bytes} :
    fieldMatches (MatchTest.mapping members).field actual bits = true ↔
      ∃ member ∈ members, SameFirstBits bits actual member := by
  refine List.any_eq_true.trans (exists_congr fun member => and_congr_right fun _ => ?_)
  exact targetMatches_mapping

theorem test_right_mapping_iff {width : Nat} (hwidth : width ≤ 64) {members : List Bytes}
    (hdenotes : (MatchTest.mapping members).Denotes width) (hvalue : value < 2 ^ width) :
    (MatchTest.mapping members).Right width value ↔
      (MatchTest.mapping members).Decided width value := by
  have hread :
      fieldMatches (MatchTest.mapping members).field (integerBytes value width) width = true ↔
      ∃ member ∈ members, ReadAs width width value member :=
    fieldMatches_mapping.trans
      (exists_congr fun member => and_congr_right fun _ => readAs_iff hwidth hvalue)
  have haligned : ∀ member ∈ members, SameBytes width member.length →
      (ReadAs width width value member ↔ value = BigEndian.toNat member) :=
    fun member hmember hsame => hsame.readAs hwidth hvalue (hdenotes member hmember)
  rw [MatchTest.right_iff, hread]
  constructor
  · intro h
    by_cases hequal : ∃ member ∈ members, SameBytes width member.length ∧
      value = BigEndian.toNat member
    · exact .inr (.inl hequal)
    · refine .inr (.inr ⟨?_, ?_⟩)
      -- the member meant is not an aligned one, which would be equal to the value
      · rintro ⟨member, hmember, -, hreads⟩
        obtain ⟨meant, hmeant, hvalue⟩ := h.mp ⟨member, hmember, hreads⟩
        exact ⟨meant, hmeant, fun hsame => hequal ⟨meant, hmeant, hsame, hvalue⟩, hvalue⟩
      · rintro ⟨member, hmember, -, hvalue⟩
        obtain ⟨found, hfound, hreads⟩ := h.mpr ⟨member, hmember, hvalue⟩
        refine ⟨found, hfound, fun hsame => hequal ⟨found, hfound, hsame, ?_⟩, hreads⟩
        exact (haligned found hfound hsame).mp hreads
  · rintro (rfl | ⟨member, hmember, hsame, hequal⟩ | h)
    · refine exists_congr fun member => and_congr_right fun hmember => ?_
      have htarget := hdenotes member hmember
      rw [← readAs_iff hwidth hvalue, Nat.lt_one_iff.mp hvalue, Nat.lt_one_iff.mp htarget]
      exact iff_of_true nofun rfl
    · have hreads := (haligned member hmember hsame).mpr hequal
      exact iff_of_true ⟨member, hmember, hreads⟩ ⟨member, hmember, hequal⟩
    · constructor
      · rintro ⟨member, hmember, hreads⟩
        by_cases hsame : SameBytes width member.length
        · exact ⟨member, hmember, (haligned member hmember hsame).mp hreads⟩
        · obtain ⟨meant, hmeant, -, hvalue⟩ := h.mp ⟨member, hmember, hsame, hreads⟩
          exact ⟨meant, hmeant, hvalue⟩
      · rintro ⟨member, hmember, hvalue⟩
        by_cases hsame : SameBytes width member.length
        · exact ⟨member, hmember, (haligned member hmember hsame).mpr hvalue⟩
        · obtain ⟨found, hfound, -, hreads⟩ := h.mpr ⟨member, hmember, hsame, hvalue⟩
          exact ⟨found, hfound, hreads⟩

-- ---------------------------------------------------------------------------
-- The kinds of tests decided right
-- ---------------------------------------------------------------------------

theorem right_iff {kind : MatchKind} :
    kind.Right width ↔ ∀ test : MatchTest, test.kind = kind → test.Denotes width →
      ∀ value < 2 ^ width,
        (fieldMatches test.field (integerBytes value width) width = true ↔
          test.Holds width value) := by
  constructor
  · intro h test hkind hdenotes value hvalue
    exact MatchTest.right_iff.mp (h test hkind hdenotes value hvalue)
  · intro h test hkind hdenotes value hvalue
    exact MatchTest.right_iff.mpr (h test hkind hdenotes value hvalue)

theorem right_equal {width : Nat} (hwidth : width ≤ 64) (hlength : length ≤ 8) :
    (MatchKind.equal length).Right width := by
  intro test hkind hdenotes value hvalue
  cases test with
  | equal target =>
    cases hkind
    exact test_right_equal hwidth hlength hvalue
  | msb size target => cases hkind
  | mapping members => cases hkind

theorem right_msb_iff {width size length : Nat} (hwidth : width ≤ 64) :
    (MatchKind.msb size length).Right width ↔ (MatchKind.msb size length).Aligned width := by
  rw [right_iff]
  constructor
  · intro h
    by_contra hmisaligned
    rw [MatchKind.Aligned, not_or, SameBytes] at hmisaligned
    obtain ⟨hcompared, hbytes⟩ := hmisaligned
    have hsize : min size width ≤ width := min_le_right _ _
    have hpos : 0 < min size width := Nat.pos_of_ne_zero hcompared
    by_cases hwhole : 8 ∣ width
    · have hlength : length ≠ 0 ∧ 8 * length ≠ width := by omega
      have hwide : 0 < width := hpos.trans_le hsize
      obtain ⟨hvalue, htarget⟩ := highest_lt hwide hlength.1
      refine not_firstBits hwidth hwhole hpos hsize hlength.1 hlength.2 (targetMatches_msb.mp ?_)
      refine (h (.msb size (BigEndian.ofNat length (highest width length))) ?_ ?_ _ hvalue).mpr ?_
      · rw [MatchTest.kind, BigEndian.length_ofNat]
      · rintro _ (_ | ⟨_, ⟨⟩⟩)
        rwa [htarget]
      · rw [MatchTest.Holds, htarget]
    · have hvalue : 2 ^ (width - min size width) < 2 ^ width :=
        Nat.pow_lt_pow_right (by decide) (by omega)
      have hholds := (h (.msb size (List.replicate length 0)) ?_ ?_ _ hvalue).mp
        (targetMatches_msb.mpr (firstBits_early hwidth hwhole hpos hsize length))
      · rw [MatchTest.Holds, BigEndian.toNat_replicate_zero, Nat.shiftRight_eq_div_pow,
          Nat.shiftRight_eq_div_pow, Nat.div_self (Nat.pow_pos (by decide)), Nat.zero_div] at hholds
        cases hholds
      · rw [MatchTest.kind, List.length_replicate]
      · rintro _ (_ | ⟨_, ⟨⟩⟩)
        rw [BigEndian.toNat_replicate_zero]
        exact Nat.pow_pos (by decide)
  · intro haligned test hkind hdenotes value hvalue
    cases test with
    | msb size' target =>
      cases hkind
      refine MatchTest.right_iff.mp ((test_right_msb_iff hwidth ?_ hvalue).mpr ?_)
      · exact hdenotes target List.mem_cons_self
      · exact haligned.imp_right .inl
    | equal target => cases hkind
    | mapping members => cases hkind

def oneLength (width length : Nat) (other : Nat) : Bytes :=
  if other = length then BigEndian.ofNat length (highest width length) else List.replicate other 0

theorem length_oneLength (width length other : Nat) :
    (oneLength width length other).length = other := by
  unfold oneLength
  split
  · next h => rw [BigEndian.length_ofNat, h]
  · exact List.length_replicate

theorem toNat_oneLength {width length : Nat} (hpos : 0 < width)
    (hlength : length ≠ 0) (other : Nat) : BigEndian.toNat (oneLength width length other) =
      if other = length then highest width length else 0 := by
  unfold oneLength
  split
  · exact (highest_lt hpos hlength).2
  · exact BigEndian.toNat_replicate_zero other

theorem right_mapping_iff {width : Nat} {lengths : List Nat} (hwidth : width ≤ 64) :
    (MatchKind.mapping lengths).Right width ↔ (MatchKind.mapping lengths).Aligned width := by
  rw [right_iff]
  constructor
  · intro h
    by_contra hmisaligned
    simp only [MatchKind.Aligned, not_or, not_forall, SameBytes] at hmisaligned
    obtain ⟨hnonzero, length, hmem, hbytes⟩ := hmisaligned
    have hpos : 0 < width := Nat.pos_of_ne_zero hnonzero
    by_cases hwhole : 8 ∣ width
    · have hlength : length ≠ 0 ∧ 8 * length ≠ width := by omega
      obtain ⟨hvalue, hnumber⟩ := highest_lt hpos hlength.1
      have hfound := (h (.mapping (lengths.map (oneLength width length))) ?_ ?_ _ hvalue).mpr ?_
      · obtain ⟨member, hmember, hsame⟩ := fieldMatches_mapping.mp hfound
        obtain ⟨other, -, rfl⟩ := List.mem_map.mp hmember
        unfold oneLength at hsame
        split at hsame
        · exact not_firstBits hwidth hwhole hpos le_rfl hlength.1 hlength.2 hsame
        · exact not_firstBits_zeros hwidth hwhole hpos length other hsame
      · simp [MatchTest.kind, Function.comp_def, length_oneLength]
      · intro target htarget
        obtain ⟨other, -, rfl⟩ := List.mem_map.mp htarget
        rw [toNat_oneLength hpos hlength.1]
        split
        · exact hvalue
        · exact Nat.pow_pos (by decide)
      · refine ⟨_, List.mem_map_of_mem hmem, ?_⟩
        rw [toNat_oneLength hpos hlength.1, if_pos rfl]
    · have hsame := firstBits_early hwidth hwhole hpos le_rfl length
      rw [Nat.sub_self, pow_zero] at hsame
      have hvalue : 1 < 2 ^ width := Nat.one_lt_two_pow hnonzero
      have hholds := (h (.mapping (lengths.map (List.replicate · 0))) ?_ ?_ 1 hvalue).mp
        (fieldMatches_mapping.mpr ⟨_, List.mem_map_of_mem hmem, hsame⟩)
      · obtain ⟨member, hmember, hnumber⟩ := hholds
        obtain ⟨other, -, rfl⟩ := List.mem_map.mp hmember
        rw [BigEndian.toNat_replicate_zero] at hnumber
        cases hnumber
      · simp [MatchTest.kind, Function.comp_def]
      · intro target htarget
        obtain ⟨other, -, rfl⟩ := List.mem_map.mp htarget
        rw [BigEndian.toNat_replicate_zero]
        exact Nat.pow_pos (by decide)
  · intro haligned test hkind hdenotes value hvalue
    cases test with
    | mapping members =>
      cases hkind
      refine MatchTest.right_iff.mp ((test_right_mapping_iff hwidth hdenotes hvalue).mpr ?_)
      refine haligned.imp_right fun hsame => .inr (iff_of_false ?_ ?_)
      · rintro ⟨member, hmember, hmisaligned, -⟩
        exact hmisaligned (hsame _ (List.mem_map_of_mem hmember))
      · rintro ⟨member, hmember, hmisaligned, -⟩
        exact hmisaligned (hsame _ (List.mem_map_of_mem hmember))
    | equal target => cases hkind
    | msb size target => cases hkind

theorem kind_right_iff {width : Nat} (hwidth : width ≤ 64) {kind : MatchKind}
    (hlengths : ∀ length ∈ kind.lengths, length ≤ 8) : kind.Right width ↔ kind.Aligned width := by
  cases kind with
  | equal length =>
    exact iff_of_true (right_equal hwidth (hlengths length List.mem_cons_self)) trivial
  | msb size length => exact right_msb_iff hwidth
  | mapping lengths => exact right_mapping_iff hwidth

end SchcCoreconf
