import SchcCoreconf.Flow
import SchcCoreconf.Assumptions
import SchcCoreconf.Fixture.Flows
import SchcCoreconf.TargetWidths

/-!
# Planned overrides and the encoder

The planner gives the packet's value in the width the field has in a packet; the
encoder writes it in the width of the target the parent stores. A planned change
can be encoded exactly where each of these targets has room for its new value.
-/

namespace SchcCoreconf

open Fallible

-- ---------------------------------------------------------------------------
-- The values of a packet
-- ---------------------------------------------------------------------------

theorem bytesToU64_ok {bytes : Bytes} :
    bytesToU64 bytes = some value ↔ bytes.length ≤ 8 ∧ BigEndian.toNat bytes = value := by
  rw [bytesToU64]
  split <;> simp <;> omega

theorem bytesToU64_lt {bytes : Bytes} (h : bytesToU64 bytes = some value) :
    value < 256 ^ bytes.length ∧ value < 2 ^ 64 := by
  obtain ⟨hlength, rfl⟩ := bytesToU64_ok.mp h
  have hlt := BigEndian.toNat_lt bytes
  exact ⟨hlt, hlt.trans_le (Nat.pow_le_pow_right (by decide) hlength : 256 ^
    bytes.length ≤ 256 ^ 8)⟩

theorem length_integerBytes {value bits : Nat} (h : bits ≤ 64) :
    (integerBytes value bits).length = (bits + 7) / 8 := by
  have htotal : (toBeBytes64 value).length = 8 := rfl
  rw [integerBytes, List.length_drop, htotal]
  omega

theorem integerBytes_lt {value bits : Nat} (hbits : bits ≤ 64) (hwhole : 8 ∣ bits)
    (h : bytesToU64 (integerBytes value bits) = some number) : number < 2 ^ bits := by
  obtain ⟨bytes, rfl⟩ := hwhole
  have hlength : (8 * bytes + 7) / 8 = bytes := by omega
  have hlt := (bytesToU64_lt h).1
  rwa [length_integerBytes hbits, hlength, show 256 = 2 ^ 8 from rfl, ← pow_mul] at hlt

theorem integerBytes_flowLabel {label : Nat} (hlabel : label < 2 ^ 20)
    (h : bytesToU64 (integerBytes label 20) = some number) : number < 2 ^ 20 := by
  obtain ⟨-, rfl⟩ := bytesToU64_ok.mp h
  have hbytes : integerBytes label 20 =
      [UInt8.ofNat (label >>> 16), UInt8.ofNat (label >>> 8), UInt8.ofNat (label >>> 0)] := rfl
  rw [hbytes, BigEndian.toNat_cons, BigEndian.toNat_cons, BigEndian.toNat_cons]
  simp only [UInt8.toNat_ofNat', Nat.shiftRight_eq_div_pow, List.length_cons, List.length_nil,
    BigEndian.toNat_nil]
  omega

theorem logicalFieldValue_cases {packet : Ipv6UdpPacket}
    (h : logicalFieldValue packet direction field = some (actual, bits)) :
    (∃ value, actual = integerBytes value bits ∧
        (bits ≤ 64 ∧ 0 < bits ∧ 8 ∣ bits ∨ value = 6 ∧ bits = 4 ∨
          value = packet.flowLabel ∧ bits = 20)) ∨
      bits = 64 := by
  simp only [logicalFieldValue] at h
  generalize (if direction = .uplink then packet.source else packet.destination) = device at h
  generalize (if direction = .uplink then packet.destination else packet.source) = application at h
  generalize (if direction = .uplink then packet.sourcePort
    else packet.destinationPort) = devicePort at h
  generalize (if direction = .uplink then packet.destinationPort else packet.sourcePort) =
    applicationPort at h
  split at h
  all_goals cases h
  all_goals first
    | exact .inr rfl
    | exact .inl ⟨_, rfl, .inl (by decide)⟩
    | exact .inl ⟨_, rfl, .inr (.inl ⟨rfl, rfl⟩)⟩
    | exact .inl ⟨_, rfl, .inr (.inr ⟨rfl, rfl⟩)⟩

theorem logicalFieldValue_lt {packet : Ipv6UdpPacket} (hlabel : packet.flowLabel < 2 ^ 20)
    (hvalue : logicalFieldValue packet direction field = some (actual, bits))
    (h : bytesToU64 actual = some value) : value < 2 ^ bits ∧ 0 < bits ∧ bits ≤ 64 := by
  rcases logicalFieldValue_cases hvalue with ⟨number, rfl, hwhole | ⟨rfl, rfl⟩ | ⟨rfl, rfl⟩⟩ | rfl
  · exact ⟨integerBytes_lt hwhole.1 hwhole.2.2 h, hwhole.2.1, hwhole.1⟩
  · have hversion : bytesToU64 (integerBytes 6 4) = some 6 := by decide
    cases hversion.symm.trans h
    decide
  · exact ⟨integerBytes_flowLabel hlabel h, by decide⟩
  · exact ⟨(bytesToU64_lt h).2, by decide⟩

-- ---------------------------------------------------------------------------
-- What the planner overrides
-- ---------------------------------------------------------------------------

/-- The packet's value for a field is compared there, and is not the one stored. -/
structure FlowDiffers (rschc : RSchc) (packet : Ipv6UdpPacket)
    (direction : FlowDirection) (field : FieldRule)
    (value : Nat) : Prop where
  compared : field.compared rschc direction = true
  differs : ∃ actual bits, logicalFieldValue packet direction field.field = some (actual, bits) ∧
    bytesToU64 actual = some value ∧ fieldMatches field actual bits = false

def plannedOverride (field : FieldRule) (value : Nat) : RuleDuplicateOverride where
  entryIndex := field.entryIndex
  targetValue := some (toString value)
  matchingOperator := none
  cda := none

theorem flowField_replace (h : flowField rschc packet direction field = .ok (.replace item)) :
    ∃ value, FlowDiffers rschc packet direction field value ∧ field.target.asBytes.isSome ∧
      field.length.asFixedBits.isSome ∧ item = plannedOverride field value := by
  unfold flowField at h
  split at h
  · cases h
  next hcompared =>
  split at h
  · split at h <;> cases h
  next actual bits hvalue =>
  split at h
  · cases h
  next hmatches =>
  split at h
  · cases h
  next hplain =>
  simp only [bind_ok, need_ok, pure_ok, FlowField.replace.injEq] at h
  obtain ⟨value, hnumber, rfl⟩ := h
  simp only [Bool.or_eq_true, not_or, Option.isNone_iff_eq_none, ← ne_eq,
    Option.ne_none_iff_isSome] at hplain
  exact ⟨value, ⟨by simpa using hcompared, actual, bits, hvalue, hnumber, by simpa using hmatches⟩,
    hplain.1.1, hplain.1.2, rfl⟩

theorem FlowDiffers.flowField (h : FlowDiffers rschc packet direction field value) :
    flowField rschc packet direction field = .ok .unrepresentable ∨
      flowField rschc packet direction field = .ok (.replace (plannedOverride field value)) := by
  obtain ⟨hcompared, actual, bits, hvalue, hnumber, hmatches⟩ := h
  unfold SchcCoreconf.flowField
  simp only [hcompared, hvalue, hmatches, hnumber, Bool.not_true, Bool.false_eq_true, if_false]
  split
  · exact .inl rfl
  · exact .inr rfl

theorem collectOverrides_ok {fields : List FieldRule}
    (h : collectOverrides rschc packet direction fields = .ok (some items)) :
    (∀ field ∈ fields, flowField rschc packet direction field ≠ .ok .unrepresentable) ∧
      ∀ item, item ∈ items ↔ ∃ field ∈ fields, flowField rschc packet direction field =
        .ok (.replace item) := by
  induction fields generalizing items with
  | nil =>
    cases h
    simp
  | cons field rest ih =>
    simp only [collectOverrides, bind_ok] at h
    obtain ⟨step, hstep, h⟩ := h
    cases step with
    | keep =>
      obtain ⟨hrest, hmem⟩ := ih h
      exact ⟨List.forall_mem_cons.mpr ⟨by simp [hstep], hrest⟩, by simp [hstep, hmem]⟩
    | unrepresentable => cases h
    | replace item =>
      simp only [bind_ok, pure_ok, Option.map_eq_some_iff] at h
      obtain ⟨_, hcollect, others, rfl, rfl⟩ := h
      obtain ⟨hrest, hmem⟩ := ih hcollect
      exact ⟨List.forall_mem_cons.mpr ⟨by simp [hstep], hrest⟩, by simp [hstep, hmem, eq_comm]⟩

/-- The planner overrides the fields that differ, and no others. -/
theorem mem_flowOverrides {parent : Rule}
    (h : flowOverrides rschc parent packet direction = .ok (some overrides))
    (item : RuleDuplicateOverride) : item ∈ overrides ↔ ∃ field ∈ parent.fields, ∃ value,
      FlowDiffers rschc packet direction field value ∧ item = plannedOverride field value := by
  simp only [flowOverrides, bind_ok, pure_ok, Option.map_eq_some_iff] at h
  obtain ⟨_, hcollect, items, rfl, rfl⟩ := h
  obtain ⟨hplain, hmem⟩ := collectOverrides_ok hcollect
  rw [List.mem_insertionSort, hmem]
  constructor
  · rintro ⟨field, hfield, hreplace⟩
    obtain ⟨value, hdiffers, -, -, rfl⟩ := flowField_replace hreplace
    exact ⟨field, hfield, value, hdiffers, rfl⟩
  · rintro ⟨field, hfield, value, hdiffers, rfl⟩
    exact ⟨field, hfield, hdiffers.flowField.resolve_left (hplain field hfield)⟩

theorem FlowDiffers.plain {parent : Rule}
    (h : flowOverrides rschc parent packet direction = .ok (some overrides))
    (hfield : field ∈ parent.fields) (hdiffers : FlowDiffers rschc packet direction field value) :
    (∃ stored, field.target = .bytes stored) ∧ ∃ bits, field.length = .fixedBits bits := by
  simp only [flowOverrides, bind_ok, pure_ok, Option.map_eq_some_iff] at h
  obtain ⟨_, hcollect, items, rfl, rfl⟩ := h
  have hreplace := hdiffers.flowField.resolve_left ((collectOverrides_ok hcollect).1 field hfield)
  obtain ⟨_, -, htarget, hlength, -⟩ := flowField_replace hreplace
  cases hstored : field.target <;> simp [hstored, TargetValue.asBytes] at htarget
  cases hbits : field.length <;> simp [hbits, FieldLength.asFixedBits] at hlength
  exact ⟨⟨_, rfl⟩, _, rfl⟩

-- ---------------------------------------------------------------------------
-- What the encoder writes
-- ---------------------------------------------------------------------------

/-- The encoder converts the target value of an override of this parent. -/
def ConvertsTarget (parent : Rule) (item : RuleDuplicateOverride) : Prop :=
  ∃ entry target bytes,
    (detailFromRule parent).entries.find? (·.entryIndex = item.entryIndex) = some entry ∧
      item.targetValue = some target ∧ targetOverrideBytes parent entry target = .ok bytes

theorem find?_entries (parent : Rule) (entryIndex : Nat) :
    (detailFromRule parent).entries.find? (·.entryIndex = entryIndex) =
      (parent.fields.find? (·.entryIndex = entryIndex)).map entryFromRule := by
  rw [detailFromRule, Sorted.find?_insertionSort, List.find?_map]
  rfl

/-- The entry of an index, where it has a target and a length that take the value. -/
structure TakesValue (named : FieldRule) (stored : Bytes) (value : Nat) : Prop where
  target : named.target = .bytes stored
  nonempty : 0 < stored.length
  room : value < 256 ^ stored.length
  length : ∃ bits, named.length = .fixedBits bits ∧ bits < 2 ^ 64 ∧ bits ≠ 0 ∧ value < 2 ^ bits

theorem targetOverrideBytes_iff {parent : Rule} (hvalue : value < 2 ^ 64)
    (hnamed : parent.fields.find? (·.entryIndex = entryIndex) = some named) :
    (∃ bytes, targetOverrideBytes parent (entryFromRule named) (toString value) = .ok bytes) ↔
      ∃ stored, TakesValue named stored value := by
  have hfound : named.entryIndex = entryIndex := by simpa using List.find?_some hnamed
  have hindex : (entryFromRule named).entryIndex = entryIndex := hfound
  have hspelling : (entryFromRule named).length = lengthName named.length := rfl
  simp only [targetOverrideBytes, hindex, hspelling, hnamed, bind_ok, need_ok, Option.bind_some]
  constructor
  · rintro ⟨_, stored, hstored, bits, hbits, written, hwritten, -⟩
    obtain ⟨hlength, hrange⟩ := parseU64_lengthName.mp hbits
    obtain ⟨number, hnumber, -⟩ := numericTargetValue_ok.mp hwritten
    obtain rfl : value = number := (ofDigitChars_toString value).symm.trans hnumber.value
    obtain ⟨hpos, hfits⟩ := hnumber.field bits (Json.asU64_ofNat hrange)
    refine ⟨stored, ?_, hnumber.stored, hnumber.width, bits, hlength, hrange, hpos, hfits⟩
    cases htarget : named.target <;> simp [htarget] at hstored
    rw [hstored]
  · rintro ⟨stored, htarget, hnonempty, hroom, bits, hlength, hrange, hpos, hfits⟩
    have hnumber : WritableTarget (toString value) stored.length (.ofNat bits) value := {
      digits := digits_toString value
      nonempty := isEmpty_toString value
      value := ofDigitChars_toString value
      range := hvalue
      stored := hnonempty
      width := hroom
      field := fun other hother => by
        cases (Json.asU64_ofNat hrange).symm.trans hother
        exact ⟨hpos, hfits⟩ }
    exact ⟨_, stored, by rw [htarget], bits, parseU64_lengthName.mpr ⟨hlength, hrange⟩, _,
      numericTargetValue_ok.mpr ⟨value, hnumber, rfl⟩, binaryBytes_array _⟩

theorem convertsTarget_iff {parent : Rule} {field : FieldRule} (hvalue : value < 2 ^ 64) :
    ConvertsTarget parent (plannedOverride field value) ↔
      ∃ named stored, parent.fields.find? (·.entryIndex = field.entryIndex) = some named ∧
        TakesValue named stored value := by
  have hentries := find?_entries parent field.entryIndex
  constructor
  · rintro ⟨entry, target, bytes, hentry, htarget, hbytes⟩
    obtain rfl := Option.some.inj htarget
    obtain ⟨named, hnamed, rfl⟩ := Option.map_eq_some_iff.mp (hentries.symm.trans hentry)
    obtain ⟨stored, htakes⟩ := (targetOverrideBytes_iff hvalue hnamed).mp ⟨bytes, hbytes⟩
    exact ⟨named, stored, hnamed, htakes⟩
  · rintro ⟨named, stored, hnamed, htakes⟩
    obtain ⟨bytes, hbytes⟩ := (targetOverrideBytes_iff hvalue hnamed).mpr ⟨stored, htakes⟩
    exact ⟨_, _, bytes, hentries.trans (Option.map_eq_some_iff.mpr ⟨named, hnamed, rfl⟩),
      rfl, hbytes⟩

-- ---------------------------------------------------------------------------
-- The two together
-- ---------------------------------------------------------------------------

/-- Fixed field lengths of a rule are the widths the fields have in a packet. -/
def LogicalWidths (parent : Rule) (packet : Ipv6UdpPacket) (direction : FlowDirection) : Prop :=
  ∀ field ∈ parent.fields, ∀ length ∈ field.length.asFixedBits,
    ∀ value ∈ logicalFieldValue packet direction field.field, length = value.2

instance : Decidable (LogicalWidths parent packet direction) := by
  unfold LogicalWidths
  infer_instance

/-- The entry with the index of a field stores a byte string with room for a value;
an entry that is not the field itself also has a length that takes it. -/
def StoresRoom (parent : Rule) (field : FieldRule) (value : Nat) : Prop :=
  ∃ named stored, parent.fields.find? (·.entryIndex = field.entryIndex) = some named ∧
    named.target = .bytes stored ∧ 0 < stored.length ∧ value < 256 ^ stored.length ∧
    (named = field ∨ ∃ bits, named.length = .fixedBits bits ∧ bits < 2 ^ 64 ∧ bits ≠ 0 ∧
      value < 2 ^ bits)

/-- Every override the planner gives can be converted, exactly where each target the
packet differs from has room for the packet's value. -/
theorem planned_overrides_convert {parent : Rule} {packet : Ipv6UdpPacket}
    (hlabels : FlowLabelsFit rschc) (hpacket : rschc.parsePacket bytes = .ok packet)
    (hwidths : LogicalWidths parent packet direction)
    (h : flowOverrides rschc parent packet direction = .ok (some overrides)) :
    (∀ item ∈ overrides, ConvertsTarget parent item) ↔
      ∀ field ∈ parent.fields, ∀ value, FlowDiffers rschc packet direction field value →
        StoresRoom parent field value := by
  have hitem {field : FieldRule} {value : Nat} (hfield : field ∈ parent.fields)
      (hdiffers : FlowDiffers rschc packet direction field value) :
      ConvertsTarget parent (plannedOverride field value) ↔ StoresRoom parent field value := by
    obtain ⟨actual, bits, hvalue, hnumber, -⟩ := hdiffers.differs
    obtain ⟨hrange, hpos, hle⟩ := logicalFieldValue_lt (hlabels hpacket) hvalue hnumber
    rw [convertsTarget_iff (bytesToU64_lt hnumber).2]
    constructor
    · rintro ⟨named, stored, hnamed, htarget, hnonempty, hroom, hlength⟩
      exact ⟨named, stored, hnamed, htarget, hnonempty, hroom, .inr hlength⟩
    · rintro ⟨named, stored, hnamed, htarget, hnonempty, hroom, rfl | hlength⟩
      · obtain ⟨-, length, hlength⟩ := hdiffers.plain h hfield
        obtain rfl : length = bits := hwidths named hfield length (by rw [hlength]; rfl) _ hvalue
        exact ⟨named, stored, hnamed, htarget, hnonempty, hroom, length, hlength, by omega,
          hpos.ne', hrange⟩
      · exact ⟨named, stored, hnamed, htarget, hnonempty, hroom, hlength⟩
  constructor
  · intro hall field hfield value hdiffers
    exact (hitem hfield hdiffers).mp
      (hall _ ((mem_flowOverrides h _).mpr ⟨field, hfield, value, hdiffers, rfl⟩))
  · intro hall item hmem
    obtain ⟨field, hfield, value, hdiffers, rfl⟩ := (mem_flowOverrides h item).mp hmem
    exact (hitem hfield hdiffers).mpr (hall field hfield value hdiffers)

section
open Fixture

/-- A flow label that the parent stores in full, and one it stores in a single byte. -/
def wideParent : Rule := flowRule 20 [0, 0, 0] 2
def narrowParent : Rule := flowRule 20 [0] 2

theorem flow_parsed : holds (Fixture.parsePacket (flowBytes 0x12345)) (fun packet =>
    LogicalWidths wideParent packet .downlink ∧ LogicalWidths narrowParent packet .downlink ∧
      flowOverrides (deps linkWorld).rschc wideParent packet .downlink = .ok (some [plannedOverride
        (entry 2 (.ipv6 "fid-ipv6-flowlabel") (.fixedBits 20) (some [0, 0, 0])) 0x12345]) ∧
      flowOverrides (deps linkWorld).rschc narrowParent packet .downlink =
        .ok (some [plannedOverride
          (entry 2 (.ipv6 "fid-ipv6-flowlabel") (.fixedBits 20) (some [0])) 0x12345])) = true := by
  decide +kernel

theorem planned_overrides_convert_label : ∃ packet,
    Fixture.parsePacket (flowBytes 0x12345) = .ok packet ∧
    (∀ field ∈ wideParent.fields, ∀ value, FlowDiffers (deps linkWorld).rschc
      packet .downlink field value → StoresRoom wideParent field value) := by
  obtain ⟨packet, hpacket, hevaluated⟩ := holds_iff.mp flow_parsed
  obtain ⟨hwidths, -, hoverrides, -⟩ := of_decide_eq_true hevaluated
  refine ⟨packet, hpacket, (planned_overrides_convert (flowLabelsFit linkWorld) hpacket hwidths
    hoverrides).mp fun item hitem => ?_⟩
  cases List.mem_singleton.mp hitem
  exact (convertsTarget_iff (by decide)).mpr
    ⟨_, [0, 0, 0], rfl, rfl, by decide, by decide, 20, rfl, by decide, by decide, by decide⟩

/-- An eligible parent with a label stored in one byte: the planner gives an
override for a longer one, and the encoder cannot convert it. -/
theorem short_target_not_converted : ∃ packet item,
    Fixture.parsePacket (flowBytes 0x12345) = .ok packet ∧
    narrowParent.nature = .compression ∧ hasApplicationPayload narrowParent = true ∧
    hasCompleteFlowFields narrowParent = true ∧ LogicalWidths narrowParent packet .downlink ∧
    flowOverrides (deps linkWorld).rschc narrowParent packet .downlink = .ok (some [item]) ∧
    ¬ConvertsTarget narrowParent item := by
  obtain ⟨packet, hpacket, hevaluated⟩ := holds_iff.mp flow_parsed
  obtain ⟨-, hwidths, -, hoverrides⟩ := of_decide_eq_true hevaluated
  refine ⟨packet, _, hpacket, rfl, by decide, by decide, hwidths, hoverrides, fun hconverts => ?_⟩
  obtain ⟨named, stored, hnamed, htarget, -, hroom, -⟩ :=
    (convertsTarget_iff (by decide)).mp hconverts
  cases hnamed
  cases htarget
  exact absurd hroom (by decide)

end

end SchcCoreconf
