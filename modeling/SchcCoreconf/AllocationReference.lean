import SchcCoreconf.AllocationMachine

/-!
# The allocator against its reference

The reference speaks of RuleIDs as bit strings: a leaf of the namespace is an
explicit RuleID of a permitted length that starts with the prefix, and it is
free when it overlaps no occupied RuleID. The allocator's blocked intervals are
exactly the values that overlap, so its first gap is the least free leaf.
-/

namespace SchcCoreconf

open Fallible

namespace DynamicRuleIdNamespace

/-- The RuleIDs the namespace may hand out. -/
def leaves (ns : DynamicRuleIdNamespace) : Set RuleId :=
  {id | id.bitLen ∈ ns.allowedLengths ∧ id.Explicit ∧ ns.prefixSpec.ruleId.bits <+: id.bits}

def freeLeaves (ns : DynamicRuleIdNamespace) (occupied : List RuleId) : Set RuleId :=
  {id | id ∈ ns.leaves ∧ ∀ other ∈ occupied, ¬ id.Overlap other}

/-- Some occupied RuleID lies on the branch of the prefix without being one of its leaves. -/
def Collision (ns : DynamicRuleIdNamespace) (occupied : List RuleId) : Prop :=
  ∃ id ∈ occupied, id.Overlap ns.prefixSpec.ruleId ∧ id ∉ ns.leaves

@[simp] theorem leaves_normalize {ns : DynamicRuleIdNamespace} :
    ns.normalize.leaves = ns.leaves := by
  ext id
  simp [leaves]

@[simp] theorem freeLeaves_normalize {ns : DynamicRuleIdNamespace} :
    ns.normalize.freeLeaves occupied = ns.freeLeaves occupied := by
  simp [freeLeaves]

theorem acceptsNormalized_iff {ns : DynamicRuleIdNamespace} {id : RuleId} (h : ns.WellFormed)
    (hid : id.Explicit) : ns.acceptsNormalized id = true ↔ id ∈ ns.leaves := by
  rw [acceptsNormalized, Bool.and_eq_true, List.contains_iff_mem,
    isPrefix_iff h.prefix_explicit hid]
  constructor
  · rintro ⟨hlen, hp⟩
    exact ⟨hlen, hid, hp⟩
  · rintro ⟨hlen, -, hp⟩
    exact ⟨hlen, hp⟩

theorem accepts_iff {ns : DynamicRuleIdNamespace} {id : RuleId} (h : ns.WellFormed)
    (hid : id.Explicit) : ns.accepts id = true ↔ id ∈ ns.leaves := by
  rw [accepts_eq h, acceptsNormalized_iff h.normalize hid, leaves_normalize]

theorem any_collides_iff {ns : DynamicRuleIdNamespace} (h : ns.WellFormed)
    (hids : ∀ id ∈ occupied, RuleId.Explicit id) :
    occupied.any ns.collides = true ↔ ns.Collision occupied := by
  simp only [List.any_eq_true, collides, Bool.and_eq_true, Bool.not_eq_true', Collision]
  refine exists_congr fun id => and_congr_right fun hid => ?_
  rw [overlaps_iff (hids id hid) h.prefix_explicit, ← Bool.not_eq_true,
    acceptsNormalized_iff h (hids id hid)]

end DynamicRuleIdNamespace

-- ---------------------------------------------------------------------------
-- Blocked intervals
-- ---------------------------------------------------------------------------

theorem mem_occupiedInterval {id : RuleId} (hid : id.Explicit) (hv : v < 2 ^ length) :
    ((occupiedInterval id length).1 ≤ v ∧ v < (occupiedInterval id length).2) ↔
      RuleId.Overlap ⟨v, length⟩ id := by
  obtain ⟨-, -, hvalue⟩ := hid
  simp only [RuleId.Overlap, BitString.Comparable, RuleId.bits,
    BitString.bits_prefix_iff hv hvalue, BitString.bits_prefix_iff hvalue hv]
  rw [occupiedInterval]
  split
  · next hle =>
    -- the values under the RuleID, or the RuleID itself when the lengths agree
    have hunder : id.value <<< (length - id.bitLen) ≤ v ∧
        v < id.value <<< (length - id.bitLen) + 1 <<< (length - id.bitLen) ↔
          v / 2 ^ (length - id.bitLen) = id.value := by
      rw [Nat.shiftLeft_eq, Nat.one_shiftLeft, Nat.div_eq_iff (Nat.two_pow_pos _)]
      have hpos := Nat.two_pow_pos (length - id.bitLen)
      omega
    rw [hunder]
    constructor
    · exact fun h => .inr ⟨hle, h⟩
    · rintro (⟨hge, h⟩ | ⟨-, h⟩)
      · have hlen : length = id.bitLen := le_antisymm hge hle
        subst hlen
        simpa using h.symm
      · exact h
  · next hgt =>
    simp only [Nat.shiftRight_eq_div_pow, Nat.lt_succ_iff]
    constructor
    · rintro ⟨hlo, hhi⟩
      exact .inl ⟨(not_le.mp hgt).le, le_antisymm hlo hhi⟩
    · rintro (⟨-, h⟩ | ⟨hge, -⟩)
      · exact ⟨h.le, h.ge⟩
      · exact absurd hge hgt

theorem candidateRange_eq (h : prefixSpec.length ≤ length) :
    candidateRange prefixSpec length = occupiedInterval prefixSpec.ruleId length := by
  rw [occupiedInterval, if_pos (show prefixSpec.ruleId.bitLen ≤ length from h)]
  rfl

theorem candidateRange_lt (hp : RuleId.Explicit prefixSpec.ruleId)
    (h : prefixSpec.length ≤ length) : (candidateRange prefixSpec length).2 ≤ 2 ^ length := by
  have hvalue : prefixSpec.value + 1 ≤ 2 ^ prefixSpec.length := hp.2.2
  rw [candidateRange, Nat.shiftLeft_eq, Nat.one_shiftLeft]
  calc prefixSpec.value * 2 ^ (length - prefixSpec.length) + 2 ^ (length - prefixSpec.length)
      = (prefixSpec.value + 1) * 2 ^ (length - prefixSpec.length) := by rw [Nat.succ_mul]
    _ ≤ 2 ^ prefixSpec.length * 2 ^ (length - prefixSpec.length) := Nat.mul_le_mul_right _ hvalue
    _ = 2 ^ length := by rw [← pow_add, Nat.add_sub_cancel' h]

theorem covered_clippedIntervals (hlo : range.1 ≤ v) (hhi : v < range.2) :
    Intervals.Covered (clippedIntervals range occupied length) v ↔
      ∃ id ∈ occupied, (occupiedInterval id length).1 ≤ v ∧ v < (occupiedInterval id length).2 := by
  simp only [Intervals.Covered, clippedIntervals, List.mem_filterMap, Option.ite_none_right_eq_some,
    Option.some.injEq]
  constructor
  · rintro ⟨_, ⟨id, hid, -, rfl⟩, hstart, hstop⟩
    exact ⟨id, hid, (max_le_iff.mp hstart).1, (lt_min_iff.mp hstop).1⟩
  · rintro ⟨id, hid, hstart, hstop⟩
    exact ⟨_, ⟨id, hid, ⟨hlo.trans_lt hstop, hstart.trans_lt hhi⟩, rfl⟩,
      max_le hstart hlo, lt_min hstop hhi⟩

theorem firstFree_eq (range : Nat × Nat) (occupied : List RuleId) (length : Nat) :
    (∀ v, firstFree range (blockedIntervals range occupied length) = some v ↔
      IsLeast (Intervals.gaps range.1 range.2 (clippedIntervals range occupied length)) v) ∧
    (firstFree range (blockedIntervals range occupied length) = none ↔
      Intervals.gaps range.1 range.2 (clippedIntervals range occupied length) = ∅) := by
  have hsorted := Intervals.startSorted_insertionSort (clippedIntervals range occupied length)
  have hmerged := Intervals.startSorted_coalesce hsorted
  have hgaps : Intervals.gaps range.1 range.2 (blockedIntervals range occupied length) =
      Intervals.gaps range.1 range.2 (clippedIntervals range occupied length) := by
    rw [blockedIntervals, Intervals.gaps_coalesce hsorted, Intervals.gaps_insertionSort]
  refine ⟨fun v => ?_, ?_⟩
  · rw [firstFree, ← hgaps]
    exact Intervals.firstGap_eq_some hmerged
  · rw [firstFree, ← hgaps]
    exact Intervals.firstGap_eq_none hmerged

-- ---------------------------------------------------------------------------
-- The least free leaf
-- ---------------------------------------------------------------------------

namespace DynamicRuleIdNamespace

theorem mem_gaps_iff {ns : DynamicRuleIdNamespace} (h : ns.WellFormed)
    (hids : ∀ id ∈ occupied, RuleId.Explicit id) (hlength : length ∈ ns.allowedLengths) :
    v ∈ Intervals.gaps (candidateRange ns.prefixSpec length).1
      (candidateRange ns.prefixSpec length).2
        (clippedIntervals (candidateRange ns.prefixSpec length) occupied length) ↔
      (⟨v, length⟩ : RuleId) ∈ ns.freeLeaves occupied := by
  obtain ⟨hbelow, hmax⟩ := h.lengths_below length hlength
  have hrange := candidateRange_lt h.prefix_explicit hbelow.le
  have hunder : v < 2 ^ length → ((candidateRange ns.prefixSpec length).1 ≤ v ∧
      v < (candidateRange ns.prefixSpec length).2 ↔
        ns.prefixSpec.ruleId.bits <+: (⟨v, length⟩ : RuleId).bits) := by
    intro hv
    rw [candidateRange_eq hbelow.le, mem_occupiedInterval h.prefix_explicit hv]
    refine ⟨fun hover => ?_, .inr⟩
    rcases hover with hup | hdown
    · -- a proper extension of the prefix is no prefix of it
      have hlen : length ≤ ns.prefixSpec.length := by simpa [RuleIdSpec.ruleId] using hup.length_le
      omega
    · exact hdown
  constructor
  · rintro ⟨hlo, hhi, hfree⟩
    have hv : v < 2 ^ length := hhi.trans_le hrange
    refine ⟨⟨hlength, ⟨?_, hmax, hv⟩, (hunder hv).mp ⟨hlo, hhi⟩⟩, fun id hid hover => hfree ?_⟩
    · simp only
      omega
    · exact (covered_clippedIntervals hlo hhi).mpr
        ⟨id, hid, (mem_occupiedInterval (hids id hid) hv).mpr hover⟩
  · rintro ⟨⟨-, ⟨-, -, hv⟩, hstarts⟩, hfree⟩
    obtain ⟨hlo, hhi⟩ := (hunder hv).mpr hstarts
    refine ⟨hlo, hhi, fun hcov => ?_⟩
    obtain ⟨id, hid, hin⟩ := (covered_clippedIntervals hlo hhi).mp hcov
    exact hfree id hid ((mem_occupiedInterval (hids id hid) hv).mp hin)

theorem firstLeaf_eq {ns : DynamicRuleIdNamespace} (h : ns.WellFormed)
    (hsorted : ns.allowedLengths.Pairwise (· ≤ ·)) (hids : ∀ id ∈ occupied, RuleId.Explicit id) :
    (∀ id, ns.firstLeaf occupied = some id → IsLeast (ns.freeLeaves occupied) id) ∧
      (ns.firstLeaf occupied = none → ns.freeLeaves occupied = ∅) := by
  have hnone : ∀ length ∈ ns.allowedLengths,
      (firstFree (candidateRange ns.prefixSpec length)
        (blockedIntervals (candidateRange ns.prefixSpec length) occupied length)).map
          (RuleId.mk · length) = none →
      ∀ id ∈ ns.freeLeaves occupied, id.bitLen ≠ length := by
    rintro length hlength hnone ⟨v, _⟩ hfree rfl
    rw [Option.map_eq_none_iff, (firstFree_eq ..).2] at hnone
    exact Set.eq_empty_iff_forall_notMem.mp hnone v ((mem_gaps_iff h hids hlength).mpr hfree)
  constructor
  · intro id hid
    obtain ⟨before, length, after, hsplit, hfound, hbefore⟩ := List.findSome?_eq_some_iff.mp hid
    obtain ⟨v, hv, rfl⟩ := Option.map_eq_some_iff.mp hfound
    have hlength : length ∈ ns.allowedLengths := by simp [hsplit]
    have hleast := ((firstFree_eq ..).1 v).mp hv
    refine ⟨(mem_gaps_iff h hids hlength).mp hleast.1, fun other hother => ?_⟩
    rw [RuleId.le_iff]
    have hmem : other.bitLen ∈ before ++ length :: after := hsplit ▸ hother.1.1
    rcases List.mem_append.mp hmem with hin | hin
    · -- the shorter lengths were searched first and had no free leaf
      have hin' : other.bitLen ∈ ns.allowedLengths := by simp [hsplit, hin]
      exact absurd rfl (hnone _ hin' (hbefore _ hin) other hother)
    · have hle : length ≤ other.bitLen := by
        rw [hsplit, List.pairwise_append] at hsorted
        rcases List.mem_cons.mp hin with heq | hlater
        · exact heq.ge
        · exact (List.pairwise_cons.mp hsorted.2.1).1 _ hlater
      rcases hle.lt_or_eq with hlt | rfl
      · exact .inl hlt
      · exact .inr ⟨rfl, hleast.2 ((mem_gaps_iff h hids hlength).mpr hother)⟩
  · intro hid
    refine Set.eq_empty_of_forall_notMem fun other hother => ?_
    exact hnone _ hother.1.1 (List.findSome?_eq_none_iff.mp hid _ hother.1.1) other hother rfl

theorem allocate_eq {ns : DynamicRuleIdNamespace} (h : ns.WellFormed)
    (hids : ∀ id ∈ occupied, RuleId.Explicit id) :
    ns.allocate occupied = (do
      ensure (!occupied.any ns.normalize.collides)
        (.collision ns.prefixSpec.value ns.prefixSpec.length)
      need (ns.normalize.firstLeaf occupied) .exhausted) := by
  have hid (id : RuleId) (hmem : id ∈ occupied) :
      RuleIdSpec.ofRuleId id = .ok ⟨id.value, id.bitLen⟩ :=
    RuleIdSpec.new_ok.mpr ⟨hids id hmem, rfl⟩
  obtain ⟨specs, hspecs⟩ := collect_total hid
  rw [allocate, validate_ok.mpr ⟨h, rfl⟩, hspecs]
  rfl

theorem allocate_invalid_iff {ns : DynamicRuleIdNamespace} :
    (∃ message, ns.allocate occupied = .error (.invalid message)) ↔
      ¬ (ns.WellFormed ∧ ∀ id ∈ occupied, RuleId.Explicit id) := by
  constructor
  · rintro ⟨message, herr⟩ ⟨h, hids⟩
    rw [allocate_eq h hids] at herr
    simp only [bind_error, ensure_error, need_error] at herr
    rcases herr with ⟨-, herr⟩ | ⟨_, -, -, herr⟩
    · cases herr
    · cases herr
  · intro hbad
    cases hvalid : ns.validate with
    | error e =>
      obtain ⟨message, rfl⟩ := validate_error hvalid
      exact ⟨message, by rw [allocate, hvalid]; rfl⟩
    | ok normalized =>
      cases hspecs : collect RuleIdSpec.ofRuleId occupied with
      | error e =>
        obtain ⟨id, -, hid⟩ := collect_error hspecs
        obtain ⟨message, rfl⟩ := RuleIdSpec.new_error hid
        exact ⟨message, by rw [allocate, hvalid, hspecs]; rfl⟩
      | ok specs =>
        refine absurd ⟨(validate_ok.mp hvalid).1, fun id hid => ?_⟩ hbad
        obtain ⟨_, h⟩ := forall₂_left (collect_ok_iff.mp hspecs) hid
        exact (RuleIdSpec.new_ok.mp h).1

theorem allocate_collision_iff {ns : DynamicRuleIdNamespace} (h : ns.WellFormed)
    (hids : ∀ id ∈ occupied, RuleId.Explicit id) :
    ns.allocate occupied = .error (.collision ns.prefixSpec.value ns.prefixSpec.length) ↔
      ns.Collision occupied := by
  have hcollision := any_collides_iff h.normalize hids
  simp only [Collision, leaves_normalize, normalize_prefixSpec] at hcollision
  rw [allocate_eq h hids, Collision, ← hcollision]
  simp only [bind_error, ensure_error, need_error, Bool.not_eq_false']
  constructor
  · rintro (⟨hany, -⟩ | ⟨_, -, -, herr⟩)
    · exact hany
    · cases herr
  · exact fun hany => .inl ⟨hany, trivial⟩

/-- Without a collision the answer is the least free leaf, or that there is none. -/
theorem allocate_free {ns : DynamicRuleIdNamespace} (h : ns.WellFormed)
    (hids : ∀ id ∈ occupied, RuleId.Explicit id) (hfree : ¬ ns.Collision occupied) :
    (∀ id, ns.allocate occupied = .ok id ↔ IsLeast (ns.freeLeaves occupied) id) ∧
      (ns.allocate occupied = .error .exhausted ↔ ns.freeLeaves occupied = ∅) := by
  have hnone : occupied.any ns.normalize.collides = false := by
    have hcollision := any_collides_iff h.normalize hids
    simp only [Collision, leaves_normalize, normalize_prefixSpec] at hcollision
    rw [← Bool.not_eq_true, hcollision]
    exact hfree
  have hallocate : ns.allocate occupied = need (ns.normalize.firstLeaf occupied) .exhausted := by
    rw [allocate_eq h hids, hnone]
    rfl
  have hsorted : ns.normalize.allowedLengths.Pairwise (· ≤ ·) :=
    Sorted.pairwise_sortDedup.imp fun h => h.1
  obtain ⟨hsome, hempty⟩ := firstLeaf_eq h.normalize hsorted hids
  simp only [freeLeaves_normalize] at hsome hempty
  rw [hallocate]
  cases hleaf : ns.normalize.firstLeaf occupied with
  | none =>
    have hset := hempty hleaf
    refine ⟨fun id => ⟨fun h => (by cases h), fun h => ?_⟩, ⟨fun _ => hset, fun _ => rfl⟩⟩
    exact absurd h.1 (by rw [hset]; exact Set.notMem_empty id)
  | some leaf =>
    have hleast := hsome leaf hleaf
    refine ⟨fun id => ?_, ⟨fun h => (by cases h), fun hset => ?_⟩⟩
    · rw [need_ok, Option.some.injEq]
      exact ⟨fun heq => heq ▸ hleast, fun hid => hleast.unique hid⟩
    · exact absurd hleast.1 (by rw [hset]; exact Set.notMem_empty leaf)

/-- Inputs the allocator does not call invalid. -/
def Admissible (ns : DynamicRuleIdNamespace) (occupied : List RuleId) : Prop :=
  ns.WellFormed ∧ ∀ id ∈ occupied, id.Explicit

theorem admissible_of_allocate {ns : DynamicRuleIdNamespace}
    (h : ns.allocate occupied = answer) (hanswer : ∀ message, answer ≠ .error (.invalid message)) :
    ns.Admissible occupied := by
  by_contra hbad
  obtain ⟨message, hinvalid⟩ := allocate_invalid_iff.mpr hbad
  exact hanswer message (h.symm.trans hinvalid)

theorem not_collision_of_allocate {ns : DynamicRuleIdNamespace} (hadm : ns.Admissible occupied)
    (h : ns.allocate occupied = answer)
    (hanswer : answer ≠ .error (.collision ns.prefixSpec.value ns.prefixSpec.length)) :
    ¬ ns.Collision occupied :=
  fun hcollision => hanswer (h.symm.trans ((allocate_collision_iff hadm.1 hadm.2).mpr hcollision))

/-- The allocator is its reference, and no step of it overflows. -/
theorem allocate_reference (ns : DynamicRuleIdNamespace) (occupied : List RuleId) :
    ((∃ message, ns.allocate occupied = .error (.invalid message)) ↔ ¬ ns.Admissible occupied) ∧
    (ns.allocate occupied = .error (.collision ns.prefixSpec.value ns.prefixSpec.length) ↔
      ns.Admissible occupied ∧ ns.Collision occupied) ∧
    (∀ id, ns.allocate occupied = .ok id ↔
      ns.Admissible occupied ∧ ¬ ns.Collision occupied ∧ IsLeast (ns.freeLeaves occupied) id) ∧
    (ns.allocate occupied = .error .exhausted ↔
      ns.Admissible occupied ∧ ¬ ns.Collision occupied ∧ ns.freeLeaves occupied = ∅) ∧
    ns.allocateChecked occupied = Machine.lift (ns.allocate occupied) := by
  refine ⟨allocate_invalid_iff, ⟨fun h => ?_, fun ⟨hadm, hc⟩ => ?_⟩,
    fun id => ⟨fun h => ?_, fun ⟨hadm, hfree, hleast⟩ => ?_⟩,
    ⟨fun h => ?_, fun ⟨hadm, hfree, hempty⟩ => ?_⟩, allocateChecked_eq ns occupied⟩
  · have hadm := admissible_of_allocate h (by simp)
    exact ⟨hadm, (allocate_collision_iff hadm.1 hadm.2).mp h⟩
  · exact (allocate_collision_iff hadm.1 hadm.2).mpr hc
  · have hadm := admissible_of_allocate h (by simp)
    have hfree := not_collision_of_allocate hadm h (by simp)
    exact ⟨hadm, hfree, ((allocate_free hadm.1 hadm.2 hfree).1 id).mp h⟩
  · exact ((allocate_free hadm.1 hadm.2 hfree).1 id).mpr hleast
  · have hadm := admissible_of_allocate h (by simp)
    have hfree := not_collision_of_allocate hadm h (by simp)
    exact ⟨hadm, hfree, (allocate_free hadm.1 hadm.2 hfree).2.mp h⟩
  · exact (allocate_free hadm.1 hadm.2 hfree).2.mpr hempty

end DynamicRuleIdNamespace

end SchcCoreconf
