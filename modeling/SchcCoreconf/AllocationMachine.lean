import SchcCoreconf.Allocation
import SchcCoreconf.Lib.Machine

/-!
# The allocator at the machine's widths

The same functions with every shift, sum and difference done at 64 bits, where
an overflow is no value at all. On every input they equal the exact functions.
-/

namespace SchcCoreconf

open Fallible Machine

def RuleIdSpec.newChecked (value length : Nat) : Checked RuleIdTreeError RuleIdSpec := do
  lift (ensure (1 ≤ length ∧ length ≤ 32)
    (.invalid
      s!"explicit RuleID length must be 1..=32; length {length} is unsupported by this codec"))
  lift (ensure (value < 2 ^ 32) (.invalid s!"RuleID value {value} exceeds the uint32 range"))
  let bound ← arith (shl 64 1 length)
  lift (ensure (value < bound) (.invalid s!"RuleID value {value} does not fit in {length} bits"))
  return { value, length }

def isPrefixChecked (prefixId value : RuleId) : Option Bool := do
  if prefixId.bitLen > value.bitLen then
    return false
  let suffix ← sub value.bitLen prefixId.bitLen
  let head ← shr 64 value.value suffix
  return head = prefixId.value

def overlapsChecked (left right : RuleId) : Option Bool := do
  if ← isPrefixChecked left right then
    return true
  isPrefixChecked right left

def candidateRangeChecked (prefixSpec : RuleIdSpec) (length : Nat) : Option (Nat × Nat) := do
  let suffixBits ← sub length prefixSpec.length
  let start ← shl 64 prefixSpec.value suffixBits
  let size ← shl 64 1 suffixBits
  let stop ← add 64 start size
  return (start, stop)

def occupiedIntervalChecked (length : Nat) (id : RuleId) : Option (Nat × Nat) := do
  if id.bitLen ≤ length then
    let shift ← sub length id.bitLen
    let start ← shl 64 id.value shift
    let size ← shl 64 1 shift
    let stop ← add 64 start size
    return (start, stop)
  else
    let shift ← sub id.bitLen length
    let start ← shr 64 id.value shift
    let stop ← add 64 start 1
    return (start, stop)

def blockedIntervalsChecked (range : Nat × Nat) (occupied : List RuleId) (length : Nat) :
    Option (List (Nat × Nat)) := do
  let intervals ← occupied.mapM (occupiedIntervalChecked length)
  let clipped := intervals.filterMap fun (start, stop) =>
    if stop > range.1 ∧ start < range.2 then some (max start range.1, min stop range.2) else none
  return Intervals.coalesce (clipped.insertionSort Intervals.lexLe)

namespace DynamicRuleIdNamespace

def checkLengthChecked (depth length : Nat) : Checked RuleIdTreeError Unit := do
  let least ← arith (add 64 depth 1)
  lift (ensure (least ≤ length ∧ length ≤ 32)
    (.invalid s!"dynamic RuleID length {length} is outside prefix depth {depth}..=32"))

def validateChecked (ns : DynamicRuleIdNamespace) :
    Checked RuleIdTreeError DynamicRuleIdNamespace := do
  let prefixSpec ← RuleIdSpec.newChecked ns.prefixSpec.value ns.prefixSpec.length
  let allowedLengths := Sorted.sortDedup (· ≤ ·) ns.allowedLengths
  lift (ensure (!allowedLengths.isEmpty)
    (.invalid "dynamic RuleID namespace requires at least one allowed length"))
  let _ ← allowedLengths.mapM (checkLengthChecked prefixSpec.length)
  return { prefixSpec, allowedLengths }

def acceptsNormalizedChecked (ns : DynamicRuleIdNamespace) (id : RuleId) : Option Bool :=
  if ns.allowedLengths.contains id.bitLen then isPrefixChecked ns.prefixSpec.ruleId id
  else some false

def collidesChecked (ns : DynamicRuleIdNamespace) (id : RuleId) : Option Bool := do
  if ← overlapsChecked id ns.prefixSpec.ruleId then
    return !(← ns.acceptsNormalizedChecked id)
  return false

def firstLeafChecked (ns : DynamicRuleIdNamespace) (occupied : List RuleId) :
    Option (Option RuleId) :=
  ns.allowedLengths.findSomeM? fun length => do
    let range ← candidateRangeChecked ns.prefixSpec length
    let blocked ← blockedIntervalsChecked range occupied length
    return (firstFree range blocked).map (⟨·, length⟩)

def allocateChecked (self : DynamicRuleIdNamespace) (occupied : List RuleId) :
    Checked RuleIdTreeError RuleId := do
  let ns ← self.validateChecked
  let _ ← occupied.mapM fun id : RuleId => RuleIdSpec.newChecked id.value id.bitLen
  let collision ← arith (occupied.anyM ns.collidesChecked)
  lift (ensure (!collision) (.collision ns.prefixSpec.value ns.prefixSpec.length))
  let leaf ← arith (ns.firstLeafChecked occupied)
  lift (need leaf .exhausted)

end DynamicRuleIdNamespace

-- ---------------------------------------------------------------------------
-- No step overflows
-- ---------------------------------------------------------------------------

theorem shiftLeft_lt (amount : Nat) (hvalue : value < 2 ^ length) (hshift : length + amount ≤ 32) :
    value <<< amount < 2 ^ 32 := by
  rw [Nat.shiftLeft_eq]
  calc value * 2 ^ amount < 2 ^ length * 2 ^ amount :=
        Nat.mul_lt_mul_of_pos_right hvalue (Nat.two_pow_pos amount)
    _ = 2 ^ (length + amount) := (pow_add ..).symm
    _ ≤ 2 ^ 32 := Nat.pow_le_pow_right (by decide) hshift

theorem one_shiftLeft_le (amount : Nat) (h : amount ≤ 32) : 1 <<< amount ≤ 2 ^ 32 := by
  rw [Nat.one_shiftLeft]
  exact Nat.pow_le_pow_right (by decide) h

theorem RuleIdSpec.newChecked_eq {value length : Nat} :
    newChecked value length = lift (new value length) := by
  refine bind_lift fun _ hlength => bind_lift fun _ _ => ?_
  have hlength' : length ≤ 32 := by
    rw [ensure_ok, decide_eq_true_eq] at hlength
    exact hlength.2
  have hbound := one_shiftLeft_le length hlength'
  rw [bind_arith (shl_eq (show length < 64 by omega) (by omega))]
  exact bind_lift fun _ _ => rfl

theorem isPrefixChecked_eq (hv : value.bitLen ≤ 32) :
    isPrefixChecked p value = some (isPrefix p value) := by
  rw [isPrefixChecked, isPrefix]
  split
  · rfl
  · next h =>
    simp (disch := omega) only [sub_eq, shr_eq, Option.bind_eq_bind, Option.bind_some]
    rfl

theorem overlapsChecked_eq (hl : l.bitLen ≤ 32) (hr : r.bitLen ≤ 32) :
    overlapsChecked l r = some (overlaps l r) := by
  rw [overlapsChecked, isPrefixChecked_eq hr, isPrefixChecked_eq hl, overlaps]
  cases isPrefix l r <;> rfl

theorem candidateRangeChecked_eq (hp : RuleId.Explicit prefixSpec.ruleId)
    (hle : prefixSpec.length ≤ length) (hlength : length ≤ 32) :
    candidateRangeChecked prefixSpec length = some (candidateRange prefixSpec length) := by
  have hfit : prefixSpec.value <<< (length - prefixSpec.length) < 2 ^ 32 :=
    shiftLeft_lt _ hp.2.2 (by simp only [RuleIdSpec.ruleId]; omega)
  have hsize := one_shiftLeft_le (length - prefixSpec.length) (by omega)
  rw [candidateRangeChecked]
  simp (disch := omega) only [sub_eq, shl_eq, add_eq, Option.bind_eq_bind, Option.bind_some]
  rfl

theorem occupiedIntervalChecked_eq {id : RuleId} (hid : RuleId.Explicit id)
    (hlength : length ≤ 32) :
    occupiedIntervalChecked length id = some (occupiedInterval id length) := by
  obtain ⟨-, hlen, hvalue⟩ := hid
  rw [occupiedIntervalChecked, occupiedInterval]
  split
  · next hle =>
    have hfit := shiftLeft_lt (length - id.bitLen) hvalue (by omega)
    have hsize := one_shiftLeft_le (length - id.bitLen) (by omega)
    simp (disch := omega) only [sub_eq, shl_eq, add_eq, Option.bind_eq_bind, Option.bind_some]
    rfl
  · next hgt =>
    have hword : id.value < 2 ^ 32 := hvalue.trans_le (Nat.pow_le_pow_right (by decide) hlen)
    have hfit : id.value >>> (id.bitLen - length) ≤ id.value := Nat.shiftRight_le ..
    simp (disch := omega) only [sub_eq, shr_eq, add_eq, Option.bind_eq_bind, Option.bind_some]
    rfl

theorem blockedIntervalsChecked_eq (hids : ∀ id ∈ occupied, RuleId.Explicit id)
    (hlength : length ≤ 32) :
    blockedIntervalsChecked range occupied length =
      some (blockedIntervals range occupied length) := by
  rw [blockedIntervalsChecked, mapM_eq fun id hid =>
    occupiedIntervalChecked_eq (hids id hid) hlength]
  simp only [Option.bind_eq_bind, Option.bind_some, List.filterMap_map]
  rfl

namespace DynamicRuleIdNamespace

theorem checkLengthChecked_eq (h : depth + 1 < 2 ^ 64) :
    checkLengthChecked depth length = lift (checkLength depth length) :=
  bind_arith (add_eq h)

theorem validateChecked_eq (ns : DynamicRuleIdNamespace) :
    ns.validateChecked = lift ns.validate := by
  rw [validateChecked, RuleIdSpec.newChecked_eq]
  refine bind_lift fun spec hspec => bind_lift fun _ _ => ?_
  obtain ⟨⟨-, hlen, -⟩, rfl⟩ := RuleIdSpec.new_ok.mp hspec
  have hsum : ns.prefixSpec.length + 1 < 2 ^ 64 := by
    simp only at hlen
    omega
  rw [collect_eq fun _ _ => checkLengthChecked_eq hsum]
  exact bind_lift fun _ _ => rfl

theorem acceptsNormalizedChecked_eq {id : RuleId} (hid : id.bitLen ≤ 32)
    (ns : DynamicRuleIdNamespace) :
    ns.acceptsNormalizedChecked id = some (ns.acceptsNormalized id) := by
  rw [acceptsNormalizedChecked, acceptsNormalized, isPrefixChecked_eq hid]
  cases ns.allowedLengths.contains id.bitLen <;> rfl

theorem collidesChecked_eq {id : RuleId} {ns : DynamicRuleIdNamespace} (hid : id.bitLen ≤ 32)
    (hlead : ns.prefixSpec.ruleId.bitLen ≤ 32) :
    ns.collidesChecked id = some (ns.collides id) := by
  rw [collidesChecked, overlapsChecked_eq hid hlead, acceptsNormalizedChecked_eq hid, collides]
  cases overlaps id ns.prefixSpec.ruleId <;> rfl

theorem firstLeafChecked_eq {ns : DynamicRuleIdNamespace}
    (hp : RuleId.Explicit ns.prefixSpec.ruleId)
    (hlengths : ∀ length ∈ ns.allowedLengths, ns.prefixSpec.length < length ∧ length ≤ 32)
    (hids : ∀ id ∈ occupied, RuleId.Explicit id) :
    ns.firstLeafChecked occupied = some (ns.firstLeaf occupied) := by
  refine findSomeM?_eq fun length hmem => ?_
  obtain ⟨hbelow, hlength⟩ := hlengths length hmem
  rw [candidateRangeChecked_eq hp (by omega) hlength]
  simp only [Option.bind_eq_bind, Option.bind_some, blockedIntervalsChecked_eq hids hlength]
  rfl

/-- No step of the allocator overflows, on any namespace and any occupied RuleIDs. -/
theorem allocateChecked_eq (ns : DynamicRuleIdNamespace) (occupied : List RuleId) :
    ns.allocateChecked occupied = lift (ns.allocate occupied) := by
  rw [allocateChecked, validateChecked_eq]
  refine bind_lift fun normalized hvalid => ?_
  obtain ⟨hns, rfl⟩ := validate_ok.mp hvalid
  have hlead := hns.normalize.prefix_explicit
  rw [collect_eq fun id _ => RuleIdSpec.newChecked_eq]
  refine bind_lift fun specs hspecs => ?_
  have hids : ∀ id ∈ occupied, RuleId.Explicit id := fun id hid => by
    obtain ⟨_, h⟩ := forall₂_left (collect_ok_iff.mp hspecs) hid
    exact (RuleIdSpec.new_ok.mp h).1
  have hany : occupied.anyM ns.normalize.collidesChecked =
      some (occupied.any ns.normalize.collides) :=
    anyM_eq fun id hid => collidesChecked_eq (hids id hid).2.1 hlead.2.1
  rw [bind_arith hany]
  refine bind_lift fun _ _ => ?_
  rw [bind_arith (firstLeafChecked_eq hlead hns.normalize.lengths_below hids)]

end DynamicRuleIdNamespace

end SchcCoreconf
