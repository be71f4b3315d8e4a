import SchcCoreconf.RuleIds
import SchcCoreconf.Lib.Fallible
import SchcCoreconf.Lib.Intervals
import SchcCoreconf.Lib.Sorted

/-!
# Deterministic allocation of RuleIDs

The functions of `allocation.rs` over unbounded naturals. The widths of the
machine's own integers are the subject of `AllocationMachine`.
-/

namespace SchcCoreconf

open Fallible

inductive RuleIdTreeError
  | invalid (message : String)
  | collision (value length : Nat)
  | exhausted
  deriving DecidableEq, Repr

def RuleIdTreeError.text : RuleIdTreeError → String
  | .invalid message => s!"invalid RuleID tree configuration: {message}"
  | .collision value length =>
    s!"RuleID tree namespace overlaps existing RuleID {value}/{length}"
  | .exhausted => "dynamic RuleID namespace is exhausted"

structure RuleIdSpec where
  value : Nat
  length : Nat
  deriving DecidableEq, Repr

namespace RuleIdSpec

def new (value length : Nat) : Except RuleIdTreeError RuleIdSpec := do
  ensure (1 ≤ length ∧ length ≤ 32)
    (.invalid
      s!"explicit RuleID length must be 1..=32; length {length} is unsupported by this codec")
  ensure (value < 2 ^ 32) (.invalid s!"RuleID value {value} exceeds the uint32 range")
  ensure (value < 1 <<< length) (.invalid s!"RuleID value {value} does not fit in {length} bits")
  return { value, length }

def ofRuleId (id : RuleId) : Except RuleIdTreeError RuleIdSpec := new id.value id.bitLen

def ruleId (spec : RuleIdSpec) : RuleId := { value := spec.value, bitLen := spec.length }

theorem new_ok {value length : Nat} : new value length = .ok spec ↔
    RuleId.Explicit ⟨value, length⟩ ∧ spec = ⟨value, length⟩ := by
  simp only [new, bind_ok, ensure_ok, pure, Except.pure, Except.ok.injEq, Nat.one_shiftLeft,
    decide_eq_true_eq, exists_and_left, exists_const, RuleId.Explicit]
  constructor
  · rintro ⟨⟨hpos, hlen⟩, -, hfit, rfl⟩
    exact ⟨⟨hpos, hlen, hfit⟩, rfl⟩
  · rintro ⟨⟨hpos, hlen, hfit⟩, rfl⟩
    have hword : value < 2 ^ 32 := hfit.trans_le (Nat.pow_le_pow_right (by decide) hlen)
    exact ⟨⟨hpos, hlen⟩, hword, hfit, rfl⟩

theorem new_error {value length : Nat} (h : new value length = .error e) :
    ∃ message, e = .invalid message := by
  simp only [new, bind_error, ensure_error, pure, Except.pure] at h
  rcases h with ⟨-, rfl⟩ | ⟨_, _, ⟨-, rfl⟩ | ⟨_, _, ⟨-, rfl⟩ | ⟨_, _, h⟩⟩⟩
  · exact ⟨_, rfl⟩
  · exact ⟨_, rfl⟩
  · exact ⟨_, rfl⟩
  · cases h

end RuleIdSpec

-- ---------------------------------------------------------------------------
-- Prefixes
-- ---------------------------------------------------------------------------

def isPrefix (prefixId value : RuleId) : Bool :=
  if prefixId.bitLen > value.bitLen then false
  else value.value >>> (value.bitLen - prefixId.bitLen) = prefixId.value

/-- Returns true when either RuleID is a prefix of the other. -/
def overlaps (left right : RuleId) : Bool := isPrefix left right || isPrefix right left

theorem isPrefix_iff (hp : RuleId.Explicit p) (hv : RuleId.Explicit v) :
    isPrefix p v = true ↔ p.bits <+: v.bits := by
  rw [RuleId.bits, RuleId.bits, BitString.bits_prefix_iff hp.2.2 hv.2.2, isPrefix]
  split
  · next h => simp [h]
  · next h => simp [Nat.shiftRight_eq_div_pow, not_lt.mp h]

theorem overlaps_iff (hl : RuleId.Explicit l) (hr : RuleId.Explicit r) :
    overlaps l r = true ↔ RuleId.Overlap l r := by
  rw [overlaps, Bool.or_eq_true, isPrefix_iff hl hr, isPrefix_iff hr hl]
  rfl

-- ---------------------------------------------------------------------------
-- The namespace
-- ---------------------------------------------------------------------------

structure DynamicRuleIdNamespace where
  prefixSpec : RuleIdSpec
  allowedLengths : List Nat
  deriving DecidableEq, Repr

def candidateRange (prefixSpec : RuleIdSpec) (length : Nat) : Nat × Nat :=
  let suffixBits := length - prefixSpec.length
  let start := prefixSpec.value <<< suffixBits
  (start, start + 1 <<< suffixBits)

/-- The values of that length one RuleID takes out: those under it, or the one above it. -/
def occupiedInterval (id : RuleId) (length : Nat) : Nat × Nat :=
  if id.bitLen ≤ length then
    let shift := length - id.bitLen
    let start := id.value <<< shift
    (start, start + 1 <<< shift)
  else
    let start := id.value >>> (id.bitLen - length)
    (start, start + 1)

def clippedIntervals (range : Nat × Nat) (occupied : List RuleId) (length : Nat) :
    List (Nat × Nat) :=
  occupied.filterMap fun id =>
    let (start, stop) := occupiedInterval id length
    if stop > range.1 ∧ start < range.2 then some (max start range.1, min stop range.2) else none

def blockedIntervals (range : Nat × Nat) (occupied : List RuleId) (length : Nat) :
    List (Nat × Nat) :=
  Intervals.coalesce ((clippedIntervals range occupied length).insertionSort Intervals.lexLe)

def firstFree (range : Nat × Nat) (blocked : List (Nat × Nat)) : Option Nat :=
  Intervals.firstGap range.2 range.1 blocked

namespace DynamicRuleIdNamespace

def checkLength (depth length : Nat) : Except RuleIdTreeError Unit :=
  ensure (depth + 1 ≤ length ∧ length ≤ 32)
    (.invalid s!"dynamic RuleID length {length} is outside prefix depth {depth}..=32")

def validate (ns : DynamicRuleIdNamespace) :
    Except RuleIdTreeError DynamicRuleIdNamespace := do
  let prefixSpec ← RuleIdSpec.new ns.prefixSpec.value ns.prefixSpec.length
  let allowedLengths := Sorted.sortDedup (· ≤ ·) ns.allowedLengths
  ensure (!allowedLengths.isEmpty)
    (.invalid "dynamic RuleID namespace requires at least one allowed length")
  let _ ← collect (checkLength prefixSpec.length) allowedLengths
  return { prefixSpec, allowedLengths }

def acceptsNormalized (ns : DynamicRuleIdNamespace) (id : RuleId) : Bool :=
  ns.allowedLengths.contains id.bitLen && isPrefix ns.prefixSpec.ruleId id

def accepts (ns : DynamicRuleIdNamespace) (id : RuleId) : Bool :=
  match ns.validate with
  | .ok normalized => normalized.acceptsNormalized id
  | .error _ => false

def firstLeaf (ns : DynamicRuleIdNamespace) (occupied : List RuleId) : Option RuleId :=
  ns.allowedLengths.findSome? fun length =>
    let range := candidateRange ns.prefixSpec length
    (firstFree range (blockedIntervals range occupied length)).map (⟨·, length⟩)

/-- An occupied RuleID on the branch of the prefix that is no leaf of the namespace. -/
def collides (ns : DynamicRuleIdNamespace) (id : RuleId) : Bool :=
  overlaps id ns.prefixSpec.ruleId && !ns.acceptsNormalized id

/-- Returns the first free valid leaf in tree order. -/
def allocate (self : DynamicRuleIdNamespace) (occupied : List RuleId) :
    Except RuleIdTreeError RuleId := do
  let ns ← self.validate
  let _ ← collect RuleIdSpec.ofRuleId occupied
  ensure (!occupied.any ns.collides)
    (.collision ns.prefixSpec.value ns.prefixSpec.length)
  need (ns.firstLeaf occupied) .exhausted

end DynamicRuleIdNamespace

-- ---------------------------------------------------------------------------
-- Validation
-- ---------------------------------------------------------------------------

namespace DynamicRuleIdNamespace

/-- An explicit prefix, and at least one depth, each below it and of at most 32 bits. -/
structure WellFormed (ns : DynamicRuleIdNamespace) : Prop where
  prefix_explicit : ns.prefixSpec.ruleId.Explicit
  lengths_nonempty : ns.allowedLengths ≠ []
  lengths_below : ∀ length ∈ ns.allowedLengths, ns.prefixSpec.length < length ∧ length ≤ 32

def normalize (ns : DynamicRuleIdNamespace) : DynamicRuleIdNamespace :=
  { ns with allowedLengths := Sorted.sortDedup (· ≤ ·) ns.allowedLengths }

@[simp] theorem mem_normalize_allowedLengths {ns : DynamicRuleIdNamespace} :
    length ∈ ns.normalize.allowedLengths ↔ length ∈ ns.allowedLengths := Sorted.mem_sortDedup

@[simp] theorem normalize_prefixSpec {ns : DynamicRuleIdNamespace} :
    ns.normalize.prefixSpec = ns.prefixSpec := rfl

theorem normalize_allowedLengths_ne_nil {ns : DynamicRuleIdNamespace} :
    ns.normalize.allowedLengths ≠ [] ↔ ns.allowedLengths ≠ [] := by
  simp only [ne_eq, List.eq_nil_iff_forall_not_mem, mem_normalize_allowedLengths]

theorem WellFormed.normalize {ns : DynamicRuleIdNamespace} (h : ns.WellFormed) :
    ns.normalize.WellFormed where
  prefix_explicit := h.prefix_explicit
  lengths_nonempty := normalize_allowedLengths_ne_nil.mpr h.lengths_nonempty
  lengths_below _ hmem := h.lengths_below _ (mem_normalize_allowedLengths.mp hmem)

theorem checkLength_ok : checkLength depth length = .ok u ↔ depth < length ∧ length ≤ 32 := by
  rw [checkLength, ensure_ok, decide_eq_true_eq, Nat.succ_le_iff]

theorem validate_ok {ns normalized : DynamicRuleIdNamespace} :
    ns.validate = .ok normalized ↔ ns.WellFormed ∧ normalized = ns.normalize := by
  simp only [validate, bind_ok, ensure_ok, pure_ok, RuleIdSpec.new_ok]
  constructor
  · rintro ⟨_, ⟨hexplicit, rfl⟩, _, hempty, units, hlengths, rfl⟩
    refine ⟨⟨hexplicit, ?_, fun length hmem => ?_⟩, rfl⟩
    · exact normalize_allowedLengths_ne_nil.mp (by simpa [normalize] using hempty)
    · obtain ⟨_, h⟩ := forall₂_left (collect_ok_iff.mp hlengths)
        (mem_normalize_allowedLengths.mpr hmem)
      exact checkLength_ok.mp h
  · rintro ⟨h, rfl⟩
    have hempty := normalize_allowedLengths_ne_nil.mpr h.lengths_nonempty
    obtain ⟨units, hlengths⟩ := collect_total fun length hmem =>
      (checkLength_ok.mpr (h.normalize.lengths_below length hmem) :
        checkLength ns.prefixSpec.length length = .ok ())
    exact ⟨_, ⟨h.prefix_explicit, rfl⟩, (), by simpa [normalize] using hempty, units, hlengths, rfl⟩

theorem validate_error {ns : DynamicRuleIdNamespace} (h : ns.validate = .error e) :
    ∃ message, e = .invalid message := by
  simp only [validate, bind_error, ensure_error, pure, Except.pure] at h
  rcases h with h | ⟨_, -, ⟨-, rfl⟩ | ⟨_, -, h | ⟨_, -, h⟩⟩⟩
  · exact RuleIdSpec.new_error h
  · exact ⟨_, rfl⟩
  · obtain ⟨length, -, h⟩ := collect_error h
    exact ⟨_, (ensure_error.mp h).2.symm⟩
  · cases h

theorem accepts_eq {ns : DynamicRuleIdNamespace} (h : ns.WellFormed) {id : RuleId} :
    ns.accepts id = ns.normalize.acceptsNormalized id := by
  rw [accepts, validate_ok.mpr ⟨h, rfl⟩]

end DynamicRuleIdNamespace

structure ContextProfile where
  dynamicRuleIds : Option DynamicRuleIdNamespace
  deriving DecidableEq, Repr

end SchcCoreconf
