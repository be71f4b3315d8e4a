import Mathlib.Data.Nat.Bitwise
import Mathlib.Data.List.Infix

/-!
# Numbers as bit strings of a width

`bits value width` lists the low `width` bits of a number, most significant
first. Prefixes of bit strings become quotients of the numbers they spell
(`bits_prefix_iff`), and two strings that meet in a common extension are
comparable (`Comparable.of_prefix`).
-/

namespace BitString

def bits (value : Nat) : Nat → List Bool
  | 0 => []
  | width + 1 => value.testBit width :: bits value width

/-- The bits of a byte string, each byte most significant bit first. -/
def ofBytes (bytes : List UInt8) : List Bool := bytes.flatMap fun byte => bits byte.toNat 8

/-- The number a bit string spells, most significant bit first. -/
def value : List Bool → Nat
  | [] => 0
  | b :: rest => value rest + 2 ^ rest.length * b.toNat

/-- One string is a prefix of the other. -/
def Comparable (l r : List Bool) : Prop := l <+: r ∨ r <+: l

@[simp] theorem length_bits : (bits v n).length = n := by
  induction n with
  | zero => rfl
  | succ n ih => simp [bits, ih]

theorem value_bits : value (bits v n) = v % 2 ^ n := by
  induction n with
  | zero => simp [bits, value, Nat.mod_one]
  | succ n ih => rw [bits, value, ih, length_bits, Nat.mod_pow_succ, Nat.toNat_testBit]

theorem bits_injective (hv : v < 2 ^ n) (hw : w < 2 ^ n) (h : bits v n = bits w n) : v = w := by
  have hvalue := congrArg value h
  rwa [value_bits, value_bits, Nat.mod_eq_of_lt hv, Nat.mod_eq_of_lt hw] at hvalue

theorem bits_add : bits v (m + n) = bits (v / 2 ^ n) m ++ bits v n := by
  induction m with
  | zero => simp [bits]
  | succ m ih =>
    rw [Nat.succ_add, bits, ih, bits, List.cons_append, Nat.testBit_div_two_pow, Nat.add_comm m n]

theorem div_lt (hnm : n ≤ m) (hv : v < 2 ^ m) : v / 2 ^ (m - n) < 2 ^ n := by
  refine Nat.div_lt_of_lt_mul ?_
  rwa [← pow_add, Nat.sub_add_cancel hnm]

theorem bits_lead (hnm : n ≤ m) : bits (v / 2 ^ (m - n)) n <+: bits v m := by
  refine ⟨bits v (m - n), ?_⟩
  rw [← bits_add, Nat.add_sub_cancel' hnm]

theorem bits_prefix_iff (hp : p < 2 ^ n) (hv : v < 2 ^ m) :
    bits p n <+: bits v m ↔ n ≤ m ∧ v / 2 ^ (m - n) = p := by
  constructor
  · intro h
    have hnm : n ≤ m := by simpa using h.length_le
    have hlead : bits p n <+: bits (v / 2 ^ (m - n)) n :=
      List.prefix_of_prefix_length_le h (bits_lead hnm) (by simp)
    have heq : bits p n = bits (v / 2 ^ (m - n)) n := hlead.eq_of_length (by simp)
    exact ⟨hnm, (bits_injective hp (div_lt hnm hv) heq).symm⟩
  · rintro ⟨hnm, rfl⟩
    exact bits_lead hnm

-- ---------------------------------------------------------------------------
-- Comparable strings
-- ---------------------------------------------------------------------------

theorem Comparable.symm (h : Comparable l r) : Comparable r l := Or.symm h

theorem Comparable.refl : Comparable l l := .inl (List.prefix_refl l)

theorem Comparable.of_prefix (hl : l <+: whole) (hr : r <+: whole) : Comparable l r :=
  List.prefix_or_prefix_of_prefix hl hr

end BitString
