import SchcCoreconf.External
import SchcCoreconf.Lib.BitString
import Mathlib.Data.Prod.Lex

/-!
# RuleIDs as bit strings

A RuleID is sent as the `bitLen` low bits of its value. Two RuleIDs overlap
when one bit string is a prefix of the other; a context is decodable when no
two of its RuleIDs do. RuleIDs are ordered by length, then by value.
-/

namespace SchcCoreconf.RuleId

def bits (id : RuleId) : List Bool := BitString.bits id.value id.bitLen

/-- An explicit RuleID of the codec: 1 to 32 bits, and a value that fits them. -/
def Explicit (id : RuleId) : Prop :=
  1 ≤ id.bitLen ∧ id.bitLen ≤ 32 ∧ id.value < 2 ^ id.bitLen

instance : DecidablePred Explicit := fun _ => inferInstanceAs (Decidable (_ ∧ _))

/-- One RuleID's bits start the other's. -/
def Overlap (left right : RuleId) : Prop := BitString.Comparable left.bits right.bits

def PrefixFree (ids : List RuleId) : Prop :=
  ∀ left ∈ ids, ∀ right ∈ ids, Overlap left right → left = right

theorem Overlap.symm (h : Overlap left right) : Overlap right left := BitString.Comparable.symm h

theorem Overlap.refl {id : RuleId} : Overlap id id := BitString.Comparable.refl

@[simp] theorem length_bits {id : RuleId} : id.bits.length = id.bitLen := BitString.length_bits

-- ---------------------------------------------------------------------------
-- The order by (length, value)
-- ---------------------------------------------------------------------------

def orderKey (id : RuleId) : ℕ ×ₗ ℕ := toLex (id.bitLen, id.value)

theorem orderKey_injective : Function.Injective orderKey := by
  rintro ⟨lv, ll⟩ ⟨rv, rl⟩ h
  obtain ⟨rfl, rfl⟩ := Prod.mk.inj (toLex.injective h)
  rfl

instance : LinearOrder RuleId := LinearOrder.lift' orderKey orderKey_injective

theorem le_iff {left right : RuleId} :
    left ≤ right ↔ left.bitLen < right.bitLen ∨
      left.bitLen = right.bitLen ∧ left.value ≤ right.value :=
  Prod.Lex.le_iff

end SchcCoreconf.RuleId
