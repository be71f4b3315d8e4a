import SchcCoreconf.Codec
import SchcCoreconf.RuleIds
import Mathlib.Data.List.Perm.Subperm

/-!
# Protected rules

`policy.rs`: the management rules of a context, in RuleID order, and the check
that a candidate context has the same ones. Two sets that pass the check are
equal.
-/

namespace SchcCoreconf

open Fallible

structure ProtectedRule where
  id : RuleId
  rule : Rule
  deriving DecidableEq, Repr

/-- The protected-rule set derived from one complete SCHC context. -/
@[ext]
structure ProtectedRules where
  rules : List ProtectedRule
  sorted : rules.Pairwise fun left right => left.id < right.id
  deriving DecidableEq

namespace ProtectedRules

def ids (self : ProtectedRules) : List RuleId := self.rules.map (·.id)

def contains (self : ProtectedRules) (id : RuleId) : Bool := self.rules.any (·.id = id)

theorem contains_iff {self : ProtectedRules} {id : RuleId} :
    self.contains id = true ↔ id ∈ self.ids := by
  simp [contains, ids]

-- ---------------------------------------------------------------------------
-- Derivation
-- ---------------------------------------------------------------------------

def managementIds (context : RuleContext) : List RuleId :=
  Sorted.sortDedup (· ≤ ·) ((context.rules.filter (·.nature = .management)).map (·.id))

def protectedRule (rschc : RSchc) (context : RuleContext) (id : RuleId) :
    Except ContextError ProtectedRule := do
  let rule ← need (rschc.findRule context id) (.protectedRuleChanged
    s!"management RuleID {id.value}/{id.bitLen} is absent from the context")
  return { id, rule }

theorem protectedRule_ok {id : RuleId} (h : protectedRule rschc context id = .ok entry) :
    entry.id = id ∧ rschc.findRule context id = some entry.rule := by
  simp only [protectedRule, bind_ok, need_ok, pure_ok] at h
  obtain ⟨rule, hfind, rfl⟩ := h
  exact ⟨rfl, hfind⟩

theorem collect_protectedRule_ids {ids : List RuleId} {rules : List ProtectedRule}
    (h : collect (protectedRule rschc context) ids = .ok rules) : rules.map (·.id) = ids := by
  have hall := collect_ok_iff.mp h
  clear h
  induction hall with
  | nil => rfl
  | cons hrule _ ih => rw [List.map_cons, (protectedRule_ok hrule).1, ih]

theorem sorted_managementIds : (managementIds context).Pairwise (· < ·) :=
  Sorted.pairwise_sortDedup.imp fun h => lt_of_le_of_ne h.1 h.2

def derive (rschc : RSchc) (context : RuleContext) : Except ContextError ProtectedRules :=
  match h : collect (protectedRule rschc context) (managementIds context) with
  | .error error => .error error
  | .ok rules => .ok
    { rules
      sorted := List.pairwise_map.mp (collect_protectedRule_ids h ▸ sorted_managementIds) }

theorem derive_ok (h : derive rschc context = .ok derived) :
    derived.ids = managementIds context ∧
      ∀ entry ∈ derived.rules, rschc.findRule context entry.id = some entry.rule := by
  unfold derive at h
  split at h
  · cases h
  · next rules hrules =>
    cases h
    refine ⟨collect_protectedRule_ids hrules, fun entry hentry => ?_⟩
    obtain ⟨id, hid⟩ := forall₂_right (collect_ok_iff.mp hrules) hentry
    obtain ⟨rfl, hfind⟩ := protectedRule_ok hid
    exact hfind

theorem mem_managementIds {id : RuleId} :
    id ∈ managementIds context ↔ ∃ rule ∈ context.rules, rule.nature =
      .management ∧ rule.id = id := by
  simp [managementIds, and_assoc]

-- ---------------------------------------------------------------------------
-- Enforcement
-- ---------------------------------------------------------------------------

def debugIds (ids : List RuleId) : String := (repr ids).pretty

def enforceRule (candidate : ProtectedRules) (expected : ProtectedRule) :
    Except ContextError Unit := do
  let actual ← need (candidate.rules.find? (·.id = expected.id)) (.protectedRuleChanged
    s!"RuleID {expected.id.value}/{expected.id.bitLen} was deleted or re-identified")
  ensure (actual.rule = expected.rule) (.protectedRuleChanged
    s!"RuleID {expected.id.value}/{expected.id.bitLen} content or nature differs")

def enforce (self candidate : ProtectedRules) : Except ContextError Unit := do
  ensure (self.rules.length = candidate.rules.length) (.protectedRuleChanged
    s!"protected RuleID set changed from {debugIds self.ids} to {debugIds candidate.ids}")
  let _ ← collect (enforceRule candidate) self.rules

theorem enforceRule_ok (h : enforceRule candidate expected = .ok u) :
    expected ∈ candidate.rules := by
  simp only [enforceRule, bind_ok, need_ok, ensure_ok, decide_eq_true_eq] at h
  obtain ⟨actual, hfind, hrule⟩ := h
  have hid : actual.id = expected.id := by simpa using List.find?_some hfind
  have heq : actual = expected := by
    cases actual
    cases expected
    simp_all
  exact heq ▸ List.mem_of_find?_eq_some hfind

/-- A candidate passes only with the very same protected rules. -/
theorem eq_of_enforce (h : enforce self candidate = .ok u) : self = candidate := by
  simp only [enforce, bind_ok, ensure_ok, decide_eq_true_eq] at h
  obtain ⟨-, hlength, _, hrules, -⟩ := h
  have hsubset : self.rules ⊆ candidate.rules := fun expected hexpected => by
    obtain ⟨_, hrule⟩ := forall₂_left (collect_ok_iff.mp hrules) hexpected
    exact enforceRule_ok hrule
  have hnodup : self.rules.Nodup := self.sorted.imp fun hlt heq => (heq ▸ hlt).false
  have hperm : self.rules.Perm candidate.rules :=
    (List.subperm_of_subset hnodup hsubset).perm_of_length_le hlength.ge
  have hlt : ∀ a b : ProtectedRule, a.id < b.id → b.id < a.id → a = b :=
    fun _ _ hab hba => absurd hba hab.asymm
  exact ProtectedRules.ext (hperm.eq_of_pairwise (fun a b _ _ => hlt a b)
    self.sorted candidate.sorted)

theorem enforce_self (self : ProtectedRules) : enforce self self = .ok () := by
  have hrule : ∀ expected ∈ self.rules, enforceRule self expected = .ok () := by
    intro expected hexpected
    have hfind : self.rules.find? (·.id = expected.id) = some expected := by
      cases hfound : self.rules.find? (·.id = expected.id) with
      | none => simpa using List.find?_eq_none.mp hfound expected hexpected
      | some actual =>
        have hid : actual.id = expected.id := by simpa using List.find?_some hfound
        have hunique : self.rules.Pairwise fun left right => left.id ≠ right.id :=
          self.sorted.imp fun hlt heq => (heq ▸ hlt).false
        rw [List.inj_on_of_nodup_map (List.pairwise_map.mpr hunique)
          (List.mem_of_find?_eq_some hfound) hexpected hid]
    simp [enforceRule, hfind, bind_ok, need_ok, ensure_ok]
  obtain ⟨_, hcollect⟩ := collect_total (g := fun _ => ()) hrule
  simp [enforce, bind_ok, ensure_ok, hcollect]

end ProtectedRules

end SchcCoreconf
