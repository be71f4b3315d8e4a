import Mathlib.Data.List.Sort
import Mathlib.Order.Bounds.Basic
import Mathlib.Order.MinMax

/-!
# Half-open intervals and the least point they leave free

An interval `(s, e)` over a linear order covers the points from `s` up to but
not including `e`. `coalesce` merges a list sorted by start, `firstGap` walks
such a list once, and together they find the least point of a range that no
interval covers.
-/

namespace Intervals

variable {α : Type*} [LinearOrder α]

def Covered (intervals : List (α × α)) (x : α) : Prop :=
  ∃ i ∈ intervals, i.1 ≤ x ∧ x < i.2

def StartSorted (intervals : List (α × α)) : Prop :=
  intervals.Pairwise fun i j => i.1 ≤ j.1

def lexLe (i j : α × α) : Prop := i.1 < j.1 ∨ i.1 = j.1 ∧ i.2 ≤ j.2

instance : DecidableRel (lexLe (α := α)) := fun _ _ => inferInstanceAs (Decidable (_ ∨ _))

instance : Std.Total (lexLe (α := α)) where
  total i j := by
    unfold lexLe
    rcases lt_trichotomy i.1 j.1 with h | h | h
    · exact .inl (.inl h)
    · exact (le_total i.2 j.2).imp (fun hle => .inr ⟨h, hle⟩) fun hle => .inr ⟨h.symm, hle⟩
    · exact .inr (.inl h)

instance : IsTrans (α × α) lexLe where
  trans i j k := by
    rintro (h | ⟨h, hle⟩) (h' | ⟨h', hle'⟩)
    · exact .inl (h.trans h')
    · exact .inl (h.trans_eq h')
    · exact .inl (h.trans_lt h')
    · exact .inr ⟨h.trans h', hle.trans hle'⟩

theorem lexLe.start_le {i j : α × α} (h : lexLe i j) : i.1 ≤ j.1 := by
  rcases h with h | ⟨h, -⟩
  · exact h.le
  · exact h.le

@[simp] theorem covered_nil {x : α} : Covered [] x ↔ False := by simp [Covered]

@[simp] theorem covered_cons {i : α × α} {rest : List (α × α)} {x : α} :
    Covered (i :: rest) x ↔ (i.1 ≤ x ∧ x < i.2) ∨ Covered rest x := by
  simp [Covered]

theorem covered_perm {l l' : List (α × α)} (h : l.Perm l') {x : α} :
    Covered l x ↔ Covered l' x := by
  simp [Covered, h.mem_iff]

theorem startSorted_insertionSort (l : List (α × α)) : StartSorted (l.insertionSort lexLe) :=
  (List.pairwise_insertionSort lexLe l).imp lexLe.start_le

theorem covered_insertionSort {l : List (α × α)} {x : α} :
    Covered (l.insertionSort lexLe) x ↔ Covered l x :=
  covered_perm (List.perm_insertionSort lexLe l)

-- ---------------------------------------------------------------------------
-- Merging
-- ---------------------------------------------------------------------------

/-- One merging step; the merged intervals are kept last first. -/
def extend (merged : List (α × α)) (i : α × α) : List (α × α) :=
  match merged with
  | [] => [i]
  | last :: earlier =>
    if i.1 ≤ last.2 then (last.1, max last.2 i.2) :: earlier else i :: last :: earlier

def coalesce (intervals : List (α × α)) : List (α × α) :=
  (intervals.foldl extend []).reverse

/-- The merged intervals are in falling order of start, and none starts after `i`. -/
def Behind (merged : List (α × α)) (i : α × α) : Prop :=
  merged.Pairwise (fun j k => k.1 ≤ j.1) ∧ ∀ j ∈ merged, j.1 ≤ i.1

theorem behind_nil {i : α × α} : Behind [] i := ⟨.nil, fun _ h => absurd h List.not_mem_nil⟩

theorem behind_extend {merged : List (α × α)} {i k : α × α} (h : Behind merged i) (hk : i.1 ≤ k.1) :
    Behind (extend merged i) k := by
  obtain ⟨hsorted, hle⟩ := h
  cases merged with
  | nil => simpa [extend, Behind] using hk
  | cons last earlier =>
    simp only [List.pairwise_cons] at hsorted
    have hlast : last.1 ≤ i.1 := hle last List.mem_cons_self
    simp only [extend]
    split
    · refine ⟨List.pairwise_cons.mpr hsorted, ?_⟩
      rintro j (_ | ⟨_, hj⟩)
      · exact hlast.trans hk
      · exact (hle j (List.mem_cons_of_mem _ hj)).trans hk
    · refine ⟨List.pairwise_cons.mpr ⟨hle, List.pairwise_cons.mpr hsorted⟩, ?_⟩
      rintro j (_ | ⟨_, hj⟩)
      · exact hk
      · exact (hle j hj).trans hk

theorem covered_extend {merged : List (α × α)} {i : α × α} {x : α} (h : Behind merged i) :
    Covered (extend merged i) x ↔ Covered merged x ∨ (i.1 ≤ x ∧ x < i.2) := by
  cases merged with
  | nil => simp [extend]
  | cons last earlier =>
    have hle : last.1 ≤ i.1 := h.2 last List.mem_cons_self
    simp only [extend]
    split
    · next hmeet =>
      simp only [covered_cons, lt_max_iff]
      constructor
      · rintro (⟨hx, h | h⟩ | h)
        · exact .inl (.inl ⟨hx, h⟩)
        · -- the point may lie before the new interval, inside the one it joins
          rcases lt_or_ge x i.1 with hlt | hge
          · exact .inl (.inl ⟨hx, hlt.trans_le hmeet⟩)
          · exact .inr ⟨hge, h⟩
        · exact .inl (.inr h)
      · rintro ((⟨hx, h⟩ | h) | ⟨hx, h⟩)
        · exact .inl ⟨hx, .inl h⟩
        · exact .inr h
        · exact .inl ⟨hle.trans hx, .inr h⟩
    · simp only [covered_cons]
      tauto

theorem foldl_extend {intervals merged : List (α × α)} (hsorted : StartSorted intervals)
    (hfirst : ∀ i ∈ intervals, Behind merged i) (hmerged : merged.Pairwise fun j k => k.1 ≤ j.1) :
    (intervals.foldl extend merged).Pairwise (fun j k => k.1 ≤ j.1) ∧
      ∀ x, Covered (intervals.foldl extend merged) x ↔ Covered merged x ∨ Covered intervals x := by
  induction intervals generalizing merged with
  | nil => simpa using hmerged
  | cons i rest ih =>
    obtain ⟨hstart, hrest⟩ := List.pairwise_cons.mp hsorted
    have hbehind : Behind merged i := hfirst i List.mem_cons_self
    have hself : Behind (extend merged i) i := behind_extend hbehind le_rfl
    obtain ⟨hpair, hcov⟩ := ih hrest (fun j hj => behind_extend hbehind (hstart j hj)) hself.1
    refine ⟨hpair, fun x => ?_⟩
    rw [List.foldl_cons, hcov, covered_extend hbehind, covered_cons, or_assoc]

theorem startSorted_coalesce {intervals : List (α × α)} (h : StartSorted intervals) :
    StartSorted (coalesce intervals) := by
  have hfold := (foldl_extend h (fun _ _ => behind_nil) .nil).1
  exact List.pairwise_reverse.mpr hfold

theorem covered_coalesce {intervals : List (α × α)} (h : StartSorted intervals) {x : α} :
    Covered (coalesce intervals) x ↔ Covered intervals x := by
  have hfold := (foldl_extend h (fun _ _ => behind_nil) .nil).2 x
  rw [coalesce, covered_perm (List.reverse_perm _), hfold]
  simp

-- ---------------------------------------------------------------------------
-- The first gap
-- ---------------------------------------------------------------------------

/-- The first point from `candidate` on, below `hi`, that the listed intervals leave free. -/
def firstGap (hi : α) : α → List (α × α) → Option α
  | candidate, [] => if candidate < hi then some candidate else none
  | candidate, i :: rest =>
    if i.2 ≤ candidate then firstGap hi candidate rest
    else if candidate < i.1 then (if candidate < hi then some candidate else none)
    else if hi ≤ i.2 then none
    else firstGap hi i.2 rest

/-- The points a search from `lo` may return. -/
def gaps (lo hi : α) (intervals : List (α × α)) : Set α :=
  {x | lo ≤ x ∧ x < hi ∧ ¬ Covered intervals x}

theorem isLeast_gaps_self {lo hi : α} {intervals : List (α × α)} (hlt : lo < hi)
    (hfree : ¬ Covered intervals lo) : IsLeast (gaps lo hi intervals) lo :=
  ⟨⟨le_rfl, hlt, hfree⟩, fun _ hy => hy.1⟩

theorem gaps_eq_empty_of_le {lo hi : α} {intervals : List (α × α)} (h : hi ≤ lo) :
    gaps lo hi intervals = ∅ :=
  Set.eq_empty_of_forall_notMem fun _ hx => absurd (hx.1.trans_lt hx.2.1) h.not_gt

theorem gaps_cons_of_end_le {lo hi : α} {i : α × α} {rest : List (α × α)} (h : i.2 ≤ lo) :
    gaps lo hi (i :: rest) = gaps lo hi rest := by
  ext x
  simp only [gaps, Set.mem_ofPred_eq, covered_cons]
  refine and_congr_right fun hx => and_congr_right fun _ => not_congr ?_
  simp [not_lt.mpr (h.trans hx)]

theorem gaps_cons_of_contains {lo hi : α} {i : α × α} {rest : List (α × α)} (hs : i.1 ≤ lo)
    (he : lo < i.2) : gaps lo hi (i :: rest) = gaps i.2 hi rest := by
  ext x
  simp only [gaps, Set.mem_ofPred_eq, covered_cons, not_or, not_and, not_lt]
  constructor
  · rintro ⟨hlo, hhi, hi', hrest⟩
    exact ⟨hi' (hs.trans hlo), hhi, hrest⟩
  · rintro ⟨hend, hhi, hrest⟩
    exact ⟨he.le.trans hend, hhi, fun _ => hend, hrest⟩

theorem not_covered_of_lt_starts {intervals : List (α × α)} {x : α}
    (h : ∀ i ∈ intervals, x < i.1) : ¬ Covered intervals x := by
  rintro ⟨i, hi, hle, -⟩
  exact absurd hle (h i hi).not_ge

/-- The search returns the least gap, and nothing only when there is none. -/
theorem firstGap_spec {lo hi : α} {intervals : List (α × α)} (h : StartSorted intervals) :
    (∀ x, firstGap hi lo intervals = some x → IsLeast (gaps lo hi intervals) x) ∧
      (firstGap hi lo intervals = none → gaps lo hi intervals = ∅) := by
  induction intervals generalizing lo with
  | nil =>
    simp only [firstGap]
    split
    · next hlt => simpa using isLeast_gaps_self hlt (by simp)
    · next hge => simpa using gaps_eq_empty_of_le (not_lt.mp hge)
  | cons i rest ih =>
    obtain ⟨hstart, hrest⟩ := List.pairwise_cons.mp h
    simp only [firstGap]
    split
    · next hend => simpa only [gaps_cons_of_end_le hend] using ih hrest
    · next hend =>
      split
      · next hbefore =>
        have hfree : ¬ Covered (i :: rest) lo := by
          refine not_covered_of_lt_starts ?_
          rintro j (_ | ⟨_, hj⟩)
          · exact hbefore
          · exact hbefore.trans_le (hstart j hj)
        split
        · next hlt => simpa using isLeast_gaps_self hlt hfree
        · next hge => simpa using gaps_eq_empty_of_le (not_lt.mp hge)
      · next hstarts =>
        rw [gaps_cons_of_contains (not_lt.mp hstarts) (not_le.mp hend)]
        split
        · next hpast => simpa using gaps_eq_empty_of_le hpast
        · exact ih hrest

theorem firstGap_eq_some {lo hi x : α} {intervals : List (α × α)} (h : StartSorted intervals) :
    firstGap hi lo intervals = some x ↔ IsLeast (gaps lo hi intervals) x := by
  constructor
  · exact (firstGap_spec h).1 x
  · intro hx
    cases hgap : firstGap hi lo intervals with
    | none =>
      have hempty := (firstGap_spec h).2 hgap
      exact absurd hx.1 (by rw [hempty]; exact Set.notMem_empty x)
    | some y => rw [((firstGap_spec h).1 y hgap).unique hx]

theorem firstGap_eq_none {lo hi : α} {intervals : List (α × α)} (h : StartSorted intervals) :
    firstGap hi lo intervals = none ↔ gaps lo hi intervals = ∅ := by
  constructor
  · exact (firstGap_spec h).2
  · intro hempty
    cases hgap : firstGap hi lo intervals with
    | none => rfl
    | some y =>
      have hy := ((firstGap_spec h).1 y hgap).1
      exact absurd hy (by rw [hempty]; exact Set.notMem_empty y)

theorem gaps_insertionSort {lo hi : α} {intervals : List (α × α)} :
    gaps lo hi (intervals.insertionSort lexLe) = gaps lo hi intervals := by
  ext x
  simp [gaps, covered_insertionSort]

theorem gaps_coalesce {lo hi : α} {intervals : List (α × α)} (h : StartSorted intervals) :
    gaps lo hi (coalesce intervals) = gaps lo hi intervals := by
  ext x
  simp [gaps, covered_coalesce h]

end Intervals
