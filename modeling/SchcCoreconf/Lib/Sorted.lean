import Mathlib.Data.List.Sort
import Mathlib.Data.List.Destutter

/-!
# Sorted lists without repetitions

`sortDedup` sorts and then drops adjacent repetitions. For an antisymmetric
order the result is strictly sorted, so it depends only on which elements the
list has (`sortDedup_congr`).
-/

namespace Sorted

/-- The preorder by a key, for sorts that keep equal keys in place. -/
def byKey [LinearOrder κ] (key : α → κ) (a b : α) : Prop := key a ≤ key b

instance [LinearOrder κ] (key : α → κ) : DecidableRel (byKey key) :=
  fun a b => inferInstanceAs (Decidable (key a ≤ key b))

instance [LinearOrder κ] (key : α → κ) : Std.Total (byKey key) :=
  ⟨fun a b => le_total (key a) (key b)⟩

instance [LinearOrder κ] (key : α → κ) : IsTrans α (byKey key) := ⟨fun _ _ _ => le_trans⟩

theorem strict_insertionSort [LinearOrder κ] {key : α → κ} {l : List α}
    (h : l.Pairwise fun a b => key a ≠ key b) :
    (l.insertionSort (byKey key)).Pairwise fun a b => key a < key b := by
  have hdistinct : (l.insertionSort (byKey key)).Pairwise fun a b => key a ≠ key b :=
    (List.perm_insertionSort _ l).symm.pairwise h Ne.symm
  exact (List.pairwise_insertionSort (byKey key) l).imp₂ (fun _ _ => lt_of_le_of_ne) hdistinct

theorem least_of_insertionSort [LinearOrder κ] {key : α → κ} {l : List α}
    (h : l.insertionSort (byKey key) = first :: rest) : first ∈ l ∧ ∀ a ∈ l, key first ≤ key a := by
  have hsorted := List.pairwise_insertionSort (byKey key) l
  rw [h, List.pairwise_cons] at hsorted
  have hmem (a : α) : a ∈ l ↔ a = first ∨ a ∈ rest := by
    rw [← List.mem_insertionSort (byKey key), h, List.mem_cons]
  refine ⟨(hmem first).mpr (.inl rfl), fun a ha => ?_⟩
  rcases (hmem a).mp ha with rfl | hrest
  · exact le_rfl
  · exact hsorted.1 a hrest

theorem find?_orderedInsert [LinearOrder κ] {key : α → κ} {k : κ} (a : α) (l : List α) :
    (l.orderedInsert (byKey key) a).find? (fun b => key b = k) =
      (a :: l).find? fun b => key b = k := by
  induction l with
  | nil => rfl
  | cons b l ih =>
    by_cases hab : byKey key a b
    · rw [List.orderedInsert_cons_of_le (byKey key) l hab]
    · -- what stands before the new member has a smaller key
      rw [List.orderedInsert_of_not_le (byKey key) l hab, List.find?_cons, ih]
      have hlt : key b < key a := not_le.mp hab
      by_cases hb : key b = k
      · simp [hb, (hb ▸ hlt).ne']
      · simp [List.find?_cons, hb]

theorem find?_insertionSort [LinearOrder κ] {key : α → κ} {k : κ} (l : List α) :
    (l.insertionSort (byKey key)).find? (fun a => key a = k) = l.find? fun a => key a = k := by
  induction l with
  | nil => rfl
  | cons a l ih =>
    rw [List.insertionSort_cons, find?_orderedInsert, List.find?_cons, List.find?_cons, ih]

theorem eq_of_strict [LinearOrder κ] {key : α → κ} {l l' : List α}
    (hl : l.Pairwise fun a b => key a < key b) (hl' : l'.Pairwise fun a b => key a < key b)
    (h : ∀ a, a ∈ l ↔ a ∈ l') : l = l' := by
  have hanti : Std.Antisymm fun a b : α => key a < key b :=
    ⟨fun a b hab hba => absurd hba hab.asymm⟩
  have hirrefl : Std.Irrefl fun a b : α => key a < key b := ⟨fun a => lt_irrefl (key a)⟩
  exact List.Pairwise.eq_of_mem_iff hl hl' fun {a} => h a

theorem insertionSort_congr [LinearOrder κ] {key : α → κ} {l l' : List α} (h : l.Perm l')
    (hdistinct : (l.map key).Nodup) :
    l.insertionSort (byKey key) = l'.insertionSort (byKey key) := by
  have hkeys {m : List α} (hm : (m.map key).Nodup) : m.Pairwise fun a b => key a ≠ key b :=
    List.pairwise_map.mp hm
  refine eq_of_strict (strict_insertionSort (hkeys hdistinct))
    (strict_insertionSort (hkeys ((h.map key).nodup_iff.mp hdistinct))) fun a => ?_
  rw [List.mem_insertionSort, List.mem_insertionSort, h.mem_iff]

theorem eq_of_perm_of_map {key : α → κ} {l l' : List α} (h : l.Perm l')
    (hkeys : l.map key = l'.map key) (hdistinct : (l.map key).Nodup) : l = l' := by
  induction l generalizing l' with
  | nil => exact h.nil_eq
  | cons a l ih =>
    cases l' with
    | nil => cases hkeys
    | cons b l' =>
      obtain ⟨hkey, hrest⟩ := List.cons.inj hkeys
      obtain ⟨hnew, hdistinct⟩ := List.nodup_cons.mp hdistinct
      have hab : a = b := by
        rcases List.mem_cons.mp (h.mem_iff.mp List.mem_cons_self) with hab | hmem
        · exact hab
        · exact absurd (hrest ▸ List.mem_map_of_mem hmem) hnew
      subst hab
      rw [ih h.cons_inv hrest hdistinct]

/-- `Vec::dedup`: of equal neighbours only the first stays. -/
def dedup [DecidableEq α] (l : List α) : List α := l.destutter (· ≠ ·)

theorem mem_destutter'_ne [DecidableEq α] {l : List α} {a x : α} :
    x ∈ l.destutter' (· ≠ ·) a ↔ x = a ∨ x ∈ l := by
  induction l generalizing a with
  | nil => simp
  | cons b rest ih =>
    by_cases h : a = b
    · rw [List.destutter'_cons_neg _ (by simpa using h), ih, List.mem_cons]
      subst h
      tauto
    · rw [List.destutter'_cons_pos _ h, List.mem_cons, ih, List.mem_cons]

@[simp] theorem mem_dedup [DecidableEq α] {l : List α} {x : α} : x ∈ dedup l ↔ x ∈ l := by
  cases l with
  | nil => simp [dedup]
  | cons a rest => rw [dedup, List.destutter_cons', mem_destutter'_ne, List.mem_cons]

variable {r : α → α → Prop} [DecidableRel r] [Std.Total r] [IsTrans α r] [Std.Antisymm r]

omit [DecidableRel r] [Std.Total r] in
theorem pairwise_dedup [DecidableEq α] {l : List α} (h : l.Pairwise r) :
    (dedup l).Pairwise fun a b => r a b ∧ a ≠ b := by
  have hsorted : (dedup l).Pairwise r := h.sublist (List.destutter_sublist _ l)
  have hchain : (dedup l).IsChain (· ≠ ·) := List.isChain_destutter _ l
  have hboth : (dedup l).IsChain fun a b => r a b ∧ a ≠ b := by
    refine List.isChain_iff_getElem.mpr fun i hi => ⟨?_, ?_⟩
    · exact List.pairwise_iff_getElem.mp hsorted i (i + 1) _ hi (by omega)
    · exact List.isChain_iff_getElem.mp hchain i hi
  have htrans : IsTrans α fun a b => r a b ∧ a ≠ b := by
    refine ⟨fun a b c hab hbc => ⟨IsTrans.trans a b c hab.1 hbc.1, ?_⟩⟩
    rintro rfl
    exact hab.2 (antisymm hab.1 hbc.1)
  exact List.isChain_iff_pairwise.mp hboth

/-- `sort` followed by `dedup`. -/
def sortDedup (r : α → α → Prop) [DecidableRel r] [DecidableEq α] (l : List α) : List α :=
  dedup (l.insertionSort r)

omit [Std.Total r] [IsTrans α r] [Std.Antisymm r] in
@[simp] theorem mem_sortDedup [DecidableEq α] {l : List α} {x : α} :
    x ∈ sortDedup r l ↔ x ∈ l := by
  rw [sortDedup, mem_dedup, List.mem_insertionSort]

theorem pairwise_sortDedup [DecidableEq α] {l : List α} :
    (sortDedup r l).Pairwise fun a b => r a b ∧ a ≠ b :=
  pairwise_dedup (List.pairwise_insertionSort r l)

theorem sortDedup_congr [DecidableEq α] {l l' : List α} (h : ∀ x, x ∈ l ↔ x ∈ l') :
    sortDedup r l = sortDedup r l' := by
  have hanti : Std.Antisymm fun a b => r a b ∧ a ≠ b := ⟨fun a b hab hba => antisymm hab.1 hba.1⟩
  have hirrefl : Std.Irrefl fun a b => r a b ∧ a ≠ b := ⟨fun a h => h.2 rfl⟩
  exact List.Pairwise.eq_of_mem_iff pairwise_sortDedup pairwise_sortDedup
    fun {x} => by rw [mem_sortDedup, mem_sortDedup, h]

end Sorted
