import Mathlib.Data.List.Basic

/-!
# Updating the first member that matches

`updateFirst p f` changes the first member of a list that satisfies `p`, the
one `find? p` finds. Where the change keeps `p`, finding and updating obey the
laws of a store with one cell.
-/

namespace FirstMatch

variable {α β : Type*}

def updateFirst (p : α → Bool) (f : α → α) : List α → List α
  | [] => []
  | x :: xs => if p x then f x :: xs else x :: updateFirst p f xs

theorem find?_updateFirst {p : α → Bool} {f : α → α} (h : ∀ x, p x = true → p (f x) = true)
    (items : List α) : (updateFirst p f items).find? p = (items.find? p).map f := by
  induction items with
  | nil => rfl
  | cons x xs ih =>
    by_cases hx : p x = true
    · simp [updateFirst, hx, h x hx]
    · simp [updateFirst, hx, ih]

theorem find?_updateFirst_of_disjoint {p q : α → Bool} {f : α → α}
    (hdisjoint : ∀ x, p x = true → q x = false ∧ q (f x) = false) (items : List α) :
    (updateFirst p f items).find? q = items.find? q := by
  induction items with
  | nil => rfl
  | cons x xs ih =>
    by_cases hx : p x = true
    · simp [updateFirst, hx, hdisjoint x hx]
    · simp [updateFirst, hx, List.find?_cons, ih]

theorem updateFirst_append {p : α → Bool} {f : α → α} {x : α} {before : List α}
    (hbefore : ∀ y ∈ before, p y = false) (hx : p x = true) (after : List α) :
    updateFirst p f (before ++ x :: after) = before ++ f x :: after := by
  induction before with
  | nil => simp [updateFirst, hx]
  | cons y before ih =>
    have hy : p y = false := hbefore y List.mem_cons_self
    simp [updateFirst, hy, ih fun z hz => hbefore z (List.mem_cons_of_mem y hz)]

theorem updateFirst_of_find?_none {p : α → Bool} {f : α → α} {items : List α}
    (h : items.find? p = none) : updateFirst p f items = items := by
  induction items with
  | nil => rfl
  | cons x xs ih =>
    rw [List.find?_cons] at h
    split at h
    · cases h
    · next hx => simp [updateFirst, hx, ih h]

theorem updateFirst_updateFirst {p : α → Bool} {f g : α → α}
    (h : ∀ x, p x = true → p (f x) = true) (items : List α) :
    updateFirst p g (updateFirst p f items) = updateFirst p (g ∘ f) items := by
  induction items with
  | nil => rfl
  | cons x xs ih =>
    by_cases hx : p x = true
    · simp [updateFirst, hx, h x hx]
    · simp [updateFirst, hx, ih]

theorem updateFirst_congr {p : α → Bool} {f g : α → α} {items : List α}
    (h : ∀ x, items.find? p = some x → f x = g x) :
    updateFirst p f items = updateFirst p g items := by
  induction items with
  | nil => rfl
  | cons x xs ih =>
    by_cases hx : p x = true
    · simp [updateFirst, hx, h x (by simp [hx])]
    · rw [updateFirst, updateFirst, if_neg hx, if_neg hx, ih fun y hy => h y (by simp [hx, hy])]

theorem updateFirst_id {p : α → Bool} {f : α → α} {items : List α}
    (h : ∀ x, items.find? p = some x → f x = x) : updateFirst p f items = items := by
  induction items with
  | nil => rfl
  | cons x xs ih =>
    by_cases hx : p x = true
    · simp [updateFirst, hx, h x (by simp [hx])]
    · rw [updateFirst, if_neg hx, ih fun y hy => h y (by simp [hx, hy])]

theorem forall₂_updateFirst {R : α → β → Prop} {p : α → Bool} {f : α → α} {items : List α}
    {others : List β} (h : List.Forall₂ R items others)
    (hf : ∀ x y, items.find? p = some x → R x y → R (f x) y) :
    List.Forall₂ R (updateFirst p f items) others := by
  induction h with
  | nil => exact .nil
  | @cons x y xs ys hxy hrest ih =>
    by_cases hx : p x = true
    · rw [updateFirst, if_pos hx]
      exact .cons (hf x y (by rw [List.find?_cons, hx]) hxy) hrest
    · rw [updateFirst, if_neg hx]
      refine .cons hxy (ih fun z w hz => hf z w ?_)
      rw [List.find?_cons, Bool.eq_false_iff.mpr hx]
      exact hz

theorem map_updateFirst {p : α → Bool} {f : α → α} {g : α → β} (h : ∀ x, p x = true → g (f x) = g x)
    (items : List α) : (updateFirst p f items).map g = items.map g := by
  induction items with
  | nil => rfl
  | cons x xs ih =>
    by_cases hx : p x = true
    · simp [updateFirst, hx, h x hx]
    · simp [updateFirst, hx, ih]

end FirstMatch
