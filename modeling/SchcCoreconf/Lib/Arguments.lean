import Mathlib.Data.List.Forall2
import Mathlib.Data.List.Nodup
import SchcCoreconf.Lib.Fallible

/-!
# Arguments in any order

A reader that takes its words one by one, each as an item of some key, and
refuses an item when it has one of that key. What it has in the end are the
items the words spell, their keys distinct, in whatever order they come. The
words themselves are the stretches of a text between separators.
-/

namespace Arguments

open Fallible

-- ---------------------------------------------------------------------------
-- Words
-- ---------------------------------------------------------------------------

theorem not_of_mem_splitOnP {p : α → Bool} {xs word : List α} (h : word ∈ xs.splitOnP p) :
    ∀ c ∈ word, p c = false := by
  induction xs generalizing word with
  | nil =>
    rw [List.splitOnP_nil, List.mem_singleton] at h
    subst h
    exact nofun
  | cons x xs ih =>
    rw [List.splitOnP_cons_eq_if_modifyHead] at h
    split at h
    · rcases List.mem_cons.mp h with rfl | h
      · exact nofun
      · exact ih h
    · next hx =>
      cases hwords : xs.splitOnP p with
      | nil => exact absurd hwords (List.splitOnP_ne_nil p xs)
      | cons first rest =>
        rw [hwords] at h ih
        rcases List.mem_cons.mp h with rfl | h
        · intro c hc
          rcases List.mem_cons.mp hc with rfl | hc
          · exact Bool.eq_false_iff.mpr hx
          · exact ih List.mem_cons_self c hc
        · exact ih (List.mem_cons_of_mem _ h)

theorem eq_append_cons_iff [DecidableEq α] {sep : α} {text before after : List α} :
    text = before ++ sep :: after ∧ sep ∉ before ↔
      text.takeWhile (· ≠ sep) = before ∧ ∃ c, text.drop before.length = c :: after := by
  constructor
  · rintro ⟨rfl, hfirst⟩
    have hbefore : ∀ c ∈ before, decide (c ≠ sep) = true := fun c hc =>
      decide_eq_true fun heq => hfirst (heq ▸ hc)
    refine ⟨?_, sep, List.drop_left⟩
    rw [List.takeWhile_append_of_pos hbefore, List.takeWhile_cons_of_neg (by simp), List.append_nil]
  · rintro ⟨rfl, c, hdrop⟩
    have hsplit := List.takeWhile_append_dropWhile (p := fun c => decide (c ≠ sep)) (l := text)
    have hrest := (congrArg (List.drop (text.takeWhile (· ≠ sep)).length) hsplit.symm).trans
      List.drop_left
    have hc := List.head?_dropWhile_not (fun c => decide (c ≠ sep)) text
    rw [hrest] at hdrop
    rw [hdrop] at hc
    have hc : c = sep := not_not.mp (of_decide_eq_false hc)
    constructor
    · rw [hc] at hdrop
      rw [← hdrop, hsplit]
    · intro hmem
      have hall := List.all_eq_true.mp
        (List.all_takeWhile (p := fun c => decide (c ≠ sep)) (l := text))
      exact of_decide_eq_true (hall sep hmem) rfl

-- ---------------------------------------------------------------------------
-- A reader of items
-- ---------------------------------------------------------------------------

variable {step : σ → ω → Except ε σ} {good : ω → Prop} {spells : α → ω → Prop} {key : α → κ}
  {has : σ → α → Prop} {take : σ → α → σ}

/-- No item that the state has is of this item's key. -/
def Fresh (key : α → κ) (has : σ → α → Prop) (state : σ) (item : α) : Prop :=
  ∀ other, has state other → key other ≠ key item

structure Reads (step : σ → ω → Except ε σ) (good : ω → Prop) (spells : α → ω → Prop) (key : α → κ)
    (has : σ → α → Prop) (take : σ → α → σ) : Prop where
  step_ok : ∀ {state next word}, good word → (step state word = .ok next ↔
    ∃ item, spells item word ∧ Fresh key has state item ∧ next = take state item)
  has_take : ∀ {state item other}, Fresh key has state item →
    (has (take state item) other ↔ other = item ∨ has state other)

namespace Reads

theorem fresh_take (reads : Reads step good spells key has take)
    (hfresh : Fresh key has state item) :
    Fresh key has (take state item) other ↔ key item ≠ key other ∧ Fresh key has state other := by
  constructor
  · intro h
    exact ⟨h item ((reads.has_take hfresh).mpr (.inl rfl)),
      fun known hknown => h known ((reads.has_take hfresh).mpr (.inr hknown))⟩
  · rintro ⟨hne, h⟩ known hknown
    rcases (reads.has_take hfresh).mp hknown with rfl | hknown
    · exact hne
    · exact h known hknown

/-- The words are read when they spell items of distinct keys that the state does not have. -/
theorem run_ok (reads : Reads step good spells key has take) {words : List ω}
    (hgood : ∀ word ∈ words, good word) :
    words.foldlM step state = .ok final ↔ ∃ items, List.Forall₂ spells items words ∧
      (items.map key).Nodup ∧ (∀ item ∈ items, Fresh key has state item) ∧
      final = items.foldl take state := by
  induction words generalizing state with
  | nil =>
    constructor
    · rintro ⟨⟩
      exact ⟨[], .nil, .nil, nofun, rfl⟩
    · rintro ⟨_, ⟨⟩, -, -, rfl⟩
      rfl
  | cons word words ih =>
    have hrest : ∀ word ∈ words, good word := fun word hmem =>
      hgood word (List.mem_cons_of_mem _ hmem)
    rw [List.foldlM_cons, bind_ok]
    constructor
    · rintro ⟨next, hstep, hrun⟩
      obtain ⟨item, hspells, hfresh, rfl⟩ :=
        (reads.step_ok (hgood word List.mem_cons_self)).mp hstep
      obtain ⟨items, hwords, hkeys, hnew, rfl⟩ := (ih hrest).mp hrun
      have hdistinct (other : α) (hother : other ∈ items) :=
        (reads.fresh_take hfresh).mp (hnew other hother)
      refine ⟨item :: items, .cons hspells hwords, ?_, ?_, rfl⟩
      · rw [List.map_cons, List.nodup_cons]
        refine ⟨fun hmem => ?_, hkeys⟩
        obtain ⟨other, hother, hkey⟩ := List.mem_map.mp hmem
        exact (hdistinct other hother).1 hkey.symm
      · exact List.forall_mem_cons.mpr ⟨hfresh, fun other hother => (hdistinct other hother).2⟩
    · rintro ⟨_, hwords, hkeys, hnew, rfl⟩
      cases hwords with
      | @cons item _ items _ hspells hwords =>
        rw [List.map_cons, List.nodup_cons] at hkeys
        obtain ⟨hfresh, hnew⟩ := List.forall_mem_cons.mp hnew
        refine ⟨take state item, (reads.step_ok (hgood word List.mem_cons_self)).mpr
          ⟨item, hspells, hfresh, rfl⟩, (ih hrest).mpr ⟨items, hwords, hkeys.2, ?_, rfl⟩⟩
        intro other hother
        refine (reads.fresh_take hfresh).mpr ⟨fun hkey => hkeys.1 ?_, hnew other hother⟩
        exact List.mem_map.mpr ⟨other, hother, hkey.symm⟩

theorem has_foldl (reads : Reads step good spells key has take) {items : List α}
    (hkeys : (items.map key).Nodup) (hnew : ∀ item ∈ items, Fresh key has state item) :
    has (items.foldl take state) other ↔ other ∈ items ∨ has state other := by
  induction items generalizing state with
  | nil => simp
  | cons item items ih =>
    rw [List.map_cons, List.nodup_cons] at hkeys
    obtain ⟨hfresh, hnew⟩ := List.forall_mem_cons.mp hnew
    rw [List.foldl_cons, ih hkeys.2, reads.has_take hfresh, List.mem_cons, or_assoc, or_left_comm]
    intro other hother
    refine (reads.fresh_take hfresh).mpr ⟨fun hkey => hkeys.1 ?_, hnew other hother⟩
    exact List.mem_map.mpr ⟨other, hother, hkey.symm⟩

end Reads

end Arguments
