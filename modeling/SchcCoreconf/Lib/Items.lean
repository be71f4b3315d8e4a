import SchcCoreconf.Lib.Machine

/-!
# Sequences of items

A reader takes one item from the front of some input and says how much it took.
Run until the input ends, it cuts the input into items; a walk takes a step with
each item in turn. A walk by positions ends, stays inside the input and does what
the walk over the rest of the input does.
-/

namespace Items

open Fallible Machine

section
variable (read : List β → Except ε (α × Nat))

/-- A reader takes something, and nothing past the end. -/
def Consumes : Prop :=
  ∀ input item n, read input = .ok (item, n) → 0 < n ∧ n ≤ input.length

/-- The items of an input, each with what it was read from. -/
inductive Reads : List β → List (α × List β) → Prop
  | nil : Reads [] []
  | cons (hread : read (first :: rest) = .ok (item, n))
      (hrest : Reads ((first :: rest).drop n) items) :
      Reads (first :: rest) ((item, (first :: rest).take n) :: items)

end

section
variable {read : List β → Except ε (α × Nat)} {input : List β} {items : List (α × List β)}

theorem Reads.flatten (h : Reads read input items) : (items.map Prod.snd).flatten = input := by
  induction h with
  | nil => rfl
  | cons _ _ ih => rw [List.map_cons, List.flatten_cons, ih, List.take_append_drop]

theorem Reads.unique {items' : List (α × List β)} (h : Reads read input items)
    (h' : Reads read input items') : items = items' := by
  induction h generalizing items' with
  | nil =>
    cases h'
    rfl
  | cons hread _ ih =>
    cases h' with
    | cons hread' hrest' =>
      cases hread.symm.trans hread'
      rw [ih hrest']

theorem reads_one (hne : input ≠ []) (h : read input = .ok (item, input.length)) :
    Reads read input [(item, input)] := by
  obtain ⟨first, rest, rfl⟩ := List.exists_cons_of_ne_nil hne
  have hrest : Reads read ((first :: rest).drop (first :: rest).length) [] := by
    rw [List.drop_length]
    exact .nil
  have hreads := Reads.cons h hrest
  rwa [List.take_length] at hreads

theorem reads_mapError {f : ε → ε'} :
    Reads (fun input => (read input).mapError f) input items ↔ Reads read input items := by
  constructor
  · intro h
    induction h with
    | nil => exact .nil
    | cons hread _ ih => exact .cons (mapError_ok.mp hread) ih
  · intro h
    induction h with
    | nil => exact .nil
    | cons hread _ ih => exact .cons (mapError_ok.mpr hread) ih

theorem Consumes.mapError (h : Consumes read) (f : ε → ε') :
    Consumes fun input => (read input).mapError f :=
  fun _ _ _ hread => h _ _ _ (mapError_ok.mp hread)

end

-- ---------------------------------------------------------------------------
-- Walks
-- ---------------------------------------------------------------------------

section
variable (read : List β → Except ε (α × Nat)) (step : σ → α → List β → Except ε σ)

/-- A walk over the rest of the input. -/
def walk : Nat → List β → σ → Except ε σ
  | 0, _, state => .ok state
  | fuel + 1, input, state =>
    if input.isEmpty then .ok state
    else do
      let (item, n) ← read input
      walk fuel (input.drop n) (← step state item (input.take n))

def slice (input : List β) (start stop : Nat) : Option (List β) :=
  if start ≤ stop ∧ stop ≤ input.length then some ((input.drop start).take (stop - start)) else none

/-- A walk from a position on; out of fuel, it has not ended. -/
def walkFrom (input : List β) : Nat → Nat → σ → Checked ε σ
  | 0, _, _ => ExceptT.mk none
  | fuel + 1, position, state =>
    if position < input.length then do
      let (item, n) ← lift (read (input.drop position))
      let member ← arith (slice input position (position + n))
      walkFrom input fuel (position + n) (← lift (step state item member))
    else return state

variable {read step} {input : List β}

/-- A walk succeeds where the input is items and every step succeeds, in their order. -/
theorem walk_ok (hconsumes : Consumes read) (hfuel : input.length ≤ fuel) :
    walk read step fuel input state = .ok final ↔
      ∃ items, Reads read input items ∧
        items.foldlM (fun state item => step state item.1 item.2) state = .ok final := by
  induction fuel generalizing input state with
  | zero =>
    obtain rfl := List.length_eq_zero_iff.mp (Nat.le_zero.mp hfuel)
    constructor
    · rintro ⟨⟩
      exact ⟨[], .nil, rfl⟩
    · rintro ⟨_, ⟨⟩, hfold⟩
      exact hfold
  | succ fuel ih =>
    cases input with
    | nil =>
      constructor
      · rintro ⟨⟩
        exact ⟨[], .nil, rfl⟩
      · rintro ⟨_, ⟨⟩, hfold⟩
        exact hfold
    | cons first rest =>
      have hfewer {item : α} {n : Nat} (hread : read (first :: rest) = .ok (item, n)) :
          ((first :: rest).drop n).length ≤ fuel := by
        obtain ⟨hpos, -⟩ := hconsumes _ _ _ hread
        rw [List.length_drop]
        omega
      simp only [walk, List.isEmpty_cons, Bool.false_eq_true, if_false, bind_ok, Prod.exists]
      constructor
      · rintro ⟨item, n, hread, state', hstep, hwalk⟩
        obtain ⟨items, hitems, hfold⟩ := (ih (hfewer hread)).mp hwalk
        refine ⟨_, .cons hread hitems, ?_⟩
        rw [List.foldlM_cons, bind_ok]
        exact ⟨state', hstep, hfold⟩
      · rintro ⟨_, hitems, hfold⟩
        cases hitems with
        | cons hread hrest =>
          rw [List.foldlM_cons, bind_ok] at hfold
          obtain ⟨state', hstep, hfold⟩ := hfold
          exact ⟨_, _, hread, state', hstep, (ih (hfewer hread)).mpr ⟨_, hrest, hfold⟩⟩

theorem walkFrom_eq (hconsumes : Consumes read) {front rest : List β} (hfuel : rest.length ≤ fuel) :
    walkFrom read step (front ++ rest) (fuel + 1) front.length state =
      lift (walk read step fuel rest state) := by
  induction fuel generalizing front rest state with
  | zero =>
    obtain rfl := List.length_eq_zero_iff.mp (Nat.le_zero.mp hfuel)
    rw [walkFrom, if_neg (by simp)]
    rfl
  | succ fuel ih =>
    cases rest with
    | nil =>
      rw [walkFrom, if_neg (by simp)]
      rfl
    | cons first rest =>
      rw [walkFrom, if_pos (by simp), List.drop_left]
      simp only [walk, List.isEmpty_cons, Bool.false_eq_true, if_false]
      refine bind_lift fun pair hread => ?_
      obtain ⟨item, n⟩ := pair
      obtain ⟨hpos, hend⟩ := hconsumes _ _ _ hread
      have hslice : slice (front ++ first :: rest) front.length (front.length + n) =
          some ((first :: rest).take n) := by
        rw [slice, if_pos ⟨Nat.le_add_right _ _, by simpa using hend⟩, List.drop_left,
          Nat.add_sub_cancel_left]
      have hsplit : front ++ first :: rest =
          (front ++ (first :: rest).take n) ++ (first :: rest).drop n := by
        rw [List.append_assoc, List.take_append_drop]
      have hposition : front.length + n = (front ++ (first :: rest).take n).length := by
        rw [List.length_append, List.length_take_of_le hend]
      have hfewer : ((first :: rest).drop n).length ≤ fuel := by
        rw [List.length_drop]
        omega
      simp only [hslice, arith_some_bind]
      refine bind_lift fun state' _ => ?_
      rw [hposition, hsplit]
      exact ih hfewer

theorem walkFrom_start (hconsumes : Consumes read) (input : List β) (state : σ) :
    walkFrom read step input (input.length + 1) 0 state =
      lift (walk read step input.length input state) := by
  have h : walkFrom read step ([] ++ input) (input.length + 1) ([] : List β).length state = _ :=
    walkFrom_eq hconsumes le_rfl
  exact h

end

end Items
