import Mathlib.Data.List.Basic

/-!
# Runs, and a cell with its past

A run applies a list of inputs to a state, one step each. What every step
preserves, a run of any length preserves (`run_invariant`), and a reflexive and
transitive relation that holds over every step holds over the run (`run_rel`).

`ArcSwap` is an atomically replaced shared value. It remembers the values it has
held, so that one can speak of the publications of a run.
-/

namespace Runs

def run (step : σ → ι → σ) (state : σ) (inputs : List ι) : σ := inputs.foldl step state

@[simp] theorem run_nil (step : σ → ι → σ) : run step state [] = state := rfl

@[simp] theorem run_cons (step : σ → ι → σ) :
    run step state (input :: rest) = run step (step state input) rest := rfl

theorem run_append (step : σ → ι → σ) :
    run step state (first ++ second) = run step (run step state first) second :=
  List.foldl_append ..

theorem run_invariant {step : σ → ι → σ} {Inv : σ → Prop}
    (hstep : ∀ state input, Inv state → Inv (step state input)) (h : Inv state) :
    Inv (run step state inputs) := by
  induction inputs generalizing state with
  | nil => exact h
  | cons input rest ih => exact ih (hstep state input h)

theorem run_rel {step : σ → ι → σ} {R : σ → σ → Prop} (hrefl : ∀ state, R state state)
    (htrans : ∀ a b c, R a b → R b c → R a c) (hstep : ∀ state input, R state (step state input)) :
    R state (run step state inputs) := by
  induction inputs generalizing state with
  | nil => exact hrefl state
  | cons input rest ih => exact htrans _ _ _ (hstep state input) ih

end Runs

/-- `arc_swap::ArcSwap`: the current value, and the earlier ones, latest first. -/
structure ArcSwap (α : Type u) where
  current : α
  previous : List α

namespace ArcSwap

def fromPointee (value : α) : ArcSwap α := { current := value, previous := [] }

def store (self : ArcSwap α) (value : α) : ArcSwap α :=
  { current := value, previous := self.current :: self.previous }

def values (self : ArcSwap α) : List α := self.current :: self.previous

def stores (self : ArcSwap α) : Nat := self.previous.length

@[simp] theorem mem_values_store (self : ArcSwap α) :
    v ∈ (self.store value).values ↔ v = value ∨ v ∈ self.values := by
  simp [values, store]

end ArcSwap
