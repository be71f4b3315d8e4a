import Mathlib.Data.List.Chain
import Mathlib.Logic.Relation
import SchcCoreconf.Lib.Fallible

/-!
# Programs that load a shared cell

A program loads the current value of a cell, as often as it likes, and answers.
`alone` is its answer where every load finds the same value, `answer` the one where
the loads find given values. In an interleaved run other writers may change the cell
before any load (`Interleaved`). A run on some loads runs the parts of its program on
parts of them (`Performs`).
-/

inductive Loads (ν α : Type) where
  | done (value : α)
  | load (next : ν → Loads ν α)

namespace Loads

def bind : Loads ν α → (α → Loads ν β) → Loads ν β
  | .done a, f => f a
  | .load next, f => .load fun value => (next value).bind f

instance : Monad (Loads ν) where
  pure := .done
  bind := bind

def current : Loads ν ν := .load .done

def alone (value : ν) : Loads ν α → α
  | .done a => a
  | .load next => (next value).alone value

def answer : Loads ν α → List ν → Option α
  | .done a, [] => some a
  | .load next, value :: rest => (next value).answer rest
  | _, _ => none

@[simp] theorem alone_pure {value : ν} {a : α} : alone value (pure a) = a := rfl

@[simp] theorem alone_bind {value : ν} {p : Loads ν α} {f : α → Loads ν β} :
    alone value (p >>= f) = alone value (f (alone value p)) := by
  induction p with
  | done a => rfl
  | load next ih => exact ih value

-- ---------------------------------------------------------------------------
-- Runs on given loads
-- ---------------------------------------------------------------------------

@[simp] theorem answer_pure {loaded : List ν} :
    answer (pure a) loaded = some b ↔ loaded = [] ∧ a = b := by
  show answer (.done a) loaded = some b ↔ _
  cases loaded <;> simp [answer]

@[simp] theorem answer_current {loaded : List ν} :
    answer current loaded = some value ↔ loaded = [value] := by
  show answer (.load .done) loaded = some value ↔ _
  rcases loaded with _ | ⟨first, _ | ⟨second, rest⟩⟩ <;> simp [answer]

theorem answer_bind {p : Loads ν α} {f : α → Loads ν β} {loaded : List ν} :
    answer (p >>= f) loaded = some b ↔ ∃ first rest a, loaded = first ++ rest ∧
      p.answer first = some a ∧ (f a).answer rest = some b := by
  constructor
  · intro h
    induction p generalizing loaded with
    | done a => exact ⟨[], loaded, a, rfl, rfl, h⟩
    | load next ih =>
      cases loaded with
      | nil => cases h
      | cons value loaded =>
        obtain ⟨first, rest, a, rfl, hfirst, hrest⟩ := ih value h
        exact ⟨value :: first, rest, a, rfl, hfirst, hrest⟩
  · rintro ⟨first, rest, a, rfl, hfirst, hrest⟩
    induction p generalizing first with
    | done value =>
      cases first with
      | nil =>
        cases hfirst
        exact hrest
      | cons => cases hfirst
    | load next ih =>
      cases first with
      | nil => cases hfirst
      | cons value first => exact ih value first hfirst

/-- A run on some loads runs a part of its program on some of them, to this answer. -/
inductive Performs (part : Loads ν β) (found : List ν) (b : β) :
    {α : Type} → Loads ν α → List ν → Prop where
  | first : part.answer found = some b → Performs part found b (part >>= f) (found ++ rest)
  | inFirst : Performs part found b p first → Performs part found b (p >>= f) (first ++ rest)
  | after : p.answer first = some a → Performs part found b (f a) rest →
      Performs part found b (p >>= f) (first ++ rest)

theorem Performs.answer_eq {part : Loads ν β} {p : Loads ν α} (h : Performs part found b p loaded) :
    part.answer found = some b := by
  induction h with
  | first h => exact h
  | inFirst _ ih => exact ih
  | after _ _ ih => exact ih

-- ---------------------------------------------------------------------------
-- Interleaved runs
-- ---------------------------------------------------------------------------

/-- A run among other writers: the values it loads, the states it passes, its answer. -/
inductive Interleaved (view : σ → ν) (writes : σ → σ → Prop) :
    Loads ν α → σ → List ν → List σ → α → Prop where
  | done : Interleaved view writes (.done a) s [] [s] a
  | load : Interleaved view writes (next (view s)) s loaded states a →
      Interleaved view writes (.load next) s (view s :: loaded) states a
  | write : writes s s' → Interleaved view writes p s' loaded states a →
      Interleaved view writes p s loaded (s :: states) a

variable {view : σ → ν} {writes : σ → σ → Prop} {p : Loads ν α}

namespace Interleaved

theorem start_mem (h : Interleaved view writes p s loaded states a) : s ∈ states := by
  induction h with
  | done => exact List.mem_singleton_self _
  | load _ ih => exact ih
  | write => exact List.mem_cons_self

theorem reached (h : Interleaved view writes p s loaded states a) :
    ∀ s' ∈ states, Relation.ReflTransGen writes s s' := by
  induction h with
  | done =>
    intro s' hs'
    rw [List.mem_singleton.mp hs']
  | load _ ih => exact ih
  | write hstep _ ih =>
    intro s' hs'
    rcases List.mem_cons.mp hs' with rfl | hs'
    · exact .refl
    · exact .head hstep (ih s' hs')

/-- What is loaded was current in a state of the run. -/
theorem loaded_current (h : Interleaved view writes p s loaded states a) (hv : v ∈ loaded) :
    ∃ s' ∈ states, view s' = v := by
  induction h with
  | done => cases hv
  | load hrest ih =>
    rcases List.mem_cons.mp hv with rfl | hv
    · exact ⟨_, hrest.start_mem, rfl⟩
    · exact ih hv
  | write _ _ ih =>
    obtain ⟨s', hs', hview⟩ := ih hv
    exact ⟨s', List.mem_cons_of_mem _ hs', hview⟩

/-- The answer depends on nothing but what was loaded. -/
theorem answer_eq (h : Interleaved view writes p s loaded states a) : p.answer loaded = some a := by
  induction h with
  | done => rfl
  | load _ ih => exact ih
  | write _ _ ih => exact ih

theorem split_load (h : Interleaved view writes p s (v :: later) states a) :
    ∃ s' ∈ states, view s' = v ∧ ∃ next states', (∀ state ∈ states', state ∈ states) ∧
      Interleaved view writes (next : Loads ν α) s' later states' a := by
  generalize hloaded : v :: later = loaded at h
  induction h with
  | done => cases hloaded
  | load hrest =>
    cases hloaded
    exact ⟨_, hrest.start_mem, rfl, _, _, fun _ hstate => hstate, hrest⟩
  | write _ _ ih =>
    obtain ⟨s', hs', hview, next, states', hstates, hrest⟩ := ih hloaded
    exact ⟨s', List.mem_cons_of_mem _ hs', hview, next, states',
      fun state hstate => List.mem_cons_of_mem _ (hstates state hstate), hrest⟩

theorem of_answer {found : List σ}
    (hchain : List.IsChain (fun s s' => s = s' ∨ writes s s') (s :: found))
    (h : p.answer (found.map view) = some a) :
    ∃ states, Interleaved view writes p s (found.map view) states a ∧
    ∀ s' ∈ states, s' ∈ s :: found := by
  induction found generalizing p s with
  | nil =>
    cases p with
    | done value =>
      cases h
      exact ⟨[s], .done, fun _ hs' => hs'⟩
    | load next => cases h
  | cons first rest ih =>
    cases p with
    | done value => cases h
    | load next =>
      obtain ⟨hstep, hrest⟩ := List.isChain_cons_cons.mp hchain
      obtain ⟨states, hrun, hstates⟩ := ih hrest h
      rcases hstep with rfl | hwrite
      · exact ⟨states, .load hrun, fun s' hs' => List.mem_cons_of_mem s (hstates s' hs')⟩
      · refine ⟨s :: states, .write hwrite (.load hrun), fun s' hs' => ?_⟩
        rcases List.mem_cons.mp hs' with rfl | hs'
        · exact List.mem_cons_self
        · exact List.mem_cons_of_mem s (hstates s' hs')

end Interleaved

-- ---------------------------------------------------------------------------
-- What a program may answer
-- ---------------------------------------------------------------------------

/-- A possible answer where every load finds one of these values, each time any of them. -/
inductive MayAnswer (found : ν → Prop) : Loads ν α → α → Prop where
  | done : MayAnswer found (.done a) a
  | load : found value → MayAnswer found (next value) a → MayAnswer found (.load next) a

variable {found : ν → Prop}

@[simp] theorem mayAnswer_pure : MayAnswer found (pure a) b ↔ a = b := by
  constructor
  · rintro ⟨⟩
    rfl
  · rintro rfl
    exact .done

@[simp] theorem mayAnswer_current : MayAnswer found current value ↔ found value := by
  constructor
  · rintro (_ | ⟨hfound, _ | _⟩)
    exact hfound
  · intro hfound
    exact .load hfound .done

theorem mayAnswer_bind {f : α → Loads ν β} :
    MayAnswer found (p >>= f) b ↔ ∃ a, MayAnswer found p a ∧ MayAnswer found (f a) b := by
  constructor
  · intro h
    induction p with
    | done a => exact ⟨a, .done, h⟩
    | load next ih =>
      cases h with
      | load hfound h =>
        obtain ⟨a, hp, hf⟩ := ih _ h
        exact ⟨a, .load hfound hp, hf⟩
  · rintro ⟨a, hp, hf⟩
    induction hp with
    | done => exact hf
    | load hfound _ ih => exact .load hfound (ih hf)

theorem mayAnswer_alone : MayAnswer (· = value) p a ↔ p.alone value = a := by
  constructor
  · intro h
    induction h with
    | done => rfl
    | load hfound _ ih => exact hfound ▸ ih
  · rintro rfl
    induction p with
    | done a => exact .done
    | load next ih => exact .load rfl (ih value)

theorem mayAnswer_of_answer (hloaded : ∀ value ∈ loaded, found value)
    (h : p.answer loaded = some a) : MayAnswer found p a := by
  induction p generalizing loaded with
  | done b =>
    obtain ⟨-, rfl⟩ := answer_pure.mp h
    exact .done
  | load next ih =>
    cases loaded with
    | nil => cases h
    | cons value rest =>
      obtain ⟨hvalue, hrest⟩ := List.forall_mem_cons.mp hloaded
      exact .load hvalue (ih value hrest h)

end Loads
