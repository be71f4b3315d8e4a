import SchcCoreconf.Lib.Fallible
import Mathlib.Algebra.Group.Int.Defs
import Mathlib.Algebra.Group.Nat.Defs
import Mathlib.Data.Nat.Basic

/-!
# Machine arithmetic that may overflow

Unsigned arithmetic at a width, `none` where the exact result does not fit or a
shift amount reaches the width. `Checked` runs fallible code over it; `lift`
embeds code that does no arithmetic. A checked program refines an exact one when
it equals its lift: it never overflows and gives the same answer.
-/

namespace Machine

open Fallible

def add (width a b : Nat) : Option Nat := if a + b < 2 ^ width then some (a + b) else none

def sub (a b : Nat) : Option Nat := if b ≤ a then some (a - b) else none

def mul (width a b : Nat) : Option Nat := if a * b < 2 ^ width then some (a * b) else none

def shl (width a amount : Nat) : Option Nat :=
  if amount < width ∧ a <<< amount < 2 ^ width then some (a <<< amount) else none

/-- A left shift whose bits past the width are dropped. -/
def shlDrop (width a amount : Nat) : Option Nat :=
  if amount < width then some (a <<< amount % 2 ^ width) else none

def shr (width a amount : Nat) : Option Nat :=
  if amount < width then some (a >>> amount) else none

theorem add_eq (h : a + b < 2 ^ width) : add width a b = some (a + b) := if_pos h

theorem sub_eq (h : b ≤ a) : sub a b = some (a - b) := if_pos h

theorem mul_eq (h : a * b < 2 ^ width) : mul width a b = some (a * b) := if_pos h

theorem mul_eq_some : mul width a b = some c ↔ a * b < 2 ^ width ∧ a * b = c := by
  simp [mul]

theorem mul_eq_none (h : ¬a * b < 2 ^ width) : mul width a b = none := if_neg h

theorem shlDrop_eq (h : amount < width) :
    shlDrop width a amount = some (a <<< amount % 2 ^ width) :=
  if_pos h

theorem shl_eq (hamount : amount < width) (h : a <<< amount < 2 ^ width) :
    shl width a amount = some (a <<< amount) := if_pos ⟨hamount, h⟩

theorem shr_eq (h : amount < width) : shr width a amount = some (a >>> amount) := if_pos h

-- ---------------------------------------------------------------------------
-- Signed sums that wrap around
-- ---------------------------------------------------------------------------

def wrapAdd (sum delta : Int) : Int := (sum + delta).bmod (2 ^ 64)

theorem wrapAdd_eq_iff {sum delta total : Int} (hsum : 0 ≤ sum ∧ sum < 2 ^ 63)
    (hdelta : -2 ^ 63 ≤ delta ∧ delta < 2 ^ 63) (htotal : 0 ≤ total ∧ total < 2 ^ 63) :
    wrapAdd sum delta = total ↔ sum + delta = total := by
  rw [wrapAdd, Int.bmod_def]
  split <;> omega

/-- Running sums that wrap around come to no other non-negative numbers than the exact ones:
the first that overflows is negative. -/
theorem scanl_wrapAdd_eq_iff {deltas totals : List Int} {start : Int}
    (hstart : 0 ≤ start ∧ start < 2 ^ 63)
    (hdeltas : ∀ delta ∈ deltas, -2 ^ 63 ≤ delta ∧ delta < 2 ^ 63)
    (htotals : ∀ total ∈ totals, 0 ≤ total ∧ total < 2 ^ 63) :
    (deltas.scanl wrapAdd start).tail = totals ↔ (deltas.scanl (· + ·) start).tail = totals := by
  have hhead (f : Int → Int → Int) (a : Int) (l : List Int) :
      l.scanl f a = a :: (l.scanl f a).tail := by cases l <;> simp [List.scanl_cons]
  induction deltas generalizing start totals with
  | nil => simp
  | cons delta rest ih =>
    obtain ⟨hdelta, hrest⟩ := List.forall_mem_cons.mp hdeltas
    rw [List.scanl_cons, List.scanl_cons, List.tail_cons, List.tail_cons, hhead wrapAdd,
      hhead (· + ·)]
    cases totals with
    | nil => simp
    | cons total others =>
      obtain ⟨htotal, hothers⟩ := List.forall_mem_cons.mp htotals
      rw [List.cons.injEq, List.cons.injEq, wrapAdd_eq_iff hstart hdelta htotal]
      refine and_congr_right fun hsum => ?_
      rw [(wrapAdd_eq_iff hstart hdelta htotal).mpr hsum, hsum]
      exact ih htotal hrest hothers

-- ---------------------------------------------------------------------------
-- Fallible code over machine arithmetic
-- ---------------------------------------------------------------------------

/-- `none` is an overflow; an error is the program's own. -/
abbrev Checked (ε α : Type) := ExceptT ε Option α

def lift (x : Except ε α) : Checked ε α := ExceptT.mk (some x)

def arith (x : Option α) : Checked ε α := ExceptT.mk (x.map .ok)

theorem bind_lift {x : Except ε α} {f : α → Except ε β} {g : α → Checked ε β}
    (h : ∀ a, x = .ok a → g a = lift (f a)) : lift x >>= g = lift (x >>= f) := by
  cases x with
  | error e => rfl
  | ok a => exact h a rfl

theorem bind_arith {x : Option α} {g : α → Checked ε β} (h : x = some a) : arith x >>= g = g a := by
  subst h
  rfl

theorem lift_ok_bind {a : α} {f : α → Checked ε β} : lift (.ok a) >>= f = f a := rfl

theorem arith_some_bind {a : α} {f : α → Checked ε β} : arith (some a) >>= f = f a := rfl

theorem lift_bind_pure {x : Except ε α} {f : α → β} :
    (lift x >>= fun a => pure (f a) : Checked ε β) = lift (x.map f) := by
  cases x <;> rfl

theorem lift_need_some_bind {a : α} {error : ε} {f : α → Checked ε β} :
    lift (need (some a) error) >>= f = f a := rfl

theorem lift_need_none_bind {error : ε} {f : α → Checked ε β} :
    lift (need none error) >>= f = lift (.error error) := rfl

theorem lift_ensure_bind {ok : Bool} {error : ε} {f : Unit → Checked ε β} (h : ok = true) :
    lift (ensure ok error) >>= f = f () := by
  subst h
  rfl

theorem lift_ensure_error {ok : Bool} {error : ε} {f : Unit → Checked ε β} (h : ok = false) :
    lift (ensure ok error) >>= f = lift (.error error) := by
  subst h
  rfl

def Exact (x : Checked ε α) : Prop := ∃ result, x = lift result

theorem Exact.lift {x : Except ε α} : Exact (lift x) := ⟨x, rfl⟩

theorem Exact.pure {a : α} : Exact (Pure.pure a : Checked ε α) := ⟨.ok a, rfl⟩

theorem Exact.arith {x : Option α} (h : x = some a) : Exact (arith x : Checked ε α) := by
  subst h
  exact ⟨.ok a, rfl⟩

theorem lift_eq_ok {x : Except ε α} : lift x = lift (.ok a) ↔ x = .ok a :=
  ⟨fun h => Option.some.inj h, congrArg lift⟩

theorem arith_eq_ok {x : Option α} : (arith x : Checked ε α) = lift (.ok a) ↔ x = some a := by
  cases x with
  | none => exact iff_of_false nofun nofun
  | some b =>
    constructor
    · intro h
      rw [Except.ok.inj (Option.some.inj h)]
    · rintro ⟨⟩
      rfl

theorem bind_eq_ok {x : Checked ε α} {f : α → Checked ε β} :
    x >>= f = lift (.ok b) ↔ ∃ a, x = lift (.ok a) ∧ f a = lift (.ok b) := by
  constructor
  · intro h
    match x with
    | none => cases h
    | some (.error e) => cases h
    | some (.ok a) => exact ⟨a, rfl, h⟩
  · rintro ⟨a, rfl, h⟩
    exact h

theorem pure_eq_ok : (pure a : Checked ε α) = lift (.ok b) ↔ a = b :=
  ⟨fun h => Except.ok.inj (Option.some.inj h), fun h => h ▸ rfl⟩

theorem Exact.bind {x : Checked ε α} {f : α → Checked ε β} (hx : Exact x)
    (hf : ∀ a, x = Machine.lift (.ok a) → Exact (f a)) : Exact (x >>= f) := by
  obtain ⟨result, rfl⟩ := hx
  cases result with
  | error e => exact ⟨.error e, rfl⟩
  | ok a => exact hf a rfl

theorem anyM_eq {f : α → Option Bool} {g : α → Bool} {items : List α}
    (h : ∀ a ∈ items, f a = some (g a)) : items.anyM f = some (items.any g) := by
  induction items with
  | nil => rfl
  | cons a rest ih =>
    rw [List.anyM, h a List.mem_cons_self, List.any_cons]
    cases hg : g a with
    | true => rfl
    | false => exact ih fun b hb => h b (List.mem_cons_of_mem _ hb)

theorem findSomeM?_eq {f : α → Option (Option β)} {g : α → Option β} {items : List α}
    (h : ∀ a ∈ items, f a = some (g a)) : items.findSomeM? f = some (items.findSome? g) := by
  induction items with
  | nil => rfl
  | cons a rest ih =>
    have hrest := ih fun b hb => h b (List.mem_cons_of_mem _ hb)
    rw [List.findSomeM?, h a List.mem_cons_self, List.findSome?_cons]
    cases hg : g a with
    | none => exact hrest
    | some b => rfl

theorem mapM_eq {f : α → Option β} {g : α → β} {items : List α}
    (h : ∀ a ∈ items, f a = some (g a)) : items.mapM f = some (items.map g) := by
  induction items with
  | nil => rfl
  | cons a rest ih =>
    rw [List.mapM_cons, h a List.mem_cons_self, ih fun b hb => h b (List.mem_cons_of_mem _ hb)]
    rfl

theorem collect_eq {f : α → Checked ε β} {g : α → Except ε β} {items : List α}
    (h : ∀ a ∈ items, f a = lift (g a)) : items.mapM f = lift (collect g items) := by
  induction items with
  | nil => rfl
  | cons a rest ih =>
    rw [List.mapM_cons, h a List.mem_cons_self, ih fun b hb => h b (List.mem_cons_of_mem _ hb)]
    cases hg : g a with
    | error e => simp [collect, hg]; rfl
    | ok b => cases hr : collect g rest <;> simp [collect, hg, hr] <;> rfl

end Machine
