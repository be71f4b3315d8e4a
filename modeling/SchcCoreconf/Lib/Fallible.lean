import Mathlib.Data.List.Forall2

/-!
# Fallible computations

Early returns over `Except` and what their success or failure says. A check is
`ensure`, an absent value that is an error is `need`; both read back as the
condition they tested.
-/

namespace Fallible

/-- `if !ok { return Err(error) }`. -/
def ensure (ok : Bool) (error : ε) : Except ε Unit :=
  if ok then .ok () else .error error

/-- `option.ok_or(error)?`. -/
def need (value : Option α) (error : ε) : Except ε α :=
  match value with
  | some a => .ok a
  | none => .error error

/-- `items.iter().map(f).collect::<Result<Vec<_>, _>>()`, stopping at the first error. -/
def collect (f : α → Except ε β) : List α → Except ε (List β)
  | [] => .ok []
  | a :: rest =>
    match f a with
    | .error e => .error e
    | .ok b =>
      match collect f rest with
      | .error e => .error e
      | .ok bs => .ok (b :: bs)

-- ---------------------------------------------------------------------------
-- Success
-- ---------------------------------------------------------------------------

theorem bind_ok {x : Except ε α} {f : α → Except ε β} :
    x >>= f = .ok b ↔ ∃ a, x = .ok a ∧ f a = .ok b := by
  cases x <;> simp [bind, Except.bind]

theorem pure_ok : (pure a : Except ε α) = .ok b ↔ a = b := by
  simp [pure, Except.pure]

theorem map_ok {x : Except ε α} {f : α → β} :
    f <$> x = .ok b ↔ ∃ a, x = .ok a ∧ f a = b := by
  cases x <;> simp [Functor.map, Except.map]

theorem ensure_ok : ensure ok error = .ok u ↔ ok = true := by
  cases ok <;> simp [ensure]

theorem need_ok : need value error = .ok a ↔ value = some a := by
  cases value <;> simp [need]

theorem mapError_ok {x : Except ε α} {f : ε → ε'} : x.mapError f = .ok a ↔ x = .ok a := by
  cases x <;> simp [Except.mapError]

theorem ok_bind {a : α} {f : α → Except ε β} : Except.ok a >>= f = f a := rfl

theorem ensure_bind {f : Unit → Except ε β} (h : ok = true) : ensure ok error >>= f = f () := by
  subst h
  rfl

-- ---------------------------------------------------------------------------
-- Failure
-- ---------------------------------------------------------------------------

theorem ensure_bind_error {f : Unit → Except ε β} (h : ok = false) :
    ensure ok error >>= f = .error error := by
  subst h
  rfl

theorem toOption_eq_some {x : Except ε α} : x.toOption = some a ↔ x = .ok a := by
  cases x <;> simp [Except.toOption]

theorem bind_error {x : Except ε α} {f : α → Except ε β} :
    x >>= f = .error e ↔ x = .error e ∨ ∃ a, x = .ok a ∧ f a = .error e := by
  cases x <;> simp [bind, Except.bind]

theorem ensure_error : ensure ok error = .error e ↔ ok = false ∧ error = e := by
  cases ok <;> simp [ensure]

theorem need_error : need value error = .error e ↔ value = none ∧ error = e := by
  cases value <;> simp [need]

theorem mapError_error {x : Except ε α} {f : ε → ε'} :
    x.mapError f = .error e ↔ ∃ error, x = .error error ∧ f error = e := by
  cases x <;> simp [Except.mapError]

-- ---------------------------------------------------------------------------
-- Collecting a list of results
-- ---------------------------------------------------------------------------

theorem collect_cons_ok {f : α → Except ε β} :
    collect f (a :: rest) = .ok bs ↔
      ∃ b bs', f a = .ok b ∧ collect f rest = .ok bs' ∧ bs = b :: bs' := by
  cases hf : f a with
  | error e => simp [collect, hf]
  | ok b =>
    cases hr : collect f rest with
    | error e => simp [collect, hf, hr]
    | ok bs' => simp [collect, hf, hr, eq_comm]

theorem collect_ok_iff {f : α → Except ε β} {items : List α} :
    collect f items = .ok bs ↔ List.Forall₂ (fun a b => f a = .ok b) items bs := by
  induction items generalizing bs with
  | nil => simp [collect, eq_comm]
  | cons a rest ih =>
    rw [collect_cons_ok]
    constructor
    · rintro ⟨b, bs', hb, hrest, rfl⟩
      exact .cons hb (ih.mp hrest)
    · rintro (_ | ⟨hb, hrest⟩)
      exact ⟨_, _, hb, ih.mpr hrest, rfl⟩

theorem forall₂_left {r : α → β → Prop} (h : List.Forall₂ r as bs) (ha : a ∈ as) :
    ∃ b, r a b := by
  induction h with
  | nil => cases ha
  | cons hab _ ih =>
    cases ha with
    | head => exact ⟨_, hab⟩
    | tail _ ha => exact ih ha

theorem forall₂_of_exists {r : α → β → Prop} {as : List α} (h : ∀ a ∈ as, ∃ b, r a b) :
    ∃ bs, List.Forall₂ r as bs := by
  induction as with
  | nil => exact ⟨[], .nil⟩
  | cons a as ih =>
    obtain ⟨⟨b, hb⟩, hrest⟩ := List.forall_mem_cons.mp h
    obtain ⟨bs, hbs⟩ := ih hrest
    exact ⟨b :: bs, .cons hb hbs⟩

theorem forall₂_right {r : α → β → Prop} (h : List.Forall₂ r as bs) (hb : b ∈ bs) :
    ∃ a, r a b :=
  forall₂_left h.flip hb

theorem forall₂_mem_left {r : α → β → Prop} (h : List.Forall₂ r as bs) (ha : a ∈ as) :
    ∃ b ∈ bs, r a b := by
  induction h with
  | nil => cases ha
  | @cons _ b _ bs hab _ ih =>
    rcases List.mem_cons.mp ha with rfl | ha
    · exact ⟨b, List.mem_cons_self, hab⟩
    · obtain ⟨c, hc, hac⟩ := ih ha
      exact ⟨c, List.mem_cons_of_mem b hc, hac⟩

theorem forall₂_mem_right {r : α → β → Prop} (h : List.Forall₂ r as bs) (hb : b ∈ bs) :
    ∃ a ∈ as, r a b :=
  forall₂_mem_left h.flip hb

theorem forall₂_trans {r : α → β → Prop} {s : β → γ → Prop} {t : α → γ → Prop}
    (htrans : ∀ a b c, r a b → s b c → t a c) (h : List.Forall₂ r as bs)
    (h' : List.Forall₂ s bs cs) : List.Forall₂ t as cs := by
  induction h generalizing cs with
  | nil =>
    cases h'
    exact .nil
  | cons hab _ ih =>
    cases h' with
    | cons hbc hrest => exact .cons (htrans _ _ _ hab hbc) (ih hrest)

theorem forall₂_join {r : α → β → Prop} {s : α → γ → Prop} {t : β → γ → Prop}
    (h : List.Forall₂ r as bs) (h' : List.Forall₂ s as cs)
    (hjoin : ∀ a ∈ as, ∀ b c, r a b → s a c → t b c) : List.Forall₂ t bs cs := by
  induction h generalizing cs with
  | nil =>
    cases h'
    exact .nil
  | cons hab _ ih =>
    cases h' with
    | cons hac hrest =>
      exact .cons (hjoin _ List.mem_cons_self _ _ hab hac)
        (ih hrest fun a ha => hjoin a (List.mem_cons_of_mem _ ha))

theorem forall₂_common {r : α → β → Prop} {s : α → γ → Prop} {u : β → γ → Prop} {t : α → β → Prop}
    (h : List.Forall₂ r as bs) (hleft : List.Forall₂ s as cs) (hright : List.Forall₂ u bs cs)
    (hcommon : ∀ a ∈ as, ∀ b c, r a b → s a c → u b c → t a b) : List.Forall₂ t as bs := by
  induction h generalizing cs with
  | nil => exact .nil
  | cons hab _ ih =>
    cases hleft with
    | cons hac hleft =>
      cases hright with
      | cons hbc hright =>
        exact .cons (hcommon _ List.mem_cons_self _ _ hab hac hbc)
          (ih hleft hright fun a ha => hcommon a (List.mem_cons_of_mem _ ha))

theorem forall₂_pairwise {r : α → β → Prop} {s : β → β → Prop} {t : α → α → Prop}
    (hst : ∀ a a' b b', r a b → r a' b' → s b b' → t a a') (h : List.Forall₂ r as bs)
    (hs : bs.Pairwise s) : as.Pairwise t := by
  induction h with
  | nil => exact .nil
  | cons hab hrest ih =>
    obtain ⟨hfirst, hs⟩ := List.pairwise_cons.mp hs
    refine List.pairwise_cons.mpr ⟨fun a' ha' => ?_, ih hs⟩
    obtain ⟨b', hb', hab'⟩ := forall₂_mem_left hrest ha'
    exact hst _ _ _ _ hab hab' (hfirst b' hb')

theorem forall₂_flatMap {r : β → γ → Prop} {f : α → List β} {g : α → List γ} {items : List α}
    (h : ∀ a ∈ items, List.Forall₂ r (f a) (g a)) : List.Forall₂ r
      (items.flatMap f) (items.flatMap g) := by
  induction items with
  | nil => exact .nil
  | cons a items ih =>
    obtain ⟨hfirst, hrest⟩ := List.forall_mem_cons.mp h
    exact List.rel_append hfirst (ih hrest)

theorem forall₂_find? {r : α → β → Prop} {p : α → Bool} {q : β → Bool}
    (hpq : ∀ a b, r a b → p a = q b) (h : List.Forall₂ r as bs) :
    Option.Rel r (as.find? p) (bs.find? q) := by
  induction h with
  | nil => exact .none
  | @cons a b as bs hab _ ih =>
    rw [List.find?_cons, List.find?_cons, ← hpq a b hab]
    cases p a with
    | true => exact .some hab
    | false => exact ih

theorem collect_total {f : α → Except ε β} {g : α → β} (h : ∀ a ∈ items, f a = .ok (g a)) :
    ∃ bs, collect f items = .ok bs :=
  ⟨items.map g, collect_ok_iff.mpr (List.forall₂_map_right_iff.mpr (List.forall₂_same.mpr h))⟩

theorem collect_error {f : α → Except ε β} (h : collect f items = .error e) :
    ∃ a ∈ items, f a = .error e := by
  induction items with
  | nil => cases h
  | cons a rest ih =>
    rw [collect] at h
    cases hf : f a with
    | error e' =>
      rw [hf] at h
      cases h
      exact ⟨a, List.mem_cons_self, hf⟩
    | ok b =>
      cases hr : collect f rest with
      | error e' =>
        simp only [hf, hr, Except.error.injEq] at h
        subst h
        obtain ⟨c, hc, hfc⟩ := ih hr
        exact ⟨c, List.mem_cons_of_mem _ hc, hfc⟩
      | ok bs => simp [hf, hr] at h

theorem collect_congr {f g : α → Except ε β} (h : ∀ a ∈ items, f a = g a) :
    collect f items = collect g items := by
  induction items with
  | nil => rfl
  | cons a rest ih =>
    rw [collect, collect, h a List.mem_cons_self, ih fun b hb => h b (List.mem_cons_of_mem a hb)]

def holds (x : Except ε α) (test : α → Bool) : Bool :=
  match x with
  | .ok a => test a
  | .error _ => false

theorem holds_iff {x : Except ε α} {test : α → Bool} :
    holds x test = true ↔ ∃ a, x = .ok a ∧ test a = true := by
  cases x with
  | error error => simp [holds]
  | ok a => simp [holds]

end Fallible
