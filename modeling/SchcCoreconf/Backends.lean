import SchcCoreconf.Operations

/-!
# Backend handles side by side

Any number of backend handles work on one active context, their calls
interleaved with one another and with the service's own publications. A handle
remembers only a digest; beside it the model keeps the tree the handle last
observed. Where digests tell the context's trees apart, a replacement succeeds
only over the tree its handle observed, so it overwrites no other update.
-/

namespace SchcCoreconf

open ActiveContext (Writes)

structure Handle where
  backend : ActiveContextBackend
  observedTree : Json

structure Backends where
  active : ActiveContext
  handles : List Handle

/-- One atomic call of a handle, or of another writer. -/
inductive BackendCall
  | create
  | readTree (index : Nat)
  | replaceTree (index : Nat) (candidate : Json → Json)
  | targetIpatch (model : CoreconfModel) (request : Request) (ifMatch : Option ContextTag)
  | duplicateRule (model : CoreconfModel) (operation : DecodedDuplicateOperation)

/-- The digest tells the contexts apart that the active context has held. -/
def ActiveContext.DigestInjective (active : ActiveContext) : Prop :=
  ∀ snapshot ∈ active.snapshots.values, ∀ other ∈ active.snapshots.values,
    snapshot.data.digest = other.data.digest →
      snapshot.data.tree = other.data.tree ∧ snapshot.data.sor = other.data.sor

namespace Backends

def start (active : ActiveContext) : Backends := { active, handles := [] }

def create (world : Backends) : Backends :=
  { world with handles := world.handles ++
      [{ backend := world.active.backend, observedTree := world.active.snapshot.data.tree }] }

def readTree (world : Backends) (index : Nat) (handle : Handle) : Backends :=
  let (tree, state) := BackendState.readTree { active := world.active, backend := handle.backend }
  { active := state.active
    handles := world.handles.set index { backend := state.backend, observedTree := tree } }

/-- The call of `replace_tree` with a candidate built from what the handle observed. -/
def replacement (deps : Deps) (world : Backends) (handle : Handle) (candidate : Json → Json) :
    Outcome BackendState (Except CoreconfError Unit) :=
  BackendState.replaceTree deps { active := world.active, backend := handle.backend }
    (candidate handle.observedTree)

def replaceTree (deps : Deps) (world : Backends) (index : Nat) (handle : Handle)
    (candidate : Json → Json) : Backends :=
  let outcome := world.replacement deps handle candidate
  match outcome.result with
  | some (.ok ()) =>
    { active := outcome.state.active
      handles := world.handles.set index
        { backend := outcome.state.backend
          observedTree := outcome.state.active.snapshot.data.tree } }
  | _ =>
    { active := outcome.state.active
      handles := world.handles.set index { handle with backend := outcome.state.backend } }

def step (deps : Deps) (world : Backends) : BackendCall → Backends
  | .create => world.create
  | .readTree index =>
    match world.handles[index]? with
    | none => world
    | some handle => world.readTree index handle
  | .replaceTree index candidate =>
    match world.handles[index]? with
    | none => world
    | some handle => world.replaceTree deps index handle candidate
  | .targetIpatch model request ifMatch =>
    { world with active := (applyTargetIpatch deps model world.active request ifMatch).state }
  | .duplicateRule model operation =>
    { world with active := (applyDuplicateOperation deps model world.active operation).state }

def run (deps : Deps) (world : Backends) (calls : List BackendCall) : Backends :=
  Runs.run (step deps) world calls

-- ---------------------------------------------------------------------------
-- What a handle has observed
-- ---------------------------------------------------------------------------

/-- The handle observed a snapshot the context has held, and holds its digest and tree. -/
def Observed (active : ActiveContext) (handle : Handle) : Prop :=
  ∃ snapshot ∈ active.snapshots.values,
    handle.backend.observed = some snapshot.data.digest ∧ handle.observedTree = snapshot.data.tree

def AllObserved (world : Backends) : Prop := ∀ handle ∈ world.handles, Observed world.active handle

theorem observed_current (active : ActiveContext) :
    Observed active { backend := active.backend, observedTree := active.snapshot.data.tree } :=
  ⟨active.snapshot, List.mem_cons_self, rfl, rfl⟩

theorem Observed.writes {active : ActiveContext} (h : Observed active handle)
    (hwrites : Writes deps active active') : Observed active' handle := by
  rcases hwrites with rfl | ⟨tree, prepared, -, -, hpublish⟩
  · exact h
  · obtain ⟨snapshot, hmem, hobserved⟩ := h
    obtain ⟨-, rfl⟩ := ActiveContext.publishLocked_eq_some hpublish
    exact ⟨snapshot, (ArcSwap.mem_values_store _).mpr (.inr hmem), hobserved⟩

theorem AllObserved.writes {world : Backends} (h : world.AllObserved)
    (hwrites : Writes deps world.active active') :
    AllObserved { world with active := active' } :=
  fun handle hmem => (h handle hmem).writes hwrites

theorem AllObserved.set {world : Backends} (h : world.AllObserved)
    (hhandle : Observed world.active handle) :
    AllObserved { world with handles := world.handles.set index handle } := fun other hmem => by
  rcases List.mem_or_eq_of_mem_set hmem with hmem | rfl
  · exact h other hmem
  · exact hhandle

theorem create_observed {world : Backends} (h : world.AllObserved) : world.create.AllObserved := by
  intro handle hmem
  rcases List.mem_append.mp hmem with hmem | hmem
  · exact h handle hmem
  · rw [List.mem_singleton.mp hmem]
    exact observed_current world.active

theorem replaceTree_observed {world : Backends} (h : world.AllObserved)
    (hhandle : Observed world.active handle) :
    (world.replaceTree deps index handle candidate).AllObserved := by
  rcases BackendState.replaceTree_cases deps { active := world.active, backend := handle.backend }
    (candidate handle.observedTree) with ⟨hresult, hstate⟩ | ⟨active', -, hpublish, hreplace⟩
  · -- nothing was published, and the handle stays as it was
    simp only [replaceTree, replacement]
    rw [hstate]
    exact h.set hhandle
  · simp only [replaceTree, replacement, hreplace]
    exact (h.writes (.inr ⟨_, hpublish⟩)).set (observed_current active')

theorem step_observed (deps : Deps) (world : Backends) (call : BackendCall)
    (h : world.AllObserved) : (world.step deps call).AllObserved := by
  cases call with
  | create => exact create_observed h
  | readTree index =>
    simp only [step]
    split
    · exact h
    · exact h.set (observed_current world.active)
  | replaceTree index candidate =>
    simp only [step]
    split
    · exact h
    · next handle hhandle => exact replaceTree_observed h (h handle (List.mem_of_getElem? hhandle))
  | targetIpatch model request ifMatch =>
    exact h.writes (applyTargetIpatch_writes deps model world.active request ifMatch)
  | duplicateRule model operation =>
    exact h.writes (applyDuplicateOperation_writes deps model world.active operation)

theorem run_observed (deps : Deps) (active : ActiveContext) (calls : List BackendCall) :
    ((start active).run deps calls).AllObserved :=
  Runs.run_invariant (step_observed deps) fun _ hmem => nomatch hmem

-- ---------------------------------------------------------------------------
-- No lost update
-- ---------------------------------------------------------------------------

theorem replacement_cases {world : Backends} (hobserved : Observed world.active handle)
    (hdigest : world.active.DigestInjective) (candidate : Json → Json) :
    ((world.replacement deps handle candidate).result ≠ some (.ok ()) ∧
      (world.replacement deps handle candidate).state.active = world.active) ∨
    ((world.replacement deps handle candidate).result = some (.ok ()) ∧
      handle.observedTree = world.active.snapshot.data.tree ∧
      ActiveContext.Publishes deps world.active (candidate handle.observedTree)
        (world.replacement deps handle candidate).state.active) := by
  rcases BackendState.replaceTree_cases deps { active := world.active, backend := handle.backend }
    (candidate handle.observedTree) with ⟨hresult, hstate⟩ | ⟨active', hcurrent, hpublish, hreplace⟩
  · exact .inl ⟨hresult, congrArg BackendState.active hstate⟩
  · obtain ⟨snapshot, hmem, hlast, htree⟩ := hobserved
    have hsame : snapshot.data.digest = world.active.snapshot.data.digest :=
      Option.some.inj (hlast.symm.trans hcurrent)
    have hcurrent : snapshot.data.tree = world.active.snapshot.data.tree :=
      (hdigest snapshot hmem _ List.mem_cons_self hsame).1
    refine .inr ?_
    rw [replacement, hreplace]
    exact ⟨rfl, htree.trans hcurrent, hpublish⟩

/-- No lost update: after any interleaving of calls, a replacement of any handle
succeeds only where the tree it observed is still the current one, and then
publishes its candidate over that tree. -/
theorem no_lost_update {index : Nat} (deps : Deps) (active : ActiveContext)
    (calls : List BackendCall)
    (hdigest : ((start active).run deps calls).active.DigestInjective)
    (hhandle : ((start active).run deps calls).handles[index]? = some handle)
    (candidate : Json → Json) :
    let world := (start active).run deps calls
    let outcome := world.replacement deps handle candidate
    (outcome.result = some (.ok ()) →
      handle.observedTree = world.active.snapshot.data.tree ∧
        outcome.state.active.snapshots.previous = world.active.snapshots.values ∧
        (outcome.state.active.snapshot.data.tree == candidate handle.observedTree) = true) ∧
    (outcome.result ≠ some (.ok ()) → outcome.state.active = world.active) := by
  intro world outcome
  have hobserved : Observed world.active handle :=
    run_observed deps active calls handle (List.mem_of_getElem? hhandle)
  rcases replacement_cases hobserved hdigest candidate with
    ⟨hresult, hstate⟩ | ⟨hresult, htree, hpublish⟩
  · exact ⟨fun hok => absurd hok hresult, fun _ => hstate⟩
  · obtain ⟨hcandidate, -, hprevious⟩ := hpublish.snapshot
    exact ⟨fun _ => ⟨htree, hprevious, hcandidate⟩, fun hfail => absurd hresult hfail⟩

end Backends

section
open Fallible Fixture

theorem ActiveContext.digestInjective_of_nodup {active : ActiveContext}
    (h : (active.snapshots.values.map (·.data.digest)).Nodup) : active.DigestInjective :=
  fun _ hsnapshot _ hother heq =>
    List.inj_on_of_nodup_map h hsnapshot hother heq ▸ ⟨rfl, rfl⟩

theorem replaced_evaluated : holds (loaded updateWorld rulesBefore) (fun prepared =>
    let world := (Backends.start (.new prepared)).run (deps updateWorld)
      [.create, .replaceTree 0 fun _ => tree rulesAfter]
    (world.active.snapshots.values.map (·.data.digest)).Nodup ∧
      world.handles[0]?.any fun handle => world.active.snapshots.stores = 1 &&
        (world.replacement (deps updateWorld) handle fun _ => tree rulesBefore).result =
          some (.ok ())) = true := by
  decide +kernel

theorem Backends.no_lost_update_replaced : ∃ active handle,
    let world := (start active).run (deps updateWorld)
      [.create, .replaceTree 0 fun _ => tree rulesAfter]
    let outcome := world.replacement (deps updateWorld) handle fun _ => tree rulesBefore
    world.active.snapshots.stores = 1 ∧ outcome.result = some (.ok ()) ∧
      handle.observedTree = world.active.snapshot.data.tree ∧
      outcome.state.active.snapshot.data.tree = tree rulesBefore := by
  obtain ⟨prepared, -, hreplaced⟩ := holds_iff.mp replaced_evaluated
  obtain ⟨hdigests, hhandle⟩ := of_decide_eq_true hreplaced
  obtain ⟨handle, hhandle, hresult⟩ := (Option.any_eq_true _ _).mp hhandle
  simp only [Bool.and_eq_true, decide_eq_true_eq] at hresult
  obtain ⟨hstores, hok⟩ := hresult
  have hsuccess := (no_lost_update (deps updateWorld) (.new prepared) _
    (ActiveContext.digestInjective_of_nodup hdigests) hhandle fun _ => tree rulesBefore).1 hok
  exact ⟨.new prepared, handle, hstores, hok, hsuccess.1,
    (floatFree_tree rulesBefore).zeroFree.eq_of_beq hsuccess.2.2⟩

end

end SchcCoreconf
