import Mathlib.Logic.Relation
import SchcCoreconf.Lib.Runs

/-!
# A replica that follows

A leader applies inputs and queues them. A follower applies the queued inputs in
their order, and may apply again what it has applied; with nothing queued, both
may take a joint change. Where an accepted input changes nothing from then on
(`Settles`), the queue always leads the follower to the state of the leader
(`Follows`), however often inputs are repeated.
-/

namespace Replicas

/-- How inputs are applied, when a leader takes one, and what both may do jointly. -/
structure Protocol (σ : Type u) (ι : Type v) where
  apply : σ → ι → σ
  Accepts : σ → ι → Prop
  Joint : σ → σ → Prop

structure Pair (σ : Type u) (ι : Type v) where
  leader : σ
  follower : σ
  queue : List ι
  applied : List ι

def Pair.start (state : σ) : Pair σ ι :=
  { leader := state, follower := state, queue := [], applied := [] }

variable {protocol : Protocol σ ι} {Inv : σ → Prop} {Settled : σ → ι → Prop} {pair pair' : Pair σ ι}

inductive Step (protocol : Protocol σ ι) (pair : Pair σ ι) : Pair σ ι → Prop
  | issue : protocol.Accepts pair.leader input → Step protocol pair
      { pair with leader := protocol.apply pair.leader input, queue := pair.queue ++ [input] }
  | deliver : pair.queue = input :: rest → Step protocol pair
      { pair with
        follower := protocol.apply pair.follower input
        queue := rest
        applied := input :: pair.applied }
  | again : input ∈ pair.applied → Step protocol pair
      { pair with follower := protocol.apply pair.follower input }
  | joint : pair.queue = [] → protocol.Joint pair.leader state → Step protocol pair
      { pair with leader := state, follower := state }

/-- An input is settled once it was accepted; then it changes nothing. -/
structure Settles (protocol : Protocol σ ι) (Inv : σ → Prop) (Settled : σ → ι → Prop) : Prop where
  inv : Inv s → protocol.Accepts s i → Inv (protocol.apply s i)
  settles : Inv s → protocol.Accepts s i → Settled (protocol.apply s i) i
  stays : Inv s → protocol.Accepts s j → Settled s i → Settled (protocol.apply s j) i
  same : Inv s → Settled s i → protocol.apply s i = s
  joint : Inv s → protocol.Joint s s' → Inv s' ∧ ∀ i, Settled s i → Settled s' i

def AcceptedRun (protocol : Protocol σ ι) : σ → List ι → Prop
  | _, [] => True
  | s, input :: rest =>
    protocol.Accepts s input ∧ AcceptedRun protocol (protocol.apply s input) rest

/-- The follower is on its way to the state of the leader. -/
structure Follows (protocol : Protocol σ ι) (Inv : σ → Prop) (Settled : σ → ι → Prop)
    (pair : Pair σ ι) : Prop where
  inv : Inv pair.follower
  accepted : AcceptedRun protocol pair.follower pair.queue
  leads : Runs.run protocol.apply pair.follower pair.queue = pair.leader
  settled : ∀ input ∈ pair.applied, Settled pair.follower input

theorem AcceptedRun.append {first : List ι} (h : AcceptedRun protocol s first)
    (hinput : protocol.Accepts (Runs.run protocol.apply s first) input) :
    AcceptedRun protocol s (first ++ [input]) := by
  induction first generalizing s with
  | nil => exact ⟨hinput, trivial⟩
  | cons head rest ih => exact ⟨h.1, ih h.2 hinput⟩

theorem Follows.start (h : Inv s) : Follows protocol Inv Settled (.start s) where
  inv := h
  accepted := trivial
  leads := rfl
  settled _ hinput := nomatch hinput

theorem Follows.agree (h : Follows protocol Inv Settled pair) (hidle : pair.queue = []) :
    pair.follower = pair.leader := by
  have hleads := h.leads
  rwa [hidle] at hleads

theorem Follows.next (laws : Settles protocol Inv Settled) (h : Follows protocol Inv Settled pair)
    (hstep : Step protocol pair pair') : Follows protocol Inv Settled pair' := by
  cases hstep with
  | issue haccepts =>
    refine ⟨h.inv, h.accepted.append (h.leads ▸ haccepts), ?_, h.settled⟩
    rw [Runs.run_append, h.leads]
    rfl
  | @deliver input rest hqueue =>
    have haccepted := h.accepted
    have hleads := h.leads
    rw [hqueue] at haccepted hleads
    refine ⟨laws.inv h.inv haccepted.1, haccepted.2, hleads, fun other hother => ?_⟩
    rcases List.mem_cons.mp hother with rfl | hother
    · exact laws.settles h.inv haccepted.1
    · exact laws.stays h.inv haccepted.1 (h.settled other hother)
  | again hinput =>
    have hsame := laws.same h.inv (h.settled _ hinput)
    rw [hsame]
    exact h
  | joint hidle hjoint =>
    rw [← h.agree hidle] at hjoint
    obtain ⟨hinv, hstays⟩ := laws.joint h.inv hjoint
    refine ⟨hinv, ?_, ?_, fun input hinput => hstays input (h.settled input hinput)⟩
    · rw [hidle]
      trivial
    · rw [hidle]
      rfl

/-- What relates a state to every state after it relates the follower to the leader. -/
theorem Follows.rel {R : σ → σ → Prop} (h : Follows protocol Inv Settled pair) (hrefl : ∀ s, R s s)
    (htrans : ∀ a b c, R a b → R b c → R a c) (happly : ∀ s i, R s (protocol.apply s i)) :
    R pair.follower pair.leader :=
  h.leads ▸ Runs.run_rel hrefl htrans happly

end Replicas
