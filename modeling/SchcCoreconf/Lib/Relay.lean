import Mathlib.Data.List.Forall2
import SchcCoreconf.Lib.Runs

/-!
# A link that carries packets as something else

Packets offered to a link are encoded, or refused. What the link carries arrives in
any order, any number of times or never, and is decoded. Where what is encoded decodes
to its packet, the link is one that carries the packets themselves (`run_plain`).
-/

namespace Relay

/-- One direction of a link: what was put on it, and what came out of it. -/
structure Channel (κ : Type u) (π : Type v) where
  carried : List κ
  delivered : List π

def Channel.start : Channel κ π := { carried := [], delivered := [] }

inductive Event (π : Type v)
  | offer (packet : π)
  | arrive (index : Nat)

def Channel.offer (channel : Channel κ π) (code : Option κ) : Channel κ π :=
  { channel with carried := channel.carried ++ code.toList }

def Channel.deliver (channel : Channel κ π) (packet : Option π) : Channel κ π :=
  { channel with delivered := channel.delivered ++ packet.toList }

def step (encode : π → Option κ) (decode : κ → Option π) (channel : Channel κ π) :
    Event π → Channel κ π
  | .offer packet => channel.offer (encode packet)
  | .arrive index => channel.deliver (channel.carried[index]?.bind decode)

def plain (accepts : π → Bool) : Channel π π → Event π → Channel π π :=
  step (fun packet => if accepts packet then some packet else none) some

/-- Every packet that is carried is carried encoded, and the same has been delivered. -/
structure Encodes (encode : π → Option κ) (coded : Channel κ π) (channel : Channel π π) : Prop where
  carried : List.Forall₂ (fun code packet => encode packet = some code)
    coded.carried channel.carried
  delivered : coded.delivered = channel.delivered

variable {encode : π → Option κ} {decode : κ → Option π}
  {coded : Channel κ π} {channel : Channel π π}

theorem encodes_start : Encodes encode .start .start where
  carried := .nil
  delivered := rfl

theorem Encodes.getElem? (h : Encodes encode coded channel) (index : Nat) :
    (coded.carried[index]? = none ∧ channel.carried[index]? = none) ∨
      ∃ code packet, coded.carried[index]? = some code ∧ channel.carried[index]? = some packet ∧
        encode packet = some code := by
  have hlength := h.carried.length_eq
  rcases Nat.lt_or_ge index coded.carried.length with hlt | hge
  · have hlt' : index < channel.carried.length := hlength ▸ hlt
    refine .inr ⟨_, _, List.getElem?_eq_getElem hlt, List.getElem?_eq_getElem hlt', ?_⟩
    exact h.carried.get hlt hlt'
  · exact .inl ⟨List.getElem?_eq_none hge, List.getElem?_eq_none (hlength ▸ hge)⟩

theorem Encodes.step (hinverse : ∀ packet code, encode packet = some code →
    decode code = some packet) (h : Encodes encode coded channel) (event : Event π) :
    Encodes encode (Relay.step encode decode coded event)
      (plain (fun packet => (encode packet).isSome) channel event) := by
  cases event with
  | offer packet =>
    cases hcode : encode packet with
    | none => simpa [plain, Relay.step, Channel.offer, hcode] using h
    | some code =>
      refine ⟨?_, h.delivered⟩
      simp only [plain, Relay.step, Channel.offer, hcode, Option.isSome_some,
        if_true, Option.toList_some]
      exact List.rel_append h.carried (.cons hcode .nil)
  | arrive index =>
    refine ⟨h.carried, ?_⟩
    simp only [plain, Relay.step, Channel.deliver, h.delivered]
    rcases h.getElem? index with ⟨hnone, hnone'⟩ | ⟨code, packet, hcode, hpacket, hencode⟩
    · rw [hnone, hnone']
      rfl
    · rw [hcode, hpacket, Option.bind_some, Option.bind_some, hinverse packet code hencode]

/-- What arrives over the encoding link arrives over the plain one. -/
theorem run_plain (hinverse : ∀ packet code, encode packet = some code → decode code = some packet)
    (h : Encodes encode coded channel) (events : List (Event π)) :
    Encodes encode (Runs.run (step encode decode) coded events)
      (Runs.run (plain fun packet => (encode packet).isSome) channel events) := by
  induction events generalizing coded channel with
  | nil => exact h
  | cons event rest ih => exact ih (h.step hinverse event)

end Relay
