import SchcCoreconf.Lib.BitString

/-!
# Byte strings as digits of six bits

A byte string is spelled by the sextets of its bits, the last one filled up with zero
bits. A text of it writes a digit for every sextet and pads the digits to groups of
four. Both are determined by the bytes (`Spells.unique`, `CanonicalText.unique`).
-/

namespace Sextets

open BitString

def ofSextets (sextets : List UInt8) : List Bool :=
  sextets.flatMap fun sextet => bits sextet.toNat 6

/-- The bits of the bytes and less than a sextet of zeros. -/
def Spells (sextets bytes : List UInt8) : Prop :=
  (∀ sextet ∈ sextets, sextet.toNat < 64) ∧
    ∃ zeros < 6, ofSextets sextets = ofBytes bytes ++ List.replicate zeros false

/-- The digits of the bytes, padded to a multiple of four. -/
def CanonicalText (digit : UInt8 → UInt8) (pad : UInt8) (bytes text : List UInt8) : Prop :=
  ∃ sextets pads, Spells sextets bytes ∧ pads < 4 ∧ (sextets.length + pads) % 4 = 0 ∧
    text = sextets.map digit ++ List.replicate pads pad

@[simp] theorem ofSextets_nil : ofSextets [] = [] := rfl

@[simp] theorem ofSextets_cons :
    ofSextets (sextet :: rest) = bits sextet.toNat 6 ++ ofSextets rest :=
  List.flatMap_cons

theorem length_ofSextets (sextets : List UInt8) :
    (ofSextets sextets).length = 6 * sextets.length := by
  induction sextets with
  | nil => rfl
  | cons sextet rest ih =>
    rw [ofSextets_cons, List.length_append, length_bits, ih, List.length_cons]
    omega

theorem ofSextets_injective (hleft : ∀ sextet ∈ left, sextet.toNat < 64)
    (hright : ∀ sextet ∈ right, sextet.toNat < 64) (h : ofSextets left = ofSextets right) :
    left = right := by
  induction left generalizing right with
  | nil =>
    cases right with
    | nil => rfl
    | cons => cases h
  | cons first rest ih =>
    cases right with
    | nil => cases h
    | cons other others =>
      rw [ofSextets_cons, ofSextets_cons] at h
      obtain ⟨hfirst, hrest⟩ := List.append_inj h (by simp)
      have hsame : first.toNat = other.toNat := bits_injective
        (hleft first List.mem_cons_self) (hright other List.mem_cons_self) hfirst
      rw [UInt8.toNat_inj.mp hsame, ih (fun s hs => hleft s (List.mem_cons_of_mem _ hs))
        (fun s hs => hright s (List.mem_cons_of_mem _ hs)) hrest]

theorem Spells.unique (hleft : Spells left bytes) (hright : Spells right bytes) : left = right := by
  obtain ⟨hsmall, zeros, hzeros, hbits⟩ := hleft
  obtain ⟨hsmall', zeros', hzeros', hbits'⟩ := hright
  have hlength := congrArg List.length hbits
  have hlength' := congrArg List.length hbits'
  rw [length_ofSextets, List.length_append, List.length_replicate] at hlength hlength'
  have hsame : zeros = zeros' := by omega
  subst hsame
  exact ofSextets_injective hsmall hsmall' (hbits.trans hbits'.symm)

theorem CanonicalText.unique (hleft : CanonicalText digit pad bytes left)
    (hright : CanonicalText digit pad bytes right) : left = right := by
  obtain ⟨sextets, pads, hspells, hpads, hgroups, rfl⟩ := hleft
  obtain ⟨sextets', pads', hspells', hpads', hgroups', rfl⟩ := hright
  have hsextets := hspells.unique hspells'
  subst hsextets
  have hsame : pads = pads' := by omega
  rw [hsame]

theorem Spells.nil : Spells [] [] := ⟨nofun, 0, by decide, rfl⟩

theorem Spells.append (hsmall : ∀ sextet ∈ front, sextet.toNat < 64)
    (hfront : ofSextets front = ofBytes bytes) (h : Spells sextets rest) :
    Spells (front ++ sextets) (bytes ++ rest) := by
  obtain ⟨hrest, zeros, hzeros, hbits⟩ := h
  refine ⟨fun s hs => (List.mem_append.mp hs).elim (hsmall s) (hrest s), zeros, hzeros, ?_⟩
  unfold ofSextets ofBytes at *
  rw [List.flatMap_append, List.flatMap_append, hfront, hbits, List.append_assoc]

end Sextets
