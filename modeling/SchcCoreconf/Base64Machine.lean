import SchcCoreconf.Base64
import SchcCoreconf.Lib.Machine
import SchcCoreconf.Lib.Utf8

/-!
# Base64 on bytes of the machine

The two loops over chunks with every index checked and every shift done on eight bits,
where an index past the end or a shift by the width is no value at all. There is none for
any bytes and any text.
-/

namespace SchcCoreconf

open Fallible Machine

-- ---------------------------------------------------------------------------
-- Encoding
-- ---------------------------------------------------------------------------

def shlByte (byte : UInt8) (amount : Nat) : Option UInt8 :=
  (shlDrop 8 byte.toNat amount).map UInt8.ofNat

def shrByte (byte : UInt8) (amount : Nat) : Option UInt8 :=
  (shr 8 byte.toNat amount).map UInt8.ofNat

def chunks : Bytes → List Bytes
  | first :: second :: third :: rest => [first, second, third] :: chunks rest
  | [] => []
  | short => [short]

def base64DigitChecked (index : UInt8) : Option UInt8 := base64Alphabet[index.toNat]?

def base64EncodeChunkChecked (chunk : Bytes) : Option Bytes := do
  let first ← chunk[0]?
  let second := chunk[1]?.getD 0
  let third := chunk[2]?.getD 0
  let a ← base64DigitChecked (← shrByte first 2)
  let b ← base64DigitChecked ((← shlByte (first &&& 0x03) 4) ||| (← shrByte second 4))
  let c ← if chunk.length > 1 then do
      base64DigitChecked ((← shlByte (second &&& 0x0f) 2) ||| (← shrByte third 6))
    else some base64Pad
  let d ← if chunk.length > 2 then base64DigitChecked (third &&& 0x3f) else some base64Pad
  return [a, b, c, d]

def base64EncodeChecked (bytes : Bytes) : Option String := do
  let output ← (chunks bytes).mapM base64EncodeChunkChecked
  return Utf8.ofAscii output.flatten

def base64EncodeText (bytes : Bytes) : String := Utf8.ofAscii (base64Encode bytes)

theorem shlByte_eq (byte : UInt8) (h : amount < 8) :
    shlByte byte amount = some (byte <<< UInt8.ofNat amount) := by
  rw [shlByte, shlDrop_eq h, Option.map_some]
  congr 1
  rw [← UInt8.toNat_inj, UInt8.toNat_shiftLeft]
  have hamount : (UInt8.ofNat amount).toNat = amount :=
    UInt8.toNat_ofNat_of_lt' (h.trans (by decide))
  simp [hamount, Nat.mod_eq_of_lt h]

theorem shrByte_eq (byte : UInt8) (h : amount < 8) :
    shrByte byte amount = some (byte >>> UInt8.ofNat amount) := by
  rw [shrByte, shr_eq h, Option.map_some]
  congr 1
  rw [← UInt8.toNat_inj, UInt8.toNat_shiftRight]
  have hamount : (UInt8.ofNat amount).toNat = amount :=
    UInt8.toNat_ofNat_of_lt' (h.trans (by decide))
  have hlt : byte.toNat >>> amount < 256 := (Nat.shiftRight_le ..).trans_lt byte.toNat_lt
  simp [hamount, Nat.mod_eq_of_lt h, Nat.mod_eq_of_lt hlt]

theorem base64DigitChecked_eq (h : Sextet index) :
    base64DigitChecked index = some (base64Digit index) := by
  have hall : ∀ byte, Sextet byte → base64DigitChecked byte = some (base64Digit byte) :=
    BigEndian.forall_byte (by decide +kernel)
  exact hall index h

section
variable (a b c : UInt8)

theorem base64EncodeChunkChecked_three :
    base64EncodeChunkChecked [a, b, c] = some [base64Digit (a >>> 2),
      base64Digit ((a &&& 0x03) <<< 4 ||| b >>> 4), base64Digit ((b &&& 0x0f) <<< 2 ||| c >>> 6),
      base64Digit (c &&& 0x3f)] := by
  have hfirst := base64DigitChecked_eq (sextet_first a)
  have hsecond := base64DigitChecked_eq (sextet_second a b)
  have hthird := base64DigitChecked_eq (sextet_third b c)
  have hfourth := base64DigitChecked_eq (sextet_fourth c)
  simp only [base64EncodeChunkChecked, shlByte_eq, shrByte_eq, Nat.reduceLT]
  simp [hfirst, hsecond, hthird, hfourth]

theorem base64EncodeChunkChecked_two :
    base64EncodeChunkChecked [a, b] = some [base64Digit (a >>> 2),
      base64Digit ((a &&& 0x03) <<< 4 ||| b >>> 4),
        base64Digit ((b &&& 0x0f) <<< 2), base64Pad] := by
  have hfirst := base64DigitChecked_eq (sextet_first a)
  have hsecond := base64DigitChecked_eq (sextet_second a b)
  have hthird := base64DigitChecked_eq (sextet_third_last b)
  simp only [base64EncodeChunkChecked, shlByte_eq, shrByte_eq, Nat.reduceLT]
  simp [hfirst, hsecond, hthird]

theorem base64EncodeChunkChecked_one :
    base64EncodeChunkChecked [a] = some [base64Digit (a >>> 2), base64Digit ((a &&& 0x03) <<< 4),
      base64Pad, base64Pad] := by
  have hfirst := base64DigitChecked_eq (sextet_first a)
  have hsecond := base64DigitChecked_eq (sextet_second_last a)
  simp only [base64EncodeChunkChecked, shlByte_eq, shrByte_eq, Nat.reduceLT]
  simp [hfirst, hsecond]

end

/-- No chunk is indexed past its end, nor the alphabet, and the digits are the exact ones. -/
theorem base64EncodeChecked_eq (bytes : Bytes) :
    base64EncodeChecked bytes = some (base64EncodeText bytes) := by
  have hchunks : ((chunks bytes).mapM base64EncodeChunkChecked).map List.flatten =
      some (base64Encode bytes) := by
    induction bytes using base64Encode.induct with
    | case1 a b c rest ih =>
      obtain ⟨output, houtput, hflat⟩ := Option.map_eq_some_iff.mp ih
      simp only [chunks, List.mapM_cons, base64EncodeChunkChecked_three,
        houtput, base64Encode, ← hflat]
      rfl
    | case2 a b =>
      simp only [chunks, List.mapM_cons, base64EncodeChunkChecked_two]
      rfl
    | case3 a =>
      simp only [chunks, List.mapM_cons, base64EncodeChunkChecked_one]
      rfl
    | case4 => rfl
  obtain ⟨output, houtput, hflat⟩ := Option.map_eq_some_iff.mp hchunks
  rw [base64EncodeChecked, houtput, base64EncodeText, ← hflat]
  rfl

theorem base64Encode_ascii (bytes : Bytes) : ∀ byte ∈ base64Encode bytes, byte.toNat < 128 := by
  have hdigit : ∀ index, (base64Digit index).toNat < 128 := BigEndian.forall_byte (by
    unfold base64Digit
    rw [base64Alphabet_eq]
    decide +kernel)
  obtain ⟨sextets, pads, -, -, -, htext⟩ := base64Encode_canonical bytes
  intro byte hbyte
  rw [htext, List.mem_append] at hbyte
  obtain hbyte | hbyte := hbyte
  · obtain ⟨sextet, -, rfl⟩ := List.mem_map.mp hbyte
    exact hdigit sextet
  · rw [List.eq_of_mem_replicate hbyte]
    decide

theorem text_eq_iff : text = base64EncodeText bytes ↔ text.toUTF8.toList = base64Encode bytes := by
  have hbytes : (base64EncodeText bytes).toUTF8.toList = base64Encode bytes :=
    Utf8.toList_ofAscii (base64Encode_ascii bytes)
  constructor
  · rintro rfl
    exact hbytes
  · intro h
    exact Utf8.injective (h.trans hbytes.symm)

-- ---------------------------------------------------------------------------
-- Decoding
-- ---------------------------------------------------------------------------

def enterTable (table : Bytes) (entry : UInt8 × Nat) : Option Bytes :=
  if entry.1.toNat < table.length ∧ entry.2 < 256 then
    some (table.set entry.1.toNat (UInt8.ofNat entry.2))
  else none

def base64Table : Option Bytes := base64Alphabet.zipIdx.foldlM enterTable (List.replicate 256 255)

def chunksExact : Bytes → List Bytes
  | first :: second :: third :: fourth :: rest => [first, second, third, fourth] :: chunksExact rest
  | _ => []

def base64DecodeChunkChecked (table chunk : Bytes) : Checked InspectionError Bytes := do
  let a ← arith table[(← arith chunk[0]?).toNat]?
  let b ← arith table[(← arith chunk[1]?).toNat]?
  lift (ensure (!(a = 255 || b = 255)) (invalidDuplicate "ipatch-sequence contains invalid base64"))
  let third ← arith chunk[2]?
  let c ← arith (if third = base64Pad then some 0 else table[third.toNat]?)
  let fourth ← arith chunk[3]?
  let d ← arith (if fourth = base64Pad then some 0 else table[fourth.toNat]?)
  lift (ensure (!(c = 255 || d = 255 || (third = base64Pad && fourth ≠ base64Pad)))
    (invalidDuplicate "ipatch-sequence contains invalid base64 padding"))
  let front ← arith (do return [(← shlByte a 2) ||| (← shrByte b 4)])
  let middle ← arith (if third = base64Pad then some []
      else do return [(← shlByte b 4) ||| (← shrByte c 2)])
  let last ← arith (if fourth = base64Pad then some [] else do return [(← shlByte c 6) ||| d])
  return front ++ middle ++ last

def base64DecodeChecked (input : String) : Checked InspectionError Bytes := do
  let bytes := input.toUTF8.toList
  lift (ensure (bytes.length % 4 = 0) (invalidDuplicate "ipatch-sequence is not canonical base64"))
  let table ← arith base64Table
  let chunks ← (chunksExact bytes).mapM (base64DecodeChunkChecked table)
  let output := chunks.flatten
  let text ← arith (base64EncodeChecked output)
  lift (ensure (text = input) (invalidDuplicate "ipatch-sequence is not canonical base64"))
  return output

/-- The value of every digit, and 255 for every other byte. -/
def base64Values : Bytes := (List.range 256).map fun n => (base64Value (UInt8.ofNat n)).getD 255

theorem base64Values_get (byte : UInt8) :
    base64Values[byte.toNat]? = some ((base64Value byte).getD 255) := by
  simp [base64Values, List.getElem?_range byte.toNat_lt]

theorem enterTable_all {alphabet : Bytes} (hnodup : alphabet.Nodup) (start : Nat) (table : Bytes)
    (hlength : table.length = 256) (hfit : start + alphabet.length ≤ 256) :
    ∃ entered, (alphabet.zipIdx start).foldlM enterTable table =
      some entered ∧ entered.length = 256 ∧ ∀ byte : UInt8, entered[byte.toNat]? =
        (alphabet.findIdx? (· = byte)).elim table[byte.toNat]?
        fun index => some (UInt8.ofNat (start + index)) := by
  induction alphabet generalizing start table with
  | nil => exact ⟨table, rfl, hlength, fun byte => rfl⟩
  | cons first rest ih =>
    obtain ⟨hfresh, hnodup⟩ := List.nodup_cons.mp hnodup
    rw [List.length_cons] at hfit
    have hfirst : first.toNat < table.length := hlength ▸ first.toNat_lt
    have henter :
        enterTable table (first, start) = some (table.set first.toNat (UInt8.ofNat start)) :=
      if_pos ⟨hfirst, by omega⟩
    obtain ⟨entered, hentered, hsize, hget⟩ := ih hnodup (start + 1)
      (table.set first.toNat (UInt8.ofNat start)) (by rw [List.length_set, hlength]) (by omega)
    refine ⟨entered, ?_, hsize, fun byte => ?_⟩
    · rw [List.zipIdx_cons, List.foldlM_cons, henter]
      exact hentered
    · rw [hget, List.findIdx?_cons]
      by_cases hbyte : first = byte
      · subst hbyte
        have hnone : rest.findIdx? (· = first) = none := by
          rw [List.findIdx?_eq_none_iff]
          intro other hother
          exact decide_eq_false fun hsame => hfresh (hsame ▸ hother)
        rw [hnone, if_pos (decide_eq_true rfl)]
        exact List.getElem?_set_self hfirst
      · rw [if_neg (by simpa using hbyte)]
        cases rest.findIdx? (· = byte) with
        | none => exact List.getElem?_set_ne (fun hsame => hbyte (UInt8.toNat_inj.mp hsame))
        | some index =>
          show some _ = some _
          rw [Nat.add_right_comm, Nat.add_assoc]

theorem base64Table_eq : base64Table = some base64Values := by
  have hnodup : base64Alphabet.Nodup := by
    rw [base64Alphabet_eq]
    decide +kernel
  have hfit : 0 + base64Alphabet.length ≤ 256 := by
    rw [base64Alphabet_eq]
    decide
  obtain ⟨entered, hentered, hsize, hget⟩ :=
    enterTable_all hnodup 0 (List.replicate 256 255) List.length_replicate hfit
  rw [base64Table, hentered]
  have hvalues : entered = base64Values := by
    refine List.ext_getElem? fun n => ?_
    by_cases hn : n < 256
    · have hbyte : n = (UInt8.ofNat n).toNat := (UInt8.toNat_ofNat_of_lt' hn).symm
      rw [hbyte, hget, base64Values_get, base64Value]
      cases base64Alphabet.findIdx? (· = UInt8.ofNat n) with
      | none => exact List.getElem?_replicate_of_lt (UInt8.toNat_lt _)
      | some index =>
        show some _ = some _
        rw [Nat.zero_add]
        rfl
    · have hout : 256 ≤ n := Nat.le_of_not_lt hn
      rw [List.getElem?_eq_none (hsize ▸ hout), List.getElem?_eq_none
        (by simpa [base64Values] using hout)]
  rw [hvalues]

theorem base64Value_ne (byte : UInt8) : base64Value byte ≠ some 255 := by
  intro h
  obtain ⟨index, hindex, hvalue⟩ := Option.map_eq_some_iff.mp h
  have hlt : index < base64Alphabet.length := (List.findIdx?_eq_some_iff_getElem.mp hindex).1
  rw [base64Alphabet_eq] at hlt
  have hsame := congrArg UInt8.toNat hvalue
  rw [UInt8.toNat_ofNat_of_lt' (hlt.trans (by decide))] at hsame
  rw [hsame] at hlt
  exact absurd hlt (by decide)

theorem entry_255 (byte : UInt8) : (base64Value byte).getD 255 = 255 ↔ base64Value byte = none := by
  cases h : base64Value byte with
  | none => simp
  | some value =>
    refine iff_of_false ?_ nofun
    rintro rfl
    exact base64Value_ne byte h

theorem padded_entry (byte : UInt8) :
    (if byte = base64Pad then some 0 else some ((base64Value byte).getD 255)) =
      some ((if byte = base64Pad then some 0 else base64Value byte).getD 255) := by
  by_cases hpad : byte = base64Pad
  · rw [if_pos hpad, if_pos hpad]
    rfl
  · rw [if_neg hpad, if_neg hpad]

theorem padded_255 (byte : UInt8) :
    (if byte = base64Pad then some 0 else base64Value byte).getD 255 = 255 ↔
      (if byte = base64Pad then some 0 else base64Value byte) = none := by
  by_cases hpad : byte = base64Pad
  · rw [if_pos hpad]
    exact iff_of_false (by decide) nofun
  · rw [if_neg hpad]
    exact entry_255 byte

theorem base64DecodeChunkChecked_eq (first second third fourth : UInt8) :
    base64DecodeChunkChecked base64Values [first, second, third, fourth] =
      lift (base64DecodeChunk first second third fourth) := by
  simp only [base64DecodeChunkChecked, List.getElem?_cons_zero,
    List.getElem?_cons_succ, arith_some_bind, base64Values_get, padded_entry, shlByte_eq,
    shrByte_eq, Nat.reduceLT, Option.bind_eq_bind, Option.bind_some, Option.pure_def]
  unfold base64DecodeChunk
  have ha := entry_255 first
  have hb := entry_255 second
  have hc := padded_255 third
  have hd := padded_255 fourth
  generalize base64Value first = a at ha ⊢
  generalize base64Value second = b at hb ⊢
  generalize (if third = base64Pad then some 0 else base64Value third) = c at hc ⊢
  generalize (if fourth = base64Pad then some 0 else base64Value fourth) = d at hd ⊢
  cases a with
  | none => rfl
  | some a =>
    have ha : a ≠ 255 := by simpa using ha
    cases b with
    | none =>
      rw [lift_ensure_error (by simp)]
      rfl
    | some b =>
      have hb : b ≠ 255 := by simpa using hb
      rw [lift_ensure_bind (by simp [ha, hb])]
      cases c with
      | none =>
        rw [lift_ensure_error (by simp)]
        rfl
      | some c =>
        have hc : c ≠ 255 := by simpa using hc
        cases d with
        | none =>
          rw [lift_ensure_error (by simp)]
          rfl
        | some d =>
          have hd : d ≠ 255 := by simpa using hd
          -- the pads are the one check left, and choose what is pushed
          by_cases hthird : third = base64Pad <;> by_cases hfourth : fourth = base64Pad <;>
            simp [hthird, hfourth, hc, hd, ensure, need] <;> rfl

theorem chunksExact_eq (bytes : Bytes) :
    ∃ chunks, (chunksExact bytes).mapM (base64DecodeChunkChecked base64Values) = lift chunks ∧
      chunks.map List.flatten = base64DecodeChunks bytes := by
  fun_induction base64DecodeChunks bytes with
  | case1 first second third fourth rest ih =>
    obtain ⟨chunks, hchunks, hflat⟩ := ih
    simp only [chunksExact, List.mapM_cons, base64DecodeChunkChecked_eq, hchunks, ← hflat]
    cases base64DecodeChunk first second third fourth with
    | error => exact ⟨_, rfl, rfl⟩
    | ok chunk =>
      cases chunks with
      | error => exact ⟨_, rfl, rfl⟩
      | ok chunks => exact ⟨.ok (chunk :: chunks), rfl, rfl⟩
  | case2 bytes hshort =>
    have hnone : chunksExact bytes = [] := by
      unfold chunksExact
      split
      · next first second third fourth rest =>
          exact absurd rfl (hshort first second third fourth rest)
      · rfl
    exact ⟨.ok [], by rw [hnone]; rfl, rfl⟩

theorem base64DecodeChecked_eq (input : String) :
    base64DecodeChecked input = lift (base64Decode input) := by
  unfold base64DecodeChecked base64Decode
  refine bind_lift fun _ _ => ?_
  rw [base64Table_eq, arith_some_bind]
  obtain ⟨chunks, hchunks, hflat⟩ := chunksExact_eq input.toUTF8.toList
  rw [hchunks, ← hflat]
  cases chunks with
  | error => rfl
  | ok chunks =>
    have hsame : decide (base64EncodeText chunks.flatten = input) =
        decide (base64Encode chunks.flatten = input.toUTF8.toList) := by
      rw [decide_eq_decide, eq_comm, text_eq_iff, eq_comm]
    simp only [lift_ok_bind, base64EncodeChecked_eq, arith_some_bind, hsame]
    exact bind_lift fun _ _ => rfl

/-- The codec on machine bytes: total, decoding its own texts, and decoding no others. What
it writes, and all it accepts, is the canonical text of the bytes. -/
theorem base64_exact :
    (∀ bytes, base64EncodeChecked bytes = some (base64EncodeText bytes) ∧
      base64DecodeChecked (base64EncodeText bytes) = lift (.ok bytes)) ∧
    (∀ text, base64DecodeChecked text = lift (base64Decode text)) ∧
    ∀ text bytes, (base64DecodeChecked text = lift (.ok bytes) ↔ text = base64EncodeText bytes) ∧
      (text = base64EncodeText bytes ↔
        Sextets.CanonicalText base64Digit base64Pad bytes text.toUTF8.toList) := by
  have hdecode : ∀ text bytes, base64DecodeChecked text = lift (.ok bytes) ↔
      text = base64EncodeText bytes := by
    intro text bytes
    rw [base64DecodeChecked_eq, lift_eq_ok, base64Decode_ok, text_eq_iff]
  refine ⟨fun bytes => ⟨base64EncodeChecked_eq bytes, (hdecode _ bytes).mpr rfl⟩,
    base64DecodeChecked_eq, fun text bytes => ⟨hdecode text bytes, ?_⟩⟩
  rw [canonical_iff, text_eq_iff]

end SchcCoreconf
