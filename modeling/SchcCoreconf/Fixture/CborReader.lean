import SchcCoreconf.CborSizes
import SchcCoreconf.Fixture.Documents
import SchcCoreconf.Lib.Items
import SchcCoreconf.TargetWidths

/-!
# A reader of CBOR

Items of integers, byte strings, arrays, maps and tags are read back as they are written.
-/

namespace SchcCoreconf.Fixture

open Fallible

-- ---------------------------------------------------------------------------
-- Heads
-- ---------------------------------------------------------------------------

def readNumber (width : Nat) (bytes : Bytes) : Option (Nat × Bytes) :=
  if width ≤ bytes.length then some (BigEndian.toNat (bytes.take width), bytes.drop width) else none

/-- The argument of a head, by the low bits of its first byte. -/
def readArgument (info : Nat) (rest : Bytes) : Option (Nat × Bytes) :=
  if info < 24 then some (info, rest)
  else if info = 24 then readNumber 1 rest
  else if info = 25 then readNumber 2 rest
  else if info = 26 then readNumber 4 rest
  else if info = 27 then readNumber 8 rest
  else none

def readHead : Bytes → Option (Nat × Nat × Bytes)
  | [] => none
  | first :: rest =>
    (readArgument (first.toNat % 32) rest).map fun (n, rest) => (first.toNat / 32, n, rest)

theorem readNumber_bigEndian (width n : Nat) (hn : n < 256 ^ width) (rest : Bytes) :
    readNumber width (bigEndian width n ++ rest) = some (n, rest) := by
  have hlength : (bigEndian width n).length = width := by rw [bigEndian_eq, BigEndian.length_ofNat]
  rw [readNumber, if_pos (by rw [List.length_append, hlength]; exact Nat.le_add_right _ _),
    List.take_left' hlength, List.drop_left' hlength, bigEndian_eq,
    BigEndian.toNat_ofNat, Nat.mod_eq_of_lt hn]

theorem readHead_cborHead (hmajor : major < 8) (hn : n < 2 ^ 64) (rest : Bytes) :
    readHead (cborHead major n ++ rest) = some (major, n, rest) := by
  have hread {info : Nat} {tail : Bytes} (hinfo : info < 32)
      (h : readArgument info tail = some (n, rest)) :
      readHead (UInt8.ofNat (major * 32 + info) :: tail) = some (major, n, rest) := by
    have hhigh : (UInt8.ofNat (major * 32 + info)).toNat / 32 = major := by
      rw [UInt8.toNat_ofNat']
      omega
    have hlow : (UInt8.ofNat (major * 32 + info)).toNat % 32 = info := by
      rw [UInt8.toNat_ofNat']
      omega
    rw [readHead, hhigh, hlow, h]
    rfl
  unfold cborHead
  split_ifs with h24 h8 h16 h32
  · exact hread (by omega) (if_pos h24)
  · exact hread (by decide) (readNumber_bigEndian 1 n (by omega) rest)
  · exact hread (by decide) (readNumber_bigEndian 2 n (by omega) rest)
  · exact hread (by decide) (readNumber_bigEndian 4 n (by omega) rest)
  · exact hread (by decide) (readNumber_bigEndian 8 n (by omega) rest)

-- ---------------------------------------------------------------------------
-- Items
-- ---------------------------------------------------------------------------

def readMany (read : Bytes → Option (α × Bytes)) : Nat → Bytes → Option (List α × Bytes)
  | 0, bytes => some ([], bytes)
  | count + 1, bytes => do
    let (item, rest) ← read bytes
    let (items, rest) ← readMany read count rest
    return (item :: items, rest)

def readPair (read : Bytes → Option (Cbor × Bytes)) (bytes : Bytes) :
    Option ((Cbor × Cbor) × Bytes) := do
  let (key, rest) ← read bytes
  let (value, rest) ← read rest
  return ((key, value), rest)

def readItem : Nat → Bytes → Option (Cbor × Bytes)
  | 0, _ => none
  | fuel + 1, bytes => do
    let (major, n, rest) ← readHead bytes
    match major with
    | 0 => some (.integer n, rest)
    | 1 => some (.integer (-1 - n), rest)
    | 2 => if n ≤ rest.length then some (.bytes (rest.take n), rest.drop n) else none
    | 4 => do
      let (items, rest) ← readMany (readItem fuel) n rest
      some (.array items, rest)
    | 5 => do
      let (entries, rest) ← readMany (readPair (readItem fuel)) n rest
      some (.map entries, rest)
    | 6 => do
      let (value, rest) ← readItem fuel rest
      some (.tag (.ofNat n) value, rest)
    | _ => none

mutual
/-- What the reader reads: integers, byte strings, arrays, maps and tags. -/
def readable : Cbor → Bool
  | .integer value => -2 ^ 64 ≤ value && value < 2 ^ 64
  | .bytes value => value.length < 2 ^ 64
  | .array items => items.length < 2 ^ 64 && readableItems items
  | .map entries => entries.length < 2 ^ 64 && readableEntries entries
  | .tag _ value => readable value
  | _ => false
def readableItems : List Cbor → Bool
  | [] => true
  | item :: rest => readable item && readableItems rest
def readableEntries : List (Cbor × Cbor) → Bool
  | [] => true
  | (key, value) :: rest => readable key && readable value && readableEntries rest
end

theorem cborHead_length (major n : Nat) : 1 ≤ (cborHead major n).length := by
  unfold cborHead
  split_ifs <;> simp

theorem cborBytes_length (value : Cbor) (h : readable value = true) :
    1 ≤ (cborBytes value).length := by
  cases value with
  | integer number =>
    rw [cborBytes]
    split <;> exact cborHead_length _ _
  | bytes bytes =>
    rw [cborBytes, List.length_append]
    exact (cborHead_length _ _).trans (Nat.le_add_right _ _)
  | array items =>
    rw [cborBytes, List.length_append]
    exact (cborHead_length _ _).trans (Nat.le_add_right _ _)
  | map entries =>
    rw [cborBytes, List.length_append]
    exact (cborHead_length _ _).trans (Nat.le_add_right _ _)
  | tag number value =>
    rw [cborBytes, List.length_append]
    exact (cborHead_length _ _).trans (Nat.le_add_right _ _)
  | _ => cases h

mutual
/-- An item is read back as it was written. -/
theorem readItem_cborBytes : (value : Cbor) → readable value = true → (fuel : Nat) →
    (cborBytes value).length ≤ fuel → (rest : Bytes) →
    readItem fuel (cborBytes value ++ rest) = some (value, rest)
  | value, h, 0, hfuel, rest => by
    have hpos := cborBytes_length value h
    omega
  | .integer value, h, fuel + 1, hfuel, rest => by
    simp only [readable, Bool.and_eq_true, decide_eq_true_eq] at h
    rw [cborBytes]
    split_ifs with hsign
    · rw [readItem, readHead_cborHead (by decide) (by omega)]
      simp [Int.toNat_of_nonneg hsign]
    · rw [readItem, readHead_cborHead (by decide) (by omega)]
      have hvalue : -1 - ((-1 - value).toNat : Int) = value := by omega
      simp only [Option.bind_eq_bind, Option.bind_some, hvalue]
  | .bytes value, h, fuel + 1, hfuel, rest => by
    simp only [readable, decide_eq_true_eq] at h
    rw [cborBytes, List.append_assoc, readItem, readHead_cborHead (by decide) h]
    simp
  | .array items, h, fuel + 1, hfuel, rest => by
    simp only [readable, Bool.and_eq_true, decide_eq_true_eq] at h
    rw [cborBytes, List.length_append] at hfuel
    have hhead := cborHead_length 4 items.length
    rw [cborBytes, List.append_assoc, readItem, readHead_cborHead (by decide) h.1]
    simp only [Option.bind_eq_bind, Option.bind_some,
      readMany_cborItems items h.2 fuel (by omega) rest]
  | .map entries, h, fuel + 1, hfuel, rest => by
    simp only [readable, Bool.and_eq_true, decide_eq_true_eq] at h
    rw [cborBytes, List.length_append] at hfuel
    have hhead := cborHead_length 5 entries.length
    rw [cborBytes, List.append_assoc, readItem, readHead_cborHead (by decide) h.1]
    simp only [Option.bind_eq_bind, Option.bind_some,
      readMany_cborEntries entries h.2 fuel (by omega) rest]
  | .tag number value, h, fuel + 1, hfuel, rest => by
    rw [cborBytes, List.length_append] at hfuel
    have hhead := cborHead_length 6 number.toNat
    rw [cborBytes, List.append_assoc, readItem, readHead_cborHead (by decide) number.toNat_lt]
    simp only [Option.bind_eq_bind, Option.bind_some,
      readItem_cborBytes value h fuel (by omega) rest, UInt64.ofNat_toNat]
  | .text _, h, _ + 1, _, _ | .bool _, h, _ + 1, _, _ | .null, h, _ + 1, _, _
  | .float _, h, _ + 1, _, _ => by
    simp [readable] at h
theorem readMany_cborItems : (items : List Cbor) → readableItems items = true → (fuel : Nat) →
    (cborItems items).length ≤ fuel → (rest : Bytes) →
    readMany (readItem fuel) items.length (cborItems items ++ rest) = some (items, rest)
  | [], _, _, _, _ => rfl
  | item :: items, h, fuel, hfuel, rest => by
    simp only [readableItems, Bool.and_eq_true] at h
    rw [cborItems, List.length_append] at hfuel
    rw [List.length_cons, readMany, cborItems, List.append_assoc,
      readItem_cborBytes item h.1 fuel (by omega)]
    simp only [Option.bind_eq_bind, Option.bind_some,
      readMany_cborItems items h.2 fuel (by omega) rest]
    rfl
theorem readMany_cborEntries : (entries : List (Cbor × Cbor)) → readableEntries entries = true →
    (fuel : Nat) → (cborEntries entries).length ≤ fuel → (rest : Bytes) →
    readMany (readPair (readItem fuel)) entries.length
      (cborEntries entries ++ rest) = some (entries, rest)
  | [], _, _, _, _ => rfl
  | (key, value) :: entries, h, fuel, hfuel, rest => by
    simp only [readableEntries, Bool.and_eq_true] at h
    rw [cborEntries, List.length_append, List.length_append] at hfuel
    have hpair : readPair (readItem fuel)
        (cborBytes key ++ (cborBytes value ++ (cborEntries entries ++ rest))) =
        some ((key, value), cborEntries entries ++ rest) := by
      rw [readPair, readItem_cborBytes key h.1.1 fuel (by omega)]
      simp only [Option.bind_eq_bind, Option.bind_some,
        readItem_cborBytes value h.1.2 fuel (by omega) _]
      rfl
    rw [List.length_cons, readMany, cborEntries, List.append_assoc, List.append_assoc, hpair]
    simp only [Option.bind_eq_bind, Option.bind_some,
      readMany_cborEntries entries h.2 fuel (by omega) rest]
    rfl
end

-- ---------------------------------------------------------------------------
-- ciborium
-- ---------------------------------------------------------------------------

def cborCrate : Ciborium where
  fromReader bytes :=
    match readItem bytes.length bytes with
    | some (value, rest) => .ok (value, bytes.length - rest.length)
    | none => .error "invalid CBOR"
  intoWriter value := if readable value then .ok (cborBytes value)
    else .error "not an item of this example"

theorem cborCrate_written {value : Cbor} (h : cborCrate.intoWriter value = .ok bytes) :
    readable value = true ∧ bytes = cborBytes value := by
  simp only [cborCrate] at h
  split at h <;> cases h
  exact ⟨‹_›, rfl⟩

theorem cborCrate_read {value : Cbor} (h : readable value = true) :
    cborCrate.fromReader (cborBytes value) = .ok (value, (cborBytes value).length) := by
  have hread := readItem_cborBytes value h (cborBytes value).length le_rfl []
  rw [List.append_nil] at hread
  simp [cborCrate, hread]

theorem readNumber_length (h : readNumber width bytes = some (n, rest)) :
    rest.length ≤ bytes.length := by
  simp only [readNumber, Option.ite_none_right_eq_some, Option.some.injEq, Prod.mk.injEq] at h
  obtain ⟨-, -, rfl⟩ := h
  rw [List.length_drop]
  exact Nat.sub_le _ _

theorem readHead_length (h : readHead bytes = some (major, n, rest)) :
    rest.length < bytes.length := by
  cases bytes with
  | nil => cases h
  | cons first tail =>
    obtain ⟨⟨number, after⟩, hargument, heq⟩ := Option.map_eq_some_iff.mp h
    cases heq
    refine Nat.lt_succ_of_le ?_
    unfold readArgument at hargument
    split_ifs at hargument
    · cases hargument
      exact le_rfl
    · exact readNumber_length hargument
    · exact readNumber_length hargument
    · exact readNumber_length hargument
    · exact readNumber_length hargument

theorem readMany_length {read : Bytes → Option (α × Bytes)}
    (hread : ∀ {bytes item rest}, read bytes = some (item, rest) → rest.length ≤ bytes.length)
    (h : readMany read count bytes = some (items, rest)) : rest.length ≤ bytes.length := by
  induction count generalizing bytes items with
  | zero =>
    cases h
    exact le_rfl
  | succ count ih =>
    simp only [readMany, Option.bind_eq_bind, Option.bind_eq_some_iff, Prod.exists] at h
    obtain ⟨item, middle, hitem, others, last, hothers, heq⟩ := h
    cases heq
    exact (ih hothers).trans (hread hitem)

theorem readItem_length (h : readItem fuel bytes = some (value, rest)) :
    rest.length < bytes.length := by
  induction fuel generalizing bytes value rest with
  | zero => cases h
  | succ fuel ih =>
    simp only [readItem, Option.bind_eq_bind, Option.bind_eq_some_iff, Prod.exists] at h
    obtain ⟨major, n, after, hhead, h⟩ := h
    refine lt_of_le_of_lt ?_ (readHead_length hhead)
    split at h
    · cases h
      exact le_rfl
    · cases h
      exact le_rfl
    · simp only [Option.ite_none_right_eq_some, Option.some.injEq, Prod.mk.injEq] at h
      obtain ⟨-, -, rfl⟩ := h
      rw [List.length_drop]
      exact Nat.sub_le _ _
    · simp only [Option.bind_eq_some_iff, Prod.exists] at h
      obtain ⟨items, last, hitems, heq⟩ := h
      cases heq
      exact readMany_length (fun hitem => (ih hitem).le) hitems
    · simp only [Option.bind_eq_some_iff, Prod.exists] at h
      obtain ⟨entries, last, hentries, heq⟩ := h
      cases heq
      refine readMany_length (fun hpair => ?_) hentries
      simp only [readPair, Option.bind_eq_bind, Option.bind_eq_some_iff, Prod.exists] at hpair
      obtain ⟨key, middle, hkey, found, last, hvalue, heq⟩ := hpair
      cases heq
      exact ((ih hvalue).trans (ih hkey)).le
    · simp only [Option.bind_eq_some_iff, Prod.exists] at h
      obtain ⟨tagged, last, htagged, heq⟩ := h
      cases heq
      exact (ih htagged).le
    · cases h

theorem cborCrate_consumes : Items.Consumes cborCrate.fromReader := by
  intro bytes value n h
  simp only [cborCrate] at h
  split at h
  · next found rest hread =>
    cases h
    have hlength := readItem_length hread
    omega
  · cases h

theorem cborHead_size (major n : Nat) : (cborHead major n).length = headSize n := by
  unfold cborHead headSize
  split_ifs <;> simp [bigEndian_eq]

mutual
theorem cborBytes_size : (value : Cbor) → readable value = true →
    (cborBytes value).length = value.size fun _ => 9
  | .integer value, _ => by
    rw [cborBytes, Cbor.size]
    split <;> exact cborHead_size _ _
  | .bytes value, _ => by
    rw [cborBytes, Cbor.size, List.length_append, cborHead_size]
  | .array items, h => by
    simp only [readable, Bool.and_eq_true] at h
    rw [cborBytes, Cbor.size, List.length_append, cborHead_size, cborItems_size items h.2]
  | .map entries, h => by
    simp only [readable, Bool.and_eq_true] at h
    rw [cborBytes, Cbor.size, List.length_append, cborHead_size, cborEntries_size entries h.2]
  | .tag number value, h => by
    rw [cborBytes, Cbor.size, List.length_append, cborHead_size, cborBytes_size value h]
  | .text _, h | .bool _, h | .null, h | .float _, h => by
    simp [readable] at h
theorem cborItems_size : (items : List Cbor) → readableItems items = true →
    (cborItems items).length = Cbor.sizeItems (fun _ => 9) items
  | [], _ => rfl
  | item :: rest, h => by
    simp only [readableItems, Bool.and_eq_true] at h
    rw [cborItems, Cbor.sizeItems, List.length_append, cborBytes_size item h.1,
      cborItems_size rest h.2]
theorem cborEntries_size : (entries : List (Cbor × Cbor)) → readableEntries entries = true →
    (cborEntries entries).length = Cbor.sizeEntries (fun _ => 9) entries
  | [], _ => rfl
  | (key, value) :: rest, h => by
    simp only [readableEntries, Bool.and_eq_true] at h
    rw [cborEntries, Cbor.sizeEntries, List.length_append, List.length_append,
      cborBytes_size key h.1.1, cborBytes_size value h.1.2, cborEntries_size rest h.2]
end

mutual
theorem readable_of_plain : (value : Cbor) → value.Plain → readable value = true
  | .integer value, h => by simpa [readable, Cbor.Plain] using h
  | .bytes value, h => decide_eq_true h
  | .map entries, h => by
    rw [readable, readableEntries_of_plain entries h.2, Bool.and_true]
    exact decide_eq_true h.1
  | .array _, h | .text _, h | .tag _ _, h | .bool _, h | .null, h | .float _, h => by
    simp [Cbor.Plain] at h
theorem readableEntries_of_plain : (entries : List (Cbor × Cbor)) → Cbor.PlainEntries entries →
    readableEntries entries = true
  | [], _ => rfl
  | (key, value) :: rest, ⟨hkey, hvalue, hrest⟩ => by
    rw [readableEntries, readable_of_plain key hkey, readable_of_plain value hvalue,
      readableEntries_of_plain rest hrest]
    rfl
end

theorem cborCrate_shortest : WritesShortest cborCrate where
  total h := ⟨_, if_pos (readable_of_plain _ h)⟩
  size := by
    refine ⟨fun _ => 9, fun h => ?_⟩
    obtain ⟨hreadable, rfl⟩ := cborCrate_written h
    exact cborBytes_size _ hreadable

end SchcCoreconf.Fixture
