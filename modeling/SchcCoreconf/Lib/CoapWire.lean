import Mathlib.Data.List.Basic

/-!
# CoAP messages on the wire

The message format of RFC 7252, section 3: a fixed header, the token, the
options as deltas of their numbers, and a payload behind its marker. A number
below 65805 has exactly one header nibble and extension, so reading gives back
what was written.
-/

namespace CoapWire

/-- One message: options carry absolute numbers, in the order they are sent. -/
structure Message where
  version : Nat
  messageType : Nat
  code : Nat
  messageId : Nat
  token : List UInt8
  options : List (Nat × List UInt8)
  payload : List UInt8
  deriving DecidableEq, Repr

-- ---------------------------------------------------------------------------
-- Extended numbers
-- ---------------------------------------------------------------------------

def nibble (n : Nat) : Nat := if n < 13 then n else if n < 269 then 13 else 14

def extension (n : Nat) : List UInt8 :=
  if n < 13 then []
  else if n < 269 then [UInt8.ofNat (n - 13)]
  else [UInt8.ofNat ((n - 269) / 256), UInt8.ofNat ((n - 269) % 256)]

/-- The numbers a nibble and an extension can say. -/
def extendedLimit : Nat := 65805

def readExtended (header : Nat) (bytes : List UInt8) : Option (Nat × List UInt8) :=
  if header < 13 then some (header, bytes)
  else if header = 13 then
    match bytes with
    | byte :: rest => some (byte.toNat + 13, rest)
    | [] => none
  else if header = 14 then
    match bytes with
    | high :: low :: rest => some (high.toNat * 256 + low.toNat + 269, rest)
    | _ => none
  else none

theorem nibble_lt (n : Nat) : nibble n < 15 := by
  unfold nibble
  split
  · omega
  · split <;> omega

theorem toNat_ofNat (h : n < 256) : (UInt8.ofNat n).toNat = n := by
  simp only [UInt8.toNat_ofNat']
  omega

theorem readExtended_extension (h : n < extendedLimit) (rest : List UInt8) :
    readExtended (nibble n) (extension n ++ rest) = some (n, rest) := by
  unfold extendedLimit at h
  by_cases hsmall : n < 13
  · simp [nibble, extension, readExtended, hsmall]
  · by_cases hmedium : n < 269
    · have hbyte : (UInt8.ofNat (n - 13)).toNat = n - 13 := toNat_ofNat (by omega)
      simp only [nibble, extension, readExtended, if_neg hsmall, if_pos hmedium, List.cons_append,
        List.nil_append, hbyte]
      rw [if_neg (by omega), if_pos trivial, Nat.sub_add_cancel (by omega)]
    · have hhigh : (UInt8.ofNat ((n - 269) / 256)).toNat = (n - 269) / 256 := toNat_ofNat (by omega)
      have hlow : (UInt8.ofNat ((n - 269) % 256)).toNat = (n - 269) % 256 := toNat_ofNat (by omega)
      simp only [nibble, extension, readExtended, if_neg hsmall, if_neg hmedium, List.cons_append,
        List.nil_append, hhigh, hlow]
      have hsum : (n - 269) / 256 * 256 + (n - 269) % 256 + 269 = n := by omega
      rw [if_neg (by omega), if_neg (by omega), if_pos trivial, hsum]

theorem ofNat_toNat (byte : UInt8) : UInt8.ofNat byte.toNat = byte := by
  rw [← UInt8.toNat_inj, toNat_ofNat byte.toNat_lt]

theorem readExtended_ok (h : readExtended header bytes = some (n, rest)) :
    header = nibble n ∧ n < extendedLimit ∧ bytes = extension n ++ rest := by
  unfold readExtended at h
  unfold nibble extendedLimit extension
  split at h
  · next hsmall =>
    cases h
    rw [if_pos hsmall, if_pos hsmall]
    exact ⟨rfl, by omega, rfl⟩
  · split at h
    · next hheader =>
      split at h
      · next byte rest =>
        cases h
        have hbyte : byte.toNat < 256 := byte.toNat_lt
        rw [if_neg (by omega), if_pos (by omega), if_neg (by omega), if_pos (by omega),
          Nat.add_sub_cancel, ofNat_toNat]
        exact ⟨hheader, by omega, rfl⟩
      · cases h
    · split at h
      · next hheader =>
        split at h
        · next high low rest =>
          cases h
          have hhigh : high.toNat < 256 := high.toNat_lt
          have hlow : low.toNat < 256 := low.toNat_lt
          have hdiv : (high.toNat * 256 + low.toNat + 269 - 269) / 256 = high.toNat := by omega
          have hmod : (high.toNat * 256 + low.toNat + 269 - 269) % 256 = low.toNat := by omega
          rw [if_neg (by omega), if_neg (by omega), if_neg (by omega),
            if_neg (by omega), hdiv, hmod, ofNat_toNat, ofNat_toNat]
          exact ⟨hheader, by omega, rfl⟩
        · cases h
      · cases h

-- ---------------------------------------------------------------------------
-- Options
-- ---------------------------------------------------------------------------

def payloadMarker : UInt8 := 0xff

def encodeOption (delta : Nat) (value : List UInt8) : List UInt8 :=
  UInt8.ofNat (nibble delta * 16 + nibble value.length) ::
    (extension delta ++ extension value.length ++ value)

def encodeOptions (previous : Nat) : List (Nat × List UInt8) → List UInt8
  | [] => []
  | (number, value) :: rest => encodeOption (number - previous) value ++ encodeOptions number rest

def encodePayload (payload : List UInt8) : List UInt8 :=
  if payload = [] then [] else payloadMarker :: payload

theorem length_le_encodePayload (payload : List UInt8) :
    payload.length ≤ (encodePayload payload).length := by
  cases payload <;> simp [encodePayload]

/-- The options from one number on and the payload; an option takes at least a
byte, so the bytes outlast none. -/
def decodeOptions : Nat → Nat → List UInt8 → Option (List (Nat × List UInt8) × List UInt8)
  | _, _, [] => some ([], [])
  | 0, _, _ :: _ => none
  | fuel + 1, previous, header :: bytes =>
    if header = payloadMarker then if bytes = [] then none else some ([], bytes)
    else do
      let (delta, bytes) ← readExtended (header.toNat / 16) bytes
      let (length, bytes) ← readExtended (header.toNat % 16) bytes
      if bytes.length < length then none
      else do
        let (options, payload) ← decodeOptions fuel (previous + delta) (bytes.drop length)
        return ((previous + delta, bytes.take length) :: options, payload)

/-- Numbers that do not decrease, and deltas and lengths that can be said. -/
def OptionsFit (previous : Nat) : List (Nat × List UInt8) → Prop
  | [] => True
  | (number, value) :: rest =>
    previous ≤ number ∧ number - previous < extendedLimit ∧ value.length < extendedLimit ∧
      OptionsFit number rest

instance decidableOptionsFit : (previous : Nat) → (options : List (Nat × List UInt8)) →
    Decidable (OptionsFit previous options)
  | _, [] => .isTrue trivial
  | previous, (number, value) :: rest =>
    have := decidableOptionsFit number rest
    inferInstanceAs (Decidable (previous ≤ number ∧ number - previous < extendedLimit ∧
      value.length < extendedLimit ∧ OptionsFit number rest))

theorem header_nibbles (delta length : Nat) :
    let header := UInt8.ofNat (nibble delta * 16 + nibble length)
    header.toNat / 16 = nibble delta ∧ header.toNat % 16 = nibble length ∧
      header ≠ payloadMarker := by
  have hdelta := nibble_lt delta
  have hlength := nibble_lt length
  have hbyte : (UInt8.ofNat (nibble delta * 16 + nibble length)).toNat =
      nibble delta * 16 + nibble length := toNat_ofNat (by omega)
  refine ⟨by rw [hbyte]; omega, by rw [hbyte]; omega, fun heq => ?_⟩
  have hmarker : nibble delta * 16 + nibble length = 255 := by rw [← hbyte, heq]; rfl
  omega

theorem decodeOptions_encodeOptions (h : OptionsFit previous options)
    (hfuel : options.length < fuel) :
    decodeOptions fuel previous (encodeOptions previous options ++ encodePayload payload) =
      some (options, payload) := by
  induction options generalizing previous fuel with
  | nil =>
    obtain ⟨fuel, rfl⟩ := Nat.exists_eq_add_one.mpr (Nat.zero_lt_of_lt hfuel)
    cases payload with
    | nil => rfl
    | cons byte rest => simp [encodeOptions, encodePayload, decodeOptions]
  | cons option rest ih =>
    obtain ⟨number, value⟩ := option
    obtain ⟨fuel, rfl⟩ := Nat.exists_eq_add_one.mpr (Nat.zero_lt_of_lt hfuel)
    obtain ⟨hle, hdelta, hlength, hrest⟩ := h
    obtain ⟨hhigh, hlow, hmarker⟩ := header_nibbles (number - previous) value.length
    have hnumber : previous + (number - previous) = number := by omega
    simp only [List.length_cons, Nat.add_lt_add_iff_right] at hfuel
    simp only [encodeOptions, encodeOption, List.cons_append, List.append_assoc, decodeOptions,
      if_neg hmarker, hhigh, hlow, readExtended_extension hdelta, readExtended_extension hlength,
      Option.bind_eq_bind, Option.bind_some, hnumber]
    simp [ih hrest hfuel]

-- ---------------------------------------------------------------------------
-- Messages
-- ---------------------------------------------------------------------------

def encode (message : Message) : List UInt8 :=
  UInt8.ofNat (message.version * 64 + message.messageType * 16 + message.token.length) ::
    UInt8.ofNat message.code :: UInt8.ofNat (message.messageId / 256) ::
    UInt8.ofNat (message.messageId % 256) ::
    (message.token ++ (encodeOptions 0 message.options ++ encodePayload message.payload))

def decode : List UInt8 → Option Message
  | first :: code :: high :: low :: bytes =>
    let length := first.toNat % 16
    if length > 8 || bytes.length < length then none
    else do
      let rest := bytes.drop length
      let (options, payload) ← decodeOptions (rest.length + 1) 0 rest
      return {
        version := first.toNat / 64
        messageType := first.toNat / 16 % 4
        code := code.toNat
        messageId := high.toNat * 256 + low.toNat
        token := bytes.take length
        options, payload }
  | _ => none

structure Message.WellFormed (message : Message) : Prop where
  version : message.version < 4
  messageType : message.messageType < 4
  code : message.code < 256
  messageId : message.messageId < 65536
  token : message.token.length ≤ 8
  options : OptionsFit 0 message.options

theorem length_le_encodeOptions (previous : Nat) (options : List (Nat × List UInt8)) :
    options.length ≤ (encodeOptions previous options).length := by
  induction options generalizing previous with
  | nil => exact Nat.zero_le _
  | cons option rest ih =>
    have hrest := ih option.1
    simp only [encodeOptions, encodeOption, List.cons_append, List.length_cons, List.length_append]
    omega

theorem decode_encode (h : message.WellFormed) : decode (encode message) = some message := by
  obtain ⟨version, messageType, code, messageId, token, options, payload⟩ := message
  obtain ⟨hversion, htype, hcode, hid, htoken, hoptions⟩ := h
  simp only at hversion htype hcode hid htoken hoptions
  have hfirst : (UInt8.ofNat (version * 64 + messageType * 16 + token.length)).toNat =
      version * 64 + messageType * 16 + token.length := toNat_ofNat (by omega)
  have hlength : (version * 64 + messageType * 16 + token.length) % 16 = token.length := by omega
  have hfuel : options.length <
      (encodeOptions 0 options ++ encodePayload payload).length + 1 := by
    have := length_le_encodeOptions 0 options
    simp only [List.length_append]
    omega
  simp only [encode, decode, hfirst, hlength]
  rw [if_neg (by simp; omega)]
  simp only [List.drop_left, List.take_left, decodeOptions_encodeOptions hoptions hfuel,
    Option.bind_eq_bind, Option.bind_some, Option.pure_def, Option.some.injEq, Message.mk.injEq,
    and_true, true_and, toNat_ofNat hcode]
  refine ⟨by omega, by omega, ?_⟩
  rw [toNat_ofNat (by omega), toNat_ofNat (by omega)]
  omega

end CoapWire
