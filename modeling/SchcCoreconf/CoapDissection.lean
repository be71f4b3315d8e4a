import SchcCoreconf.FrameSafety
import SchcCoreconf.Fixture.Crates
import SchcCoreconf.Lib.Machine

/-!
# The dissection of a CoAP datagram

`inspect_coap` walks a datagram by an offset, with every index, sum and difference
at the widths of the machine. The walk ends, reads no byte outside the datagram and
overflows nowhere; what it counts is a division of the datagram into its header, its
token, the encodings of its options and its payload. On the messages of an RFC 7252
parser it never fails.
-/

namespace SchcCoreconf

open Fallible Machine

-- ---------------------------------------------------------------------------
-- The walk, by offsets
-- ---------------------------------------------------------------------------

def readCoapExtendedChecked (nibble : Nat) (bytes : Bytes) (offset : Nat) (label : String) :
    Checked ReportError (Nat × Nat) :=
  if nibble ≤ 12 then return (nibble, offset)
  else if nibble = 13 then do
    let byte ← lift (need bytes[offset]? (.invalidPacket s!"CoAP {label} extension is truncated"))
    let offset ← arith (add 64 offset 1)
    return (← arith (add 32 byte.toNat 13), offset)
  else if nibble = 14 then do
    let stop ← lift (need (add 64 offset 2) (.invalidPacket s!"CoAP {label} extension overflows"))
    lift (ensure (stop ≤ bytes.length)
      (.invalidPacket s!"CoAP {label} extension is truncated"))
    let high ← arith bytes[offset]?
    let low ← arith bytes[← arith (add 64 offset 1)]?
    return (← arith (add 32 (high.toNat * 256 + low.toNat) 269), stop)
  else lift (.error (.invalidPacket s!"CoAP {label} uses reserved nibble"))

/-- The loop over the options; out of fuel, it has not ended. -/
def inspectCoapLoop (bytes : Bytes) : Nat → Nat → Nat → List CoapOptionCost →
    Checked ReportError (List CoapOptionCost × Nat)
  | 0, _, _, _ => ExceptT.mk none
  | fuel + 1, offset, previousNumber, options =>
    if offset < bytes.length then do
      let header ← arith bytes[offset]?
      let next ← arith (add 64 offset 1)
      if header = 0xff then do
        lift (ensure (next < bytes.length)
          (.invalidPacket "CoAP payload marker has no payload"))
        return (options, next)
      else do
        let (delta, offset') ← readCoapExtendedChecked
            (← arith (shr 8 header.toNat 4)) bytes next "delta"
        let (length, offset') ← readCoapExtendedChecked
            (header.toNat &&& 0x0f) bytes offset' "length"
        let number ← lift (need (add 32 previousNumber delta)
          (.invalidPacket "CoAP option number overflow"))
        let stop ← lift (need (add 64 offset' length)
          (.invalidPacket "CoAP option length overflow"))
        lift (ensure (stop ≤ bytes.length) (.invalidPacket "CoAP option exceeds datagram"))
        let encodedBytes ← arith (sub stop offset)
        let cost : CoapOptionCost := {
          number
          valueBytes := length
          headerBytes := 1
          deltaExtensionBytes := extendedBytes (header.toNat >>> 4)
          lengthExtensionBytes := extendedBytes (header.toNat &&& 0x0f)
          encodedBytes }
        inspectCoapLoop bytes fuel stop number (options ++ [cost])
    else return (options, offset)

def inspectCoapChecked (bytes : Bytes) (message : CoapMessage) : Checked ReportError CoapCost := do
  lift (ensure (4 ≤ bytes.length) (.invalidPacket "CoAP datagram is shorter than four bytes"))
  let first ← arith bytes[0]?
  let tokenLen := first.toNat &&& 0x0f
  let tokenEnd ← lift (need (add 64 4 tokenLen) (.invalidPacket "CoAP token length overflow"))
  lift (ensure (tokenEnd ≤ bytes.length && tokenLen = message.token.length)
    (.invalidPacket "CoAP token length is inconsistent"))
  let (options, offset) ← inspectCoapLoop bytes (bytes.length - tokenEnd + 1) tokenEnd 0 []
  let payloadBytes ← lift (need (sub bytes.length offset)
    (.invalidPacket "CoAP payload length underflow"))
  lift (ensure (options.length = message.options.length && payloadBytes = message.payload.length)
    (.invalidPacket "CoAP parsed fields do not match encoded datagram"))
  lift (ensure ((options.zip message.options).all fun pair => pair.1.matchesOption pair.2)
    (.invalidPacket "CoAP option cost does not match parsed option"))
  return {
    baseHeaderBytes := 4
    tokenBytes := tokenLen
    options
    payloadMarkerBytes := if payloadBytes = 0 then 0 else 1
    payloadBytes
    totalBytes := bytes.length }

def CoapCost.checkedSum (cost : CoapCost) : Option Nat := do
  let total ← add 64 cost.baseHeaderBytes cost.tokenBytes
  let total ← cost.options.foldlM (fun total option => add 64 total option.encodedBytes) total
  let total ← add 64 total cost.payloadMarkerBytes
  add 64 total cost.payloadBytes

-- ---------------------------------------------------------------------------
-- The walk is the exact one
-- ---------------------------------------------------------------------------

theorem getElem?_front (front rest : Bytes) : (front ++ rest)[front.length]? = rest.head? := by
  rw [List.getElem?_append_right le_rfl, Nat.sub_self, List.head?_eq_getElem?]

theorem add_offset {front rest : Bytes}
    (hslice : (front ++ rest).length < 2 ^ 63) (hfew : n < 2 ^ 63) :
    add 64 front.length n = some (front.length + n) := by
  rw [List.length_append] at hslice
  exact add_eq (by omega)

theorem readCoapExtendedChecked_eq {front rest : Bytes} (hslice : (front ++ rest).length < 2 ^ 63)
    (nibble : Nat) (label : String) :
    (∃ error, readCoapExtended nibble rest label = .error error ∧
      readCoapExtendedChecked nibble (front ++ rest) front.length label = lift (.error error)) ∨
    ∃ n read rest', rest = read ++ rest' ∧ read.length = extendedBytes nibble ∧
      n < CoapWire.extendedLimit ∧ readCoapExtended nibble rest label = .ok (n, rest') ∧
      readCoapExtendedChecked nibble (front ++ rest) front.length label =
        lift (.ok (n, (front ++ read).length)) := by
  unfold CoapWire.extendedLimit extendedBytes readCoapExtended readCoapExtendedChecked
  split
  · refine .inr ⟨nibble, [], rest, rfl, ?_, by omega, rfl, by simp only [List.append_nil]; rfl⟩
    rw [if_neg (by omega), if_neg (by omega)]
    rfl
  · split
    · cases rest with
      | nil =>
        refine .inl ⟨_, rfl, ?_⟩
        rw [getElem?_front]
        rfl
      | cons byte rest =>
        have hbyte : byte.toNat < 256 := byte.toNat_lt
        have hvalue : add 32 byte.toNat 13 = some (byte.toNat + 13) := add_eq (by omega)
        refine .inr ⟨_, [byte], rest, rfl, rfl, by omega, rfl, ?_⟩
        simp only [getElem?_front, add_offset hslice (show 1 < 2 ^ 63 by decide), List.head?_cons,
          lift_need_some_bind, arith_some_bind, hvalue, List.length_append]
        rfl
    · split
      · simp only [add_offset hslice (show 2 < 2 ^ 63 by decide),
          add_offset hslice (show 1 < 2 ^ 63 by decide), lift_need_some_bind,
          arith_some_bind, getElem?_front]
        have hsecond : (front ++ rest)[front.length + 1]? = rest[1]? := by
          rw [List.getElem?_append_right (Nat.le_add_right _ _), Nat.add_sub_cancel_left]
        match rest with
        | [] | [_] => exact .inl ⟨_, rfl, lift_ensure_error (by simp)⟩
        | high :: low :: rest =>
          have hhigh : high.toNat < 256 := high.toNat_lt
          have hlow : low.toNat < 256 := low.toNat_lt
          have hvalue : add 32 (high.toNat * 256 + low.toNat) 269 =
              some (high.toNat * 256 + low.toNat + 269) := add_eq (by omega)
          refine .inr ⟨_, [high, low], rest, rfl, rfl, by omega, rfl, ?_⟩
          rw [lift_ensure_bind (by simp), hsecond]
          simp only [List.head?_cons, List.getElem?_cons_succ, List.getElem?_cons_zero,
            arith_some_bind, hvalue, List.length_append]
          rfl
      · exact .inl ⟨_, rfl, rfl⟩

theorem inspectCoapLoop_eq {front rest : Bytes} (hslice : (front ++ rest).length < 2 ^ 63)
    (hfuel : rest.length ≤ fuel) (previous : Nat) (options : List CoapOptionCost) :
    inspectCoapLoop (front ++ rest) (fuel + 1) front.length previous options =
      lift ((inspectCoapOptions fuel previous rest).map fun (costs, payload) =>
        (options ++ costs, (front ++ rest).length - payload.length)) := by
  induction fuel generalizing front rest previous options with
  | zero =>
    obtain rfl := List.length_eq_zero_iff.mp (Nat.le_zero.mp hfuel)
    simp [inspectCoapLoop, inspectCoapOptions, Except.map]
    rfl
  | succ fuel ih =>
    cases rest with
    | nil =>
      simp [inspectCoapLoop, inspectCoapOptions, Except.map]
      rfl
    | cons header tail =>
      have hinside : front.length < (front ++ header :: tail).length := by simp
      have hheader : (front ++ header :: tail)[front.length]? = some header := getElem?_front _ _
      have hshift : shr 8 header.toNat 4 = some (header.toNat >>> 4) := shr_eq (by decide)
      rw [inspectCoapLoop, if_pos hinside, hheader, add_offset hslice (by decide)]
      simp only [arith_some_bind, hshift, inspectCoapOptions]
      by_cases hmarker : header = 0xff
      · rw [if_pos hmarker, if_pos hmarker]
        cases tail with
        | nil => exact lift_ensure_error (by simp)
        | cons byte payload =>
          have hposition : (front ++ header :: byte :: payload).length - (byte :: payload).length =
              front.length + 1 := by
            simp only [List.length_append, List.length_cons]
            omega
          rw [lift_ensure_bind (by simp)]
          simp only [List.isEmpty_cons, Bool.false_eq_true, if_false, Except.map, hposition,
            List.append_nil]
          rfl
      rw [if_neg hmarker, if_neg hmarker]
      have hfront : front ++ header :: tail = (front ++ [header]) ++ tail := by simp
      have hnext : front.length + 1 = (front ++ [header]).length := by simp
      rw [hfront] at hslice ⊢
      rw [hnext]
      rcases readCoapExtendedChecked_eq hslice (header.toNat >>> 4) "delta" with
        ⟨error, hexact, hread⟩ | ⟨delta, read, rest, rfl, hbytes, hdelta, hexact, hread⟩
      · rw [hread, hexact]
        rfl
      rw [hread, lift_ok_bind, hexact, ok_bind, ← List.append_assoc]
      rw [← List.append_assoc] at hslice
      rcases readCoapExtendedChecked_eq hslice (header.toNat &&& 0x0f) "length" with
        ⟨error, hexact, hread⟩ | ⟨length, read', rest', rfl, hbytes', hlength, hexact', hread'⟩
      · simp only [hread, hexact]
        rfl
      simp only [hread', lift_ok_bind, hexact', ok_bind]
      rw [← List.append_assoc] at hslice ⊢
      obtain ⟨lead, hlead, hhead⟩ : ∃ lead, front ++ [header] ++ read ++ read' = front ++ lead ∧
          lead.length = 1 + extendedBytes (header.toNat >>> 4) +
            extendedBytes (header.toNat &&& 0x0f) := by
        refine ⟨[header] ++ read ++ read', by simp, ?_⟩
        rw [← hbytes, ← hbytes', List.length_append, List.length_append, List.length_singleton]
      rw [hlead] at hslice ⊢
      have hrest : rest'.length ≤ fuel := by
        simp only [List.length_cons, List.length_append] at hfuel
        omega
      rw [add_offset hslice (hlength.trans (by decide))]
      simp only [lift_need_some_bind]
      by_cases hnumber : previous + delta < 2 ^ 32
      · rw [add_eq hnumber, lift_need_some_bind, ensure_bind (decide_eq_true hnumber)]
        have happend (more : Bytes) :
            (front ++ lead ++ more).length = (front ++ lead).length + more.length :=
          List.length_append
        have hwithin : (front ++ lead).length + length ≤ (front ++ lead ++ rest').length ↔
            length ≤ rest'.length := by
          rw [happend, Nat.add_le_add_iff_left]
        by_cases hend : length ≤ rest'.length
        · rw [lift_ensure_bind (decide_eq_true (hwithin.mpr hend)),
            ensure_bind (decide_eq_true hend)]
          have hsplit : front ++ lead ++ rest' =
              (front ++ lead ++ rest'.take length) ++ rest'.drop length := by
            rw [List.append_assoc _ (rest'.take length), List.take_append_drop]
          have hstop :
              (front ++ lead).length + length = (front ++ lead ++ rest'.take length).length := by
            rw [happend, List.length_take_of_le hend]
          have hcost :
              sub ((front ++ lead).length + length) front.length = some (lead.length + length) := by
            rw [List.length_append, sub_eq (by omega)]
            congr 1
            omega
          have hfewer : (rest'.drop length).length ≤ fuel := by
            rw [List.length_drop]
            omega
          rw [hcost, arith_some_bind, hhead, hstop, hsplit, ih (hsplit ▸ hslice) hfewer]
          cases inspectCoapOptions fuel (previous + delta) (rest'.drop length) with
          | error error => rfl
          | ok pair =>
            simp only [ok_bind, pure, Except.pure, Except.map,
              List.append_assoc, List.singleton_append]
        · rw [lift_ensure_error (decide_eq_false (mt hwithin.mp hend)),
            ensure_bind_error (decide_eq_false hend)]
          rfl
      · rw [add, if_neg hnumber, lift_need_none_bind, ensure_bind_error (decide_eq_false hnumber)]
        rfl

-- ---------------------------------------------------------------------------
-- What is counted
-- ---------------------------------------------------------------------------

def optionCosts (previous : Nat) : List (Nat × Bytes) → List CoapOptionCost
  | [] => []
  | (number, value) :: rest => encodedOptionCost previous number value :: optionCosts number rest

theorem readCoapExtended_ok (h : readCoapExtended nibble bytes label = .ok (n, rest)) :
    nibble = CoapWire.nibble n ∧ n < CoapWire.extendedLimit ∧
      bytes = CoapWire.extension n ++ rest := by
  refine CoapWire.readExtended_ok ?_
  unfold readCoapExtended at h
  unfold CoapWire.readExtended
  split at h
  · rw [if_pos (by omega)]
    simpa using h
  · rw [if_neg (by omega)]
    split at h
    · rw [if_pos ‹_›]
      split at h
      · simpa using h
      · cases h
    · rw [if_neg ‹_›]
      split at h
      · rw [if_pos ‹_›]
        split at h
        · simpa using h
        · cases h
      · cases h

theorem header_eq {header : UInt8} (hhigh : header.toNat >>> 4 = high)
    (hlow : header.toNat &&& 0x0f = low) : header = UInt8.ofNat (high * 16 + low) := by
  rw [nat_shiftRight_four] at hhigh
  rw [nat_and_fifteen] at hlow
  rw [← CoapWire.ofNat_toNat header]
  congr 1
  omega

/-- The walk takes the bytes apart into the encodings of options and a payload. -/
theorem inspectCoapOptions_ok (hfuel : bytes.length ≤ fuel)
    (h : inspectCoapOptions fuel previous bytes = .ok (costs, payload)) :
    ∃ options, CoapWire.OptionsFit previous options ∧ costs = optionCosts previous options ∧
      bytes = CoapWire.encodeOptions previous options ++ CoapWire.encodePayload payload := by
  induction fuel generalizing bytes previous costs payload with
  | zero =>
    obtain rfl := List.length_eq_zero_iff.mp (Nat.le_zero.mp hfuel)
    cases h
    exact ⟨[], trivial, rfl, rfl⟩
  | succ fuel ih =>
    cases bytes with
    | nil =>
      cases h
      exact ⟨[], trivial, rfl, rfl⟩
    | cons header tail =>
      rw [inspectCoapOptions] at h
      split at h
      · next hmarker =>
        split at h
        · cases h
        · next hpayload =>
          cases h
          refine ⟨[], trivial, rfl, ?_⟩
          rw [CoapWire.encodeOptions, List.nil_append, CoapWire.encodePayload,
            if_neg (by simpa using hpayload), hmarker]
          rfl
      · simp only [bind_ok, ensure_ok, pure_ok, decide_eq_true_eq, Prod.exists, Prod.mk.injEq] at h
        obtain ⟨delta, rest, hread, length, rest', hread', _, -, _, hend,
          others, other, hothers, rfl, rfl⟩ := h
        obtain ⟨hhigh, hdelta, rfl⟩ := readCoapExtended_ok hread
        obtain ⟨hlow, hlength, rfl⟩ := readCoapExtended_ok hread'
        have hfewer : (rest'.drop length).length ≤ fuel := by
          simp only [List.length_cons, List.length_append, List.length_drop] at hfuel ⊢
          omega
        obtain ⟨options, hfit, rfl, hrest⟩ := ih hfewer hothers
        have hvalue : (rest'.take length).length = length := List.length_take_of_le hend
        refine ⟨(previous + delta, rest'.take length) :: options, ⟨?_, ?_, ?_, hfit⟩, ?_, ?_⟩
        · omega
        · rwa [Nat.add_sub_cancel_left]
        · rwa [hvalue]
        · rw [hhigh, hlow, extendedBytes_nibble, extendedBytes_nibble,
            optionCosts, encodedOptionCost, Nat.add_sub_cancel_left, CoapWire.encodeOption, hvalue]
          simp only [List.length_cons, List.length_append, hvalue]
          congr 2
          omega
        · rw [header_eq hhigh hlow, CoapWire.encodeOptions,
            Nat.add_sub_cancel_left, CoapWire.encodeOption, hvalue, List.append_assoc, ← hrest]
          simp only [List.cons_append, List.append_assoc, List.take_append_drop]

theorem inspectCoapChecked_eq {bytes : Bytes} (hslice : bytes.length < 2 ^ 63)
    (message : CoapMessage) :
    inspectCoapChecked bytes message = lift (inspectCoap bytes message) := by
  match bytes with
  | [] | [_] | [_, _] | [_, _, _] => rfl
  | first :: second :: third :: fourth :: afterHeader =>
    have htokenLen : first.toNat &&& 0x0f < 16 := by
      rw [nat_and_fifteen]
      omega
    have hfits :
        4 + (first.toNat &&& 0x0f) ≤ (first :: second :: third :: fourth :: afterHeader).length ↔
        first.toNat &&& 0x0f ≤ afterHeader.length := by
      simp only [List.length_cons]
      omega
    rw [inspectCoapChecked, inspectCoap, lift_ensure_bind (by simp), List.getElem?_cons_zero,
      arith_some_bind]
    simp only [add_eq (show 4 + (first.toNat &&& 0x0f) < 2 ^ 64 by omega),
      lift_need_some_bind, hfits]
    cases htoken : decide ((first.toNat &&& 0x0f) ≤ afterHeader.length) &&
        decide ((first.toNat &&& 0x0f) = message.token.length) with
    | false =>
      rw [lift_ensure_error rfl, ensure_bind_error rfl]
    | true =>
      obtain ⟨hinside, -⟩ := Bool.and_eq_true_iff.mp htoken
      have hinside : (first.toNat &&& 0x0f) ≤ afterHeader.length := of_decide_eq_true hinside
      rw [lift_ensure_bind rfl, ensure_bind rfl]
      generalize first.toNat &&& 0x0f = tokenLen at hinside ⊢
      have hsplit : first :: second :: third :: fourth :: afterHeader =
          (first :: second :: third :: fourth :: afterHeader.take tokenLen) ++
            afterHeader.drop tokenLen := by
        simp
      have hfront : 4 + tokenLen =
          (first :: second :: third :: fourth :: afterHeader.take tokenLen).length := by
        simp only [List.length_cons, List.length_take_of_le hinside]
        omega
      have hrest : (first :: second :: third :: fourth :: afterHeader).length - (4 + tokenLen) =
          (afterHeader.drop tokenLen).length := by
        simp only [List.length_cons, List.length_drop]
        omega
      rw [hrest, hfront, hsplit, inspectCoapLoop_eq (hsplit ▸ hslice) le_rfl]
      rw [← hsplit]
      cases hoptions : inspectCoapOptions (afterHeader.drop tokenLen).length 0
        (afterHeader.drop tokenLen) with
      | error error => rfl
      | ok pair =>
        obtain ⟨costs, payload⟩ := pair
        obtain ⟨options, -, -, hbytes⟩ := inspectCoapOptions_ok le_rfl hoptions
        have hpayload :
            payload.length ≤ (first :: second :: third :: fourth :: afterHeader).length := by
          have hle := CoapWire.length_le_encodePayload payload
          have hlength := congrArg List.length hbytes
          simp only [List.length_append, List.length_drop, List.length_cons] at hlength ⊢
          omega
        have hsub : sub (first :: second :: third :: fourth :: afterHeader).length
            ((first :: second :: third :: fourth :: afterHeader).length - payload.length) =
              some payload.length := by
          rw [sub_eq (Nat.sub_le _ _), Nat.sub_sub_self hpayload]
        rw [ok_bind]
        show (lift (need (sub _ _) _) >>= _) = _
        rw [hsub, lift_need_some_bind]
        refine bind_lift fun _ _ => bind_lift fun _ _ => ?_
        have hmarker :
            (if payload.length = 0 then 0 else 1) = if payload.isEmpty then 0 else 1 := by
          cases payload <;> rfl
        rw [hmarker]
        rfl

/-- A cost divides a datagram into its header, its token, the encodings of its options,
numbered by the sums of their deltas, and its payload. -/
structure CoapCost.Divides (cost : CoapCost) (bytes : Bytes) : Prop where
  parts : ∃ header token options payload,
    bytes = header ++ token ++ CoapWire.encodeOptions 0 options ++ CoapWire.encodePayload payload ∧
      header.length = 4 ∧ CoapWire.OptionsFit 0 options ∧
      cost.baseHeaderBytes = header.length ∧ cost.tokenBytes = token.length ∧
      cost.options = optionCosts 0 options ∧ cost.payloadBytes = payload.length ∧
      cost.payloadMarkerBytes + cost.payloadBytes = (CoapWire.encodePayload payload).length
  additive : ∀ option ∈ cost.options, option.encodedBytes =
    option.headerBytes + option.deltaExtensionBytes +
      option.lengthExtensionBytes + option.valueBytes
  total : cost.totalBytes = bytes.length
  sum : cost.checkedSum = some bytes.length

theorem optionCosts_additive {cost : CoapOptionCost} (h : cost ∈ optionCosts previous options) :
    cost.encodedBytes =
      cost.headerBytes + cost.deltaExtensionBytes +
        cost.lengthExtensionBytes + cost.valueBytes := by
  induction options generalizing previous with
  | nil => cases h
  | cons option rest ih =>
    rcases List.mem_cons.mp h with rfl | hrest
    · simp only [encodedOptionCost, CoapWire.encodeOption, List.length_cons, List.length_append]
      omega
    · exact ih hrest

theorem optionCosts_sum (previous : Nat) (options : List (Nat × Bytes)) :
    ((optionCosts previous options).map (·.encodedBytes)).sum =
      (CoapWire.encodeOptions previous options).length := by
  induction options generalizing previous with
  | nil => rfl
  | cons option rest ih =>
    obtain ⟨number, value⟩ := option
    simp only [optionCosts, encodedOptionCost, List.map_cons, List.sum_cons,
      ih, CoapWire.encodeOptions, List.length_append]

theorem foldlM_add {costs : List CoapOptionCost}
    (h : total + (costs.map (·.encodedBytes)).sum < 2 ^ 64) :
    costs.foldlM (fun total option => add 64 total option.encodedBytes) total =
      some (total + (costs.map (·.encodedBytes)).sum) := by
  induction costs generalizing total with
  | nil => rfl
  | cons cost rest ih =>
    rw [List.map_cons, List.sum_cons] at h ⊢
    rw [List.foldlM_cons, add_eq (by omega), Option.bind_eq_bind, Option.bind_some, ih (by omega),
      Nat.add_assoc]

theorem CoapCost.checkedSum_eq {cost : CoapCost} (h : cost.sum < 2 ^ 64) :
    cost.checkedSum = some cost.sum := by
  unfold CoapCost.sum at h ⊢
  simp only [checkedSum, Option.bind_eq_bind]
  rw [add_eq (by omega), Option.bind_some, foldlM_add (by omega),
    Option.bind_some, add_eq (by omega), Option.bind_some, add_eq h]

theorem inspectCoap_divides {message : CoapMessage} (hslice : bytes.length < 2 ^ 63)
    (h : inspectCoap bytes message = .ok cost) : cost.Divides bytes := by
  match bytes with
  | [] | [_] | [_, _] | [_, _, _] => cases h
  | first :: second :: third :: fourth :: afterHeader =>
    simp only [inspectCoap, bind_ok, ensure_ok, pure_ok, Bool.and_eq_true, decide_eq_true_eq,
      Prod.exists] at h
    obtain ⟨_, ⟨hinside, -⟩, costs, payload, hoptions, _, -, _, -, rfl⟩ := h
    obtain ⟨options, hfit, rfl, hrest⟩ := inspectCoapOptions_ok le_rfl hoptions
    generalize first.toNat &&& 0x0f = tokenLen at hinside hrest ⊢
    have hbytes : first :: second :: third :: fourth :: afterHeader =
        [first, second, third, fourth] ++ afterHeader.take tokenLen ++
          CoapWire.encodeOptions 0 options ++ CoapWire.encodePayload payload := by
      rw [List.append_assoc, ← hrest]
      simp
    have htoken : (afterHeader.take tokenLen).length = tokenLen := List.length_take_of_le hinside
    have hmarker : (if payload.isEmpty then 0 else 1) + payload.length =
        (CoapWire.encodePayload payload).length := by
      cases payload with
      | nil => rfl
      | cons byte rest => simp [CoapWire.encodePayload, Nat.add_comm]
    refine ⟨⟨_, _, options, payload, hbytes, rfl, hfit, rfl, htoken.symm, rfl, rfl, hmarker⟩,
      fun option hoption => optionCosts_additive hoption, rfl, ?_⟩
    have hsum : CoapCost.sum
        { baseHeaderBytes := 4, tokenBytes := tokenLen, options := optionCosts 0 options,
          payloadMarkerBytes := if payload.isEmpty then 0 else 1, payloadBytes := payload.length,
          totalBytes := (first :: second :: third :: fourth :: afterHeader).length } =
        (first :: second :: third :: fourth :: afterHeader).length := by
      rw [hbytes]
      simp only [CoapCost.sum, optionCosts_sum, List.length_append, htoken, List.length_cons,
        List.length_nil]
      omega
    rw [CoapCost.checkedSum_eq (hsum.trans_lt (hslice.trans (by decide))), hsum]

-- ---------------------------------------------------------------------------
-- RFC 7252
-- ---------------------------------------------------------------------------

structure CoapMessage.Rfc7252 (limit : Nat) (message : CoapMessage) : Prop where
  wellFormed : message.wire.WellFormed
  version : message.version = 1
  numbers : ∀ option ∈ message.options, option.number < limit
  empty : message.code = 0 → message.token = [] ∧ message.options = [] ∧ message.payload = []

def Rfc7252Datagram (limit : Nat) (bytes : Bytes) : Prop :=
  ∃ message : CoapMessage, message.Rfc7252 limit ∧ bytes = CoapWire.encode message.wire

/-- The parser reads the datagrams of RFC 7252 messages, and nothing else. -/
def Rfc7252Parser (limit : Nat) (parse : Bytes → Except PacketError CoapMessage) : Prop :=
  ∀ bytes message, parse bytes = .ok message ↔
    message.Rfc7252 limit ∧ bytes = CoapWire.encode message.wire

/-- On every datagram the dissection ends within its bytes; it succeeds on the messages
of RFC 7252, and what it counts divides the datagram. -/
theorem coap_dissection_exact (hparse : Rfc7252Parser limit parse) (hlimit : limit ≤ 2 ^ 32)
    (hslice : bytes.length < 2 ^ 63) :
    (∀ message, Exact (inspectCoapChecked bytes message) ∧
      ∀ cost, inspectCoapChecked bytes message = lift (.ok cost) → cost.Divides bytes) ∧
    ((∃ message cost, parse bytes = .ok message ∧
      inspectCoapChecked bytes message = lift (.ok cost)) ↔
      Rfc7252Datagram limit bytes) := by
  refine ⟨fun message => ⟨⟨_, inspectCoapChecked_eq hslice message⟩, fun cost hcost => ?_⟩, ?_, ?_⟩
  · rw [inspectCoapChecked_eq hslice, lift_eq_ok] at hcost
    exact inspectCoap_divides hslice hcost
  · rintro ⟨message, -, hmessage, -⟩
    exact ⟨message, (hparse bytes message).mp hmessage⟩
  · rintro ⟨message, hrfc, hbytes⟩
    have hcarried : message.CarriedBy bytes :=
      ⟨hrfc.wellFormed, fun option hoption => (hrfc.numbers option hoption).trans_le hlimit, hbytes⟩
    obtain ⟨cost, hcost, -⟩ := inspectCoap_ok hcarried
    refine ⟨message, cost, (hparse bytes message).mpr ⟨hrfc, hbytes⟩, ?_⟩
    rw [inspectCoapChecked_eq hslice, hcost]

section

def messageOf (message : CoapWire.Message) : CoapMessage where
  version := message.version
  messageType := message.messageType
  code := message.code
  messageId := message.messageId
  token := message.token
  options := message.options.map fun option => { number := option.1, value := option.2 }
  payload := message.payload

theorem wire_messageOf (message : CoapWire.Message) : (messageOf message).wire = message := by
  simp [messageOf, CoapMessage.wire, Function.comp_def]

theorem messageOf_wire (message : CoapMessage) : messageOf message.wire = message := by
  simp [messageOf, CoapMessage.wire, Function.comp_def]

instance (limit : Nat) (message : CoapMessage) : Decidable (message.Rfc7252 limit) :=
  decidable_of_iff (message.wire.WellFormed ∧ message.version = 1 ∧
      (∀ option ∈ message.options, option.number < limit) ∧
      (message.code = 0 → message.token = [] ∧ message.options = [] ∧ message.payload = []))
    ⟨fun ⟨hw, hv, hn, he⟩ => ⟨hw, hv, hn, he⟩, fun ⟨hw, hv, hn, he⟩ => ⟨hw, hv, hn, he⟩⟩

/-- A parser of RFC 7252, whose option numbers have 16 bits. -/
def rfcParse (bytes : Bytes) : Except PacketError CoapMessage := do
  let message ← need (CoapWire.decode bytes) (.other "invalid CoAP message")
  ensure ((messageOf message).Rfc7252 (2 ^ 16)) (.other "invalid CoAP message")
  ensure (CoapWire.encode message = bytes) (.other "invalid CoAP message")
  return messageOf message

theorem rfcParse_rfc7252 : Rfc7252Parser (2 ^ 16) rfcParse := by
  intro bytes message
  simp only [rfcParse, bind_ok, need_ok, ensure_ok, pure_ok, decide_eq_true_eq]
  constructor
  · rintro ⟨wire, -, _, hrfc, _, hbytes, rfl⟩
    exact ⟨hrfc, by rw [wire_messageOf, hbytes]⟩
  · rintro ⟨hrfc, rfl⟩
    exact ⟨message.wire, CoapWire.decode_encode hrfc.wellFormed,
      (), by rwa [messageOf_wire], (), rfl, messageOf_wire message⟩

def extendedMessage : CoapMessage where
  version := 1
  messageType := 0
  code := 5
  messageId := 9
  token := [7]
  options := [{ number := 11, value := [1, 2] }, { number := 30, value := List.replicate 13 3 },
    { number := 400, value := [] }]
  payload := [4, 5]

theorem extended_message_dissected :
    ∃ message cost, rfcParse (CoapWire.encode extendedMessage.wire) = .ok message ∧
      inspectCoapChecked (CoapWire.encode extendedMessage.wire) message = lift (.ok cost) ∧
      cost.Divides (CoapWire.encode extendedMessage.wire) := by
  have hslice : (CoapWire.encode extendedMessage.wire).length < 2 ^ 63 := by decide +kernel
  obtain ⟨hends, haccepts⟩ := coap_dissection_exact rfcParse_rfc7252 (by decide) hslice
  obtain ⟨message, cost, hmessage, hcost⟩ :=
    haccepts.mpr ⟨extendedMessage, by decide +kernel, rfl⟩
  exact ⟨message, cost, hmessage, hcost, (hends message).2 cost hcost⟩

end

end SchcCoreconf
