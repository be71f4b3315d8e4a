import SchcCoreconf.Inspection
import SchcCoreconf.RuleList
import SchcCoreconf.UpdateAgreement

/-!
# The context check

The core sends its context tag in a FETCH; the device compares it with its own and
answers with a marker, and with its tag where they differ. The check changes
nothing, and its verdict is about the two contexts as they are.
-/

namespace SchcCoreconf

open Fallible

-- ---------------------------------------------------------------------------
-- The request and its answer
-- ---------------------------------------------------------------------------

def contextCheckPacket (coap : CoapLite) (tag : ContextTag) (messageId : Nat) : Packet :=
  { baseRequest coap .fetch messageId with payload := contextCheckMarker :: tag.bytes.toList }

/-- `context_check_request`; it panics where the packet cannot be serialised. -/
def contextCheckRequest (deps : Deps) (tag : ContextTag) (messageId : Nat) : Option Bytes :=
  (deps.coap.toBytes (contextCheckPacket deps.coap tag messageId)).toOption

structure ContextCheckResult where
  coreTag : ContextTag
  deviceTag : ContextTag
  equal : Bool
  deriving DecidableEq, Repr

def contextTagLen : Nat := 8

def decodeContextCheckPayload (payload : Bytes) (coreTag : ContextTag) :
    Except InspectionError ContextCheckResult := do
  ensure (payload.length = 2 || payload.length = 2 + contextTagLen)
    (.unexpectedResponse "context-check response has invalid length")
  ensure (payload.head? = some contextCheckMarker)
    (.unexpectedResponse "context-check marker mismatch")
  let invalid := InspectionError.unexpectedResponse "invalid context-check result marker"
  if payload[1]? = some contextCheckEqual && payload.length = 2 then
    return { coreTag, deviceTag := coreTag, equal := true }
  else if payload[1]? = some contextCheckMismatch && payload.length = 2 + contextTagLen then
    -- the rest has the length of a tag
    let deviceTag ← need (ContextTag.ofBytes (payload.drop 2)) invalid
    return { coreTag, deviceTag, equal := false }
  else throw invalid

-- ---------------------------------------------------------------------------
-- What a payload says
-- ---------------------------------------------------------------------------

def contextCheckPayload (coreTag deviceTag : ContextTag) : Bytes :=
  if coreTag = deviceTag then [contextCheckMarker, contextCheckEqual]
  else contextCheckMarker :: contextCheckMismatch :: deviceTag.bytes.toList

theorem ContextTag.ofBytes_eq_some {payload : Bytes} {tag : ContextTag} :
    ContextTag.ofBytes payload = some tag ↔ payload = tag.bytes.toList := by
  constructor
  · intro h
    unfold ofBytes at h
    split at h
    · cases h
      rfl
    · cases h
  · rintro rfl
    exact ResolvedRuleUpdate.ContextTag.ofBytes_toList tag

/-- A payload is read as one verdict: two bytes that say equal, or a tag that differs. -/
theorem decodeContextCheckPayload_ok : decodeContextCheckPayload payload coreTag = .ok result ↔
    (payload = [contextCheckMarker, contextCheckEqual] ∧
      result = { coreTag, deviceTag := coreTag, equal := true }) ∨
    ∃ deviceTag : ContextTag,
      payload = contextCheckMarker :: contextCheckMismatch :: deviceTag.bytes.toList ∧
        result = { coreTag, deviceTag, equal := false } := by
  constructor
  · intro h
    simp only [decodeContextCheckPayload, bind_ok, ensure_ok] at h
    obtain ⟨_, -, _, hmarker, h⟩ := h
    rcases payload with _ | ⟨marker, rest⟩
    · cases of_decide_eq_true hmarker
    cases Option.some.inj (of_decide_eq_true hmarker)
    split at h
    · next hequal =>
      obtain ⟨hverdict, hlength⟩ := Bool.and_eq_true_iff.mp hequal
      cases pure_ok.mp h
      refine .inl ⟨?_, rfl⟩
      obtain ⟨verdict, rfl⟩ := List.length_eq_one_iff.mp (Nat.succ.inj (of_decide_eq_true hlength))
      cases Option.some.inj (of_decide_eq_true hverdict)
      rfl
    · split at h
      · next hmismatch =>
        obtain ⟨hverdict, -⟩ := Bool.and_eq_true_iff.mp hmismatch
        simp only [bind_ok, need_ok, pure_ok, ContextTag.ofBytes_eq_some] at h
        obtain ⟨deviceTag, htag, rfl⟩ := h
        refine .inr ⟨deviceTag, ?_, rfl⟩
        rcases rest with _ | ⟨verdict, tag⟩
        · cases of_decide_eq_true hverdict
        cases Option.some.inj (of_decide_eq_true hverdict)
        cases htag
        rfl
      · cases h
  · rintro (⟨rfl, rfl⟩ | ⟨deviceTag, rfl, rfl⟩)
    · rfl
    · have hlength : deviceTag.bytes.toList.length = 8 := deviceTag.bytes.length_toList
      have hne : contextCheckMismatch ≠ contextCheckEqual := by decide
      simp [decodeContextCheckPayload, ensure, need, hlength, hne, contextTagLen,
        ResolvedRuleUpdate.ContextTag.ofBytes_toList, bind, Except.bind, pure, Except.pure]

theorem decodeContextCheckPayload_payload (coreTag deviceTag : ContextTag) :
    decodeContextCheckPayload (contextCheckPayload coreTag deviceTag) coreTag =
      .ok { coreTag, deviceTag, equal := decide (coreTag = deviceTag) } := by
  unfold contextCheckPayload
  split
  · next hsame =>
    subst hsame
    exact decodeContextCheckPayload_ok.mpr (.inl ⟨rfl, by simp⟩)
  · next hne => exact decodeContextCheckPayload_ok.mpr (.inr ⟨deviceTag, rfl, by simp [hne]⟩)

-- ---------------------------------------------------------------------------
-- The exchange
-- ---------------------------------------------------------------------------

theorem contextCheckPacket_serializable (hadded : AddsOptions coap) (tag : ContextTag)
    (h : messageId < 2 ^ 16) : (contextCheckPacket coap tag messageId).Serializable := by
  have hsegment : schcSegment.length < 2 ^ 16 := by decide +kernel
  rw [contextCheckPacket, baseRequest_eq hadded]
  exact {
    request := ⟨.fetch, by decide, rfl⟩
    messageId := h
    token := by simp
    ordered := by simp
    values := by simpa using hsegment }

theorem handleDatagram_contextCheck (service : InspectionService) {coreTag : ContextTag}
    (hadded : AddsOptions deps.coap)
    (hread : deps.coap.fromBytes datagram =
      .ok (contextCheckPacket deps.coap coreTag messageId)) (state : BackendState) :
    service.handleDatagram deps state datagram =
      { result := some (packetWithoutContentFormat deps
          (contextCheckPacket deps.coap coreTag messageId)
          (.content (contextCheckPayload coreTag state.active.snapshot.data.tag) .yangDataCborSid))
        state } := by
  simp [InspectionService.handleDatagram, InspectionService.handleInspection, hread,
    contextCheckPacket, baseRequest_eq hadded,
    isDuplicateRuleCoapShape, isMutation, Packet.getOption, handleContextCheck, contextCheckPayload,
    InspectionService.answer, ResolvedRuleUpdate.ContextTag.ofBytes_toList]

/-- A check is answered with the tag of the device as it is, and says equal exactly for
equal tags. It changes nothing, and contexts with one Set-of-Rules always pass it, as those
with one tree do that has no floating-point zero. -/
theorem context_check_exact {recipe recipe' : ContextRecipe}
    (service : InspectionService) {core : ActiveContext}
    {device : BackendState} (hreplies : ReplyLaws deps) (hrequests : RequestsRoundTrip deps.coap)
    (hpayloads : PayloadsReturn deps) (hcore : Reached deps recipe source prepared core)
    (hdevice : Reached deps recipe' source' prepared' device.active)
    (hsid : recipe.sidJson = recipe'.sidJson) (hmessage : messageId < 2 ^ 16)
    (hrequest : contextCheckRequest deps core.snapshot.data.tag messageId = some datagram) :
    ∃ bytes response result,
      service.handleDatagram deps device datagram =
        { result := some (.ok bytes), state := device } ∧
      deps.coap.fromBytes bytes = .ok response ∧
      decodeContextCheckPayload response.payload core.snapshot.data.tag = .ok result ∧
      result.coreTag = core.snapshot.data.tag ∧ result.deviceTag = device.active.snapshot.data.tag ∧
      (result.equal = true ↔ core.snapshot.data.tag = device.active.snapshot.data.tag) ∧
      (core.snapshot.data.sor = device.active.snapshot.data.sor → result.equal = true) ∧
      (core.snapshot.data.tree = device.active.snapshot.data.tree →
        core.snapshot.data.tree.ZeroFree → result.equal = true) := by
  have hread : deps.coap.fromBytes datagram =
      .ok (contextCheckPacket deps.coap core.snapshot.data.tag messageId) :=
    hrequests.read (contextCheckPacket_serializable hrequests.added _ hmessage)
      (toOption_eq_some.mp hrequest)
  have hhandled := handleDatagram_contextCheck service hrequests.added hread device
  obtain ⟨bytes, response, hbytes, hresponse⟩ := packetWithoutContentFormat_ok hreplies hread
    (.content (contextCheckPayload core.snapshot.data.tag device.active.snapshot.data.tag)
      .yangDataCborSid)
  rw [hbytes] at hhandled
  have hpayload : response.payload =
      contextCheckPayload core.snapshot.data.tag device.active.snapshot.data.tag := by
    simp only [packetWithoutContentFormat, serialiseResponse, mapError_ok] at hbytes
    exact hpayloads hread hbytes hresponse
  have hsame : core.recipe.sidJson = device.active.recipe.sidJson :=
    hcore.sidJson.trans (hsid.trans hdevice.sidJson.symm)
  have hderived := hcore.sound.current
  have hderived' := hdevice.sound.current
  refine ⟨bytes, response, _, hhandled, hresponse, hpayload ▸
    decodeContextCheckPayload_payload _ _, rfl, rfl, decide_eq_true_iff, fun hsor =>
      decide_eq_true ?_, fun htree hzeros => decide_eq_true ?_⟩
  · exact hderived.congr hderived' (hderived.tree_eq hderived' hsame hsor) hsor
  · exact hderived.congr hderived' htree (hderived.sor_eq hderived' hsame htree hzeros)

section
open Fixture

theorem payloadsReturn (world : World) : PayloadsReturn (deps world) := by
  intro datagram request payload format bytes response hrequest hbytes hresponse
  have hwell := wireOf_replyPacket world (.content payload format) .content hrequest
  cases hbytes
  cases (readPacket_encode hwell rfl).symm.trans hresponse
  rfl

def updatedDevice (prepared : PreparedContext) : BackendState :=
  (service updateWorld).operate (deps updateWorld) (start prepared) [.datagram patchDatagram]

theorem checked_evaluated : holds (loaded updateWorld rulesBefore) (fun prepared =>
    (contextCheckRequest (deps updateWorld) prepared.data.tag 0).isSome &&
      prepared.data.tag ≠ (updatedDevice prepared).active.snapshot.data.tag) = true := by
  decide +kernel

/-- A check after an update that only the device has made. -/
theorem context_check_exact_differs :
    ∃ (prepared : PreparedContext) (datagram bytes : Bytes) (response : Packet)
    (result : ContextCheckResult),
    contextCheckRequest (deps updateWorld) prepared.data.tag 0 = some datagram ∧
    (service updateWorld).handleDatagram (deps updateWorld) (updatedDevice prepared) datagram =
      { result := some (.ok bytes), state := updatedDevice prepared } ∧
    (deps updateWorld).coap.fromBytes bytes = .ok response ∧
    decodeContextCheckPayload response.payload prepared.data.tag = .ok result ∧
      result.equal = false := by
  obtain ⟨prepared, hprepared, h⟩ := holds_iff.mp checked_evaluated
  obtain ⟨hsome, hne⟩ := Bool.and_eq_true_iff.mp h
  obtain ⟨datagram, hdatagram⟩ := Option.isSome_iff_exists.mp hsome
  have hcore : Reached (deps updateWorld) recipe (.sor (sorBytes rulesBefore)) prepared
      (start prepared).active :=
    Reached.of_loaded hprepared []
  have hdevice : Reached (deps updateWorld) recipe (.sor (sorBytes rulesBefore)) prepared
      (updatedDevice prepared).active := Reached.of_loaded hprepared [.datagram patchDatagram]
  obtain ⟨bytes, response, result, hhandled, hresponse, hresult, -, -, hequal, -, -⟩ :=
    context_check_exact (service updateWorld) managementLaws.toReplyLaws requestsRoundTrip
      (payloadsReturn updateWorld) hcore hdevice rfl (by decide) hdatagram
  exact ⟨prepared, datagram, bytes, response, result, hdatagram, hhandled, hresponse, hresult,
    Bool.eq_false_iff.mpr fun htrue => of_decide_eq_true hne (hequal.mp htrue)⟩

end

end SchcCoreconf
