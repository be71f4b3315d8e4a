import SchcCoreconf.Fixture.Grounding
import SchcCoreconf.Frames
import Mathlib.Logic.Relation

/-!
# Requests and the responses taken for them

The core numbers its requests modulo 128 and has one outstanding at a time; the
link keeps every response the device ever sent, and delivers any of them, any
number of times. While fewer IDs than there are have been issued since a
response's request, its ID is that of no later request, so the core takes a
response only for the request it answers.
-/

namespace SchcCoreconf

open Fallible

-- ---------------------------------------------------------------------------
-- The system
-- ---------------------------------------------------------------------------

/-- A request of the core, and the how-manieth message ID it was given. -/
structure SentRequest where
  ordinal : Nat
  prepared : PreparedManagementRequest
  deriving DecidableEq

def SentRequest.messageId (self : SentRequest) : Nat := self.prepared.exchangeId.messageId

structure SentResponse where
  request : SentRequest
  packet : Ipv6UdpCoapPacket

structure SentResponse.Acknowledges (response : SentResponse) : Prop where
  messageType : response.packet.coapMessage.messageType = 2
  messageId : response.packet.coapMessage.messageId = response.request.messageId

structure Correlation where
  nextMessageId : Nat
  issued : Nat
  requests : List SentRequest
  outstanding : Option SentRequest
  responses : List SentResponse
  /-- The responses the core took, each for the request that was outstanding. -/
  accepted : List (SentRequest × SentResponse)

namespace Correlation

def start (nextMessageId : Nat) : Correlation :=
  { nextMessageId, issued := 0, requests := [], outstanding := none,
    responses := [], accepted := [] }

def issuedId (world : Correlation) : Nat := (nextManagementMessageId world.nextMessageId).1

def issue (world : Correlation) : Correlation :=
  { world with
    nextMessageId := (nextManagementMessageId world.nextMessageId).2
    issued := world.issued + 1 }

def send (world : Correlation) (prepared : PreparedManagementRequest) : Correlation :=
  let request : SentRequest := { ordinal := world.issued, prepared }
  { world.issue with requests := request :: world.requests, outstanding := some request }

/-- The wait ends with the response the core takes; it goes on after any other frame. -/
def receive (world : Correlation) (response : SentResponse)
    (result : Except CorePacketError CoreFrameResult) : Correlation :=
  match world.outstanding, result with
  | some request, .ok (.management ..) =>
    { world with outstanding := none, accepted := (request, response) :: world.accepted }
  | _, _ => world

/-- One step, at any context of the core and for any of its links. -/
inductive Step (deps : Deps) : Correlation → Correlation → Prop
  /-- A command sends a request over its message ID, with an empty token. -/
  | request : world.outstanding = none → deps.coap.fromBytes datagram = .ok packet →
      packet.messageType = .confirmable → packet.messageId = world.issuedId →
      prepareManagementRequest deps active link datagram .empty = .ok prepared →
      Step deps world (world.send prepared)
  /-- A one-way datagram uses up a message ID, and so does a request that is not sent. -/
  | unanswered : world.outstanding = none → Step deps world world.issue
  /-- The device answers a request. -/
  | respond : response.request ∈ world.requests → response.Acknowledges →
      Step deps world { world with responses := response :: world.responses }
  /-- The link delivers a response, before all message IDs were issued after its request's. -/
  | deliver : response ∈ world.responses →
      world.issued - (response.request.ordinal + 1) < managementMidModulus →
      (SchcLink.decode deps active link frame).map (·.packet) = .ok response.packet →
      Step deps world (world.receive response (processCoreRawFrame deps active link frame debug
        (world.outstanding.map (·.prepared))))
  | timeout : Step deps world { world with outstanding := none }

def Reachable (deps : Deps) (first : Nat) : Correlation → Prop :=
  Relation.ReflTransGen (Step deps) (start first)

end Correlation

-- ---------------------------------------------------------------------------
-- Message IDs
-- ---------------------------------------------------------------------------

def firstMessageId (next : Nat) : Nat := if next ≥ managementMidModulus then 0 else next

def messageIdAt (first ordinal : Nat) : Nat :=
  (firstMessageId first + ordinal) % managementMidModulus

theorem messageIdAt_zero : (nextManagementMessageId first).1 = messageIdAt first 0 := by
  simp only [nextManagementMessageId, messageIdAt, firstMessageId, Nat.add_zero]
  by_cases hbig : first ≥ managementMidModulus
  · rw [if_pos hbig, Nat.zero_mod]
  · rw [if_neg hbig, Nat.mod_eq_of_lt (not_le.mp hbig)]

theorem nextManagementMessageId_next (h : (nextManagementMessageId next).1 =
    messageIdAt first ordinal) : (nextManagementMessageId (nextManagementMessageId next).2).1 =
      messageIdAt first (ordinal + 1) := by
  have hnext : (nextManagementMessageId next).2 =
      ((nextManagementMessageId next).1 + 1) % managementMidModulus := rfl
  have hnext_lt : (messageIdAt first ordinal + 1) % managementMidModulus < managementMidModulus :=
    Nat.mod_lt _ (by decide)
  rw [hnext, h, nextManagementMessageId, if_neg (not_le.mpr hnext_lt), messageIdAt, messageIdAt,
    Nat.mod_add_mod, Nat.add_assoc]

/-- Fewer than all IDs after one, that one is not issued again. -/
theorem messageIdAt_injective (hle : earlier ≤ later)
    (hfew : later < earlier + managementMidModulus)
    (h : messageIdAt first later = messageIdAt first earlier) : later = earlier := by
  simp only [messageIdAt, managementMidModulus] at h hfew
  omega

-- ---------------------------------------------------------------------------
-- What is prepared and what is taken
-- ---------------------------------------------------------------------------

theorem prepareManagementRequest_exchangeId
    (hheaders : HeadersAgree deps) (hread : deps.coap.fromBytes datagram = .ok packet)
    (hid : packet.messageId < 2 ^ 16)
    (h : prepareManagementRequest deps active link datagram .empty = .ok prepared) :
    prepared.exchangeId.messageId = packet.messageId ∧ prepared.exchangeId.token.bytes = [] := by
  simp only [prepareManagementRequest, managementRequest, applyTokenPolicy, bind_ok, mapError_ok,
    ensure_ok, pure_ok] at h
  obtain ⟨⟨wire, request⟩, ⟨_, -, wire', ⟨packet', hread', hwritten⟩,
    carried, hcarried, hpair⟩, _, -, _, -, exchangeId, hexchange, rfl⟩ := h
  cases hpair
  cases hread.symm.trans hread'
  have hid : ({ packet with token := TokenPolicy.empty.token } : Packet).messageId < 2 ^ 16 := hid
  obtain ⟨hsame, htoken⟩ := hheaders hid (Nat.zero_le _) hwritten hcarried
  simp only [ExchangeId.fromMessage, CoapToken.new, bind_ok, pure_ok] at hexchange
  obtain ⟨token, hnew, rfl⟩ := hexchange
  split at hnew
  · cases hnew
    exact ⟨hsame, htoken⟩
  · cases hnew

theorem processCoreRawFrame_management
    (h : processCoreRawFrame deps active link frame debug prepared =
      .ok (.management code exchange)) :
    ∃ request decoded, prepared = some request ∧ link.decode deps active frame = .ok decoded ∧
      validateManagementResponse request decoded = .ok (code, exchange) := by
  simp only [processCoreRawFrame, bind_ok, mapError_ok] at h
  obtain ⟨decoded, hdecoded, _, -, h⟩ := h
  split at h
  · next request _ =>
    simp only [bind_ok, mapError_ok, pure_ok] at h
    obtain ⟨⟨_, _⟩, hvalid, hresult⟩ := h
    cases hresult
    exact ⟨request, decoded, rfl, hdecoded, hvalid⟩
  · simp only [processCoreApplication, bind_ok, pure_ok] at h
    obtain ⟨_, -, _, -, h⟩ := h
    cases h

theorem validateManagementResponse_acknowledgement
    (h : validateManagementResponse prepared decoded = .ok result)
    (htype : decoded.packet.coapMessage.messageType = 2) :
    prepared.exchangeId.messageId = decoded.packet.coapMessage.messageId := by
  simp only [validateManagementResponse, responseCode, bind_ok, ensure_ok, pure_ok] at h
  obtain ⟨_, -, _, ⟨_, -, _, -, exchangeId, hexchange, _, -, _, hmatches, -⟩, -⟩ := h
  simp only [ExchangeId.fromMessage, bind_ok, pure_ok] at hexchange
  obtain ⟨_, -, rfl⟩ := hexchange
  simp only [ExchangeId.matchesResponse, htype, Bool.and_eq_true, decide_eq_true_eq] at hmatches
  exact hmatches.2

-- ---------------------------------------------------------------------------
-- The invariant
-- ---------------------------------------------------------------------------

/-- The requests carry the IDs issued to them, the outstanding one the last. -/
structure Correlation.Invariant (first : Nat) (world : Correlation) : Prop where
  next : world.issuedId = messageIdAt first world.issued
  ordinal : ∀ request ∈ world.requests, request.ordinal < world.issued
  messageId : ∀ request ∈ world.requests, request.messageId = messageIdAt first request.ordinal
  unique : ∀ left ∈ world.requests, ∀ right ∈ world.requests, left.ordinal = right.ordinal →
    left = right
  outstanding : ∀ request, world.outstanding = some request →
    request ∈ world.requests ∧ world.issued = request.ordinal + 1
  responses : ∀ response ∈ world.responses, response.request ∈
    world.requests ∧ response.Acknowledges
  accepted : ∀ pair ∈ world.accepted, pair.2.request = pair.1

namespace Correlation

theorem invariant_start : Invariant first (start first) where
  next := messageIdAt_zero
  ordinal _ h := nomatch h
  messageId _ h := nomatch h
  unique _ h := nomatch h
  outstanding _ h := nomatch h
  responses _ h := nomatch h
  accepted _ h := nomatch h

theorem Invariant.issue (h : Invariant first world) (hnone : world.outstanding = none) :
    Invariant first world.issue where
  next := nextManagementMessageId_next h.next
  ordinal request hmem := Nat.lt_succ_of_lt (h.ordinal request hmem)
  messageId := h.messageId
  unique := h.unique
  outstanding request hsome := by
    rw [show world.issue.outstanding = none from hnone] at hsome
    cases hsome
  responses := h.responses
  accepted := h.accepted

theorem Invariant.send (h : Invariant first world)
    (hid : prepared.exchangeId.messageId = world.issuedId) :
    Invariant first (world.send prepared) where
  next := nextManagementMessageId_next h.next
  ordinal request hmem := by
    rcases List.mem_cons.mp hmem with rfl | hmem
    · exact Nat.lt_succ_self _
    · exact Nat.lt_succ_of_lt (h.ordinal request hmem)
  messageId request hmem := by
    rcases List.mem_cons.mp hmem with rfl | hmem
    · exact hid.trans h.next
    · exact h.messageId request hmem
  unique left hleft right hright heq := by
    rcases List.mem_cons.mp hleft with rfl | hleft
    · rcases List.mem_cons.mp hright with rfl | hright
      · rfl
      · exact absurd heq.symm (h.ordinal right hright).ne
    · rcases List.mem_cons.mp hright with rfl | hright
      · exact absurd heq (h.ordinal left hleft).ne
      · exact h.unique left hleft right hright heq
  outstanding request hsome := by
    cases hsome
    exact ⟨List.mem_cons_self, rfl⟩
  responses response hmem :=
    ⟨List.mem_cons_of_mem _ (h.responses response hmem).1, (h.responses response hmem).2⟩
  accepted := h.accepted

theorem Invariant.correlates (h : Invariant first world) (hmem : response ∈ world.responses)
    (hfew : world.issued - (response.request.ordinal + 1) < managementMidModulus)
    (hsome : world.outstanding = some request)
    (hsame : request.messageId = response.packet.coapMessage.messageId) :
    response.request = request := by
  obtain ⟨hrequest, hissued⟩ := h.outstanding request hsome
  obtain ⟨hanswered, hacknowledges⟩ := h.responses response hmem
  rw [hacknowledges.messageId, h.messageId _ hrequest, h.messageId _ hanswered] at hsame
  have hearlier := h.ordinal _ hanswered
  have hordinal : request.ordinal = response.request.ordinal :=
    messageIdAt_injective (by omega) (by omega) hsame
  exact h.unique _ hanswered _ hrequest hordinal.symm

theorem Invariant.receive (h : Invariant first world) (hmem : response ∈ world.responses)
    (hfew : world.issued - (response.request.ordinal + 1) < managementMidModulus)
    (hdecode : (SchcLink.decode deps active link frame).map (·.packet) = .ok response.packet) :
    Invariant first (world.receive response (processCoreRawFrame deps active link frame debug
      (world.outstanding.map (·.prepared)))) := by
  unfold Correlation.receive
  split
  · next request code exchange hsome hresult =>
    obtain ⟨_, decoded, hprepared, hdecoded, hvalid⟩ := processCoreRawFrame_management hresult
    rw [hsome] at hprepared
    cases hprepared
    rw [hdecoded] at hdecode
    have hpacket : decoded.packet = response.packet := Except.ok.inj hdecode
    have hacknowledges := (h.responses response hmem).2
    have hsame := validateManagementResponse_acknowledgement hvalid
      (hpacket ▸ hacknowledges.messageType)
    rw [hpacket] at hsame
    refine { h with
      outstanding := fun _ hnone => (nomatch hnone)
      accepted := fun pair hpair => ?_ }
    rcases List.mem_cons.mp hpair with rfl | hpair
    · exact h.correlates hmem hfew hsome hsame
    · exact h.accepted pair hpair
  · exact h

theorem Invariant.step (hheaders : HeadersAgree deps)
    (h : Invariant first world) (hstep : Step deps world world') : Invariant first world' := by
  cases hstep with
  | request hnone hread _ hid hprepared =>
    have hbound : world.issuedId < 2 ^ 16 := h.next ▸ (Nat.mod_lt _ (by decide)).trans (by decide)
    have hexchange := prepareManagementRequest_exchangeId hheaders hread (hid ▸ hbound) hprepared
    exact h.send (hexchange.1.trans hid)
  | unanswered hnone => exact h.issue hnone
  | respond hmem hacknowledges =>
    refine { h with responses := fun response hresponse => ?_ }
    rcases List.mem_cons.mp hresponse with rfl | hresponse
    · exact ⟨hmem, hacknowledges⟩
    · exact h.responses response hresponse
  | deliver hmem hfew hdecode => exact h.receive hmem hfew hdecode
  | timeout => exact { h with outstanding := fun _ hnone => nomatch hnone }

theorem Reachable.invariant (hheaders : HeadersAgree deps)
    (h : Reachable deps first world) : Invariant first world := by
  induction h with
  | refl => exact invariant_start
  | tail _ hstep ih => exact ih.step hheaders hstep

/-- In every run, each response the core took for an outstanding request was
produced for that request. -/
theorem responses_correlate (hheaders : HeadersAgree deps)
    (hreachable : Reachable deps first world) (haccepted : (request, response) ∈ world.accepted) :
    response.request = request :=
  (hreachable.invariant hheaders).accepted _ haccepted

section
open Fixture

def numberedRequest (messageId : Nat) : Packet where
  messageId
  messageType := .confirmable
  code := .request .get
  token := []
  options := []
  payload := []

def numberedDatagram (messageId : Nat) : Bytes :=
  CoapWire.encode (wireOf (numberedRequest messageId))

def respondTo (active : ActiveContext) (packet : Packet) :
    Except InspectionError (Ipv6UdpCoapPacket × Bytes) := do
  let reply := replyPacket (deps linkWorld) packet .changed .changed
  let response ← (newCoapPacket deviceLogicalAddress coreLogicalAddress
      managementPort managementPort
    (CoapWire.encode (wireOf reply))).mapError fun _ => .coap "no packet"
  let encoded ← ((link .device).encode (deps linkWorld) active .management response).mapError .link
  return (response, encoded.frame.bytes)

structure Trip where
  sent : PreparedManagementRequest
  packet : Ipv6UdpCoapPacket
  frame : Bytes

def trip (active : ActiveContext) (messageId : Nat) : Except InspectionError Trip := do
  let sent ← prepareManagementRequest (deps linkWorld) active (link .core)
    (numberedDatagram messageId) .empty
  let (packet, frame) ← respondTo active (numberedRequest messageId)
  return { sent, packet, frame }

def tookResponse : CoreFrameResult → Bool
  | .management .. => true
  | .application _ => false

def takes (active : ActiveContext) (sent : PreparedManagementRequest) (frame : Bytes) : Bool :=
  holds (processCoreRawFrame (deps linkWorld) active (link .core) frame false (some sent))
    tookResponse

/-- A response acknowledges its request, and crosses the link. -/
def answers (active : ActiveContext) (messageId : Nat) (trip : Trip) : Bool :=
  readPacket (numberedDatagram messageId) = .ok (numberedRequest messageId) &&
    trip.packet.coapMessage.messageType = 2 &&
    trip.packet.coapMessage.messageId = trip.sent.exchangeId.messageId &&
    (SchcLink.decode (deps linkWorld) active (link .core) trip.frame).map (·.packet) =
      .ok trip.packet

theorem answered_evaluated : holds (loaded linkWorld linkRules) (fun prepared =>
    let active := ActiveContext.new prepared
    holds (trip active 127) fun first => holds (trip active 0) fun second =>
      answers active 127 first && answers active 0 second &&
        (takes active first.sent first.frame && !takes active second.sent first.frame &&
          takes active second.sent second.frame)) = true := by
  decide +kernel

namespace Trip

def request (trip : Trip) (ordinal : Nat) : SentRequest := { ordinal, prepared := trip.sent }

def response (trip : Trip) (ordinal : Nat) : SentResponse :=
  { request := trip.request ordinal, packet := trip.packet }

def asked (trip : Trip) (world : Correlation) : Correlation :=
  { world.send trip.sent with responses := trip.response world.issued :: world.responses }

def taken (trip : Trip) (world : Correlation) (ordinal : Nat) : Correlation :=
  { world with
    outstanding := none
    accepted := (trip.request ordinal, trip.response ordinal) :: world.accepted }

theorem asks (h : trip active messageId = .ok done)
    (hanswers : answers active messageId done = true)
    (hworld : world.outstanding = none) (hid : world.issuedId = messageId) :
    Relation.ReflTransGen (Step (deps linkWorld)) world (done.asked world) := by
  simp only [answers, Bool.and_eq_true, decide_eq_true_eq] at hanswers
  obtain ⟨⟨⟨hread, htype⟩, hsame⟩, -⟩ := hanswers
  simp only [trip, bind_ok, pure_ok] at h
  obtain ⟨sent, hsent, pair, -, rfl⟩ := h
  exact .tail (.single (.request hworld hread rfl hid.symm hsent))
    (.respond List.mem_cons_self ⟨htype, hsame⟩)

theorem delivers (hanswers : answers active messageId done = true)
    (htakes : takes active done.sent done.frame = true)
    (hwaits : world.outstanding = some (done.request ordinal))
    (hmem : done.response ordinal ∈ world.responses)
    (hfew : world.issued - (ordinal + 1) < managementMidModulus) :
    Step (deps linkWorld) world (done.taken world ordinal) := by
  simp only [answers, Bool.and_eq_true, decide_eq_true_eq] at hanswers
  obtain ⟨result, hresult, htook⟩ := holds_iff.mp htakes
  have hstep :
      Step (deps linkWorld) world (world.receive (done.response ordinal) (.ok result)) := by
    have hprepared : world.outstanding.map (·.prepared) = some done.sent := by rw [hwaits]; rfl
    rw [← hresult, ← hprepared]
    exact .deliver hmem hfew hanswers.2
  cases result with
  | application packet => cases htook
  | management code exchange =>
    simp only [Correlation.receive, hwaits] at hstep
    exact hstep

end Trip

/-- The last message ID and then the first, each answered; the second request does not
take the first response. -/
theorem responses_correlate_wrapped : ∃ (active : ActiveContext) (first second : Trip)
    (world : Correlation),
    Reachable (deps linkWorld) 127 world ∧ takes active second.sent first.frame = false ∧
    world.accepted = [(second.request 1, second.response 1), (first.request 0, first.response 0)] ∧
    ∀ pair ∈ world.accepted, pair.2.request = pair.1 := by
  obtain ⟨prepared, -, hrun⟩ := holds_iff.mp answered_evaluated
  obtain ⟨first, hfirst, hrun⟩ := holds_iff.mp hrun
  obtain ⟨second, hsecond, hrun⟩ := holds_iff.mp hrun
  simp only [Bool.and_eq_true, Bool.not_eq_true'] at hrun
  obtain ⟨⟨hanswers, hanswers'⟩, ⟨htakes, hrefuses⟩, htakes'⟩ := hrun
  let asked := first.asked (start 127)
  let answered := first.taken asked 0
  let again := second.asked answered
  let world := second.taken again 1
  have hasked : Relation.ReflTransGen (Step (deps linkWorld)) (start 127) asked :=
    Trip.asks hfirst hanswers rfl rfl
  have hanswered : Step (deps linkWorld) asked answered :=
    Trip.delivers hanswers htakes rfl List.mem_cons_self
      (show 0 + 1 - (0 + 1) < managementMidModulus by decide)
  have hagain : Relation.ReflTransGen (Step (deps linkWorld)) answered again :=
    Trip.asks hsecond hanswers' rfl rfl
  have hworld : Step (deps linkWorld) again world :=
    Trip.delivers hanswers' htakes' rfl List.mem_cons_self
      (show 0 + 1 + 1 - (1 + 1) < managementMidModulus by decide)
  have hreachable : Reachable (deps linkWorld) 127 world :=
    ((hasked.tail hanswered).trans hagain).tail hworld
  exact ⟨.new prepared, first, second, world, hreachable, hrefuses, rfl,
    fun pair hpair => responses_correlate headersAgree hreachable hpair⟩

end

end Correlation

end SchcCoreconf
