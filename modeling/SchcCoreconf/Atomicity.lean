import SchcCoreconf.Operations

/-!
# Atomic and truthful handling

One datagram either leaves the context alone or makes one publication, of the
tree its request describes, and the answer says which: 2.04 Changed for an
iPATCH that published, nothing for a duplicate-rule request that was applied or
replayed.
-/

namespace SchcCoreconf

open Fallible
open ActiveContext (Publishes)

-- ---------------------------------------------------------------------------
-- Answers
-- ---------------------------------------------------------------------------

def IsReply (deps : Deps) (request : Packet) (type : ResponseType)
    (result : Except InspectionError Bytes) : Prop :=
  ∃ response, result = (deps.coap.toBytesUnlimited
    (replyPacket deps request response type)).mapError .coap

theorem packetWithoutContentFormat_reply (laws : ReplyLaws deps) (request : Packet)
    (response : Response) :
    ∃ type, (type = .changed ↔ response.IsChanged) ∧
      IsReply deps request type (packetWithoutContentFormat deps request response) := by
  obtain ⟨type, hcode, hchanged⟩ := laws.code request response
  refine ⟨type, hchanged, response, ?_⟩
  rw [packetWithoutContentFormat, serialiseResponse, replyPacket, ← laws.cleared, ← hcode]

theorem packetWithoutContentFormat_other (laws : ReplyLaws deps) (request : Packet)
    (hresponse : ¬Response.IsChanged response) :
    ∃ type, type ≠ .changed ∧
      IsReply deps request type (packetWithoutContentFormat deps request response) := by
  obtain ⟨type, hchanged, hreply⟩ := packetWithoutContentFormat_reply laws request response
  exact ⟨type, mt hchanged.mp hresponse, hreply⟩

theorem packetWithoutContentFormat_changed (laws : ReplyLaws deps) (request : Packet) :
    IsReply deps request .changed (packetWithoutContentFormat deps request .changed) := by
  obtain ⟨type, hchanged, hreply⟩ := packetWithoutContentFormat_reply laws request .changed
  exact hchanged.mpr (.inl rfl) ▸ hreply

theorem packetPreconditionWithoutContentFormat_reply (laws : ReplyLaws deps) (request : Packet)
    (message : String) : IsReply deps request .preconditionFailed
      (packetPreconditionWithoutContentFormat deps request message) := by
  refine ⟨.error .conflict message, ?_⟩
  rw [packetPreconditionWithoutContentFormat, serialiseResponse, laws.cleared, replyPacket]

theorem patchFailureResponse_reply (laws : ReplyLaws deps) (request : Packet)
    (failure : PatchFailure) :
    ∃ type, type ≠ .changed ∧
      IsReply deps request type (patchFailureResponse deps request failure) := by
  unfold patchFailureResponse
  split
  · exact ⟨.preconditionFailed, by simp,
      packetPreconditionWithoutContentFormat_reply laws request _⟩
  · exact packetWithoutContentFormat_other laws request
      (by simpa [Response.IsChanged] using failure.failed)

theorem handleContextCheck_reply (laws : ReplyLaws deps) (active : ActiveContext)
    (request : Packet) :
    ∃ type, type ≠ .changed ∧ IsReply deps request type
      (handleContextCheck deps active request) := by
  unfold handleContextCheck
  split
  · exact packetWithoutContentFormat_other laws request (by simp [Response.IsChanged])
  · exact packetWithoutContentFormat_other laws request (by simp [Response.IsChanged])

-- ---------------------------------------------------------------------------
-- How a datagram is handled
-- ---------------------------------------------------------------------------

/-- A call that changed nothing: it failed, or answered with another code than 2.04. -/
def Refused (deps : Deps) (request : Packet) (state : BackendState)
    (outcome : Outcome BackendState (Except InspectionError Bytes)) : Prop :=
  outcome.state.active = state.active ∧ ∀ bytes, outcome.result = some (.ok bytes) →
    ∃ type, type ≠ .changed ∧ IsReply deps request type (.ok bytes)

/-- A call that accepted a target iPATCH: one publication of the patched tree, and 2.04. -/
def Patched (deps : Deps) (model : CoreconfModel) (packet : Packet) (state : BackendState)
    (outcome : Outcome BackendState (Except InspectionError Bytes)) : Prop :=
  packet.code = .request .iPatch ∧ (∃ request ifMatch sids target tree,
    deps.rustconf.packetToRequest packet "schc" = .ok request ∧
    parseIfMatchOption packet = .ok ifMatch ∧
    decodeTargetPatch deps model request = .ok (sids, target) ∧
    checkTargetRule state.active.snapshot ifMatch target = .ok () ∧
    patchedTree deps model sids state.active.snapshot.data.tree target = .ok tree ∧
    Publishes deps state.active tree outcome.state.active) ∧
  ∃ result, outcome.result = some result ∧ IsReply deps packet .changed result

theorem refused_answer {state : BackendState}
    (h : ∃ type, type ≠ .changed ∧ IsReply deps request type result) :
    Refused deps request state (InspectionService.answer state result) := by
  obtain ⟨type, hne, hreply⟩ := h
  refine ⟨rfl, fun bytes hbytes => ⟨type, hne, ?_⟩⟩
  cases hbytes
  exact hreply

theorem refused_error {state : BackendState} :
    Refused deps request state (InspectionService.answer state (.error error)) :=
  ⟨rfl, fun _ hbytes => nomatch hbytes⟩

theorem refused_method (laws : ReplyLaws deps) {state : BackendState}
    (hresponse : ¬Response.IsChanged response) :
    Refused deps request state
      (InspectionService.answer state (packetWithoutContentFormat deps request response)) :=
  refused_answer (packetWithoutContentFormat_other laws request hresponse)

namespace InspectionService

theorem handleTargetIpatch_cases {self : InspectionService}
    (laws : ManagementLaws deps self.handler) (state : BackendState)
    (hcode : packet.code = .request .iPatch) :
    Refused deps packet state (self.handleTargetIpatch deps state packet) ∨
      Patched deps self.model packet state (self.handleTargetIpatch deps state packet) := by
  unfold handleTargetIpatch
  split
  · next response hrejected =>
      exact .inl (refused_method laws.toReplyLaws (laws.rejection hrejected))
  · next request hrequest =>
    split
    · exact .inl (refused_answer (patchFailureResponse_reply laws.toReplyLaws packet _))
    · next ifMatch hifMatch =>
      rcases applyTargetIpatch_cases deps self.model state.active request ifMatch with
        ⟨hresult, hstate⟩ | ⟨sids, target, tree, active', hdecode, hcheck, htree, hpublish, heq⟩
      · -- what is answered here is a failure
        refine .inl ⟨hstate, fun bytes hbytes => ?_⟩
        obtain ⟨patch, hpatch, hbytes⟩ := Option.map_eq_some_iff.mp hbytes
        cases patch with
        | ok response => exact absurd hpatch (hresult response)
        | error failure =>
          obtain ⟨type, hne, hreply⟩ := patchFailureResponse_reply laws.toReplyLaws packet failure
          exact ⟨type, hne, hbytes ▸ hreply⟩
      · refine .inr ⟨hcode,
          ⟨request, ifMatch, sids, target, tree, hrequest, hifMatch, hdecode, hcheck, htree, ?_⟩,
          packetWithoutContentFormat deps packet .changed, ?_,
          packetWithoutContentFormat_changed laws.toReplyLaws packet⟩
        · rw [heq]
          exact hpublish
        · rw [heq]
          rfl

theorem handleInspection_refused {self : InspectionService}
    (laws : ManagementLaws deps self.handler) (state : BackendState)
    (hcode : packet.code = .request .get ∨ packet.code = .request .fetch) :
    Refused deps packet state (self.handleInspection deps state packet) := by
  unfold handleInspection
  split
  · exact refused_method laws.toReplyLaws (by simp [Response.IsChanged])
  · split
    · exact refused_answer (handleContextCheck_reply laws.toReplyLaws state.active packet)
    · split
      · exact refused_error
      · next request hrequest =>
        have hmethod : request.method = .get ∨ request.method = .fetch :=
          hcode.imp (laws.get hrequest) (laws.fetch hrequest)
        obtain ⟨⟨response, hanswers, hresult⟩, hstate⟩ := (laws.readOnly hmethod).run_eq deps state
        refine ⟨hstate, fun bytes hbytes => ?_⟩
        simp only [hresult, Option.map_some, Option.some.injEq] at hbytes
        exact hbytes ▸ packetWithoutContentFormat_other laws.toReplyLaws packet
          (laws.inspection hmethod hanswers)

theorem handleDatagram_cases {self : InspectionService} (laws : ManagementLaws deps self.handler)
    (state : BackendState) (hpacket : deps.coap.fromBytes datagram = .ok packet) :
    Refused deps packet state (self.handleDatagram deps state datagram) ∨
      Patched deps self.model packet state (self.handleDatagram deps state datagram) := by
  simp only [handleDatagram, hpacket]
  have hmethod : ¬Response.IsChanged (.methodNotAllowed .fetch) := by simp [Response.IsChanged]
  split
  · exact .inl refused_error
  · split
    · next hpatch =>
      split
      · exact .inl (refused_method laws.toReplyLaws hmethod)
      · exact handleTargetIpatch_cases laws state hpatch
    · split
      · exact .inl (refused_method laws.toReplyLaws hmethod)
      · split
        · next hcode =>
          exact .inl (handleInspection_refused laws state (by simpa using hcode))
        · exact .inl (refused_method laws.toReplyLaws hmethod)

end InspectionService

-- ---------------------------------------------------------------------------
-- One publication at most, and a truthful answer
-- ---------------------------------------------------------------------------

/-- The tree a datagram asks for: an iPATCH sets one leaf, a duplicate-rule
request copies one rule. -/
def Requests (deps : Deps) (model : CoreconfModel) (active : ActiveContext) (packet : Packet)
    (tree : Json) : Prop :=
  (packet.code = .request .iPatch ∧ ∃ request sids target,
    deps.rustconf.packetToRequest packet "schc" = .ok request ∧
    decodeTargetPatch deps model request = .ok (sids, target) ∧
    target.Describes deps model active.snapshot.data.tree tree) ∨
  (isDuplicateRuleCoapShape packet = true ∧ ∃ operation,
    decodeDuplicateOperation deps model packet.payload = .ok operation ∧
    expectedDuplicateTree deps model active.snapshot operation.request operation.instances =
      .ok tree)

/-- Exactly one publication lies between the two contexts, and it is of this tree, by
serde's equality. -/
structure PublishedOnce (tree : Json) (active active' : ActiveContext) : Prop where
  tree : (active'.snapshot.data.tree == tree) = true
  generation : active'.snapshot.generation = active.snapshot.generation + 1
  previous : active'.snapshots.previous = active.snapshots.values

theorem ActiveContext.Publishes.once (h : Publishes deps active tree active') :
    PublishedOnce tree active active' :=
  ⟨h.snapshot.1, h.snapshot.2.1, h.snapshot.2.2⟩

theorem PublishedOnce.ne {active : ActiveContext} {tree : Json}
    (h : PublishedOnce tree active active') : active' ≠ active := fun heq => by
  have hlength := congrArg List.length h.previous
  rw [heq, ArcSwap.values, List.length_cons] at hlength
  omega

/-- `handle_datagram` is atomic, and its answer says what it did. -/
structure Truthful (deps : Deps) (model : CoreconfModel) (state : BackendState) (datagram : Bytes)
    (outcome : Outcome BackendState (Except InspectionError Bytes)) : Prop where
  atomic : outcome.state.active = state.active ∨ ∃ packet tree,
    deps.coap.fromBytes datagram = .ok packet ∧ Requests deps model state.active packet tree ∧
      PublishedOnce tree state.active outcome.state.active
  changed : (∃ bytes, outcome.result = some (.ok bytes) ∧ ReadsAs deps.coap bytes .changed) ↔
    ∃ tree, PublishedOnce tree state.active outcome.state.active
  failed : ∀ error, outcome.result = some (.error error) → outcome.state.active = state.active
  otherCode : ∀ bytes, outcome.result = some (.ok bytes) → ¬ReadsAs deps.coap bytes .changed →
    outcome.state.active = state.active
  otherMethod : ∀ packet, deps.coap.fromBytes datagram = .ok packet →
    packet.code ≠ .request .iPatch → outcome.state.active = state.active

/-- `handle_datagram_no_response` is, too: no response says that a duplicate-rule
request was applied, or is an exact replay. -/
structure QuietTruthful (deps : Deps) (model : CoreconfModel) (state : BackendState)
    (datagram : Bytes) (outcome : Outcome BackendState (Except InspectionError (Option Bytes))) :
    Prop where
  atomic : outcome.state.active = state.active ∨ ∃ packet tree,
    deps.coap.fromBytes datagram = .ok packet ∧ Requests deps model state.active packet tree ∧
      PublishedOnce tree state.active outcome.state.active
  noResponse : outcome.result = some (.ok none) ↔ ∃ packet operation,
    deps.coap.fromBytes datagram = .ok packet ∧ isDuplicateRuleCoapShape packet = true ∧
    decodeDuplicateOperation deps model packet.payload = .ok operation ∧
    (DuplicateApplied deps model state.active operation outcome.state.active ∨
      DuplicateReplay deps model state.active operation ∧ outcome.state.active = state.active)
  changed : ∀ bytes, outcome.result = some (.ok (some bytes)) →
    (ReadsAs deps.coap bytes .changed ↔
      ∃ tree, PublishedOnce tree state.active outcome.state.active)
  failed : ∀ error, outcome.result = some (.error error) → outcome.state.active = state.active
  otherMethod : ∀ packet, deps.coap.fromBytes datagram = .ok packet →
    packet.code ≠ .request .iPatch → packet.code ≠ .request .post →
      outcome.state.active = state.active

theorem ReadsAs.unique (h : ReadsAs coap bytes type) (h' : ReadsAs coap bytes type') :
    type = type' := by
  obtain ⟨packet, hpacket, hcode⟩ := h
  obtain ⟨packet', hpacket', hcode'⟩ := h'
  cases hpacket.symm.trans hpacket'
  exact MessageClass.response.inj (hcode.symm.trans hcode')

theorem IsReply.ok (laws : ReplyLaws deps) (hpacket : deps.coap.fromBytes datagram = .ok request)
    (h : IsReply deps request type result) :
    ∃ bytes kind, result = .ok bytes ∧ ReadsAs deps.coap bytes kind ∧
      (kind = type ∨ (∃ code, type = .other code) ∧ kind ≠ .changed) := by
  obtain ⟨response, rfl⟩ := h
  obtain ⟨written, kind, hwritten, hreads⟩ := laws.written response type hpacket
  exact ⟨written, kind, by rw [hwritten]; rfl, hreads⟩

theorem packetWithoutContentFormat_ok (laws : ReplyLaws deps)
    (hpacket : deps.coap.fromBytes datagram = .ok request) (response : Response) :
    ∃ bytes packet, packetWithoutContentFormat deps request response = .ok bytes ∧
      deps.coap.fromBytes bytes = .ok packet := by
  obtain ⟨_, -, hreply⟩ := packetWithoutContentFormat_reply laws request response
  obtain ⟨bytes, _, hbytes, ⟨packet, hread, -⟩, -⟩ := hreply.ok laws hpacket
  exact ⟨bytes, packet, hbytes, hread⟩

theorem IsReply.readsAs_iff (laws : ReplyLaws deps)
    (hpacket : deps.coap.fromBytes datagram = .ok request)
    (h : IsReply deps request type (.ok bytes)) :
    ReadsAs deps.coap bytes .changed ↔ type = .changed := by
  obtain ⟨_, kind, hbytes, hreads, hkind⟩ := h.ok laws hpacket
  cases hbytes
  constructor
  · intro hchanged
    rcases hkind with rfl | ⟨-, hne⟩
    · exact hreads.unique hchanged
    · exact absurd (hreads.unique hchanged) hne
  · rintro rfl
    rcases hkind with rfl | ⟨⟨_, hother⟩, -⟩
    · exact hreads
    · cases hother

theorem Refused.truthful (laws : ReplyLaws deps)
    (hpacket : deps.coap.fromBytes datagram = .ok packet) (h : Refused deps packet state outcome) :
    Truthful deps model state datagram outcome where
  atomic := .inl h.1
  changed := by
    constructor
    · rintro ⟨bytes, hbytes, hreads⟩
      obtain ⟨type, hne, hreply⟩ := h.2 bytes hbytes
      exact absurd ((hreply.readsAs_iff laws hpacket).mp hreads) hne
    · rintro ⟨tree, hpublished⟩
      exact absurd h.1 hpublished.ne
  failed _ _ := h.1
  otherCode _ _ _ := h.1
  otherMethod _ _ _ := h.1

theorem Patched.truthful (laws : ReplyLaws deps)
    (hpacket : deps.coap.fromBytes datagram = .ok packet)
    (h : Patched deps model packet state outcome) : Truthful deps model state datagram outcome := by
  obtain ⟨hcode, ⟨request, ifMatch, sids, target, tree, hrequest, -, hdecode, -, htree, hpublish⟩,
    result, hresult, hreply⟩ := h
  obtain ⟨bytes, _, rfl, -⟩ := hreply.ok laws hpacket
  have hreads : ReadsAs deps.coap bytes .changed := (hreply.readsAs_iff laws hpacket).mpr rfl
  exact {
    atomic := .inr ⟨packet, tree, hpacket,
      .inl ⟨hcode, request, sids, target, hrequest, hdecode, patchedTree_ok htree⟩, hpublish.once⟩
    changed := ⟨fun _ => ⟨tree, hpublish.once⟩, fun _ => ⟨bytes, hresult, hreads⟩⟩
    failed := fun error herror => by simp [hresult] at herror
    otherCode := fun other hother hnot => by
      cases hresult.symm.trans hother
      exact absurd hreads hnot
    otherMethod := fun other hother hne => by
      cases hpacket.symm.trans hother
      exact absurd hcode hne }

theorem truthful_error (state : BackendState) :
    Truthful deps model state datagram (InspectionService.answer state (.error error)) where
  atomic := .inl rfl
  changed := by
    constructor
    · rintro ⟨bytes, hbytes, -⟩
      cases hbytes
    · rintro ⟨tree, hpublished⟩
      exact (hpublished.ne rfl).elim
  failed _ _ := rfl
  otherCode _ _ _ := rfl
  otherMethod _ _ _ := rfl

theorem quietTruthful_some (hshape : ∀ packet, deps.coap.fromBytes datagram = .ok packet →
      isDuplicateRuleCoapShape packet = false)
    (h : Truthful deps model state datagram outcome) :
    QuietTruthful deps model state datagram
      { result := outcome.result.map fun result => result.map some, state := outcome.state } where
  atomic := h.atomic
  noResponse := by
    constructor
    · intro hnone
      obtain ⟨result, -, hnone⟩ := Option.map_eq_some_iff.mp hnone
      cases result <;> cases hnone
    · rintro ⟨packet, _, hpacket, hduplicate, -⟩
      exact absurd hduplicate (by simp [hshape packet hpacket])
  changed bytes hbytes := by
    obtain ⟨result, hresult, hbytes⟩ := Option.map_eq_some_iff.mp hbytes
    cases result <;> cases hbytes
    exact ⟨fun hreads => h.changed.mp ⟨bytes, hresult, hreads⟩, fun hpublished => by
      obtain ⟨other, hother, hreads⟩ := h.changed.mpr hpublished
      cases hresult.symm.trans hother
      exact hreads⟩
  failed error herror := by
    obtain ⟨result, hresult, herror⟩ := Option.map_eq_some_iff.mp herror
    cases result <;> cases herror
    exact h.failed error hresult
  otherMethod packet hpacket hne _ := h.otherMethod packet hpacket hne

theorem code_of_duplicateShape (h : isDuplicateRuleCoapShape packet = true) :
    packet.code = .request .post := by
  simp only [isDuplicateRuleCoapShape, Bool.and_eq_true, decide_eq_true_eq] at h
  exact h.1.1.1.1

theorem quietTruthful_failed
    {outcome : Outcome BackendState (Except InspectionError (Option Bytes))}
    (hnone : ∀ answer, outcome.result ≠ some (.ok answer))
    (hstate : outcome.state.active = state.active)
    (hnot : ∀ packet operation, deps.coap.fromBytes datagram = .ok packet →
      isDuplicateRuleCoapShape packet = true →
      decodeDuplicateOperation deps model packet.payload = .ok operation →
        ¬DuplicateReplay deps model state.active operation) :
    QuietTruthful deps model state datagram outcome where
  atomic := .inl hstate
  noResponse := by
    constructor
    · exact fun hok => absurd hok (hnone none)
    · rintro ⟨packet, operation, hpacket, hshape, hdecode, happlied | ⟨hreplay, -⟩⟩
      · obtain ⟨tree, -, hpublish⟩ := happlied.publishes
        exact absurd hstate hpublish.once.ne
      · exact absurd hreplay (hnot packet operation hpacket hshape hdecode)
  changed bytes hbytes := absurd hbytes (hnone _)
  failed _ _ := hstate
  otherMethod _ _ _ _ := hstate

theorem quietTruthful_none {outcome : Outcome BackendState (Except InspectionError (Option Bytes))}
    (hpacket : deps.coap.fromBytes datagram = .ok packet)
    (hshape : isDuplicateRuleCoapShape packet = true)
    (hdecode : decodeDuplicateOperation deps model packet.payload = .ok operation)
    (hnone : outcome.result = some (.ok none))
    (h : DuplicateApplied deps model state.active operation outcome.state.active ∨
      DuplicateReplay deps model state.active operation ∧ outcome.state.active = state.active) :
    QuietTruthful deps model state datagram outcome where
  atomic := by
    rcases h with happlied | ⟨-, hstate⟩
    · obtain ⟨tree, hexpected, hpublish⟩ := happlied.publishes
      exact .inr ⟨packet, tree, hpacket,
        .inr ⟨hshape, operation, hdecode, hexpected⟩, hpublish.once⟩
    · exact .inl hstate
  noResponse := ⟨fun _ => ⟨packet, operation, hpacket, hshape, hdecode, h⟩, fun _ => hnone⟩
  changed bytes hbytes := by simp [hnone] at hbytes
  failed error herror := by simp [hnone] at herror
  otherMethod other hother _ hpost := by
    cases hpacket.symm.trans hother
    exact absurd (code_of_duplicateShape hshape) hpost

namespace InspectionService

theorem handleDatagram_truthful {self : InspectionService}
    (laws : ManagementLaws deps self.handler) (state : BackendState) (datagram : Bytes) :
    Truthful deps self.model state datagram (self.handleDatagram deps state datagram) := by
  cases hpacket : deps.coap.fromBytes datagram with
  | error error =>
    simp only [handleDatagram, hpacket]
    exact truthful_error state
  | ok packet =>
    rcases handleDatagram_cases laws state hpacket with hrefused | hpatched
    · exact hrefused.truthful laws.toReplyLaws hpacket
    · exact hpatched.truthful laws.toReplyLaws hpacket

theorem handleDatagramNoResponse_truthful {self : InspectionService}
    (laws : ManagementLaws deps self.handler) (state : BackendState) (datagram : Bytes) :
    QuietTruthful deps self.model state datagram
      (self.handleDatagramNoResponse deps state datagram) := by
  unfold handleDatagramNoResponse
  split
  · next error hpacket =>
    exact quietTruthful_failed (by simp [answer]) rfl
      fun packet _ hother => by simp [hpacket] at hother
  · next packet hpacket =>
    split
    · next hshape =>
      split
      · next error hdecode =>
        refine quietTruthful_failed (by simp [answer]) rfl fun other _ hother _ hoperation => ?_
        cases hpacket.symm.trans hother
        simp [hdecode] at hoperation
      · next operation hdecode =>
        rcases applyDuplicateOperation_cases deps self.model state.active operation with
          ⟨hresult, hstate⟩ | ⟨hreplay, heq⟩ | ⟨active', happlied, heq⟩
        · refine quietTruthful_failed ?_ hstate fun other replayed hother _ hreplayed hreplay => ?_
          · intro response hresponse
            obtain ⟨result, happly, hresponse⟩ := Option.map_eq_some_iff.mp hresponse
            cases result with
            | ok result => exact hresult result happly
            | error error => cases hresponse
          · -- a replay would have been answered
            cases hpacket.symm.trans hother
            cases hdecode.symm.trans hreplayed
            exact hresult _ (by rw [applyDuplicateOperation_replay hreplay])
        · exact quietTruthful_none hpacket hshape hdecode (by rw [heq]; rfl)
            (.inr ⟨hreplay, by rw [heq]⟩)
        · refine quietTruthful_none hpacket hshape hdecode (by rw [heq]; rfl) (.inl ?_)
          rw [heq]
          exact happlied
    · next hshape =>
      refine quietTruthful_some (fun other hother => ?_)
        (handleDatagram_truthful laws state datagram)
      cases hpacket.symm.trans hother
      simpa using hshape

/-- Both entries of the service are atomic and truthful, on every datagram and
over every context. -/
theorem management_truthful {self : InspectionService} (laws : ManagementLaws deps self.handler)
    (state : BackendState) (datagram : Bytes) :
    Truthful deps self.model state datagram (self.handleDatagram deps state datagram) ∧
      QuietTruthful deps self.model state datagram
        (self.handleDatagramNoResponse deps state datagram) :=
  ⟨handleDatagram_truthful laws state datagram,
    handleDatagramNoResponse_truthful laws state datagram⟩

end InspectionService

section
open Fixture

theorem InspectionService.management_truthful_updated : ∃ state : BackendState,
    state.active.snapshot.data.tree = tree rulesBefore ∧
    Truthful (deps updateWorld) (coreconfModel updateWorld) state patchDatagram
      ((service updateWorld).handleDatagram (deps updateWorld) state patchDatagram) ∧
    QuietTruthful (deps updateWorld) (coreconfModel updateWorld) state patchDatagram
      ((service updateWorld).handleDatagramNoResponse (deps updateWorld) state patchDatagram) := by
  obtain ⟨prepared, -, htree⟩ := holds_iff.mp loaded_evaluated
  have laws : ManagementLaws (deps updateWorld) (service updateWorld).handler := managementLaws
  exact ⟨start prepared, of_decide_eq_true htree,
    management_truthful laws (start prepared) patchDatagram⟩

end

end SchcCoreconf
