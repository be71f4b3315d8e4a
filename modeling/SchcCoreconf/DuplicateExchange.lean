import SchcCoreconf.DuplicateReplay
import SchcCoreconf.Flow
import SchcCoreconf.UpdateAgreement

/-!
# The duplicate command

`rule duplicate` sends one datagram that nobody answers, and applies the same
datagram to the core's own context. The core tells an application from a replay by
the generation before and after; what it reports is what happened.
-/

namespace SchcCoreconf

open Fallible

-- ---------------------------------------------------------------------------
-- The command
-- ---------------------------------------------------------------------------

/-- What a `rule duplicate` command reports, with its text, when it does not succeed. -/
inductive DuplicateError
  | rejected (message : String)
  | notSent (request : RuleDuplicateRequest) (error : String)
  | localFailed (request : RuleDuplicateRequest) (error : String)

def RuleDuplicateRequest.selectors (request : RuleDuplicateRequest) : String :=
  s!"{request.source} -> {request.destination}"

def DuplicateError.text : DuplicateError → String
  | .rejected message => message ++ "; device=not-sent; local=unchanged"
  | .notSent request error =>
    s!"duplicate {request.selectors}  remote=not-sent  local=unchanged: {error}"
  | .localFailed request error =>
    s!"duplicate {request.selectors}  remote=unacknowledged  local=failed: {error}; " ++
      "possible divergence - run context check"

def planRuleDuplicate (deps : Deps) (service : InspectionService) (state : CoreState)
    (command : String) : Except DuplicateError (RuleDuplicateRequest × Bytes) × Nat :=
  match parseRuleDuplicateCommand deps command with
  | .error error =>
    (.error (.rejected s!"duplicate rejected: {error.text deps.rschc}"), state.nextMessageId)
  | .ok request =>
    let (messageId, nextMessageId) := nextManagementMessageId state.nextMessageId
    let datagram := (service.duplicateRuleDatagram deps request messageId).alone
      state.backend.active.snapshot
    ((datagram.mapError fun error => DuplicateError.rejected
      s!"duplicate {request.selectors} rejected: {error.text deps.rschc}").map
        (request, ·), nextMessageId)

/-- What the core makes of its own answer to the datagram. -/
def checkLocalDuplicate (deps : Deps) (request : RuleDuplicateRequest) (before : Nat)
    (after : ContextSnapshot) (answer : Except InspectionError (Option Bytes)) :
    Except DuplicateError DuplicateRuleResult := do
  let response ← answer.mapError fun error => .localFailed request (error.text deps.rschc)
  ensure response.isNone (.localFailed request "local handler unexpectedly produced a response")
  return if after.generation = before + 1 then .applied after.generation after.data.tag
    else .idempotent after.generation after.data.tag

/-- A run of the command: the datagram that was sent, the report, and the core. -/
structure DuplicateRun where
  sent : Option Bytes
  outcome : Outcome CoreState (Except DuplicateError DuplicateRuleResult)

/-- `execute_rule_duplicate`, given how sending a datagram turns out. -/
def executeRuleDuplicate (deps : Deps) (service : InspectionService) (state : CoreState)
    (command : String) (sendDevice : Bytes → Except String Unit) : DuplicateRun :=
  match planRuleDuplicate deps service state command with
  | (.error error, nextMessageId) =>
    { sent := none,
      outcome := { result := some (.error error), state := { state with nextMessageId } } }
  | (.ok (request, datagram), nextMessageId) =>
    match sendDevice datagram with
    | .error error =>
      { sent := none
        outcome := {
          result := some (.error (.notSent request error))
          state := { state with nextMessageId } } }
    | .ok () =>
      let handled := service.handleDatagramNoResponse deps state.backend datagram
      { sent := some datagram
        outcome := {
          result := handled.result.map (checkLocalDuplicate deps request
            state.backend.active.snapshot.generation handled.state.active.snapshot)
          state := { backend := handled.state, nextMessageId } } }

-- ---------------------------------------------------------------------------
-- The datagram
-- ---------------------------------------------------------------------------

theorem duplicateRulePacket_eq (hadded : AddsOptions coap) (messageId : Nat) (payload : Bytes) :
    duplicateRulePacket coap messageId payload = {
      messageId
      messageType := .nonConfirmable
      code := .request .post
      token := []
      options := [(CoapOption.uriPath, [schcSegment]), (CoapOption.contentFormat, [[142]])]
      payload } := by
  simp [duplicateRulePacket, hadded _, insertOption, CoapOption.uriPath, CoapOption.contentFormat]

theorem duplicateRulePacket_shape (hadded : AddsOptions coap) (messageId : Nat) (payload : Bytes) :
    isDuplicateRuleCoapShape (duplicateRulePacket coap messageId payload) = true := by
  rw [duplicateRulePacket_eq hadded]
  simp [isDuplicateRuleCoapShape, Packet.getOption, CoapOption.uriPath, CoapOption.contentFormat,
    List.lookup_cons]

theorem duplicateRulePacket_payload (hadded : AddsOptions coap) (messageId : Nat)
    (payload : Bytes) : (duplicateRulePacket coap messageId payload).payload = payload := by
  rw [duplicateRulePacket_eq hadded]

theorem duplicateRulePacket_serializable (hadded : AddsOptions coap) (payload : Bytes)
    (h : messageId < 2 ^ 16) : (duplicateRulePacket coap messageId payload).Serializable := by
  have hsegment : schcSegment.length < 2 ^ 16 := by decide +kernel
  rw [duplicateRulePacket_eq hadded]
  exact {
    request := ⟨.post, by decide, rfl⟩
    messageId := h
    token := by simp
    ordered := by simp [CoapOption.uriPath, CoapOption.contentFormat]
    values := by simpa using hsegment }

theorem planRuleDuplicate_ok (htrip : RequestsRoundTrip deps.coap)
    (h : (planRuleDuplicate deps service state command).1 = .ok (request, datagram)) :
    parseRuleDuplicateCommand deps command = .ok request ∧
      ∃ messageId payload, deps.coap.fromBytes datagram =
        .ok (duplicateRulePacket deps.coap messageId payload) := by
  unfold planRuleDuplicate at h
  split at h
  · cases h
  · next parsed hparsed =>
    obtain ⟨written, hwritten, hpair⟩ := map_ok.mp h
    obtain ⟨rfl, rfl⟩ := Prod.mk.inj hpair
    refine ⟨hparsed, (nextManagementMessageId state.nextMessageId).1, ?_⟩
    have halone := mapError_ok.mp hwritten
    simp only [InspectionService.duplicateRuleDatagram, SnapshotReads.alone_bind,
      SnapshotReads.alone_ofResult, bind_ok, mapError_ok] at halone
    obtain ⟨payload, -, hbytes⟩ := halone
    have hlt := nextManagementMessageId_lt state.nextMessageId
    exact ⟨payload, htrip.read (duplicateRulePacket_serializable htrip.added
      payload (by omega)) hbytes⟩

-- ---------------------------------------------------------------------------
-- What a report says
-- ---------------------------------------------------------------------------

theorem DuplicateApplied.outcome (h : DuplicateApplied deps model active operation active') :
    applyDuplicateOperation deps model active operation =
      { result := some (.ok (.applied active'.snapshot.generation active'.snapshot.data.tag))
        state := active' } := by
  obtain ⟨tree, expectedRule, prepared, haccepted, habsent, hpublish⟩ := h
  have hcandidate : duplicateCandidate deps model active operation = .ok (prepared, false) :=
    duplicateCandidate_ok.mpr ⟨tree, expectedRule, haccepted,
      checkExisting_ok.mpr (.inr ⟨rfl, habsent⟩)⟩
  simp [applyDuplicateOperation, hcandidate, hpublish]

theorem DuplicateApplied.generation (h : DuplicateApplied deps model active operation active') :
    active'.snapshot.generation = active.snapshot.generation + 1 := by
  obtain ⟨_, -, hpublish⟩ := h.publishes
  exact hpublish.snapshot.2.1

/-- What was sent, what became of the core, and the report of it. -/
inductive DuplicateReported (deps : Deps) (service : InspectionService)
    (sendDevice : Bytes → Except String Unit) (before : BackendState) :
    Option Bytes → BackendState → Except DuplicateError DuplicateRuleResult → Prop
  | applied : sendDevice datagram = .ok () → ReadsDuplicate deps service datagram operation →
      DuplicateApplied deps service.model before.active operation active →
      DuplicateReported deps service sendDevice before (some datagram) { before with active }
        (.ok (.applied active.snapshot.generation active.snapshot.data.tag))
  | idempotent : sendDevice datagram = .ok () → ReadsDuplicate deps service datagram operation →
      DuplicateReplay deps service.model before.active operation →
      DuplicateReported deps service sendDevice before (some datagram) before
        (.ok (.idempotent before.active.snapshot.generation before.active.snapshot.data.tag))
  | rejected : DuplicateReported deps service sendDevice before none before
      (.error (.rejected message))
  | notSent : sendDevice datagram = .error error →
      DuplicateReported deps service sendDevice before none before (.error (.notSent request error))
  | localFailed : sendDevice datagram = .ok () →
      (∀ operation, ReadsDuplicate deps service datagram operation →
        ¬DuplicateReplay deps service.model before.active operation ∧
          ∀ active, ¬DuplicateApplied deps service.model before.active operation active) →
      DuplicateReported deps service sendDevice before (some datagram) before
        (.error (.localFailed request error))

theorem planRuleDuplicate_error (h : (planRuleDuplicate deps service state command).1 =
    .error error) : ∃ message, error = .rejected message := by
  unfold planRuleDuplicate at h
  split at h
  · cases h
    exact ⟨_, rfl⟩
  · next request _ =>
    rcases halone : (service.duplicateRuleDatagram deps request
        (nextManagementMessageId state.nextMessageId).1).alone state.backend.active.snapshot with
      failure | bytes
    · simp only [halone, Except.mapError, Except.map] at h
      cases h
      exact ⟨_, rfl⟩
    · simp [halone, Except.mapError, Except.map] at h

theorem handled_reported {service : InspectionService} {state : BackendState}
    {sendDevice : Bytes → Except String Unit} (hadded : AddsOptions deps.coap)
    (hsent : sendDevice datagram = .ok ())
    (hread : deps.coap.fromBytes datagram = .ok (duplicateRulePacket deps.coap messageId payload))
    (hresult : ((service.handleDatagramNoResponse deps state datagram).result.map
      (checkLocalDuplicate deps request state.active.snapshot.generation
        (service.handleDatagramNoResponse deps state datagram).state.active.snapshot)) =
          some report) :
    DuplicateReported deps service sendDevice state (some datagram)
      (service.handleDatagramNoResponse deps state datagram).state report := by
  have hshape := duplicateRulePacket_shape hadded messageId payload
  cases hdecode : decodeDuplicateOperation deps service.model
    (duplicateRulePacket deps.coap messageId payload).payload with
  | error error =>
    simp only [InspectionService.handleDatagramNoResponse, hread, hshape, if_true, hdecode,
      InspectionService.answer, Option.map_some, Option.some.injEq] at hresult ⊢
    subst hresult
    refine .localFailed hsent fun operation hoperation => ?_
    obtain ⟨_, hpacket, -, hdecoded⟩ := hoperation
    cases hread.symm.trans hpacket
    cases hdecode.symm.trans hdecoded
  | ok operation =>
    have hreads : ReadsDuplicate deps service datagram operation := ⟨_, hread, hshape, hdecode⟩
    have hhandles := hreads.handles state
    simp only [HandlesDuplicate] at hhandles
    rw [hhandles] at hresult ⊢
    rcases applyDuplicateOperation_cases deps service.model state.active operation with
      ⟨hfailed, hstate⟩ | ⟨hreplay, heq⟩ | ⟨active', happlied, heq⟩
    · rw [hstate] at hresult ⊢
      have hneither : ¬DuplicateReplay deps service.model state.active operation ∧
          ∀ active, ¬DuplicateApplied deps service.model state.active operation active := by
        refine ⟨fun hreplay => ?_, fun active happlied => ?_⟩
        · exact hfailed _ (congrArg Outcome.result (applyDuplicateOperation_replay hreplay))
        · exact hfailed _ (congrArg Outcome.result happlied.outcome)
      rcases hcase : (applyDuplicateOperation deps service.model state.active operation).result with
        _ | error | result
      · simp [hcase] at hresult
      · simp only [hcase, Option.map_some, Option.some.injEq] at hresult
        subst hresult
        refine .localFailed hsent fun other hother => ?_
        obtain ⟨_, hpacket, -, hdecoded⟩ := hother
        cases hread.symm.trans hpacket
        cases hdecode.symm.trans hdecoded
        exact hneither
      · exact absurd hcase (hfailed result)
    · rw [heq] at hresult ⊢
      cases hresult
      have hgeneration :
          ¬state.active.snapshot.generation = state.active.snapshot.generation + 1 := by omega
      simp only [Except.map, checkLocalDuplicate, Except.mapError, ensure, hgeneration]
      exact .idempotent hsent hreads hreplay
    · rw [heq] at hresult ⊢
      cases hresult
      simp only [Except.map, checkLocalDuplicate, Except.mapError, ensure, happlied.generation]
      rw [← happlied.generation]
      exact .applied hsent hreads happlied

theorem executeRuleDuplicate_reported {service : InspectionService} {state : CoreState}
    {sendDevice : Bytes → Except String Unit} (htrip : RequestsRoundTrip deps.coap)
    (hresult : (executeRuleDuplicate deps service state command sendDevice).outcome.result =
      some report) :
    DuplicateReported deps service sendDevice state.backend
      (executeRuleDuplicate deps service state command sendDevice).sent
      (executeRuleDuplicate deps service state command sendDevice).outcome.state.backend
        report := by
  rcases hplan : planRuleDuplicate deps service state command with
    ⟨error | ⟨request, datagram⟩, nextMessageId⟩
  · obtain ⟨message, rfl⟩ := planRuleDuplicate_error (congrArg Prod.fst hplan)
    simp only [executeRuleDuplicate, hplan, Option.some.injEq] at hresult ⊢
    subst hresult
    exact .rejected
  · obtain ⟨-, messageId, payload, hread⟩ := planRuleDuplicate_ok htrip (congrArg Prod.fst hplan)
    rcases hsent : sendDevice datagram with error | ⟨⟩
    · simp only [executeRuleDuplicate, hplan, hsent, Option.some.injEq] at hresult ⊢
      subst hresult
      exact .notSent hsent
    · simp only [executeRuleDuplicate, hplan, hsent] at hresult ⊢
      exact handled_reported htrip.added hsent hread hresult

/-- A report of `rule duplicate` says what happened: whether a datagram was sent, and whether the
core's context took the rule, had it already, or was left as it was. -/
theorem duplicate_report_exact {service : InspectionService} {state : CoreState}
    {sendDevice : Bytes → Except String Unit} (htrip : RequestsRoundTrip deps.coap)
    (hresult : (executeRuleDuplicate deps service state command sendDevice).outcome.result =
      some report) :
    let run := executeRuleDuplicate deps service state command sendDevice
    DuplicateReported deps service sendDevice state.backend run.sent
      run.outcome.state.backend report ∧
      ((∃ generation tag, report = .ok (.applied generation tag)) ↔
        run.outcome.state.backend.active ≠ state.backend.active) := by
  intro run
  have hreported : DuplicateReported deps service sendDevice state.backend run.sent
    run.outcome.state.backend report := executeRuleDuplicate_reported htrip hresult
  refine ⟨hreported, ?_⟩
  generalize run.sent = sent at hreported
  generalize run.outcome.state.backend = after at hreported ⊢
  cases hreported with
  | @applied _ _ active _ _ happlied =>
    have hgeneration := happlied.generation
    refine ⟨fun _ hsame => ?_, fun _ => ⟨_, _, rfl⟩⟩
    have hsame : active = state.backend.active := hsame
    rw [hsame] at hgeneration
    omega
  | idempotent | rejected | notSent | localFailed =>
    refine ⟨?_, fun hne => absurd rfl hne⟩
    rintro ⟨_, _, ⟨⟩⟩

section
open Fixture

def copyCommand : String := "rule duplicate 20/8 64/8 entry=9 tv=7"

def idleCore (prepared : PreparedContext) : CoreState :=
  { backend := start prepared, nextMessageId := 0 }

def copyRun (prepared : PreparedContext) : DuplicateRun :=
  executeRuleDuplicate (deps duplicateWorld) (service duplicateWorld)
    (idleCore prepared) copyCommand fun _ => .ok ()

theorem copyCommand_evaluated : holds (loaded duplicateWorld rulesBefore) (fun prepared =>
    let run := copyRun prepared
    run.sent = some duplicateDatagram && run.outcome.result.any (·.isOk) &&
      (start prepared).active.snapshot.data.tree ≠ tree rulesCopied &&
      run.outcome.state.backend.active.snapshot.data.tree = tree rulesCopied) = true := by
  decide +kernel

theorem duplicate_report_exact_copied : ∃ prepared generation tag,
    let run := copyRun prepared
    run.sent = some duplicateDatagram ∧ run.outcome.result = some (.ok (.applied generation tag)) ∧
      run.outcome.state.backend.active.snapshot.data.tree = tree rulesCopied := by
  obtain ⟨prepared, -, hrun⟩ := holds_iff.mp copyCommand_evaluated
  simp only [Bool.and_eq_true, decide_eq_true_eq] at hrun
  obtain ⟨⟨⟨hsent, hresult⟩, hbefore⟩, hafter⟩ := hrun
  obtain ⟨report, hreport, -⟩ := (Option.any_eq_true ..).mp hresult
  have hexact := duplicate_report_exact requestsRoundTrip hreport
  obtain ⟨generation, tag, rfl⟩ := hexact.2.mpr fun hsame => hbefore (hsame ▸ hafter)
  exact ⟨prepared, generation, tag, hsent, hreport, hafter⟩

end

end SchcCoreconf
