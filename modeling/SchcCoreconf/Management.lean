import SchcCoreconf.Duplicate

/-!
# The management service

`management.rs`: one CoAP datagram in, at most one out. GET and FETCH read
through the service's backend handle; a root iPATCH replaces one target value;
a NON POST duplicates a rule and is not answered. The writers build a candidate
from the snapshot they hold the lock on, validate it, and commit it.
-/

namespace SchcCoreconf

open Fallible

-- ---------------------------------------------------------------------------
-- Running a request handler over the backend
-- ---------------------------------------------------------------------------

/-- Runs the calls of a handler, in order, on its backend handle. -/
def BackendProgram.run (deps : Deps) : BackendProgram α → BackendState → Outcome BackendState α
  | .done value, state => { result := some value, state }
  | .readTree next, state =>
    let (tree, state) := state.readTree
    (next tree).run deps state
  | .replaceTree tree next, state =>
    let outcome := state.replaceTree deps tree
    match outcome.result with
    | none => { result := none, state := outcome.state }
    | some result => (next result).run deps outcome.state

/-- The service over one active context; its handle is part of the state. -/
structure InspectionService where
  model : CoreconfModel
  sidRegistry : SidRegistry
  handler : Request → BackendProgram Response

def InspectionService.new (deps : Deps) (active : ActiveContext) :
    Except InspectionError (InspectionService × BackendState) := do
  let model ← (deps.rustconf.coreconfModel active.recipe.sidJson).mapError .datastore
  let sidRegistry ← (deps.rschc.sidRegistry active.recipe.sidJson).mapError .datastore
  let handler ← (deps.rustconf.requestHandler model.compositeModel).mapError .datastore
  return ({ model, sidRegistry, handler }, { active, backend := active.backend })

-- ---------------------------------------------------------------------------
-- Targeted iPATCH
-- ---------------------------------------------------------------------------

/-- A failed patch; its code is never that of a success. -/
structure PatchFailure where
  code : ResponseCode
  message : String
  preconditionFailed : Bool
  failed : code ≠ .changed
  deriving DecidableEq

namespace PatchFailure

def bad (message : String) : PatchFailure :=
  { code := .badRequest, message, preconditionFailed := false, failed := by decide }

def conflict (message : String) : PatchFailure :=
  { code := .conflict, message, preconditionFailed := false, failed := by decide }

def precondition (message : String) : PatchFailure :=
  { code := .conflict, message, preconditionFailed := true, failed := by decide }

def internal (message : String) : PatchFailure :=
  { code := .internalServerError, message, preconditionFailed := false, failed := by decide }

end PatchFailure

def ContextTag.ofBytes (bytes : Bytes) : Option ContextTag :=
  if h : bytes.length = 8 then some { bytes := ⟨bytes.toArray, by simpa using h⟩ } else none

def parseIfMatchOption (packet : Packet) : Except PatchFailure (Option ContextTag) :=
  match packet.getOption CoapOption.ifMatch with
  | none => .ok none
  | some [bytes] => do
    let tag ← need (ContextTag.ofBytes bytes)
      (.bad "If-Match option must contain exactly 8 bytes")
    return some tag
  | some _ => .error (.bad "targeted iPATCH must contain zero or one If-Match option")

structure TargetPatch where
  selector : RuleSelector
  path : InstancePath
  value : Json
  deriving DecidableEq

/-- `patch_key_u64`; on this machine a `usize` has the same range. -/
def patchKey (component : Option PathComponent) (name : String) : Except PatchFailure Nat :=
  match component with
  | some (.keyValue value) =>
    need value.asU64 (.bad s!"targeted iPATCH {name} key must be an unsigned integer")
  | _ => .error (.bad s!"targeted iPATCH is missing the {name} key")

def patchDelta (component : Option PathComponent) (delta : Int) (missing wrong : String) :
    Except PatchFailure Unit :=
  match component with
  | some (.sidDelta actual) => ensure (actual = delta) (.bad wrong)
  | _ => .error (.bad missing)

def patchRoot (components : List PathComponent) (sids : ModelSids) : Except PatchFailure Unit :=
  match (components[0]? : Option PathComponent), (components[1]? : Option PathComponent) with
  | some (.sidDelta rootDelta), some (.sidDelta ruleDelta) =>
    ensure (rootDelta = sids.root && ruleDelta = sids.rule - sids.root)
      (.bad "targeted iPATCH path is not rooted at the complete rule list")
  | some (.sidDelta _), _ => .error (.bad "targeted iPATCH path is missing the rule list")
  | _, _ => .error (.bad "targeted iPATCH path is missing the SCHC root")

def targetPatchFromInstance (deps : Deps) (entry : Instance) (sids : ModelSids) :
    Except PatchFailure TargetPatch := do
  let components := entry.path.components
  ensure (components.length = 9)
    (.bad "targeted iPATCH path must contain the complete rule, entry, and target-value keys")
  patchRoot components sids
  let ruleValue ← patchKey components[2]? "RuleID value"
  let ruleBits ← patchKey components[3]? "RuleID bit length"
  let selector ← (RuleSelector.new ruleValue ruleBits).mapError fun error =>
    .bad (error.text deps.rschc)
  patchDelta components[4]? (sids.entry - sids.rule)
    "targeted iPATCH path is missing the entry list"
    "targeted iPATCH path is missing the canonical entry list"
  let entryIndex ← patchKey components[5]? "entry index"
  patchDelta components[6]? (sids.target - sids.entry)
    "targeted iPATCH path is missing the target-value list"
    "targeted iPATCH path is missing the canonical target-value list"
  let targetValueIndex ← patchKey components[7]? "target-value index"
  patchDelta components[8]? (sids.targetValue - sids.target)
    "targeted iPATCH path is missing the target-value leaf"
    "targeted iPATCH path names an unsupported leaf"
  let expectedPath ← (targetValuePath deps sids selector entryIndex targetValueIndex).mapError
    fun error => .bad (error.text deps.rschc)
  ensure (entry.path = expectedPath)
    (.bad "targeted iPATCH path is not the canonical target-value instance path")
  let value ← need entry.value (.bad "targeted iPATCH cannot delete the target-value leaf")
  return { selector, path := entry.path, value }

/-- The part of `apply_target_ipatch` before the writer lock: the one target it names. -/
def decodeTargetPatch (deps : Deps) (model : CoreconfModel) (request : Request) :
    Except PatchFailure (ModelSids × TargetPatch) := do
  ensure (request.interface = some .management && request.path.isEmpty)
    (.bad "targeted iPATCH must address the management root")
  ensure (request.contentFormat = some .yangInstancesCborSeq &&
      request.rawContentFormat = some (deps.rustconf.asU16 .yangInstancesCborSeq))
    (.bad "targeted iPATCH requires content format 142 (yang-instances+cbor-seq)")
  ensure (!request.payload.isEmpty)
    (.bad "targeted iPATCH payload must contain one replacement")
  let sids ← (validateUpdateModelShape model.compositeModel).mapError fun error =>
    .internal (error.text deps.rschc)
  let instances ← (model.compositeModel.decodeInstancesWithModel request.payload).mapError
    fun error => .bad s!"invalid iPATCH payload: {error}"
  match instances with
  | [entry] => return (sids, ← targetPatchFromInstance deps entry sids)
  | _ => throw (.bad
      s!"targeted iPATCH must contain exactly one operation, got {instances.length}")

/-- The preconditions on the snapshot: its tag, and a rule that is there to change. -/
def checkTargetRule (snapshot : ContextSnapshot) (ifMatch : Option ContextTag)
    (target : TargetPatch) : Except PatchFailure Unit := do
  ensure (ifMatch.all (· = snapshot.data.tag))
    (.precondition "If-Match context tag does not match the current context")
  let ruleId := target.selector.ruleId
  ensure (!snapshot.data.protectedRules.contains ruleId)
    (.conflict s!"RuleID {target.selector} is protected and immutable")
  ensure (snapshot.data.rules.any (·.id = ruleId))
    (.conflict s!"RuleID {target.selector} does not exist")

def orConflict (x : Except String α) : Except PatchFailure α := x.mapError .conflict

def inspectionConflict (deps : Deps) (x : Except InspectionError α) : Except PatchFailure α :=
  x.mapError fun error => .conflict (error.text deps.rschc)

/-- The tree with the target value replaced, at its width and within its field length. -/
def patchedTree (deps : Deps) (model : CoreconfModel) (sids : ModelSids) (tree : Json)
    (target : TargetPatch) : Except PatchFailure Json := do
  let candidate ← (model.withData tree).mapError fun error =>
    .conflict s!"candidate datastore rejected the active tree: {error}"
  let keys := target.path.keys
  let sid ← need (deps.rustconf.absoluteSid target.path)
    (.bad "targeted iPATCH path has no target-value leaf SID")
  let xpath ← orConflict (model.createXpath candidate sid keys)
  let canonicalPath ← orConflict (deps.rustconf.predicatePath xpath)
  let currentValue ← need (← orConflict (model.getPath candidate xpath))
    (.conflict "target-value leaf does not exist")
  let composite := model.compositeModel
  let currentWire ← orConflict (composite.identifierValueToSidValueAtPath
      currentValue canonicalPath)
  let currentBytes ← inspectionConflict deps (binaryBytes currentWire)
  let entryXpath ← orConflict (model.createXpath candidate sids.entry (keys.take 3))
  let entryValue ← need (← orConflict (model.getPath candidate entryXpath))
    (.conflict "target entry does not exist")
  let fieldLengthKey ← inspectionConflict deps (treeKeyForSid composite sids.fieldLength)
  let fieldLength ← need ((entryValue.get fieldLengthKey).bind Json.asU64)
    (.conflict "target entry has no numeric field-length")
  ensure (binaryFitsFieldLength currentBytes fieldLength && fieldLength ≠ 0)
    (.conflict s!"existing target value does not fit field length {fieldLength}")
  let replacementIdentifier ← orConflict
    (composite.sidValueToIdentifierValueAtPath target.value canonicalPath)
  let replacementWire ← orConflict
    (composite.identifierValueToSidValueAtPath replacementIdentifier canonicalPath)
  let replacementBytes ← inspectionConflict deps (binaryBytes replacementWire)
  ensure (replacementBytes.length = currentBytes.length) (.conflict
    (s!"target-value replacement has {replacementBytes.length} bytes, " ++
      s!"expected {currentBytes.length}"))
  ensure (binaryFitsFieldLength replacementBytes fieldLength)
    (.conflict s!"target-value replacement does not fit field length {fieldLength}")
  let candidate ← orConflict (model.setPath candidate xpath replacementIdentifier)
  return candidate.getAll

/-- What a target patch asks of a tree: its leaf set to its value, and nothing else. -/
def TargetPatch.Describes (deps : Deps) (model : CoreconfModel) (target : TargetPatch)
    (tree tree' : Json) : Prop :=
  ∃ store sid xpath path replacement store',
    model.withData tree = .ok store ∧ deps.rustconf.absoluteSid target.path = some sid ∧
    model.createXpath store sid target.path.keys = .ok xpath ∧
    deps.rustconf.predicatePath xpath = .ok path ∧
    model.compositeModel.sidValueToIdentifierValueAtPath target.value path = .ok replacement ∧
    model.setPath store xpath replacement = .ok store' ∧ tree' = store'.tree

theorem patchedTree_ok (h : patchedTree deps model sids tree target = .ok tree') :
    target.Describes deps model tree tree' := by
  simp only [patchedTree, orConflict, inspectionConflict, bind_ok, mapError_ok, need_ok, ensure_ok,
    pure_ok] at h
  obtain ⟨store, hstore, sid, hsid, xpath, hxpath, path, hpath, _, -, _, -, _, -, _, -, _, -, _, -,
    _, -, _, -, _, -, _, -, replacement, hreplacement, _, -, _, -, _, -,
      _, -, store', hset, rfl⟩ := h
  exact ⟨store, sid, xpath, path, replacement, store', hstore, hsid, hxpath, hpath, hreplacement,
    hset, rfl⟩

def ActiveContext.prepareCandidate (deps : Deps) (self : ActiveContext) (tree : Json) :
    Except ContextError PreparedContext := do
  let prepared ← PreparedContext.fromTreeForRecipe deps self.recipe tree
  self.validateCandidate deps self.snapshot prepared
  return prepared

def targetCandidate (deps : Deps) (model : CoreconfModel) (active : ActiveContext)
    (ifMatch : Option ContextTag) (sids : ModelSids) (target : TargetPatch) :
    Except PatchFailure PreparedContext := do
  checkTargetRule active.snapshot ifMatch target
  let tree ← patchedTree deps model sids active.snapshot.data.tree target
  (active.prepareCandidate deps tree).mapError fun error =>
    .conflict (error.text deps.rustconf)

def applyTargetIpatch (deps : Deps) (model : CoreconfModel) (active : ActiveContext)
    (request : Request) (ifMatch : Option ContextTag) :
    Outcome ActiveContext (Except PatchFailure Response) :=
  active.commit Response.changed do
    let (sids, target) ← decodeTargetPatch deps model request
    targetCandidate deps model active ifMatch sids target

-- ---------------------------------------------------------------------------
-- Duplicate rule
-- ---------------------------------------------------------------------------

inductive DuplicateRuleResult
  | applied (generation : Nat) (tag : ContextTag)
  | idempotent (generation : Nat) (tag : ContextTag)
  deriving DecidableEq, Repr

def checkDestination (snapshot : ContextSnapshot) (destination : RuleSelector) :
    Except InspectionError Unit :=
  match snapshot.dynamicRuleIds with
  | none => .ok ()
  | some ns => ensure
      (snapshot.data.rules.any (·.id = destination.ruleId) || ns.accepts destination.ruleId)
      (invalidDuplicate (s!"new duplicate destination {destination} is outside the " ++
        "configured dynamic RuleID namespace"))

/-- Whether the destination is there already; if so, it has the expected contents. -/
def checkExisting (model : CoreconfModel) (snapshot : ContextSnapshot) (destination : RuleSelector)
    (expectedRule : Json) : Except InspectionError Bool :=
  if snapshot.data.rules.any (·.id = destination.ruleId) then do
    let existingRule ← need
      (← findTreeRule snapshot.data.tree model.compositeModel destination)
      (invalidDuplicate "existing destination rule is missing")
    ensure (existingRule == expectedRule)
      (.invalidUpdate
        s!"duplicate destination {destination} already exists with different contents")
    return true
  else .ok false

/-- The candidate of a duplicate operation, and whether its destination is there already. -/
def duplicateCandidate (deps : Deps) (model : CoreconfModel) (active : ActiveContext)
    (operation : DecodedDuplicateOperation) : Except InspectionError (PreparedContext × Bool) := do
  let snapshot := active.snapshot
  let expected ← expectedDuplicateTree deps model snapshot operation.request operation.instances
  let destination := operation.request.destination
  checkDestination snapshot destination
  let expectedRule ← need (← findTreeRule expected model.compositeModel destination)
    (invalidDuplicate "constructed destination rule is missing")
  let prepared ← (active.prepareCandidate deps expected).mapError fun error =>
    .invalidUpdate (error.text deps.rustconf)
  let existing ← checkExisting model snapshot destination expectedRule
  return (prepared, existing)

def applyDuplicateOperation (deps : Deps) (model : CoreconfModel) (active : ActiveContext)
    (operation : DecodedDuplicateOperation) :
    Outcome ActiveContext (Except InspectionError DuplicateRuleResult) :=
  match duplicateCandidate deps model active operation with
  | .error error => { result := some (.error error), state := active }
  | .ok (_, true) =>
    { result := some (.ok (.idempotent active.snapshot.generation active.snapshot.data.tag))
      state := active }
  | .ok (prepared, false) =>
    match active.publishLocked prepared with
    | none => { result := none, state := active }
    | some active =>
      { result := some (.ok (.applied active.snapshot.generation active.snapshot.data.tag))
        state := active }

-- ---------------------------------------------------------------------------
-- Answers
-- ---------------------------------------------------------------------------

def serialiseResponse (coap : CoapLite) (packet : Packet) : Except InspectionError Bytes :=
  (coap.toBytesUnlimited (coap.clearOption packet CoapOption.contentFormat)).mapError .coap

def packetWithoutContentFormat (deps : Deps) (request : Packet) (response : Response) :
    Except InspectionError Bytes :=
  serialiseResponse deps.coap (deps.rustconf.responseToPacket request response)

def packetPreconditionWithoutContentFormat (deps : Deps) (request : Packet) (message : String) :
    Except InspectionError Bytes :=
  serialiseResponse deps.coap
    { deps.rustconf.responseToPacket request (.error .conflict message) with
      code := .response .preconditionFailed }

def isMutation (packet : Packet) : Bool :=
  packet.code = .request .iPatch || packet.code = .request .patch ||
    packet.code = .request .post || packet.code = .request .delete

def contextCheckMarker : UInt8 := 0xC6
def contextCheckEqual : UInt8 := 0
def contextCheckMismatch : UInt8 := 1

def handleContextCheck (deps : Deps) (active : ActiveContext) (request : Packet) :
    Except InspectionError Bytes :=
  match ContextTag.ofBytes request.payload.tail with
  | none => packetWithoutContentFormat deps request
      (.error .badRequest "context check payload must contain marker and eight-byte tag")
  | some coreTag =>
    let deviceTag := active.snapshot.data.tag
    let payload :=
      if coreTag = deviceTag then [contextCheckMarker, contextCheckEqual]
      else contextCheckMarker :: contextCheckMismatch :: deviceTag.bytes.toList
    packetWithoutContentFormat deps request (.content payload .yangDataCborSid)

def patchFailureResponse (deps : Deps) (packet : Packet) (failure : PatchFailure) :
    Except InspectionError Bytes :=
  if failure.preconditionFailed then
    packetPreconditionWithoutContentFormat deps packet failure.message
  else packetWithoutContentFormat deps packet (.error failure.code failure.message)

-- ---------------------------------------------------------------------------
-- The service
-- ---------------------------------------------------------------------------

namespace InspectionService

def answer (state : BackendState) (result : α) : Outcome BackendState α :=
  { result := some result, state }

def handleTargetIpatch (deps : Deps) (self : InspectionService) (state : BackendState)
    (packet : Packet) : Outcome BackendState (Except InspectionError Bytes) :=
  match deps.rustconf.packetToRequest packet "schc" with
  | .error response => answer state (packetWithoutContentFormat deps packet response)
  | .ok request =>
    match parseIfMatchOption packet with
    | .error failure => answer state (patchFailureResponse deps packet failure)
    | .ok ifMatch =>
      let outcome := applyTargetIpatch deps self.model state.active request ifMatch
      { result := outcome.result.map fun
          | .ok response => packetWithoutContentFormat deps packet response
          | .error failure => patchFailureResponse deps packet failure
        state := { state with active := outcome.state } }

/-- The part of `handle_datagram` for GET and FETCH. -/
def handleInspection (deps : Deps) (self : InspectionService) (state : BackendState)
    (packet : Packet) : Outcome BackendState (Except InspectionError Bytes) :=
  if ((packet.getOption CoapOption.uriPath).all (·.any (· ≠ schcSegment))) then
    answer state (packetWithoutContentFormat deps packet (.notFound "/schc"))
  else if packet.code = .request .fetch && packet.payload.head? = some contextCheckMarker then
    answer state (handleContextCheck deps state.active packet)
  else
    match deps.rustconf.packetToRequest packet "schc" with
    | .error response =>
      let code := deps.rustconf.responseCodeText (deps.rustconf.responseCode response)
      answer state (.error (.coap s!"CORECONF request rejected with {code}"))
    | .ok request =>
      let outcome := (self.handler request).run deps state
      { result := outcome.result.map (packetWithoutContentFormat deps packet)
        state := outcome.state }

def handleDatagram (deps : Deps) (self : InspectionService) (state : BackendState)
    (datagram : Bytes) : Outcome BackendState (Except InspectionError Bytes) :=
  match deps.coap.fromBytes datagram with
  | .error error => answer state (.error (.coap error))
  | .ok packet =>
    if isDuplicateRuleCoapShape packet then
      answer state (.error (.unexpectedResponse
        "duplicate-rule NON POST must use handle_datagram_no_response"))
    else if packet.code = .request .iPatch then
      if packet.payload.isEmpty && (packet.getOption CoapOption.contentFormat).isNone
          && (packet.getOption CoapOption.ifMatch).isNone then
        answer state (packetWithoutContentFormat deps packet (.methodNotAllowed .fetch))
      else self.handleTargetIpatch deps state packet
    else if isMutation packet then
      answer state (packetWithoutContentFormat deps packet (.methodNotAllowed .fetch))
    else if packet.code = .request .get || packet.code = .request .fetch then
      self.handleInspection deps state packet
    else answer state (packetWithoutContentFormat deps packet (.methodNotAllowed .fetch))

def handleDatagramNoResponse (deps : Deps) (self : InspectionService) (state : BackendState)
    (datagram : Bytes) : Outcome BackendState (Except InspectionError (Option Bytes)) :=
  match deps.coap.fromBytes datagram with
  | .error error => answer state (.error (.coap error))
  | .ok packet =>
    if isDuplicateRuleCoapShape packet then
      match decodeDuplicateOperation deps self.model packet.payload with
      | .error error => answer state (.error error)
      | .ok operation =>
        let outcome := applyDuplicateOperation deps self.model state.active operation
        { result := outcome.result.map fun result => result.map fun _ => none
          state := { state with active := outcome.state } }
    else
      let outcome := self.handleDatagram deps state datagram
      { result := outcome.result.map fun result => result.map some, state := outcome.state }

end InspectionService

end SchcCoreconf
