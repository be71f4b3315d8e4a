import SchcCoreconf.Base64Machine
import SchcCoreconf.TargetFrame
import SchcCoreconf.UpdateAgreement

/-!
# The widths of an update, at the core and at the device

The core resolves an update whose number fits the stored bytes and, where it is a
number, the field length. The device also asks that the field length is a number
and that the stored value fits it.
-/

namespace SchcCoreconf

open Fallible FirstMatch
open ResolvedRuleUpdate (fromRequest ipatchPacket)

-- ---------------------------------------------------------------------------
-- Resolution at the core
-- ---------------------------------------------------------------------------

def UpdateKeys.yang : UpdateKeys where
  root := "ietf-schc:schc"
  rule := "rule"
  entry := "entry-universal"
  targetValue := "target-value"
  ruleValue := "rule-id-value"
  ruleLength := "rule-id-length"
  entryIndex := "entry-index"
  targetIndex := "index"
  targetValueLeaf := "value"

theorem updateKeys_ok (hnames : SidNames model) (hsids : ModelSids.resolve model = .ok sids)
    (h : updateKeys model sids = .ok keys) : keys = .yang := by
  obtain ⟨hroot, hrule, hlength, hvalue, hentry, hindex, -, htarget, htargetIndex, hleaf, -⟩ :=
    ModelSids.resolve_ok hsids
  simp only [updateKeys, bind_ok, pure_ok] at h
  obtain ⟨_, hrootKey, _, hruleKey, _, hentryKey, _, htargetKey, _, hvalueKey, _,
    hlengthKey, _, hindexKey, _, htargetIndexKey, _, hleafKey, rfl⟩ := h
  rw [treeKey_of_name hnames hroot hrootKey, treeKey_of_name hnames hrule hruleKey,
    treeKey_of_name hnames hentry hentryKey, treeKey_of_name hnames htarget htargetKey,
    treeKey_of_name hnames hvalue hvalueKey, treeKey_of_name hnames hlength hlengthKey,
    treeKey_of_name hnames hindex hindexKey, treeKey_of_name hnames htargetIndex htargetIndexKey,
    treeKey_of_name hnames hleaf hleafKey]
  simp [UpdateKeys.yang, lastSegment]

theorem exactlyOne_ok {items : List α} {ambiguous : Nat → ε}
    (h : exactlyOne items missing ambiguous = .ok item) : items = [item] := by
  rcases items with _ | ⟨first, _ | ⟨second, rest⟩⟩
  · cases h
  · cases h
    rfl
  · cases h

theorem find?_of_exactlyOne {items : List α} {p : α → Bool} {ambiguous : Nat → ε}
    (h : exactlyOne (items.filter p) missing ambiguous = .ok item) : items.find? p = some item := by
  rw [← List.head?_filter, exactlyOne_ok h]
  rfl

theorem selectedEntry_ok (h : UpdateKeys.yang.selectedEntry tree rule entryIndex = .ok entry) :
    EntryAddress.read ⟨rule, entryIndex⟩ tree = some entry := by
  simp only [UpdateKeys.selectedEntry, bind_ok, need_ok, Option.filter_eq_some_iff] at h
  obtain ⟨root, ⟨hroot, -⟩, rules, hrules, selected, hselected, entries, hentries, hentry⟩ := h
  have hfound : root.findIn "rule" (RuleKeys.yang.selects rule) = some selected :=
    Option.bind_eq_some_iff.mpr ⟨rules, hrules, find?_of_exactlyOne hselected⟩
  have hitem : selected.findIn "entry-universal" (hasU64 · "entry-index" entryIndex) = some entry :=
    Option.bind_eq_some_iff.mpr ⟨entries, hentries, find?_of_exactlyOne hentry⟩
  simp only [EntryAddress.read, Option.bind_eq_bind]
  exact Option.bind_eq_some_iff.mpr
    ⟨root, hroot, Option.bind_eq_some_iff.mpr ⟨selected, hfound, hitem⟩⟩

theorem targetMember_ok (h : UpdateKeys.yang.targetMember entry entryIndex = .ok member) :
    entry.items "target-value" = some [member] := by
  simp only [UpdateKeys.targetMember, bind_ok, need_ok] at h
  obtain ⟨values, hvalues, h⟩ := h
  split at h
  · cases h
    exact hvalues
  · cases h

def targetValueName : String := "/ietf-schc:schc/rule/entry-universal/target-value/value"

/-- What the core reads of a tree, and checks, when it resolves an update. -/
structure Resolves (deps : Deps) (model : CompositeModel) (request : RuleUpdateRequest)
    (address : EntryAddress) (tree : Json) (update : ResolvedRuleUpdate) (sids : ModelSids)
    (entry current : Json) (stored : Bytes) : Prop where
  shape : validateUpdateModelShape model = .ok sids
  found : address.read tree = some entry
  member : ∃ member, entry.items "target-value" = some [member] ∧
    (member.get "index").bind Json.asU64 = some update.targetValueIndex
  read : (targetAddress address update.targetValueIndex).read tree = some current
  bytes : TargetBytes model targetValueName current stored
  value : ∃ length number, entry.get "field-length" = some length ∧
    WritableTarget request.targetValue stored.length length number ∧
    update.value = .array ((bigEndian stored.length number).map fun byte => .ofNat byte.toNat)
  identifier : ∃ identifier, model.sidValueToIdentifierValueAtPath update.value
    targetValueName = .ok identifier
  path : targetValuePath deps sids request.rule address.entryIndex
    update.targetValueIndex = .ok update.path

theorem validateUpdateModelShape_ok (h : validateUpdateModelShape model = .ok sids) :
    ModelSids.resolve model = .ok sids := by
  simp only [validateUpdateModelShape, bind_ok, pure_ok] at h
  obtain ⟨_, hsids, _, -, _, -, _, -, rfl⟩ := h
  exact hsids

theorem fromRequest_ok {request : RuleUpdateRequest} (hnames : SidNames model.compositeModel)
    (h : fromRequest deps request entryIndex tree model = .ok update) :
    ∃ sids entry current stored, Resolves deps model.compositeModel request
      ⟨request.rule, entryIndex⟩ tree update sids entry current stored := by
  simp only [fromRequest, bind_ok, need_ok, mapError_ok, pure_ok] at h
  obtain ⟨sids, hshape, keys, hkeys, entry, hentry, member, hmember, index, hindex,
    current, hcurrent, path, hpath, wire, hwire, stored, hstored, key, hkey, length, hlength, value,
    hvalue, identifier, hidentifier, instancePath, hinstancePath, rfl⟩ := h
  have hsids := validateUpdateModelShape_ok hshape
  obtain ⟨-, -, -, -, -, -, hfield, -, -, hleaf, -⟩ := ModelSids.resolve_ok hsids
  cases updateKeys_ok hnames hsids hkeys
  cases (hnames hleaf).symm.trans hpath
  have hitems := targetMember_ok hmember
  have hread := selectedEntry_ok hentry
  rw [treeKey_of_name hnames hfield hkey] at hlength
  refine ⟨sids, entry, current, stored, hshape, hread, ⟨member, hitems, hindex⟩,
    ?_, ⟨wire, hwire, hstored⟩, ⟨length, ?_⟩, ⟨identifier, hidentifier⟩, hinstancePath⟩
  · refine Option.bind_eq_some_iff.mpr
      ⟨entry, hread, Option.bind_eq_some_iff.mpr ⟨member, ?_, hcurrent⟩⟩
    refine Option.bind_eq_some_iff.mpr ⟨_, hitems, ?_⟩
    exact List.find?_cons_of_pos (decide_eq_true hindex)
  · obtain ⟨number, hnumber, rfl⟩ := numericTargetValue_ok.mp hvalue
    refine ⟨number, ?_, hnumber, rfl⟩
    simpa [lastSegment] using hlength

-- ---------------------------------------------------------------------------
-- Refusals at the device
-- ---------------------------------------------------------------------------

/-- The stored bytes and the field length that the device compares, once it has found the target
value in a tree. -/
def FindsWidths (deps : Deps) (model : CoreconfModel) (sids : ModelSids)
    (tree : Json) (target : TargetPatch) (path : String) (stored : Bytes)
    (fieldLength : Option Nat) : Prop :=
  ∃ store sid xpath current entryXpath entry key,
    model.withData tree = .ok store ∧ deps.rustconf.absoluteSid target.path = some sid ∧
    model.createXpath store sid target.path.keys = .ok xpath ∧
    deps.rustconf.predicatePath xpath = .ok path ∧
    model.getPath store xpath = .ok (some current) ∧
    TargetBytes model.compositeModel path current stored ∧
    model.createXpath store sids.entry (target.path.keys.take 3) = .ok entryXpath ∧
    model.getPath store entryXpath = .ok (some entry) ∧
    treeKeyForSid model.compositeModel sids.fieldLength = .ok key ∧
    (entry.get key).bind Json.asU64 = fieldLength

def Replaces (model : CompositeModel) (target : TargetPatch) (path : String) (bytes : Bytes) :
    Prop :=
  ∃ identifier, model.sidValueToIdentifierValueAtPath target.value path = .ok identifier ∧
    TargetBytes model path identifier bytes

inductive RefusesWidth (deps : Deps) (model : CoreconfModel) (sids : ModelSids) (tree : Json)
    (target : TargetPatch) : PatchFailure → Prop
  | nonNumeric : FindsWidths deps model sids tree target path stored none →
      RefusesWidth deps model sids tree target
        (.conflict "target entry has no numeric field-length")
  | stored : FindsWidths deps model sids tree target path stored (some fieldLength) →
      (binaryFitsFieldLength stored fieldLength && fieldLength ≠ 0) = false →
      RefusesWidth deps model sids tree target
        (.conflict s!"existing target value does not fit field length {fieldLength}")
  | width : FindsWidths deps model sids tree target path stored (some fieldLength) →
      (binaryFitsFieldLength stored fieldLength && fieldLength ≠ 0) = true →
      Replaces model.compositeModel target path bytes → bytes.length ≠ stored.length →
      RefusesWidth deps model sids tree target (.conflict
        (s!"target-value replacement has {bytes.length} bytes, " ++ s!"expected {stored.length}"))
  | field : FindsWidths deps model sids tree target path stored (some fieldLength) →
      (binaryFitsFieldLength stored fieldLength && fieldLength ≠ 0) = true →
      Replaces model.compositeModel target path bytes → bytes.length = stored.length →
      binaryFitsFieldLength bytes fieldLength = false →
      RefusesWidth deps model sids tree target
        (.conflict s!"target-value replacement does not fit field length {fieldLength}")

/-- The width checks of `patchedTree`, on what it has found. -/
def checkedReplacement (deps : Deps) (model : CompositeModel) (target : TargetPatch) (path : String)
    (stored : Bytes) (fieldLength : Option Nat) : Except PatchFailure Json := do
  let fieldLength ← need fieldLength (.conflict "target entry has no numeric field-length")
  ensure (binaryFitsFieldLength stored fieldLength && fieldLength ≠ 0)
    (.conflict s!"existing target value does not fit field length {fieldLength}")
  let identifier ← orConflict (model.sidValueToIdentifierValueAtPath target.value path)
  let wire ← orConflict (model.identifierValueToSidValueAtPath identifier path)
  let bytes ← inspectionConflict deps (binaryBytes wire)
  ensure (bytes.length = stored.length) (.conflict
    (s!"target-value replacement has {bytes.length} bytes, " ++ s!"expected {stored.length}"))
  ensure (binaryFitsFieldLength bytes fieldLength)
    (.conflict s!"target-value replacement does not fit field length {fieldLength}")
  return identifier

theorem patchedTree_finds (h : FindsWidths deps model sids tree target path stored fieldLength) :
    ∃ store xpath, patchedTree deps model sids tree target = do
      let identifier ← checkedReplacement deps model.compositeModel target path stored fieldLength
      let candidate ← orConflict (model.setPath store xpath identifier)
      return candidate.getAll := by
  obtain ⟨store, sid, xpath, current, entryXpath, entry, key, hstore, hsid, hxpath, hpath, hcurrent,
    ⟨wire, hwire, hbytes⟩, hentryXpath, hentry, hkey, hlength⟩ := h
  refine ⟨store, xpath, ?_⟩
  simp only [patchedTree, checkedReplacement, orConflict, inspectionConflict,
    hstore, hsid, hxpath, hpath, hcurrent, hwire, hbytes, hentryXpath, hentry, hkey, hlength,
    Except.mapError, need, ok_bind, bind_assoc, pure_bind]

theorem patchedTree_refused {refusal : PatchFailure}
    (h : RefusesWidth deps model sids tree target refusal) :
    patchedTree deps model sids tree target = .error refusal := by
  cases h with
  | nonNumeric hfinds =>
    obtain ⟨store, xpath, hpatched⟩ := patchedTree_finds hfinds
    rw [hpatched]
    rfl
  | stored hfinds hstored =>
    obtain ⟨store, xpath, hpatched⟩ := patchedTree_finds hfinds
    rw [hpatched, checkedReplacement]
    simp only [need, ok_bind, ensure, hstored]
    rfl
  | width hfinds hstored hreplaces hwidth =>
    obtain ⟨store, xpath, hpatched⟩ := patchedTree_finds hfinds
    obtain ⟨identifier, hidentifier, wire, hwire, hbytes⟩ := hreplaces
    rw [hpatched, checkedReplacement]
    simp only [need, ok_bind, ensure, hstored, if_true, hidentifier, hwire, hbytes, orConflict,
      inspectionConflict, Except.mapError, decide_eq_false hwidth]
    rfl
  | field hfinds hstored hreplaces hwidth hfield =>
    obtain ⟨store, xpath, hpatched⟩ := patchedTree_finds hfinds
    obtain ⟨identifier, hidentifier, wire, hwire, hbytes⟩ := hreplaces
    rw [hpatched, checkedReplacement]
    simp only [need, ok_bind, ensure, hstored, if_true, hidentifier, hwire, hbytes, orConflict,
      inspectionConflict, Except.mapError, decide_eq_true hwidth, hfield]
    rfl

/-- The device refuses a datagram for a width: it gets as far as the checks, and one of them
fails. -/
def WidthRefused (deps : Deps) (service : InspectionService)
    (state : BackendState) (datagram : Bytes) (refusal : PatchFailure) : Prop :=
  ∃ packet request ifMatch sids target, deps.coap.fromBytes datagram = .ok packet ∧
    deps.rustconf.packetToRequest packet "schc" = .ok request ∧
    parseIfMatchOption packet = .ok ifMatch ∧
    decodeTargetPatch deps service.model request = .ok (sids, target) ∧
    checkTargetRule state.active.snapshot ifMatch target = .ok () ∧
    RefusesWidth deps service.model sids state.active.snapshot.data.tree target refusal

theorem WidthRefused.answered {service : InspectionService} {state : BackendState}
    (h : WidthRefused deps service state datagram refusal)
    (hpacket : deps.coap.fromBytes datagram = .ok packet)
    (hcode : packet.code = .request .iPatch)
    (hformat : (packet.getOption CoapOption.contentFormat).isSome = true) :
    service.handleDatagram deps state datagram =
      { result := some (patchFailureResponse deps packet refusal), state } := by
  obtain ⟨_, request, ifMatch, sids, target, hread, hrequest, hifMatch,
    hdecode, hcheck, hrefuses⟩ := h
  cases hpacket.symm.trans hread
  have hcandidate :
      targetCandidate deps service.model state.active ifMatch sids target = .error refusal := by
    simp only [targetCandidate, hcheck, patchedTree_refused hrefuses, ok_bind]
    rfl
  have happlied : applyTargetIpatch deps service.model state.active request ifMatch =
      { result := some (.error refusal), state := state.active } := by
    simp only [applyTargetIpatch, hdecode, ok_bind, hcandidate]
    rfl
  have hshape : isDuplicateRuleCoapShape packet = false := by
    simp [isDuplicateRuleCoapShape, hcode]
  have hnone : (packet.getOption CoapOption.contentFormat).isNone = false := by
    simpa [Option.isSome_iff_ne_none] using hformat
  simp only [InspectionService.handleDatagram, hpacket, hshape, hcode, hnone,
    Bool.and_false, Bool.false_and, InspectionService.handleTargetIpatch,
    hrequest, hifMatch, happlied]
  rfl

-- ---------------------------------------------------------------------------
-- What is known of the crates
-- ---------------------------------------------------------------------------

def ipatchRequest (rustconf : Rustconf) (payload : Bytes) : Request where
  method := .iPatch
  path := ""
  interface := some .management
  contentFormat := some .yangInstancesCborSeq
  rawContentFormat := some (rustconf.asU16 .yangInstancesCborSeq)
  payload

/-- rustconf and ciborium carry an update: a path grows by the deltas that are pushed, the
iPATCH is a management request with this payload, its one instance is read back as it was
written, and the bytes of a target value keep their value in a tree. -/
structure CarriesUpdates (deps : Deps) (sidJson : String) : Prop where
  pushed : ∀ {path path' delta}, deps.rustconf.pushDelta path delta = .ok path' →
    path'.components = path.components ++ [.sidDelta delta]
  sid : ∀ {path sid}, path.absoluteSids.getLast? = some sid →
    deps.rustconf.absoluteSid path = some sid
  request : ∀ {messageId payload},
    deps.rustconf.packetToRequest (ipatchPacket deps.coap messageId none payload) "schc" =
      .ok (ipatchRequest deps.rustconf payload)
  instances : ∀ {model sids path entry index bytes payload},
    deps.rustconf.coreconfModel sidJson = .ok model →
    path.components = targetComponents sids entry index →
    deps.ciborium.intoWriter
        (.map [(serdeValueToCbor (deps.rustconf.pathToCborValue path), .bytes bytes)]) =
          .ok payload →
      payload ≠ [] ∧ model.compositeModel.decodeInstancesWithModel payload =
        .ok [{ path, value := some (.array (bytes.map fun byte => .ofNat byte.toNat)) }]
  values : ∀ {model bytes identifier}, deps.rustconf.coreconfModel sidJson = .ok model →
    model.compositeModel.sidValueToIdentifierValueAtPath
        (.array (bytes.map fun byte => .ofNat byte.toNat)) targetValueName = .ok identifier →
      TargetBytes model.compositeModel targetValueName identifier bytes

/-- rustconf opens a tree, finds in it the paths of a leaf and of its entry, and reads them. -/
def FindsLeaf (model : CoreconfModel) (tree : Json) (address : LeafAddress) : Prop :=
  ∃ store xpath found entryXpath foundEntry, model.withData tree = .ok store ∧
    (∀ {sid}, model.compositeModel.getSid address.leaf.path = some sid →
      model.createXpath store sid address.keys = .ok xpath) ∧
    model.getPath store xpath = .ok found ∧
    (∀ {sid}, model.compositeModel.getSid "/ietf-schc:schc/rule/entry-universal" = some sid →
      model.createXpath store sid address.entry.keys = .ok entryXpath) ∧
    model.getPath store entryXpath = .ok foundEntry

/-- The schema path of a leaf's XPath is the path its SID is of. -/
def NamesLeaves (deps : Deps) (sidJson : String) : Prop :=
  ∀ {model store sid keys xpath address}, deps.rustconf.coreconfModel sidJson = .ok model →
    model.createXpath store sid keys = .ok xpath →
    LeafAddress.NamedBy address model.compositeModel sid keys →
      deps.rustconf.predicatePath xpath = .ok address.leaf.path

-- ---------------------------------------------------------------------------
-- The update at the device
-- ---------------------------------------------------------------------------

/-- The field length of an entry is a number, and its stored target value fits it. -/
def StoredFits (model : CompositeModel) (address : EntryAddress) (tree : Json) : Prop :=
  ∃ entry fieldLength index current stored, address.read tree = some entry ∧
    (entry.get "field-length").bind Json.asU64 = some fieldLength ∧
    (targetAddress address index).read tree = some current ∧
    TargetBytes model targetValueName current stored ∧
    binaryFitsFieldLength stored fieldLength = true

theorem TargetBytes.unique (h : TargetBytes model path value bytes)
    (h' : TargetBytes model path value bytes') : bytes = bytes' := by
  obtain ⟨wire, hwire, hbytes⟩ := h
  obtain ⟨wire', hwire', hbytes'⟩ := h'
  cases hwire.symm.trans hwire'
  exact Except.ok.inj (hbytes.symm.trans hbytes')

theorem targetValuePath_ok (hpushed : ∀ {path path' delta},
    deps.rustconf.pushDelta path delta = .ok path' →
      path'.components = path.components ++ [PathComponent.sidDelta delta])
    (h : targetValuePath deps sids rule entryIndex index = .ok path) :
    path.components = targetComponents sids ⟨rule, entryIndex⟩ index := by
  simp only [targetValuePath, pushSid, bind_ok, mapError_ok] at h
  obtain ⟨_, hroot, _, hrule, _, hentry, _, htarget, hleaf⟩ := h
  rw [hpushed hleaf, InstancePath.pushKey, hpushed htarget, InstancePath.pushKey, hpushed hentry,
    InstancePath.pushKey, InstancePath.pushKey, hpushed hrule, hpushed hroot]
  simp [targetComponents]

theorem EntryAddress.index_lt {address : EntryAddress} (h : address.read tree = some entry) :
    address.entryIndex < 2 ^ 64 := by
  simp only [EntryAddress.read, Option.bind_eq_bind] at h
  obtain ⟨_, -, h⟩ := Option.bind_eq_some_iff.mp h
  obtain ⟨_, -, h⟩ := Option.bind_eq_some_iff.mp h
  obtain ⟨_, -, hnumber⟩ := Option.bind_eq_some_iff.mp
    (of_decide_eq_true (EntryAddress.index_of_readRule h))
  exact Json.asU64_lt hnumber

section
variable {recipe : ContextRecipe} {data : ContextData} {request : RuleUpdateRequest}
  {update : ResolvedRuleUpdate} {sids : ModelSids} {entry current : Json}
  {stored : Bytes} {model : CoreconfModel}

theorem ContextData.Derived.loaded_of_read {address : EntryAddress}
    (hstated : LoadsStatedRules deps recipe.sidJson)
    (hexplicit : LoadsExplicit deps recipe.sidJson) (hderived : data.Derived deps recipe)
    (h : address.read data.tree = some entry) :
    data.rules.any (·.id = address.rule.ruleId) = true ∧ address.rule.ruleId.Explicit := by
  obtain ⟨rule, hfind⟩ := RuleKeys.find_of_read h
  obtain ⟨rules, hrules, hfind⟩ := Option.bind_eq_some_iff.mp hfind
  have hmem := List.mem_of_find?_eq_some hfind
  have hselects := List.find?_some hfind
  obtain ⟨model, hmodel, hencoded⟩ := hderived.encoded
  obtain ⟨registry, context, hregistry, hcontext, hloaded, -⟩ := hderived.full
  obtain ⟨members, hmembers, hall⟩ := hstated.stated hmodel hregistry hencoded hcontext
  cases hrules.symm.trans hmembers
  obtain ⟨loaded, hin, hsame⟩ := forall₂_mem_left hall hmem
  have hid : loaded.id = address.rule.ruleId :=
    congrArg RuleSelector.ruleId (RuleKeys.selects_unique hsame hselects)
  rw [hloaded]
  exact ⟨List.any_eq_true.mpr ⟨loaded, hin, decide_eq_true hid⟩,
    hid ▸ hexplicit hregistry hcontext loaded hin⟩

theorem patchKey_ofNat {n : Nat} (h : n < 2 ^ 64) :
    patchKey (some (.keyValue (.ofNat n))) name = .ok n := by
  simp only [patchKey, Json.asU64_ofNat h]
  rfl

theorem patchDelta_self : patchDelta (some (.sidDelta delta)) delta missing wrong = .ok () :=
  ensure_ok.mpr (decide_eq_true rfl)

theorem patchRoot_components {address : EntryAddress} :
    patchRoot (targetComponents sids address index) sids = .ok () :=
  ensure_ok.mpr (Bool.and_eq_true_iff.mpr ⟨decide_eq_true rfl, decide_eq_true rfl⟩)

/-- The device decodes the payload of an update as the target that the core resolved. -/
theorem Resolves.decoded (carries : CarriesUpdates deps sidJson)
    (hmodel : deps.rustconf.coreconfModel sidJson = .ok model)
    (h : Resolves deps model.compositeModel request ⟨request.rule, entryIndex⟩ tree
      update sids entry current stored) (hexplicit : request.rule.ruleId.Explicit)
    (hpayload : update.ipatchPayload deps = .ok payload) :
    decodeTargetPatch deps model (ipatchRequest deps.rustconf payload) =
      .ok (sids, { selector := request.rule, path := update.path, value := update.value }) := by
  obtain ⟨length, number, hlength, hwritable, hvalue⟩ := h.value
  obtain ⟨member, -, hindex⟩ := h.member
  obtain ⟨_, -, hnumber⟩ := Option.bind_eq_some_iff.mp hindex
  have hpath := targetValuePath_ok carries.pushed h.path
  simp only [ResolvedRuleUpdate.ipatchPayload, hvalue, binaryBytes_array, ok_bind,
    mapError_ok] at hpayload
  obtain ⟨hnonempty, hinstances⟩ := carries.instances hmodel hpath hpayload
  have hbound : request.rule.value < 2 ^ 64 := by
    obtain ⟨hpos, hle, hlt⟩ := hexplicit
    exact hlt.trans_le (Nat.pow_le_pow_right (by decide) (hle.trans (by decide)))
  have hbits : request.rule.bits < 2 ^ 64 := hexplicit.2.1.trans_lt (by decide)
  have hnew : RuleSelector.new request.rule.value request.rule.bits = .ok request.rule :=
    RuleSelector.new_explicit hexplicit
  have htarget : targetPatchFromInstance deps
      { path := update.path, value := some update.value } sids =
      .ok { selector := request.rule, path := update.path, value := update.value } := by
    simp only [targetPatchFromInstance, hpath, bind_ok, ensure_ok, mapError_ok, need_ok, pure_ok]
    exact ⟨(), rfl, (), patchRoot_components, _, patchKey_ofNat hbound, _,
      patchKey_ofNat hbits, _, hnew, (), patchDelta_self, _,
      patchKey_ofNat (EntryAddress.index_lt h.found), (), patchDelta_self, _,
      patchKey_ofNat (Json.asU64_lt hnumber), (), patchDelta_self, _, h.path, (),
      decide_eq_true rfl, _, rfl, rfl⟩
  have hempty : payload.isEmpty = false := by simpa using hnonempty
  rw [hvalue] at htarget ⊢
  simp [decodeTargetPatch, ipatchRequest, ensure, hempty, h.shape, hinstances, htarget,
    Except.mapError, bind, Except.bind, pure, Except.pure]

theorem Resolves.found_eq {target : TargetPatch} {name : String} {bytes : Bytes}
    {fieldLength : Option Nat} (carries : CarriesUpdates deps sidJson)
    (stores : SetsLeaves deps sidJson put) (reads : ReadsLeaves deps sidJson)
    (names : NamesLeaves deps sidJson) (hmodel : deps.rustconf.coreconfModel sidJson = .ok model)
    (h : Resolves deps model.compositeModel request ⟨request.rule, entryIndex⟩ tree
      update sids entry current stored) (hpath : target.path = update.path)
    (hfinds : FindsWidths deps model sids tree target name bytes fieldLength) :
    name = targetValueName ∧ bytes = stored ∧ fieldLength =
      (entry.get "field-length").bind Json.asU64 := by
  obtain ⟨store, sid, xpath, found, entryXpath, foundEntry, key, hstore, hsid, hxpath,
    hschema, hfound, hbytes, hentryXpath, hentry, hkey, rfl⟩ := hfinds
  have hcomponents := targetValuePath_ok carries.pushed h.path
  rw [hpath] at hsid hxpath hentryXpath
  have hsids := validateUpdateModelShape_ok h.shape
  obtain ⟨-, -, -, -, hentrySid, -, hfield, -⟩ := ModelSids.resolve_ok hsids
  have hnamed := stores.target_namedBy hsids hcomponents hsid
  have htree := stores.tree hmodel hstore
  have hleaf := reads.leaf hmodel hxpath hnamed hfound
  have hkeys : EntryAddress.keys ⟨request.rule, entryIndex⟩ = update.path.keys.take 3 := by
    rw [targetComponents_keys hcomponents]
    rfl
  have hread := reads.entry hmodel hentryXpath hentrySid hkeys hentry
  rw [htree] at hleaf hread
  cases hleaf.trans h.read
  cases hread.trans h.found
  cases hschema.symm.trans (names hmodel hxpath hnamed)
  refine ⟨rfl, TargetBytes.unique hbytes h.bytes, ?_⟩
  rw [treeKey_of_name (stores.names hmodel) hfield hkey]
  simp [lastSegment]

theorem Resolves.findsWidths {target : TargetPatch} (carries : CarriesUpdates deps sidJson)
    (stores : SetsLeaves deps sidJson put) (reads : ReadsLeaves deps sidJson)
    (names : NamesLeaves deps sidJson) (hmodel : deps.rustconf.coreconfModel sidJson = .ok model)
    (h : Resolves deps model.compositeModel request ⟨request.rule, entryIndex⟩ tree
      update sids entry current stored) (hpath : target.path = update.path)
    (hfinds : FindsLeaf model tree
      (targetAddress ⟨request.rule, entryIndex⟩ update.targetValueIndex)) :
    FindsWidths deps model sids tree target targetValueName stored
      ((entry.get "field-length").bind Json.asU64) := by
  obtain ⟨store, xpath, found, entryXpath, foundEntry, hstore, hxpath, hfound,
    hentryXpath, hentry⟩ := hfinds
  have hcomponents := targetValuePath_ok carries.pushed h.path
  have hsids := validateUpdateModelShape_ok h.shape
  obtain ⟨-, -, -, -, hentrySid, -, hfield, -, -, hleaf, -⟩ := ModelSids.resolve_ok hsids
  have hsid := carries.sid (targetComponents_sid hcomponents)
  have hnamed := stores.target_namedBy hsids hcomponents hsid
  have hkeys := targetComponents_keys hcomponents
  have htree := stores.tree hmodel hstore
  have hpathXpath := hxpath hleaf
  rw [← hkeys] at hpathXpath
  have hread := reads.leaf hmodel hpathXpath hnamed hfound
  have hreadEntry := reads.entry hmodel (hentryXpath hentrySid) hentrySid rfl hentry
  rw [htree, h.read] at hread
  rw [htree] at hreadEntry
  cases hread
  cases hreadEntry.trans h.found
  have hkey : treeKeyForSid model.compositeModel sids.fieldLength = .ok "field-length" := by
    simp [treeKeyForSid, stores.names hmodel hfield, need, ensure, lastSegment]
    rfl
  refine ⟨store, _, xpath, current, entryXpath, entry, "field-length", hstore,
    hpath ▸ hsid, hpath ▸ hpathXpath, names hmodel hpathXpath hnamed, hfound,
    h.bytes, ?_, hentry, hkey, rfl⟩
  rw [hpath, hkeys]
  exact hentryXpath hentrySid

theorem Resolves.not_refused {target : TargetPatch} (carries : CarriesUpdates deps sidJson)
    (stores : SetsLeaves deps sidJson put) (reads : ReadsLeaves deps sidJson)
    (names : NamesLeaves deps sidJson) (hmodel : deps.rustconf.coreconfModel sidJson = .ok model)
    (h : Resolves deps model.compositeModel request ⟨request.rule, entryIndex⟩ tree
      update sids entry current stored) (hpath : target.path = update.path)
        (hvalue : target.value = update.value)
    (hlength : (entry.get "field-length").bind Json.asU64 = some fieldLength)
    (hfits : binaryFitsFieldLength stored fieldLength = true) {refusal : PatchFailure} :
    ¬RefusesWidth deps model sids tree target refusal := by
  obtain ⟨length, number, hget, hwritable, hbytes⟩ := h.value
  obtain ⟨hpos, hwide, -⟩ := binaryFitsFieldLength_iff.mp hfits
  have hfound {name : String} {bytes : Bytes} {found : Option Nat}
      (hfinds : FindsWidths deps model sids tree target name bytes found) :
      name = targetValueName ∧ bytes = stored ∧ found = some fieldLength := by
    obtain ⟨hname, hstored, hfield⟩ := h.found_eq carries stores reads names hmodel hpath hfinds
    exact ⟨hname, hstored, hfield.trans hlength⟩
  have hreplaced {bytes : Bytes} (hreplaces : Replaces model.compositeModel target
      targetValueName bytes) : bytes = bigEndian stored.length number := by
    obtain ⟨identifier, hidentifier, htarget⟩ := hreplaces
    rw [hvalue, hbytes] at hidentifier
    exact htarget.unique (carries.values hmodel hidentifier)
  intro hrefuses
  cases hrefuses with
  | nonNumeric hfinds =>
    obtain ⟨-, -, hnone⟩ := hfound hfinds
    cases hnone
  | stored hfinds hrefused =>
    obtain ⟨-, rfl, hsome⟩ := hfound hfinds
    cases hsome
    simp [hfits, Nat.pos_iff_ne_zero.mp hpos] at hrefused
  | width hfinds _ hreplaces hwidth =>
    obtain ⟨rfl, rfl, -⟩ := hfound hfinds
    rw [hreplaced hreplaces, length_bigEndian] at hwidth
    exact hwidth rfl
  | field hfinds _ hreplaces _ hrefused =>
    obtain ⟨rfl, -, hsome⟩ := hfound hfinds
    cases hsome
    rw [hreplaced hreplaces] at hrefused
    have hnumber : binaryFitsFieldLength (bigEndian stored.length number) fieldLength = true := by
      rw [binaryFitsFieldLength_iff, length_bigEndian, toNat_bigEndian hwritable.width]
      rw [hget] at hlength
      exact ⟨hpos, hwide, (hwritable.field fieldLength hlength).2⟩
    rw [hnumber] at hrefused
    cases hrefused

theorem Resolves.refused {target : TargetPatch}
    (h : Resolves deps model.compositeModel request ⟨request.rule, entryIndex⟩ tree
      update sids entry current stored)
    (hfinds : FindsWidths deps model sids tree target targetValueName stored
      ((entry.get "field-length").bind Json.asU64))
    (hunfit : ¬StoredFits model.compositeModel ⟨request.rule, entryIndex⟩ tree) :
    ∃ refusal, RefusesWidth deps model sids tree target refusal := by
  cases hlength : (entry.get "field-length").bind Json.asU64 with
  | none =>
    rw [hlength] at hfinds
    exact ⟨_, .nonNumeric hfinds⟩
  | some fieldLength =>
    rw [hlength] at hfinds
    refine ⟨_, .stored hfinds ?_⟩
    cases hfits : binaryFitsFieldLength stored fieldLength with
    | false => rfl
    | true =>
      exact absurd ⟨entry, fieldLength, _, current, stored, h.found, hlength,
        h.read, h.bytes, hfits⟩ hunfit

end

theorem Resolves.stored_of_fits {model : CompositeModel} {address : EntryAddress}
    {request : RuleUpdateRequest} {update : ResolvedRuleUpdate} {sids : ModelSids}
    {entry current : Json} {stored : Bytes}
    (h : Resolves deps model request address tree update sids entry current stored)
    (hfits : StoredFits model address tree) :
    ∃ fieldLength, (entry.get "field-length").bind Json.asU64 = some fieldLength ∧
      binaryFitsFieldLength stored fieldLength = true := by
  obtain ⟨other, fieldLength, index, value, bytes, hother, hlength, hread, hbytes, hfits⟩ := hfits
  cases hother.symm.trans h.found
  obtain ⟨member, hitems, hindex⟩ := h.member
  obtain ⟨found, hfound, hleaf⟩ := Option.bind_eq_some_iff.mp hread
  cases hfound.symm.trans h.found
  obtain ⟨item, hitem, -⟩ := Option.bind_eq_some_iff.mp hleaf
  obtain ⟨items, hlist, hfind⟩ := Option.bind_eq_some_iff.mp hitem
  cases hlist.symm.trans hitems
  have hmember : item = member := List.mem_singleton.mp (List.mem_of_find?_eq_some hfind)
  have hitemIndex := List.find?_some hfind
  have hsame : index = update.targetValueIndex :=
    hasU64_unique hitemIndex (hmember ▸ decide_eq_true hindex)
  cases hsame
  cases hread.symm.trans h.read
  exact ⟨fieldLength, hlength, hbytes.unique h.bytes ▸ hfits⟩

section
variable {recipe : ContextRecipe} {service : InspectionService} {state : BackendState}
  {request : RuleUpdateRequest} {update : ResolvedRuleUpdate}
  {sids : ModelSids} {entry current : Json} {stored : Bytes}

def ResolvedRuleUpdate.target (update : ResolvedRuleUpdate) (rule : RuleSelector) :
    TargetPatch where
  selector := rule
  path := update.path
  value := update.value

theorem Resolves.delivered (htrip : RequestsRoundTrip deps.coap)
    (carries : CarriesUpdates deps recipe.sidJson)
    (hstated : LoadsStatedRules deps recipe.sidJson) (hexplicit : LoadsExplicit deps recipe.sidJson)
    (hreached : Reached deps recipe source prepared state.active)
    (hmodel : deps.rustconf.coreconfModel recipe.sidJson = .ok service.model)
    (h : Resolves deps service.model.compositeModel request ⟨request.rule, entryIndex⟩
      state.active.snapshot.data.tree update sids entry current stored)
    (hid : messageId < 2 ^ 16)
    (hdatagram : update.ipatchDatagram deps messageId none = .ok datagram) :
    state.active.snapshot.data.rules.any (·.id = request.rule.ruleId) = true ∧ ∃ payload,
      deps.coap.fromBytes datagram = .ok (ipatchPacket deps.coap messageId none payload) ∧
      decodeTargetPatch deps service.model (ipatchRequest deps.rustconf payload) =
        .ok (sids, update.target request.rule) := by
  simp only [ResolvedRuleUpdate.ipatchDatagram, bind_ok, mapError_ok] at hdatagram
  obtain ⟨_, -, _, -, payload, hpayload, hwritten⟩ := hdatagram
  have hpacket := htrip.read (ResolvedRuleUpdate.ipatchPacket_serializable htrip.added
    none payload hid) hwritten
  have hderived := hreached.sound.current
  rw [← hreached.sidJson] at hstated hexplicit
  obtain ⟨hloaded, hvalid⟩ := hderived.loaded_of_read hstated hexplicit h.found
  exact ⟨hloaded, payload, hpacket, h.decoded carries hmodel hvalid hpayload⟩

theorem Resolves.widthRefused (htrip : RequestsRoundTrip deps.coap)
    (carries : CarriesUpdates deps recipe.sidJson)
    (hstated : LoadsStatedRules deps recipe.sidJson) (hexplicit : LoadsExplicit deps recipe.sidJson)
    (hreached : Reached deps recipe source prepared state.active)
    (hmodel : deps.rustconf.coreconfModel recipe.sidJson = .ok service.model)
    (h : Resolves deps service.model.compositeModel request ⟨request.rule, entryIndex⟩
      state.active.snapshot.data.tree update sids entry current stored)
    (hid : messageId < 2 ^ 16)
    (hdatagram : update.ipatchDatagram deps messageId none = .ok datagram)
    (hunprotected : ¬state.active.snapshot.data.protectedRules.contains request.rule.ruleId = true)
    (hrefuses : RefusesWidth deps service.model sids state.active.snapshot.data.tree
      (update.target request.rule) refusal) : WidthRefused deps service state datagram refusal := by
  obtain ⟨hloaded, payload, hpacket, hdecode⟩ :=
    h.delivered htrip carries hstated hexplicit hreached hmodel hid hdatagram
  refine ⟨_, _, none, sids, _, hpacket, carries.request,
    ResolvedRuleUpdate.parseIfMatchOption_ipatchPacket htrip.added messageId none
      payload, hdecode, ?_, hrefuses⟩
  simp only [checkTargetRule, bind_ok, ensure_ok]
  exact ⟨(), rfl, (), by simpa [ResolvedRuleUpdate.target] using hunprotected, hloaded⟩

/-- The device refuses an update of the core for no width exactly when the rule is protected, or the
stored value fits a field length that is a number. -/
theorem update_width_exact (htrip : RequestsRoundTrip deps.coap)
    (carries : CarriesUpdates deps recipe.sidJson)
    (stores : SetsLeaves deps recipe.sidJson put) (reads : ReadsLeaves deps recipe.sidJson)
    (names : NamesLeaves deps recipe.sidJson) (hstated : LoadsStatedRules deps recipe.sidJson)
    (hexplicit : LoadsExplicit deps recipe.sidJson)
    (hreached : Reached deps recipe source prepared state.active)
    (hmodel : deps.rustconf.coreconfModel recipe.sidJson = .ok service.model)
    (hresolved : fromRequest deps request entryIndex state.active.snapshot.data.tree
      service.model = .ok update)
    (hfinds : FindsLeaf service.model state.active.snapshot.data.tree
      (targetAddress ⟨request.rule, entryIndex⟩ update.targetValueIndex))
    (hid : messageId < 2 ^ 16)
    (hdatagram : update.ipatchDatagram deps messageId none = .ok datagram) :
    (∀ refusal, ¬WidthRefused deps service state datagram refusal) ↔
      state.active.snapshot.data.protectedRules.contains request.rule.ruleId = true ∨
        StoredFits service.model.compositeModel ⟨request.rule, entryIndex⟩
          state.active.snapshot.data.tree := by
  obtain ⟨sids, entry, current, stored, hresolves⟩ := fromRequest_ok (stores.names hmodel) hresolved
  constructor
  · intro haccepted
    by_contra hfails
    obtain ⟨hunprotected, hunfit⟩ := not_or.mp hfails
    have htarget : (update.target request.rule).path = update.path := rfl
    have hwidths := hresolves.findsWidths carries stores reads names hmodel htarget hfinds
    obtain ⟨refusal, hrefuses⟩ := hresolves.refused hwidths hunfit
    exact haccepted refusal (hresolves.widthRefused htrip carries hstated hexplicit
      hreached hmodel hid hdatagram hunprotected hrefuses)
  · rintro hholds refusal ⟨packet, patch, ifMatch, found, target, hread, hpatch, -,
      hdecoded, hcheck, hrefuses⟩
    obtain ⟨-, payload, hpacket, hdecode⟩ :=
      hresolves.delivered htrip carries hstated hexplicit hreached hmodel hid hdatagram
    cases hpacket.symm.trans hread
    cases carries.request.symm.trans hpatch
    cases hdecode.symm.trans hdecoded
    rcases hholds with hprotected | hfits
    · simp only [checkTargetRule, bind_ok, ensure_ok, ResolvedRuleUpdate.target] at hcheck
      obtain ⟨_, -, _, hunprotected, -⟩ := hcheck
      rw [hprotected] at hunprotected
      cases hunprotected
    · obtain ⟨fieldLength, hlength, hstored⟩ := hresolves.stored_of_fits hfits
      exact hresolves.not_refused carries stores reads names hmodel rfl rfl hlength hstored hrefuses

end

section
open Fixture

theorem targetBytes_text {world : World} (bytes : Bytes) :
    TargetBytes (compositeModel world) path (.string (base64Text bytes)) bytes := by
  refine ⟨.array (bytes.map fun byte => .ofNat byte.toNat), ?_, binaryBytes_array bytes⟩
  show toSidValue (.string (base64EncodeText bytes)) = _
  rw [toSidValue, base64Decode_ok.mpr (text_eq_iff.mp rfl)]
  rfl

theorem carriesUpdates {world : World} (h : world.Checked) :
    CarriesUpdates (deps world) sidText where
  pushed hpushed := by
    cases hpushed
    rfl
  sid hsid := hsid
  request := rfl
  instances {_ _ path _ _ bytes _} hmodel hcomponents hwritten := by
    cases coreconfModel_ok hmodel
    obtain ⟨components⟩ := path
    cases hcomponents
    obtain ⟨hdocument, rfl⟩ := intoWriter_ok hwritten
    refine ⟨?_, ?_⟩
    · intro hempty
      simp [cborBytes, cborHead] at hempty
    · show decodeInstances world sidInstances _ = _
      simp only [decodeInstances, h.fromReader hdocument, ok_bind]
      rfl
  values {_ bytes _} hmodel hidentifier := by
    cases coreconfModel_ok hmodel
    have htext : toIdentifierValue (.array (bytes.map fun byte => .ofNat byte.toNat)) =
        .ok (.string (base64EncodeText bytes)) := by
      simp only [toIdentifierValue, binaryBytes_array]
      rfl
    cases htext.symm.trans hidentifier
    exact targetBytes_text bytes

theorem namesLeaves {world : World} : NamesLeaves (deps world) sidText := by
  intro model store sid keys xpath address hmodel hxpath hnamed
  cases coreconfModel_ok hmodel
  obtain ⟨hmem, rfl⟩ := createXpath_named hnamed hxpath
  have hall : ∀ other ∈ leaves, String.ofList
      (dropPredicates false (leafXpath other).toList) = other.leaf.path := by
    decide +kernel
  exact congrArg Except.ok (hall address hmem)

theorem entries_leaves :
    ∀ left ∈ leaves, ∀ right ∈ leaves, left.entry = right.entry → left = right := by
  decide

theorem createXpath_mem {address : LeafAddress} (hmem : address ∈ leaves) :
    createXpath 2857 address.keys = .ok (leafXpath address) ∧
      createXpath 2846 address.entry.keys = .ok (entryXpath address.entry) := by
  have hkeys : address.keys = address.entry.keys ++ [.ofNat 0] := by
    rw [LeafAddress.keys, leaf_target address hmem]
  have hentry :
      leaves.find? (fun other => decide (other.entry.keys = address.entry.keys)) = some address :=
    find?_by hmem fun other hother h => entries_leaves other hother address hmem (keys_injective h)
  have hleaf : leaves.find? (fun other =>
    decide (other.entry.keys ++ [.ofNat 0] = address.entry.keys ++ [.ofNat 0])) =
      some address :=
    find?_by hmem fun other hother h =>
      entries_leaves other hother address hmem (keys_injective (List.append_cancel_right h))
  constructor
  · rw [createXpath, if_neg (by decide), if_pos rfl, hkeys, hleaf]
    rfl
  · rw [createXpath, if_pos rfl, hentry]
    rfl

theorem findsLeaf {world : World} {address : LeafAddress} (hmem : address ∈ leaves) (tree : Json) :
    FindsLeaf (coreconfModel world) tree address := by
  refine ⟨{ tree }, leafXpath address, _, entryXpath address.entry, _, rfl, ?_,
    getPath_leaf hmem tree, ?_, getPath_entry hmem tree⟩
  · intro sid hsid
    rw [leaf_target address hmem] at hsid
    cases (sids_leaf (.target 0)).symm.trans hsid
    exact (createXpath_mem hmem).1
  · intro sid hsid
    cases getSid_entry.symm.trans hsid
    exact (createXpath_mem hmem).2

theorem storedFits_before : StoredFits (compositeModel updateWorld) ⟨{ value := 20, bits := 8 }, 9⟩
    (tree rulesBefore) :=
  ⟨entryJson (entry 9 (.ipv6 "fid-ipv6-appiid") (.fixedBits 64) (some (iidBytes 5))), 64, 0,
    .string (base64Text (iidBytes 5)), iidBytes 5, rfl, rfl, rfl,
    targetBytes_text _, by decide +kernel⟩

theorem update_evaluated : holds (loaded updateWorld rulesBefore) (fun prepared =>
    prepared.data.tree = tree rulesBefore &&
      holds (fromRequest (deps updateWorld) (plannedUpdate false).request 9 prepared.data.tree
        (coreconfModel updateWorld)) (· = plannedUpdate false)) = true := by
  decide +kernel

theorem update_width_exact_fits : ∃ prepared, loaded updateWorld rulesBefore = .ok prepared ∧
    ∀ refusal, ¬WidthRefused (deps updateWorld) (service updateWorld)
      (start prepared) patchDatagram refusal := by
  obtain ⟨prepared, hprepared, h⟩ := holds_iff.mp update_evaluated
  obtain ⟨htree, hresolved⟩ := Bool.and_eq_true_iff.mp h
  obtain ⟨update, hresolved, hupdate⟩ := holds_iff.mp hresolved
  cases of_decide_eq_true hupdate
  obtain ⟨_, hwritten, h⟩ := holds_iff.mp written_evaluated
  cases hprepared.symm.trans hwritten
  obtain ⟨datagram, hdatagram, hsame⟩ := holds_iff.mp (Bool.and_eq_true_iff.mp h).2
  cases of_decide_eq_true hsame
  have hreached : Reached (deps updateWorld) recipe (.sor (sorBytes rulesBefore)) prepared
      (start prepared).active := Reached.of_loaded hprepared []
  refine ⟨prepared, hprepared, (update_width_exact requestsRoundTrip
    (carriesUpdates updateWorld_checked) setsLeaves readsLeaves namesLeaves
      (loadsStatedRules updateWorld_checked) (loadsExplicit updateWorld_checked)
    hreached rfl hresolved (findsLeaf (.head _) _) (by decide) (mapError_ok.mp hdatagram)).mpr
      (.inr ?_)⟩
  show StoredFits _ _ prepared.data.tree
  rw [of_decide_eq_true htree]
  exact storedFits_before

/-- A rule with a target value in a field whose length is not a number. -/
def remainingRule : Rule where
  id := { value := 20, bitLen := 8 }
  nature := .compression
  fields := [entry 9 .payload .remaining (some [1])]

def remainingRules : List Rule := [remainingRule, management]

def remainingPatch : Cbor :=
  .map [(.array ([2800, 23, 20, 8, 23, 9, 9, 0, 2].map .integer), .bytes [2])]

def remainingWorld : World where
  complete := [remainingRules]
  digests := [
    ⟨#[215, 32, 251, 18, 19, 95, 155, 223, 204, 81, 250, 222, 45, 206, 202,
      100, 141, 13, 199, 144, 83, 15, 169, 131, 53, 90, 60, 228, 239, 221, 75, 183], rfl⟩]
  requests := [remainingPatch]

theorem remainingWorld_checked : remainingWorld.Checked :=
  .of_checks (by decide +kernel) (by decide +kernel) (by decide +kernel) (by decide +kernel)

def remainingRequest : RuleUpdateRequest where
  rule := { value := 20, bits := 8 }
  entry := .entry 9
  targetValue := "2"
  ifMatch := false

theorem remaining_evaluated : holds (loaded remainingWorld remainingRules) (fun prepared =>
    prepared.data.tree = tree remainingRules &&
      !prepared.data.protectedRules.contains remainingRequest.rule.ruleId &&
      holds (fromRequest (deps remainingWorld) remainingRequest 9 prepared.data.tree
        (coreconfModel remainingWorld)) (fun update => update.targetValueIndex = 0 &&
          holds (update.ipatchDatagram (deps remainingWorld) 0 none) fun _ => true)) = true := by
  decide +kernel

/-- The core resolves an update in a field whose length is not a number; the device refuses it. -/
theorem remaining_length_refused : ∃ prepared update datagram,
    loaded remainingWorld remainingRules = .ok prepared ∧
    fromRequest (deps remainingWorld) remainingRequest 9 (start prepared).active.snapshot.data.tree
      (service remainingWorld).model = .ok update ∧
    update.ipatchDatagram (deps remainingWorld) 0 none = .ok datagram ∧
    WidthRefused (deps remainingWorld) (service remainingWorld) (start prepared) datagram
      (.conflict "target entry has no numeric field-length") := by
  obtain ⟨prepared, hprepared, h⟩ := holds_iff.mp remaining_evaluated
  obtain ⟨h, hresolved⟩ := Bool.and_eq_true_iff.mp h
  obtain ⟨htree, hunprotected⟩ := Bool.and_eq_true_iff.mp h
  obtain ⟨update, hresolved, h⟩ := holds_iff.mp hresolved
  obtain ⟨hindex, hwritten⟩ := Bool.and_eq_true_iff.mp h
  obtain ⟨datagram, hdatagram, -⟩ := holds_iff.mp hwritten
  have hreached : Reached (deps remainingWorld) recipe (.sor (sorBytes remainingRules)) prepared
      (start prepared).active := Reached.of_loaded hprepared []
  obtain ⟨sids, found, current, stored, hresolves⟩ := fromRequest_ok sidNames hresolved
  have hleaf : targetAddress ⟨remainingRequest.rule, 9⟩ update.targetValueIndex ∈ leaves := by
    rw [of_decide_eq_true hindex]
    exact .head _
  have htarget : (update.target remainingRequest.rule).path = update.path := rfl
  have hwidths := hresolves.findsWidths
    (carriesUpdates remainingWorld_checked) setsLeaves readsLeaves
    namesLeaves rfl htarget (findsLeaf hleaf _)
  have hlength : (found.get "field-length").bind Json.asU64 = none := by
    have hfound := hresolves.found
    rw [of_decide_eq_true htree] at hfound
    cases hfound
    rfl
  rw [hlength] at hwidths
  refine ⟨prepared, update, datagram, hprepared, hresolved, hdatagram, ?_⟩
  exact hresolves.widthRefused requestsRoundTrip (carriesUpdates remainingWorld_checked)
    (loadsStatedRules remainingWorld_checked) (loadsExplicit remainingWorld_checked) hreached
      rfl (by decide) hdatagram
    (Bool.eq_false_iff.mp (Bool.not_eq_true' _ ▸ hunprotected)) (.nonNumeric hwidths)

end

end SchcCoreconf
