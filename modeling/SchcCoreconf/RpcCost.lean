import SchcCoreconf.Fixture.Costs
import SchcCoreconf.OverrideSequence
import SchcCoreconf.Report
import SchcCoreconf.TargetWidths

/-!
# The cost of a duplicate-rule request

A report takes the payload of a duplicate-rule request apart a second time. On a
payload the decoder accepts this accounts for every byte: the operation without
overrides, the target values, and the framing of the overrides, whose members are the
decoded instances in their order. Only RuleIDs beyond 32 bits are refused.
-/

namespace SchcCoreconf

open Fallible Items

-- ---------------------------------------------------------------------------
-- rustconf
-- ---------------------------------------------------------------------------

/-- rustconf decodes one instance from each member of a map, in their order: a target
value only from a byte string, and the value of the duplicate-rule operation as the
member states it. SIDs are numbers of 63 bits. -/
structure DecodesMembers (deps : Deps) (sidJson : String)
    (decodeMember : Cbor × Cbor → Option Instance) :
    Prop where
  sids : ∀ {model path sid}, deps.rustconf.coreconfModel sidJson = .ok model →
    model.compositeModel.getSid path = some sid → 0 ≤ sid ∧ sid < 2 ^ 63
  members : ∀ {model entries bytes instances}, deps.rustconf.coreconfModel sidJson = .ok model →
    deps.ciborium.intoWriter (.map entries) = .ok bytes →
    model.compositeModel.decodeInstancesToIdentifierAtPath bytes = .ok instances →
      List.Forall₂ (fun member entry => decodeMember member = some entry) entries instances
  target : ∀ {model member entry sid}, deps.rustconf.coreconfModel sidJson = .ok model →
    decodeMember member = some entry →
    model.compositeModel.getSid "/ietf-schc:schc/rule/entry-universal/target-value/value" =
      some sid →
    entry.path.absoluteSids.getLast? = some sid → ∃ bytes, member.2 = .bytes bytes
  operation : ∀ {model member entry sid value}, deps.rustconf.coreconfModel sidJson = .ok model →
    decodeMember member = some entry →
    model.compositeModel.getSid "/ietf-schc:duplicate-rule" = some sid →
    entry.path.components = [.sidDelta sid] → entry.value = some value →
      (member.1 = .integer sid ∨ member.1 = .array [.integer sid]) ∧
        value.StatedBy model.compositeModel "/ietf-schc:duplicate-rule" member.2

-- ---------------------------------------------------------------------------
-- The operation without overrides
-- ---------------------------------------------------------------------------

def selectorItem (container length value : Int) (selector : RuleSelector) : Cbor :=
  .map [(.integer (length - container), .integer selector.bits),
    (.integer (value - container), .integer selector.value)]

def inputItem (sids : ModelSids) (source destination : RuleSelector) : Cbor :=
  .map [(.integer (sids.duplicateFrom - sids.duplicateInput),
      selectorItem sids.duplicateFrom sids.duplicateFromLength sids.duplicateFromValue source),
    (.integer (sids.duplicateTo - sids.duplicateInput),
      selectorItem sids.duplicateTo sids.duplicateToLength sids.duplicateToValue destination)]

/-- The operation without overrides. -/
def fixedItem (sids : ModelSids) (source destination : RuleSelector) : Cbor :=
  .map [(.integer sids.duplicateRule, .map [(.integer (sids.duplicateInput - sids.duplicateRule),
    inputItem sids source destination)])]

theorem ModelSids.resolve_operation {model : CompositeModel}
    (h : ModelSids.resolve model = .ok sids) :
    model.getSid "/ietf-schc:duplicate-rule" = some sids.duplicateRule ∧
      model.getSid "/ietf-schc:duplicate-rule/input" = some sids.duplicateInput ∧
      model.getSid "/ietf-schc:duplicate-rule/input/from" = some sids.duplicateFrom ∧
      model.getSid "/ietf-schc:duplicate-rule/input/from/rule-id-length" =
        some sids.duplicateFromLength ∧
      model.getSid "/ietf-schc:duplicate-rule/input/from/rule-id-value" =
        some sids.duplicateFromValue ∧
      model.getSid "/ietf-schc:duplicate-rule/input/ipatch-sequence" = some sids.duplicateIpatch ∧
      model.getSid "/ietf-schc:duplicate-rule/input/to" = some sids.duplicateTo ∧
      model.getSid "/ietf-schc:duplicate-rule/input/to/rule-id-length" =
        some sids.duplicateToLength ∧
      model.getSid "/ietf-schc:duplicate-rule/input/to/rule-id-value" =
        some sids.duplicateToValue := by
  simp only [ModelSids.resolve, bind_ok, need_ok, pure_ok] at h
  obtain ⟨_, -, _, -, _, -, _, -, _, -, _, -, _, -, _, -, _, -, _, -, _,
    hrule, _, hinput, _, hfrom, _, hfromLength, _, hfromValue, _, hipatch, _, hto, _, htoLength, _,
      htoValue, _, -, _, -, rfl⟩ := h
  exact ⟨hrule, hinput, hfrom, hfromLength, hfromValue, hipatch, hto, htoLength, htoValue⟩

theorem sidDelta_ok {child parent : Int} (hchild : 0 ≤ child ∧ child < 2 ^ 63)
    (hparent : 0 ≤ parent ∧ parent < 2 ^ 63) (name : String) :
    sidDelta child parent name = .ok (child - parent) := by
  rw [sidDelta, checkedSub, if_pos (by omega)]
  rfl

def NarrowIds (source destination : RuleSelector) : Prop :=
  source.value < 2 ^ 32 ∧ destination.value < 2 ^ 32

theorem encodeFixed_iff {model : CoreconfModel} (laws : DecodesMembers deps sidJson decodeMember)
    (hmodel : deps.rustconf.coreconfModel sidJson = .ok model)
    (hsids : validateDuplicateModelShape model.compositeModel = .ok sids)
    (request : RuleDuplicateRequest) : encodeDuplicateRpcPayload deps model request [] = .ok fixed ↔
      NarrowIds request.source request.destination ∧
        deps.ciborium.intoWriter (fixedItem sids request.source request.destination) =
          .ok fixed := by
  obtain ⟨hrule, hinput, hfrom, hfromLength, hfromValue, hipatch, hto, htoLength, htoValue⟩ :=
    ModelSids.resolve_operation (validateDuplicateModelShape_ok hsids)
  have hfit {path : String} {sid : Int} (h : model.compositeModel.getSid path = some sid) :
      0 ≤ sid ∧ sid < 2 ^ 63 := laws.sids hmodel h
  simp only [encodeDuplicateRpcPayload, hsids, ok_bind, sidDelta_ok (hfit hinput) (hfit hrule),
    sidDelta_ok (hfit hfrom) (hfit hinput), sidDelta_ok (hfit hfromLength) (hfit hfrom),
    sidDelta_ok (hfit hfromValue) (hfit hfrom), sidDelta_ok (hfit hipatch) (hfit hinput),
    sidDelta_ok (hfit hto) (hfit hinput), sidDelta_ok (hfit htoLength) (hfit hto),
    sidDelta_ok (hfit htoValue) (hfit hto), bind_ok, ensure_ok, mapError_ok, Bool.and_eq_true,
    decide_eq_true_eq]
  constructor
  · rintro ⟨_, hnarrow, hwritten⟩
    exact ⟨hnarrow, hwritten⟩
  · rintro ⟨hnarrow, hwritten⟩
    exact ⟨(), hnarrow, hwritten⟩

-- ---------------------------------------------------------------------------
-- What a payload states
-- ---------------------------------------------------------------------------

structure StatesSelector (members : List (String × Json)) (selector : RuleSelector) : Prop where
  length : members.length = 2
  value : Json.lookup members "rule-id-value" = some (.ofNat selector.value)
  bits : Json.lookup members "rule-id-length" = some (.ofNat selector.bits)
  fits : selector.value < 2 ^ 64 ∧ selector.bits ≤ 64

/-- The input of an operation without its sequence, and the sequence. -/
structure StatesInput (input : List (String × Json))
    (source destination : RuleSelector) (sequence : Bytes) :
    Prop where
  source : ∃ members, Json.lookup input "from" = some (.object members) ∧
    StatesSelector members source
  destination : ∃ members, Json.lookup input "to" = some (.object members) ∧
    StatesSelector members destination
  sequence : (Json.lookup input "ipatch-sequence" = none ∧ sequence = []) ∨
    (∃ text, Json.lookup input "ipatch-sequence" = some (.string text) ∧
      text.toUTF8.toList = base64Encode sequence) ∨
    ∃ value, Json.lookup input "ipatch-sequence" = some value ∧ (∀ text, value ≠ .string text) ∧
      binaryBytes value = .ok sequence

theorem Json.asObject_ok {value : Json} (h : value.asObject = some members) :
    value = .object members := by
  cases value <;> cases h
  rfl

theorem rpcSelector_ok {members : List (String × Json)} {label : String}
    {selector stated : RuleSelector} {rschc : RSchc} (h : rpcSelector members label = .ok stated)
    (hnew : (RuleSelector.new stated.value stated.bits).mapError (fun error =>
      invalidDuplicate (error.text rschc)) = .ok selector) : StatesSelector members selector := by
  simp only [rpcSelector, bind_ok, ensure_ok, need_ok, pure_ok,
    Bool.and_eq_true, decide_eq_true_eq] at h
  obtain ⟨_, ⟨⟨hlength, -⟩, -⟩, value, hvalue, bits, hbits, rfl⟩ := h
  obtain ⟨rfl, -, hle⟩ := RuleSelector.new_ok (mapError_ok.mp hnew)
  obtain ⟨_, -, hrange⟩ := Option.bind_eq_some_iff.mp hvalue
  exact ⟨hlength, key_of_asU64 hvalue, key_of_asU64 hbits, Json.asU64_lt hrange, hle⟩

theorem rpcInput_ok {rschc : RSchc} {instances : List Instance} {sequence : Bytes}
    (h : rpcInput rschc sids instances = .ok (source, destination, sequence)) :
    ∃ entry input, instances = [entry] ∧ entry.path.components = [.sidDelta sids.duplicateRule] ∧
      entry.value = some (.object [("input", .object input)]) ∧
      StatesInput input source destination sequence := by
  match instances with
  | [] | _ :: _ :: _ => cases h
  | [entry] =>
    simp only [rpcInput, bind_ok, ensure_ok, need_ok, Bool.and_eq_true, decide_eq_true_eq] at h
    obtain ⟨_, hpath, value, hvalue, operation, hoperation, _, ⟨hlength, -⟩, input, hinput, _, -,
      sourceMembers, hsource, destinationMembers, hdestination, source,
      ⟨_, hsourceSelector, hsourceNew⟩, destination,
      ⟨_, hdestinationSelector, hdestinationNew⟩, hsequence⟩ := h
    obtain ⟨_, hinput, hinputObject⟩ := Option.bind_eq_some_iff.mp hinput
    obtain ⟨_, hsource, hsourceObject⟩ := Option.bind_eq_some_iff.mp hsource
    obtain ⟨_, hdestination, hdestinationObject⟩ := Option.bind_eq_some_iff.mp hdestination
    cases Json.asObject_ok hoperation
    cases Json.asObject_ok hinputObject
    cases Json.asObject_ok hsourceObject
    cases Json.asObject_ok hdestinationObject
    obtain ⟨⟨name, found⟩, rfl⟩ := List.length_eq_one_iff.mp hlength
    have hname : name = "input" ∧ found = .object input := by
      by_cases hname : name = "input"
      · simpa [Json.lookup, hname] using hinput
      · simp [Json.lookup, hname] at hinput
    obtain ⟨rfl, rfl⟩ := hname
    have hsourceStated := rpcSelector_ok hsourceSelector hsourceNew
    have hdestinationStated := rpcSelector_ok hdestinationSelector hdestinationNew
    split at hsequence
    · next hnone =>
      cases hsequence
      exact ⟨entry, input, rfl, hpath, hvalue, ⟨_, hsource, hsourceStated⟩,
        ⟨_, hdestination, hdestinationStated⟩, .inl ⟨hnone, rfl⟩⟩
    · next text htext =>
      simp only [bind_ok, pure_ok, Prod.mk.injEq] at hsequence
      obtain ⟨inner, hinner, rfl, rfl, rfl⟩ := hsequence
      exact ⟨entry, input, rfl, hpath, hvalue, ⟨_, hsource, hsourceStated⟩,
        ⟨_, hdestination, hdestinationStated⟩, .inr (.inl ⟨text, htext, base64Decode_ok.mp hinner⟩)⟩
    · next value hother hsome =>
      simp only [bind_ok, pure_ok, Prod.mk.injEq] at hsequence
      obtain ⟨inner, hinner, rfl, rfl, rfl⟩ := hsequence
      exact ⟨entry, input, rfl, hpath, hvalue, ⟨_, hsource, hsourceStated⟩,
        ⟨_, hdestination, hdestinationStated⟩, .inr (.inr ⟨value, hsome, hother, hinner⟩)⟩

section
variable {model : CompositeModel} {path : String} {members : List (String × Json)} {raw : Cbor}
  {selector source destination : RuleSelector} {sequence : Bytes} {floatSize : UInt64 → Nat}

theorem selectorItem_size_le (hstated : (Json.object members).StatedBy model path raw)
    (hselector : StatesSelector members selector) (hcontainer : model.getSid path = some container)
    (hlength : model.getSid (path ++ "/" ++ "rule-id-length") = some length)
    (hvalue : model.getSid (path ++ "/" ++ "rule-id-value") = some value) :
    (selectorItem container length value selector).size floatSize ≤ raw.size floatSize := by
  rw [Json.StatedBy] at hstated
  obtain ⟨entries, stated, rfl, hperm, hmembers⟩ := hstated
  obtain ⟨_, _, _, hcontainer', hlength', hbitsRaw, hbits⟩ := hmembers.find hselector.bits
  obtain ⟨_, _, _, hcontainer'', hvalue', hvalueRaw, hnumber⟩ := hmembers.find hselector.value
  cases hcontainer.symm.trans hcontainer'
  cases hcontainer.symm.trans hcontainer''
  cases hlength.symm.trans hlength'
  cases hvalue.symm.trans hvalue'
  rw [Json.ofNat, Json.StatedBy] at hbitsRaw hvalueRaw
  subst hbitsRaw hvalueRaw
  have hle := hmembers.size_le hperm floatSize
    [("rule-id-length", .integer (length - container), .integer selector.bits),
      ("rule-id-value", .integer (value - container), .integer selector.value)] (by simp)
    (by simpa using ⟨⟨_, hbits⟩, ⟨_, hnumber⟩⟩)
  rw [selectorItem, Cbor.size, Cbor.size, hperm.length_eq, ← hmembers.length_eq, hselector.length]
  simp only [Cbor.sizeEntries, List.map_cons, List.map_nil, List.sum_cons, List.sum_nil,
    Cbor.entrySize] at hle ⊢
  exact Nat.add_le_add_left hle _

theorem statedBytes_eq {value : Json} (hstated : value.StatedBy model path raw)
    (h : (∃ text, value = .string text ∧ text.toUTF8.toList = base64Encode sequence) ∨
      (∀ text, value ≠ .string text) ∧ binaryBytes value = .ok sequence) : raw =
        .bytes sequence := by
  rcases h with ⟨text, rfl, htext⟩ | ⟨hother, hbytes⟩
  · rw [Json.StatedBy] at hstated
    obtain ⟨bytes, rfl, hsame⟩ := hstated
    cases (base64Decode_ok.mpr htext).symm.trans (base64Decode_ok.mpr hsame)
    rfl
  · cases value with
    | array items =>
      rw [Json.StatedBy] at hstated
      obtain ⟨bytes, rfl, rfl⟩ := hstated
      cases (binaryBytes_array bytes).symm.trans hbytes
      rfl
    | string text => exact absurd rfl (hother text)
    | _ => cases hbytes

theorem inputItem_size_le {input : List (String × Json)}
    (hsids : ModelSids.resolve model = .ok sids)
    (hstated : (Json.object input).StatedBy model "/ietf-schc:duplicate-rule/input" raw)
    (hinput : StatesInput input source destination sequence) :
    (inputItem sids source destination).size floatSize + sequence.length ≤ raw.size floatSize := by
  obtain ⟨-, hinputSid, hfrom, hfromLength, hfromValue, -, hto, htoLength, htoValue⟩ :=
    ModelSids.resolve_operation hsids
  rw [Json.StatedBy] at hstated
  obtain ⟨entries, stated, rfl, hperm, hmembers⟩ := hstated
  obtain ⟨sourceMembers, hsource, hsourceStates⟩ := hinput.source
  obtain ⟨destinationMembers, hdestination, hdestinationStates⟩ := hinput.destination
  obtain ⟨_, _, sourceRaw, hparent, hsid, hsourceRaw, hsourceFind⟩ := hmembers.find hsource
  cases hinputSid.symm.trans hparent
  cases hfrom.symm.trans hsid
  obtain ⟨_, _, destinationRaw, hparent, hsid, hdestinationRaw, hdestinationFind⟩ :=
    hmembers.find hdestination
  cases hinputSid.symm.trans hparent
  cases hto.symm.trans hsid
  have hsourceSize : (selectorItem _ _ _ source).size floatSize ≤ sourceRaw.size floatSize :=
    selectorItem_size_le hsourceRaw hsourceStates hfrom hfromLength hfromValue
  have hdestinationSize :
      (selectorItem _ _ _ destination).size floatSize ≤ destinationRaw.size floatSize :=
    selectorItem_size_le hdestinationRaw hdestinationStates hto htoLength htoValue
  have hhead : headSize (0 + 1 + 1) ≤ headSize entries.length := headSize_pos _
  rw [inputItem, Cbor.size, Cbor.size]
  simp only [Cbor.sizeEntries, List.length_cons, List.length_nil]
  rcases hinput.sequence with ⟨-, rfl⟩ | hsequence
  · have hle := hmembers.size_le hperm floatSize
      [("from", .integer (sids.duplicateFrom - sids.duplicateInput), sourceRaw),
        ("to", .integer (sids.duplicateTo - sids.duplicateInput), destinationRaw)] (by simp)
      (by simpa using ⟨⟨_, hsourceFind⟩, ⟨_, hdestinationFind⟩⟩)
    simp only [List.map_cons, List.map_nil, List.sum_cons, List.sum_nil, Cbor.entrySize] at hle
    rw [List.length_nil]
    omega
  · obtain ⟨value, hlookup, hbytes⟩ : ∃ value, Json.lookup input "ipatch-sequence" = some value ∧
        ((∃ text, value = .string text ∧ text.toUTF8.toList = base64Encode sequence) ∨
          (∀ text, value ≠ .string text) ∧ binaryBytes value = .ok sequence) := by
      rcases hsequence with ⟨text, hlookup, htext⟩ | ⟨value, hlookup, hother, hbytes⟩
      · exact ⟨_, hlookup, .inl ⟨text, rfl, htext⟩⟩
      · exact ⟨value, hlookup, .inr ⟨hother, hbytes⟩⟩
    obtain ⟨_, _, _, -, -, hsequenceRaw, hsequenceFind⟩ := hmembers.find hlookup
    cases statedBytes_eq hsequenceRaw hbytes
    have hle := hmembers.size_le hperm floatSize
      [("from", .integer (sids.duplicateFrom - sids.duplicateInput), sourceRaw),
        ("to", .integer (sids.duplicateTo - sids.duplicateInput), destinationRaw),
        ("ipatch-sequence", _, .bytes sequence)] (by simp)
      (by simpa using ⟨⟨_, hsourceFind⟩, ⟨_, hdestinationFind⟩, ⟨_, hsequenceFind⟩⟩)
    simp only [List.map_cons, List.map_nil, List.sum_cons, List.sum_nil, Cbor.entrySize] at hle
    have hlength : sequence.length ≤ (Cbor.bytes sequence).size floatSize := by
      rw [Cbor.size]
      exact Nat.le_add_left _ _
    omega

end

theorem fixedItem_size_le {model : CoreconfModel} {outer : Cbor} {sequence : Bytes}
    (laws : DecodesMembers deps sidJson decodeMember)
    (hmodel : deps.rustconf.coreconfModel sidJson = .ok model)
    (hsids : validateDuplicateModelShape model.compositeModel = .ok sids)
    (hmap : outer = .map entries) (hwritten : deps.ciborium.intoWriter outer = .ok payload)
    (hstated : statedSequence deps model payload = .ok (source, destination, sequence))
    (floatSize : UInt64 → Nat) :
    (fixedItem sids source destination).size floatSize + sequence.length ≤
      outer.size floatSize := by
  subst hmap
  simp only [statedSequence, hsids, ok_bind, bind_ok, mapError_ok] at hstated
  obtain ⟨instances, hinstances, hinput⟩ := hstated
  obtain ⟨entry, input, rfl, hpath, hvalue, hstates⟩ := rpcInput_ok hinput
  obtain ⟨hrule, hinputSid, -⟩ := ModelSids.resolve_operation (validateDuplicateModelShape_ok hsids)
  have hmembers := laws.members hmodel hwritten hinstances
  obtain ⟨⟨key, operationRaw⟩, rfl, hmember⟩ : ∃ member, entries = [member] ∧
    decodeMember member = some entry := by
    cases hmembers with
    | cons hmember hrest =>
      cases hrest
      exact ⟨_, rfl, hmember⟩
  obtain ⟨hkey, hraw⟩ := laws.operation hmodel hmember hrule hpath hvalue
  rw [Json.StatedBy] at hraw
  obtain ⟨operation, stated, hmap, hperm, hraw⟩ := hraw
  simp only [Json.MembersStatedBy] at hraw
  obtain ⟨parent, sid, raw, _, hparent, hsid, rfl, hinputRaw, rfl⟩ := hraw
  cases hrule.symm.trans hparent
  cases hinputSid.symm.trans hsid
  rw [List.perm_singleton] at hperm
  subst hperm
  dsimp only at hkey hmap
  subst hmap
  have hkeySize : (Cbor.integer sids.duplicateRule).size floatSize ≤ key.size floatSize := by
    rcases hkey with rfl | rfl
    · exact le_rfl
    · rw [Cbor.size, Cbor.size, Cbor.sizeItems, Cbor.sizeItems, Cbor.size]
      omega
  have hle :
      (inputItem sids source destination).size floatSize + sequence.length ≤ raw.size floatSize :=
    inputItem_size_le (validateDuplicateModelShape_ok hsids) hinputRaw hstates
  simp only [fixedItem, Cbor.size, Cbor.sizeEntries, List.length_singleton] at hkeySize ⊢
  omega

-- ---------------------------------------------------------------------------
-- Groups of overrides
-- ---------------------------------------------------------------------------

/-- A member of the framing, the instance it is decoded as and the leaf that names. -/
structure ChargedMember where
  member : Cbor × Cbor
  entry : Instance
  item : Nat × DuplicateLeaf

namespace ChargedMember

def label (deps : Deps) (charged : ChargedMember) : Option String :=
  match charged.item.2, charged.member.2 with
  | .target, .bytes bytes => some (targetBytesLabel bytes)
  | .target, _ => none
  | _, _ => charged.entry.value.map (jsonValueLabel deps)

def targetBytes (charged : ChargedMember) : Nat :=
  match charged.item.2, charged.member.2 with
  | .target, .bytes bytes => bytes.length
  | _, _ => 0

end ChargedMember

namespace DuplicateRpcOverride

def empty (entryIndex : Nat) : DuplicateRpcOverride where
  entryIndex
  targetValue := none
  matchingOperator := none
  cda := none

def withLabel (override : DuplicateRpcOverride) (label : Option String) :
    DuplicateLeaf → DuplicateRpcOverride
  | .target => { override with targetValue := label }
  | .matchingOperator => { override with matchingOperator := label }
  | .cda => { override with cda := label }

theorem withLabel_entryIndex (override : DuplicateRpcOverride) (label : Option String)
    (kind : DuplicateLeaf) : (override.withLabel label kind).entryIndex = override.entryIndex := by
  cases kind <;> rfl

end DuplicateRpcOverride

def labelOf (deps : Deps) (charged : List ChargedMember) (item : Nat × DuplicateLeaf) :
    Option String :=
  (charged.find? (·.item = item)).bind (·.label deps)

def groupOf (deps : Deps) (charged : List ChargedMember) (entryIndex : Nat) :
    DuplicateRpcOverride where
  entryIndex
  targetValue := labelOf deps charged (entryIndex, .target)
  matchingOperator := labelOf deps charged (entryIndex, .matchingOperator)
  cda := labelOf deps charged (entryIndex, .cda)

/-- One group for each entry that a member names, in the order of entries. -/
structure Groups (deps : Deps) (charged : List ChargedMember)
    (overrides : List DuplicateRpcOverride) : Prop where
  ordered : overrides.Pairwise fun left right => left.entryIndex < right.entryIndex
  mem_iff : ∀ override, override ∈ overrides ↔
    ∃ member ∈ charged, override = groupOf deps charged member.item.1

section
variable {change : DuplicateRpcOverride → DuplicateRpcOverride}
  {overrides : List DuplicateRpcOverride}

theorem mem_describeOverride (hordered : overrides.Pairwise fun left right =>
    left.entryIndex < right.entryIndex) (override : DuplicateRpcOverride) :
    override ∈ describeOverride entryIndex change overrides ↔
      (override ∈ overrides ∧ override.entryIndex ≠ entryIndex) ∨
        override = change ((overrides.find? (·.entryIndex = entryIndex)).getD
          (.empty entryIndex)) := by
  induction overrides with
  | nil => simp [describeOverride, DuplicateRpcOverride.empty]
  | cons first rest ih =>
    obtain ⟨hfirst, hrest⟩ := List.pairwise_cons.mp hordered
    rw [describeOverride]
    by_cases hsame : first.entryIndex = entryIndex
    · have hothers : ∀ other ∈ rest, other.entryIndex ≠ entryIndex :=
        fun other hother => hsame ▸ (hfirst other hother).ne'
      simp only [hsame, if_true, List.mem_cons, List.find?_cons, decide_true, Option.getD_some]
      constructor
      · rintro (rfl | hmem)
        · exact .inr rfl
        · exact .inl ⟨.inr hmem, hothers _ hmem⟩
      · rintro (⟨rfl | hmem, hne⟩ | rfl)
        · exact absurd hsame hne
        · exact .inr hmem
        · exact .inl rfl
    · by_cases hbefore : entryIndex < first.entryIndex
      · have hothers : ∀ other ∈ first :: rest, other.entryIndex ≠ entryIndex := by
          intro other hother
          rcases List.mem_cons.mp hother with rfl | hother
          · exact hsame
          · exact (hbefore.trans (hfirst other hother)).ne'
        have hnone : (first :: rest).find? (·.entryIndex = entryIndex) = none := by
          simpa [List.find?_eq_none] using hothers
        rw [if_neg hsame, if_pos hbefore, hnone, List.mem_cons, Option.getD_none, or_comm]
        refine or_congr ⟨fun hmem => ⟨hmem, hothers _ hmem⟩, And.left⟩ Iff.rfl
      · rw [if_neg hsame, if_neg hbefore, List.mem_cons, ih hrest, List.mem_cons,
          List.find?_cons_of_neg (by simpa using hsame)]
        constructor
        · rintro (rfl | ⟨hmem, hne⟩ | rfl)
          · exact .inl ⟨.inl rfl, hsame⟩
          · exact .inl ⟨.inr hmem, hne⟩
          · exact .inr rfl
        · rintro (⟨rfl | hmem, hne⟩ | rfl)
          · exact .inl rfl
          · exact .inr (.inl ⟨hmem, hne⟩)
          · exact .inr (.inr rfl)

theorem describeOverride_ordered (hchange : ∀ override,
    (change override).entryIndex = override.entryIndex)
    (hordered : overrides.Pairwise fun left right => left.entryIndex < right.entryIndex) :
    (describeOverride entryIndex change overrides).Pairwise fun left right =>
      left.entryIndex < right.entryIndex := by
  induction overrides with
  | nil => exact List.pairwise_singleton _ _
  | cons first rest ih =>
    obtain ⟨hfirst, hrest⟩ := List.pairwise_cons.mp hordered
    rw [describeOverride]
    by_cases hsame : first.entryIndex = entryIndex
    · rw [if_pos hsame]
      refine List.pairwise_cons.mpr ⟨fun other hother => ?_, hrest⟩
      rw [hchange]
      exact hfirst other hother
    · by_cases hbefore : entryIndex < first.entryIndex
      · rw [if_neg hsame, if_pos hbefore]
        refine List.pairwise_cons.mpr ⟨fun other hother => ?_, hordered⟩
        rw [hchange]
        rcases List.mem_cons.mp hother with rfl | hother
        · exact hbefore
        · exact hbefore.trans (hfirst other hother)
      · rw [if_neg hsame, if_neg hbefore]
        refine List.pairwise_cons.mpr ⟨fun other hother => ?_, ih hrest⟩
        rcases (mem_describeOverride hrest other).mp hother with ⟨hmem, -⟩ | rfl
        · exact hfirst other hmem
        · rw [hchange]
          cases hfind : rest.find? (·.entryIndex = entryIndex) with
          | none => exact lt_of_le_of_ne (not_lt.mp hbefore) hsame
          | some found => exact hfirst found (List.mem_of_find?_eq_some hfind)

end

section
variable {deps : Deps} {charged : List ChargedMember} {overrides : List DuplicateRpcOverride}

theorem groups_nil (deps : Deps) : Groups deps [] [] := ⟨.nil, by simp⟩

theorem labelOf_concat {last : ChargedMember} (hnew : ∀ member ∈ charged, member.item ≠ last.item)
    (item : Nat × DuplicateLeaf) :
    labelOf deps (charged ++ [last]) item =
      if last.item = item then last.label deps else labelOf deps charged item := by
  rw [labelOf, List.find?_append]
  by_cases h : last.item = item
  · have hnone : charged.find? (·.item = item) = none := by
      simpa [List.find?_eq_none, ← h] using hnew
    simp [hnone, h]
  · cases hfind : charged.find? (·.item = item) <;> simp [h, hfind, labelOf]

theorem Groups.group_eq (h : Groups deps charged overrides) (entryIndex : Nat) :
    (overrides.find? (·.entryIndex = entryIndex)).getD (.empty entryIndex) =
      groupOf deps charged entryIndex := by
  cases hfind : overrides.find? (·.entryIndex = entryIndex) with
  | some found =>
    obtain ⟨member, -, rfl⟩ := (h.mem_iff found).mp (List.mem_of_find?_eq_some hfind)
    have hentry : (groupOf deps charged member.item.1).entryIndex = entryIndex := by
      simpa using List.find?_some hfind
    rw [Option.getD_some, ← hentry]
    rfl
  | none =>
    have hnone (kind : DuplicateLeaf) : labelOf deps charged (entryIndex, kind) = none := by
      have hmissing : charged.find? (·.item = (entryIndex, kind)) = none := by
        refine List.find?_eq_none.mpr fun member hmember hitem => ?_
        have hitem : member.item = (entryIndex, kind) := by simpa using hitem
        have hmem := (h.mem_iff _).mpr ⟨member, hmember, rfl⟩
        have hne := List.find?_eq_none.mp hfind _ hmem
        simp [groupOf, hitem] at hne
      rw [labelOf, hmissing]
      rfl
    rw [Option.getD_none, groupOf, hnone, hnone, hnone]
    rfl

/-- A new member goes to the group of its entry. -/
theorem Groups.concat (h : Groups deps charged overrides) {last : ChargedMember}
    (hnew : ∀ member ∈ charged, member.item ≠ last.item) :
    Groups deps (charged ++ [last])
      (describeOverride last.item.1 (·.withLabel (last.label deps) last.item.2) overrides) := by
  have hsame : (groupOf deps charged last.item.1).withLabel (last.label deps) last.item.2 =
      groupOf deps (charged ++ [last]) last.item.1 := by
    obtain ⟨member, entry, entryIndex, kind⟩ := last
    cases kind <;> simp [groupOf, labelOf_concat hnew, DuplicateRpcOverride.withLabel]
  have hother (entryIndex : Nat) (hne : entryIndex ≠ last.item.1) :
      groupOf deps charged entryIndex = groupOf deps (charged ++ [last]) entryIndex := by
    have hitem (kind : DuplicateLeaf) : last.item ≠ (entryIndex, kind) :=
      fun heq => hne (congrArg Prod.fst heq).symm
    simp [groupOf, labelOf_concat hnew, hitem]
  refine ⟨describeOverride_ordered
    (fun _ => DuplicateRpcOverride.withLabel_entryIndex _ _ _) h.ordered, fun override => ?_⟩
  rw [mem_describeOverride h.ordered, h.group_eq, hsame, h.mem_iff]
  constructor
  · rintro (⟨⟨member, hmember, rfl⟩, hne⟩ | rfl)
    · exact ⟨member, List.mem_append_left _ hmember, hother _ hne⟩
    · exact ⟨last, by simp, rfl⟩
  · rintro ⟨member, hmember, rfl⟩
    by_cases hentry : member.item.1 = last.item.1
    · exact .inr (by rw [hentry])
    · refine .inl ⟨?_, hentry⟩
      rcases List.mem_append.mp hmember with hmember | hlast
      · exact ⟨member, hmember, (hother _ hentry).symm⟩
      · rw [List.mem_singleton.mp hlast] at hentry
        exact absurd rfl hentry

end

-- ---------------------------------------------------------------------------
-- The second walk over the sequence
-- ---------------------------------------------------------------------------

structure ChargedMember.Decoded (decodeMember : Cbor × Cbor → Option Instance)
    (destination : RuleSelector) (sids : ModelSids) (charged : ChargedMember) : Prop where
  decoded : decodeMember charged.member = some charged.entry
  leaf : duplicateLeafFromPath charged.entry.path destination sids = .ok charged.item
  bytes : charged.item.2 = .target → ∃ bytes, charged.member.2 = .bytes bytes

def readFraming (ciborium : Ciborium) (bytes : Bytes) : Except InspectionError (Cbor × Nat) :=
  (ciborium.fromReader bytes).mapError fun error =>
    invalidDuplicate s!"invalid override framing: {error}"

def chargeStep (deps : Deps) (destination : RuleSelector) (sids : ModelSids) (charge : RpcCharge)
    (value : Cbor) (_ : Bytes) : Except InspectionError RpcCharge := do
  let .map entries := value
    | throw (invalidDuplicate "override framing member is not a map")
  chargeValues deps destination sids charge (entries.map (·.2))

/-- The charge once some members were walked, with the instances still to come. -/
def chargeAfter (deps : Deps) (charge : RpcCharge) (charged : List ChargedMember)
    (remaining : List Instance) : RpcCharge where
  remaining
  targetValueBytes := charge.targetValueBytes + (charged.map ChargedMember.targetBytes).sum
  descriptions := charged.foldl (fun descriptions member =>
    describeOverride member.item.1 (·.withLabel (member.label deps) member.item.2) descriptions)
      charge.descriptions

section
variable {deps : Deps} {destination : RuleSelector} {sids : ModelSids} {charge : RpcCharge}
  {decodeMember : Cbor × Cbor → Option Instance}

theorem chargeFraming_eq (fuel : Nat) (bytes : Bytes) :
    chargeFraming deps destination sids charge fuel bytes =
      walk (readFraming deps.ciborium) (chargeStep deps destination sids) fuel bytes charge := by
  induction fuel generalizing bytes charge with
  | zero => rfl
  | succ fuel ih =>
    rw [chargeFraming, walk]
    split
    · rfl
    · rw [readFraming]
      cases deps.ciborium.fromReader bytes with
      | error error => rfl
      | ok pair =>
        obtain ⟨value, consumed⟩ := pair
        simp only [Except.mapError, ok_bind]
        cases value with
        | map entries =>
          simp only [chargeStep]
          congr 1
          funext charge
          exact ih _
        | _ => rfl

theorem chargeValue_eq {member : ChargedMember} (h : member.Decoded decodeMember destination sids)
    (hremaining : charge.remaining = member.entry :: rest) :
    chargeValue deps destination sids charge member.member.2 =
      .ok (chargeAfter deps charge [member] rest) := by
  obtain ⟨⟨key, raw⟩, entry, entryIndex, leaf⟩ := member
  have hleaf : duplicateLeafFromPath entry.path destination sids = .ok (entryIndex, leaf) := h.leaf
  have hbytes : leaf = .target → ∃ bytes, raw = .bytes bytes := h.bytes
  rw [chargeValue, hremaining]
  simp only [hleaf, ok_bind]
  cases leaf with
  | target =>
    obtain ⟨bytes, rfl⟩ := hbytes rfl
    rfl
  | matchingOperator => rfl
  | cda => rfl

theorem chargeValues_eq {members : List ChargedMember}
    (h : ∀ member ∈ members, member.Decoded decodeMember destination sids)
    (hremaining : charge.remaining = members.map ChargedMember.entry ++ rest) :
    chargeValues deps destination sids charge (members.map (·.member.2)) =
      .ok (chargeAfter deps charge members rest) := by
  induction members generalizing charge with
  | nil =>
    obtain ⟨remaining, targetValueBytes, descriptions⟩ := charge
    cases hremaining
    rfl
  | cons member members ih =>
    obtain ⟨hmember, hmembers⟩ := List.forall_mem_cons.mp h
    rw [List.map_cons, chargeValues, chargeValue_eq hmember hremaining, ok_bind, ih hmembers rfl]
    simp [chargeAfter, Nat.add_assoc]

theorem charged_of_decoded {entries : List (Cbor × Cbor)} {instances : List Instance}
    {leaves : List (Nat × DuplicateLeaf)}
    (hbytes : ∀ member entry item, decodeMember member = some entry →
      duplicateLeafFromPath entry.path destination sids = .ok item → item.2 = .target →
        ∃ bytes, member.2 = .bytes bytes)
    (hdecoded : List.Forall₂ (fun member entry => decodeMember member =
      some entry) entries instances)
    (hleaves : List.Forall₂ (fun entry item =>
      duplicateLeafFromPath entry.path destination sids = .ok item)
      instances leaves) :
    ∃ members : List ChargedMember, entries = members.map ChargedMember.member ∧
      instances = members.map ChargedMember.entry ∧ leaves = members.map ChargedMember.item ∧
      ∀ member ∈ members, member.Decoded decodeMember destination sids := by
  induction hdecoded generalizing leaves with
  | nil =>
    cases hleaves
    exact ⟨[], rfl, rfl, rfl, nofun⟩
  | @cons member entry entries instances hmember _ ih =>
    cases hleaves with
    | @cons _ item _ leaves hleaf hrest =>
      obtain ⟨members, rfl, rfl, rfl, hmembers⟩ := ih hrest
      refine ⟨⟨member, entry, item⟩ :: members, rfl, rfl, rfl,
        List.forall_mem_cons.mpr ⟨?_, hmembers⟩⟩
      exact ⟨hmember, hleaf, hbytes member entry item hmember hleaf⟩

structure OverrideMap.Members (map : OverrideMap) (decodeMember : Cbor × Cbor → Option Instance)
    (destination : RuleSelector) (sids : ModelSids) (members : List ChargedMember) : Prop where
  value : map.value = .map (members.map ChargedMember.member)
  instances : map.instances = members.map ChargedMember.entry
  leaves : map.leaves = members.map ChargedMember.item
  decoded : ∀ member ∈ members, member.Decoded decodeMember destination sids

theorem OverrideMap.Canonical.charged {model : CoreconfModel} {map : OverrideMap}
    (laws : DecodesMembers deps sidJson decodeMember)
    (hmodel : deps.rustconf.coreconfModel sidJson = .ok model)
    (hsids : validateDuplicateModelShape model.compositeModel = .ok sids)
    (h : map.Canonical deps model.compositeModel destination sids) :
    ∃ members, map.Members decodeMember destination sids members := by
  obtain ⟨-, -, -, -, -, -, -, -, -, htarget, -⟩ :=
    ModelSids.resolve_ok (validateDuplicateModelShape_ok hsids)
  obtain ⟨entries, hvalue, -⟩ := h.members
  have hbytes (member : Cbor × Cbor) (entry : Instance) (item : Nat × DuplicateLeaf)
      (hmember : decodeMember member = some entry)
      (hleaf : duplicateLeafFromPath entry.path destination sids = .ok item)
      (hitem : item.2 = .target) : ∃ bytes, member.2 = .bytes bytes := by
    obtain ⟨-, hlast, -⟩ := duplicateLeafFromPath_ok hleaf
    rw [hitem] at hlast
    exact laws.target hmodel hmember htarget hlast
  have hwritten := h.written
  rw [hvalue] at hwritten
  obtain ⟨members, rfl, hinstances, hleaves, hdecoded⟩ :=
    charged_of_decoded hbytes (laws.members hmodel hwritten h.decoded) h.leaf
  exact ⟨members, hvalue, hinstances, hleaves, hdecoded⟩

theorem chargeSteps_eq {maps : List OverrideMap} {groups : List (List ChargedMember)}
    (hgroups : List.Forall₂ (fun map members =>
      map.Members decodeMember destination sids members) maps groups)
    (hremaining : charge.remaining = groups.flatten.map ChargedMember.entry ++ rest) :
    (maps.map fun map => (map.value, map.bytes)).foldlM
        (fun charge item => chargeStep deps destination sids charge item.1 item.2) charge =
      .ok (chargeAfter deps charge groups.flatten rest) := by
  induction hgroups generalizing charge with
  | nil =>
    obtain ⟨remaining, targetValueBytes, descriptions⟩ := charge
    cases hremaining
    rfl
  | @cons map members maps groups hmap _ ih =>
    rw [List.flatten_cons, List.map_append, List.append_assoc] at hremaining
    have hvalues : (members.map ChargedMember.member).map (·.2) = members.map (·.member.2) := by
      rw [List.map_map]
      rfl
    have hstep : chargeStep deps destination sids charge map.value map.bytes =
        .ok (chargeAfter deps charge members (groups.flatten.map ChargedMember.entry ++ rest)) := by
      rw [hmap.value]
      simp only [chargeStep, hvalues]
      exact chargeValues_eq hmap.decoded hremaining
    rw [List.map_cons, List.foldlM_cons, hstep, ok_bind, ih rfl]
    simp [chargeAfter, Nat.add_assoc]

theorem ChargedMember.targetBytes_le (floatSize : UInt64 → Nat) (charged : ChargedMember) :
    charged.targetBytes ≤ Cbor.entrySize floatSize charged.member := by
  obtain ⟨⟨key, raw⟩, entry, entryIndex, leaf⟩ := charged
  cases leaf with
  | target =>
    cases raw with
    | bytes bytes =>
      show bytes.length ≤ key.size floatSize + (headSize bytes.length + bytes.length)
      omega
    | _ => exact Nat.zero_le _
  | _ => exact Nat.zero_le _

theorem OverrideMap.Members.targetBytes_le {model : CompositeModel} {map : OverrideMap}
    (hwriter : WritesShortest deps.ciborium) (hmap : map.Canonical deps model destination sids)
    (h : map.Members decodeMember destination sids members) :
    (members.map ChargedMember.targetBytes).sum ≤ map.bytes.length := by
  obtain ⟨floatSize, hsize⟩ := hwriter.size
  rw [hsize hmap.written, h.value, Cbor.size, Cbor.sizeEntries_eq, List.map_map]
  refine (List.sum_le_sum fun member _ => ?_).trans (Nat.le_add_left _ _)
  exact member.targetBytes_le floatSize

theorem targetBytes_le {model : CompositeModel} {maps : List OverrideMap}
    {groups : List (List ChargedMember)} (hwriter : WritesShortest deps.ciborium)
    (hmaps : ∀ map ∈ maps, map.Canonical deps model destination sids)
    (hgroups : List.Forall₂ (fun map members =>
      map.Members decodeMember destination sids members) maps groups) :
    (groups.flatten.map ChargedMember.targetBytes).sum ≤
      (maps.flatMap OverrideMap.bytes).length := by
  induction hgroups with
  | nil => exact le_rfl
  | cons hmembers _ ih =>
    obtain ⟨hmap, hmaps⟩ := List.forall_mem_cons.mp hmaps
    rw [List.flatten_cons, List.map_append, List.sum_append, List.flatMap_cons, List.length_append]
    exact Nat.add_le_add (hmembers.targetBytes_le hwriter hmap) (ih hmaps)

theorem groups_foldl {members : List ChargedMember}
    (hdistinct : (members.map ChargedMember.item).Nodup) :
    Groups deps members (members.foldl (fun descriptions member => describeOverride
      member.item.1 (·.withLabel (member.label deps) member.item.2) descriptions) []) := by
  induction members using List.reverseRecOn with
  | nil => exact groups_nil deps
  | append_singleton members last ih =>
    rw [List.map_append, List.nodup_append] at hdistinct
    obtain ⟨hmembers, -, hnew⟩ := hdistinct
    rw [List.foldl_append]
    refine (ih hmembers).concat fun member hmember => ?_
    exact hnew _ (List.mem_map_of_mem hmember) _ (by simp)

end

-- ---------------------------------------------------------------------------
-- The cost of accepted payloads
-- ---------------------------------------------------------------------------

/-- The groups of members the second walk goes through, and the instances of the operation. -/
structure RpcFraming (deps : Deps) (model : CoreconfModel)
    (decodeMember : Cbor × Cbor → Option Instance)
    (operation : DecodedDuplicateOperation) (groups : List (List ChargedMember)) : Prop where
  items : ∃ items, Reads deps.ciborium.fromReader operation.innerPayload items ∧
    items.map Prod.fst = groups.map fun members => Cbor.map (members.map ChargedMember.member)
  instances : operation.instances = groups.flatten.map ChargedMember.entry
  decoded : ∃ sids, validateDuplicateModelShape model.compositeModel = .ok sids ∧
    ∀ member ∈ groups.flatten, member.Decoded decodeMember operation.request.destination sids

/-- The cost accounts for every byte of the payload and for every override instance. -/
structure DuplicateRpcCost.Accounts (deps : Deps) (model : CoreconfModel)
    (decodeMember : Cbor × Cbor → Option Instance) (payload : Bytes)
    (operation : DecodedDuplicateOperation) (cost : DuplicateRpcCost) : Prop where
  source : cost.source = operation.request.source
  destination : cost.destination = operation.request.destination
  bytes : cost.payloadBytes = payload.length
  fixed : ∃ fixed, encodeDuplicateRpcPayload deps model
    { operation.request with overrides := [] } [] =
    .ok fixed ∧ cost.fixedBytes = fixed.length
  total : cost.fixedBytes + cost.variableFramingBytes + cost.targetValueBytes = payload.length
  charged : ∃ groups, RpcFraming deps model decodeMember operation groups ∧
    cost.targetValueBytes = (groups.flatten.map ChargedMember.targetBytes).sum ∧
    Groups deps groups.flatten cost.overrides

def StatesNarrowIds (deps : Deps) (model : CoreconfModel) (payload : Bytes) : Prop :=
  ∀ source destination sequence, statedSequence deps model payload =
    .ok (source, destination, sequence) → NarrowIds source destination

section
variable {deps : Deps} {sidJson : String} {decodeMember : Cbor × Cbor → Option Instance}
  {model : CoreconfModel} {payload : Bytes} {operation : DecodedDuplicateOperation}

theorem strictOneCborMap_ok {ciborium : Ciborium}
    (h : strictOneCborMap ciborium payload = .ok outer) :
    (∃ entries, outer = .map entries) ∧ ciborium.intoWriter outer = .ok payload := by
  simp only [strictOneCborMap, bind_ok, mapError_ok, ensure_ok, Prod.exists, decide_eq_true_eq] at h
  obtain ⟨value, position, -, _, -, h⟩ := h
  cases value with
  | map entries =>
    simp only [bind_ok, mapError_ok, ensure_ok, pure_ok, decide_eq_true_eq] at h
    obtain ⟨_, hwritten, _, rfl, rfl⟩ := h
    exact ⟨⟨entries, rfl⟩, hwritten⟩
  | _ => cases h

theorem fixedItem_plain (laws : DecodesMembers deps sidJson decodeMember)
    (hmodel : deps.rustconf.coreconfModel sidJson = .ok model)
    (hsids : validateDuplicateModelShape model.compositeModel = .ok sids)
    (hsource : source.value < 2 ^ 64 ∧ source.bits ≤ 64)
    (hdestination : destination.value < 2 ^ 64 ∧ destination.bits ≤ 64) :
    (fixedItem sids source destination).Plain := by
  obtain ⟨hrule, hinput, hfrom, hfromLength, hfromValue, -, hto, htoLength, htoValue⟩ :=
    ModelSids.resolve_operation (validateDuplicateModelShape_ok hsids)
  have hfit {path : String} {sid : Int} (h : model.compositeModel.getSid path = some sid) :
      0 ≤ sid ∧ sid < 2 ^ 63 := laws.sids hmodel h
  have := hfit hrule
  have := hfit hinput
  have := hfit hfrom
  have := hfit hfromLength
  have := hfit hfromValue
  have := hfit hto
  have := hfit htoLength
  have := hfit htoValue
  simp only [fixedItem, inputItem, selectorItem, Cbor.Plain, Cbor.PlainEntries,
    and_true, List.length_cons, List.length_nil]
  and_intros <;> omega

theorem statedSequence_fits {sequence : Bytes}
    (h : statedSequence deps model payload = .ok (source, destination, sequence)) :
    (source.value < 2 ^ 64 ∧ source.bits ≤ 64) ∧ destination.value < 2 ^ 64 ∧
    destination.bits ≤ 64 := by
  simp only [statedSequence, bind_ok] at h
  obtain ⟨_, -, _, -, hinput⟩ := h
  obtain ⟨_, _, -, -, -, hstates⟩ := rpcInput_ok hinput
  obtain ⟨_, -, hsource⟩ := hstates.source
  obtain ⟨_, -, hdestination⟩ := hstates.destination
  exact ⟨hsource.fits, hdestination.fits⟩

theorem flatMap_of_forall₂ {r : α → List β → Prop} {f : α → List γ} {g : β → γ} {items : List α}
    {groups : List (List β)} (h : List.Forall₂ r items groups)
    (hmap : ∀ item group, r item group → f item = group.map g) :
    items.flatMap f = groups.flatten.map g := by
  induction h with
  | nil => rfl
  | cons hitem _ ih =>
    rw [List.flatMap_cons, List.flatten_cons, List.map_append, hmap _ _ hitem, ih]

/-- The second walk goes through the whole sequence, and charges every instance. -/
theorem chargeFraming_ok (hconsumes : Consumes deps.ciborium.fromReader) {maps : List OverrideMap}
    (hmaps : OverrideMaps deps model.compositeModel destination sids bytes instances maps)
    (hgroups : List.Forall₂ (fun map members =>
      map.Members decodeMember destination sids members) maps groups) :
    chargeFraming deps destination sids
        { remaining := instances, targetValueBytes := 0, descriptions := [] } bytes.length bytes =
      .ok (chargeAfter deps { remaining := instances, targetValueBytes := 0, descriptions := [] }
        groups.flatten []) := by
  have hinstances : instances = groups.flatten.map ChargedMember.entry :=
    hmaps.listed.trans (flatMap_of_forall₂ hgroups fun _ _ hmembers => hmembers.instances)
  have hreads :
      Reads (readFraming deps.ciborium) bytes (maps.map fun map => (map.value, map.bytes)) :=
    reads_mapError.mpr hmaps.reads
  have hframing : Consumes (readFraming deps.ciborium) := hconsumes.mapError _
  rw [chargeFraming_eq]
  refine (walk_ok hframing le_rfl).mpr ⟨_, hreads, chargeSteps_eq hgroups ?_⟩
  rw [List.append_nil]
  exact hinstances

theorem duplicateRpcCost_accounts (hconsumes : Consumes deps.ciborium.fromReader)
    (hwriter : WritesShortest deps.ciborium) (laws : DecodesMembers deps sidJson decodeMember)
    (hmodel : deps.rustconf.coreconfModel sidJson = .ok model)
    (haccepted : decodeDuplicateOperation deps model payload = .ok operation)
    (hnarrow : NarrowIds operation.request.source operation.request.destination) :
    ∃ cost, duplicateRpcCost deps sidJson payload = .ok cost ∧
      cost.Accounts deps model decodeMember payload operation := by
  obtain ⟨sids, maps, hsids, hstated, hmaps⟩ := decodeDuplicateOperation_maps hconsumes haccepted
  obtain ⟨groups, hgroups⟩ : ∃ groups, List.Forall₂ (fun map members =>
      map.Members decodeMember operation.request.destination sids members) maps groups :=
    forall₂_of_exists fun map hmap => (hmaps.canonical map hmap).charged laws hmodel hsids
  have hinstances : operation.instances = groups.flatten.map ChargedMember.entry :=
    hmaps.listed.trans (flatMap_of_forall₂ hgroups fun _ _ hmembers => hmembers.instances)
  have hleaves : maps.flatMap OverrideMap.leaves = groups.flatten.map ChargedMember.item :=
    flatMap_of_forall₂ hgroups fun _ _ hmembers => hmembers.leaves
  have hvalues : maps.map OverrideMap.value = groups.map fun members =>
      Cbor.map (members.map ChargedMember.member) := by
    refine List.forall₂_eq_eq_eq ▸ List.forall₂_map_left_iff.mpr (List.forall₂_map_right_iff.mpr ?_)
    exact hgroups.imp fun _ _ hmembers => hmembers.value
  obtain ⟨hsource, hdestination⟩ := statedSequence_fits hstated
  obtain ⟨fixed, hfixed⟩ := hwriter.total (fixedItem_plain laws hmodel hsids hsource hdestination)
  have hencoded :
      encodeDuplicateRpcPayload deps model { operation.request with overrides := [] } [] =
      .ok fixed := (encodeFixed_iff laws hmodel hsids _).mpr ⟨hnarrow, hfixed⟩
  have hbound :
      fixed.length + (groups.flatten.map ChargedMember.targetBytes).sum ≤ payload.length := by
    have haccepted := haccepted
    simp only [decodeDuplicateOperation, bind_ok] at haccepted
    obtain ⟨_, -, outer, houter, -⟩ := haccepted
    obtain ⟨⟨entries, hmap⟩, hwritten⟩ := strictOneCborMap_ok houter
    obtain ⟨floatSize, hsize⟩ := hwriter.size
    have hfixedSize := fixedItem_size_le laws hmodel hsids hmap hwritten hstated floatSize
    have htargets := targetBytes_le hwriter hmaps.canonical hgroups
    rw [← hmaps.concatenated] at htargets
    rw [hsize hfixed, hsize hwritten]
    omega
  have hcharge := chargeFraming_ok hconsumes hmaps hgroups
  have hcost : duplicateRpcCost deps sidJson payload = .ok {
      source := operation.request.source
      destination := operation.request.destination
      payloadBytes := payload.length
      fixedBytes := fixed.length
      variableFramingBytes :=
        payload.length - (fixed.length + (0 + (groups.flatten.map ChargedMember.targetBytes).sum))
      targetValueBytes := 0 + (groups.flatten.map ChargedMember.targetBytes).sum
      overrides := groups.flatten.foldl (fun descriptions member => describeOverride
        member.item.1 (·.withLabel (member.label deps) member.item.2) descriptions) [] } := by
    simp only [duplicateRpcCost, hmodel, Except.mapError, ok_bind, hsids,
      haccepted, hencoded, hcharge, chargeAfter, Nat.zero_add, List.isEmpty_nil]
    rw [ensure_bind rfl, ensure_bind (decide_eq_true hbound)]
    rfl
  refine ⟨_, hcost, rfl, rfl, rfl, ⟨fixed, hencoded, rfl⟩, ?_, groups,
    ⟨⟨_, hmaps.reads, ?_⟩, hinstances, sids, hsids, ?_⟩, Nat.zero_add _,
    groups_foldl (hleaves ▸ hmaps.distinct)⟩
  · simp only [Nat.zero_add]
    omega
  · rw [List.map_map]
    exact hvalues
  · intro member hmember
    obtain ⟨members, hmembers, hmember⟩ := List.mem_flatten.mp hmember
    obtain ⟨map, hmap⟩ := forall₂_right hgroups hmembers
    exact hmap.decoded member hmember

theorem duplicateRpcCost_ok_iff (hconsumes : Consumes deps.ciborium.fromReader)
    (hwriter : WritesShortest deps.ciborium) (laws : DecodesMembers deps sidJson decodeMember) :
    (∃ cost, duplicateRpcCost deps sidJson payload = .ok cost) ↔
      ∃ model operation, deps.rustconf.coreconfModel sidJson = .ok model ∧
        decodeDuplicateOperation deps model payload = .ok operation ∧
        StatesNarrowIds deps model payload := by
  constructor
  · rintro ⟨cost, hcost⟩
    simp only [duplicateRpcCost, bind_ok, mapError_ok] at hcost
    obtain ⟨model, hmodel, sids, hsids, operation, haccepted, fixed, hfixed, -⟩ := hcost
    obtain ⟨_, _, -, hstated, -⟩ := decodeDuplicateOperation_maps hconsumes haccepted
    refine ⟨model, operation, hmodel, haccepted, ?_⟩
    intro source destination sequence hsequence
    cases hstated.symm.trans hsequence
    exact ((encodeFixed_iff laws hmodel hsids _).mp hfixed).1
  · rintro ⟨model, operation, hmodel, haccepted, hnarrow⟩
    obtain ⟨_, _, -, hstated, -⟩ := decodeDuplicateOperation_maps hconsumes haccepted
    obtain ⟨cost, hcost, -⟩ :=
      duplicateRpcCost_accounts hconsumes hwriter laws hmodel haccepted (hnarrow _ _ _ hstated)
    exact ⟨cost, hcost⟩

/-- On an accepted payload, the cost of the request accounts for all of it exactly where
its RuleIDs have up to 32 bits. -/
theorem rpc_cost_exact (hconsumes : Consumes deps.ciborium.fromReader)
    (hwriter : WritesShortest deps.ciborium) (laws : DecodesMembers deps sidJson decodeMember)
    (hmodel : deps.rustconf.coreconfModel sidJson = .ok model)
    (haccepted : decodeDuplicateOperation deps model payload = .ok operation) :
    (∃ cost, duplicateRpcCost deps sidJson payload = .ok cost ∧
      cost.Accounts deps model decodeMember payload operation) ↔
        StatesNarrowIds deps model payload := by
  obtain ⟨sids, _, hsids, hstated, -⟩ := decodeDuplicateOperation_maps hconsumes haccepted
  constructor
  · rintro ⟨cost, -, haccounts⟩ source destination sequence hsequence
    cases hstated.symm.trans hsequence
    obtain ⟨fixed, hfixed, -⟩ := haccounts.fixed
    exact ((encodeFixed_iff laws hmodel hsids _).mp hfixed).1
  · intro hnarrow
    exact duplicateRpcCost_accounts hconsumes hwriter laws hmodel haccepted (hnarrow _ _ _ hstated)

end

section
open Fixture

theorem selectorObject_stated {model : CompositeModel} {path : String} (parent : Int)
    (h : selectorObject raw = some value)
    (hparent : model.getSid path = some parent)
    (hlength : model.getSid (path ++ "/" ++ "rule-id-length") = some (parent + 1))
    (hvalue : model.getSid (path ++ "/" ++ "rule-id-value") = some (parent + 2)) :
    value.StatedBy model path raw := by
  unfold selectorObject at h
  split at h
  · next bits number =>
    cases h
    rw [Json.StatedBy]
    refine ⟨_, [(.integer 1, .integer bits), (.integer 2, .integer number)], rfl, .refl _, ?_⟩
    simp only [Json.MembersStatedBy, Json.StatedBy]
    exact ⟨parent, _, _, [(.integer 2, .integer number)], hparent,
      hlength, by simp, rfl, parent, _, _, [], hparent, hvalue, by simp, rfl, rfl⟩
  · cases h

theorem operationJson_stated (h : operationJson raw = some value) :
    value.StatedBy (costModel world).compositeModel "/ietf-schc:duplicate-rule" raw := by
  have hsid {path : String} {sid : Int} (h : (sids.find? (·.1 = path)).map (·.2) = some sid) :
      (costModel world).compositeModel.getSid path = some sid := h
  unfold operationJson at h
  split at h
  · next source sequence destination =>
    obtain ⟨sourceValue, hsource, h⟩ := Option.bind_eq_some_iff.mp h
    obtain ⟨destinationValue, hdestination, h⟩ := Option.bind_eq_some_iff.mp h
    cases h
    have hfrom : sourceValue.StatedBy (costModel world).compositeModel
        "/ietf-schc:duplicate-rule/input/from" source :=
      selectorObject_stated 2908 hsource (hsid (by decide +kernel)) (hsid (by decide +kernel))
        (hsid (by decide +kernel))
    have hto : destinationValue.StatedBy (costModel world).compositeModel
        "/ietf-schc:duplicate-rule/input/to" destination :=
      selectorObject_stated 2912 hdestination (hsid (by decide +kernel)) (hsid (by decide +kernel))
        (hsid (by decide +kernel))
    rw [Json.StatedBy]
    refine ⟨_, _, rfl, .refl _, ?_⟩
    simp only [Json.MembersStatedBy]
    refine ⟨2906, 2907, _, [], hsid (by decide +kernel), hsid (by decide +kernel), rfl, ?_, rfl⟩
    rw [Json.StatedBy]
    refine ⟨_, _, rfl, .refl _, ?_⟩
    simp only [Json.MembersStatedBy]
    exact ⟨2907, 2908, source, _, hsid (by decide +kernel), hsid (by decide +kernel), rfl, hfrom,
      2907, 2911, .bytes sequence, _, hsid (by decide +kernel), hsid (by decide +kernel), rfl,
      ⟨sequence, rfl, rfl⟩, 2907, 2912, destination, _, hsid (by decide +kernel),
      hsid (by decide +kernel), rfl, hto, rfl⟩
  · cases h

theorem decodesMembers_example : DecodesMembers (costDeps world) sidText decodeMember where
  sids {_ path sid} hmodel hsid := by
    cases costModel_ok hmodel
    obtain ⟨entry, hentry, rfl⟩ := Option.map_eq_some_iff.mp hsid
    have hall : ∀ entry ∈ sids, 0 ≤ entry.2 ∧ entry.2 < 2 ^ 63 := by decide
    exact hall entry (List.mem_of_find?_eq_some hentry)
  members {_ entries bytes instances} hmodel hwritten hdecoded := by
    cases costModel_ok hmodel
    obtain ⟨hreadable, rfl⟩ := cborCrate_written hwritten
    have hcollect :
        collect (fun member => need (decodeMember member) "not an instance of this example")
        entries = .ok instances := by
      rw [← hdecoded]
      show _ = decodeMembers _
      rw [decodeMembers, cborCrate_read hreadable]
      rfl
    exact (collect_ok_iff.mp hcollect).imp fun _ _ h => need_ok.mp h
  target {_ member entry sid} hmodel hdecoded hsid hlast := by
    cases costModel_ok hmodel
    have htarget : (compositeModel world).getSid
        "/ietf-schc:schc/rule/entry-universal/target-value/value" = some 2857 :=
      getSid_of (by decide +kernel)
    cases htarget.symm.trans hsid
    unfold decodeMember at hdecoded
    split at hdecoded
    · obtain ⟨value, -, rfl⟩ := Option.map_eq_some_iff.mp hdecoded
      exact absurd hlast (by simp [InstancePath.absoluteSids])
    · obtain ⟨key, raw⟩ := member
      unfold targetInstance at hdecoded
      split at hdecoded
      · next items target heq => exact ⟨target, congrArg Prod.snd heq⟩
      · cases hdecoded
  operation {_ member entry sid value} hmodel hdecoded hsid hpath hvalue := by
    cases costModel_ok hmodel
    have hrule : (compositeModel world).getSid "/ietf-schc:duplicate-rule" = some 2906 :=
      getSid_of (by decide +kernel)
    cases hrule.symm.trans hsid
    obtain ⟨key, raw⟩ := member
    unfold decodeMember at hdecoded
    split at hdecoded
    · next hkey =>
      obtain ⟨operation, hoperation, rfl⟩ := Option.map_eq_some_iff.mp hdecoded
      cases hvalue
      exact ⟨.inl hkey, operationJson_stated hoperation⟩
    · unfold targetInstance at hdecoded
      split at hdecoded
      · obtain ⟨path, hitems, hdecoded⟩ := Option.bind_eq_some_iff.mp hdecoded
        cases hdecoded
        unfold pathComponents at hitems
        split at hitems
        · cases hitems
          cases hpath
        · cases hitems
      · cases hdecoded

theorem both_maps_charged : ∃ operation,
    decodeDuplicateOperation (costDeps emptyWorld) (costModel emptyWorld)
      (cborBytes costCbor) = .ok operation ∧
    ∃ cost, duplicateRpcCost (costDeps emptyWorld) sidText (cborBytes costCbor) = .ok cost ∧
      cost.Accounts (costDeps emptyWorld) (costModel emptyWorld) decodeMember
        (cborBytes costCbor) operation := by
  have heval : holds (decodeDuplicateOperation (costDeps emptyWorld)
      (costModel emptyWorld) (cborBytes costCbor)) (fun _ => true) = true := by decide +kernel
  obtain ⟨operation, hdecoded, -⟩ := holds_iff.mp heval
  have hstated : statedSequence (costDeps emptyWorld) (costModel emptyWorld) (cborBytes costCbor) =
      .ok (⟨20, 8⟩, ⟨64, 8⟩, cborBytes overrideMap ++ cborBytes otherMap) := by decide +kernel
  refine ⟨operation, hdecoded, (rpc_cost_exact cborCrate_consumes cborCrate_shortest
    decodesMembers_example rfl hdecoded).mpr ?_⟩
  intro source destination sequence hsequence
  cases hstated.symm.trans hsequence
  exact ⟨by decide, by decide⟩

theorem wide_rule_not_charged :
    (∃ operation, decodeDuplicateOperation (costDeps emptyWorld) (costModel emptyWorld)
      (cborBytes wideCostCbor) = .ok operation) ∧
    duplicateRpcCost (costDeps emptyWorld) sidText (cborBytes wideCostCbor) = .error
      (invalidDuplicate "duplicate-rule RuleID values must fit the modeled uint32 selectors") := by
  have heval : holds (decodeDuplicateOperation (costDeps emptyWorld) (costModel emptyWorld)
      (cborBytes wideCostCbor)) (fun _ => true) = true := by decide +kernel
  obtain ⟨operation, hdecoded, -⟩ := holds_iff.mp heval
  exact ⟨⟨operation, hdecoded⟩, by decide +kernel⟩

end

end SchcCoreconf
