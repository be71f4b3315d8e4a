import SchcCoreconf.Fixture.Payloads
import SchcCoreconf.Flow
import SchcCoreconf.RpcCost

/-!
# Duplicate-rule requests read back

What the encoder writes of a duplicate-rule request, the decoder reads back: both
RuleIDs, the bytes of the overrides, and one instance for each leaf that the request
overrides, which names the leaf and has the value the request gives it.
-/

namespace SchcCoreconf

open Fallible Items

-- ---------------------------------------------------------------------------
-- What a request overrides
-- ---------------------------------------------------------------------------

structure OverriddenLeaf where
  entryIndex : Nat
  leaf : DuplicateLeaf
  text : String
  deriving DecidableEq, Repr

def OverriddenLeaf.item (overridden : OverriddenLeaf) : Nat × DuplicateLeaf :=
  (overridden.entryIndex, overridden.leaf)

namespace RuleDuplicateOverride

def text (item : RuleDuplicateOverride) : DuplicateLeaf → Option String
  | .target => item.targetValue
  | .matchingOperator => item.matchingOperator
  | .cda => item.cda

def overridden (item : RuleDuplicateOverride) (leaf : DuplicateLeaf) : List OverriddenLeaf :=
  ((item.text leaf).map fun text => { entryIndex := item.entryIndex, leaf, text }).toList

def leaves (item : RuleDuplicateOverride) : List OverriddenLeaf :=
  item.overridden .target ++ item.overridden .matchingOperator ++ item.overridden .cda

theorem entryIndex_of_mem (item : RuleDuplicateOverride) :
    ∀ overridden ∈ item.leaves, overridden.entryIndex = item.entryIndex := by
  intro overridden hmem
  have hone {leaf : DuplicateLeaf} (h : overridden ∈ item.overridden leaf) :
      overridden.entryIndex = item.entryIndex := by
    obtain ⟨text, -, rfl⟩ := Option.map_eq_some_iff.mp (Option.mem_toList.mp h)
    rfl
  simp only [leaves, List.mem_append] at hmem
  rcases hmem with (hmem | hmem) | hmem <;> exact hone hmem

end RuleDuplicateOverride

/-- The bytes hold the number that the text spells, in the width of the source's target value. -/
structure HoldsTarget (sourceRule : Rule) (entryIndex : Nat) (text : String) (bytes : Bytes) :
    Prop where
  number : parseU64 text = some (BigEndian.toNat bytes)
  width : ∃ field current, sourceRule.fields.find? (·.entryIndex = entryIndex) = some field ∧
    field.target = .bytes current ∧ bytes.length = current.length

def Json.Binary (value : Json) (bytes : Bytes) : Prop :=
  (∃ text, value = .string text ∧ text.toUTF8.toList = base64Encode bytes) ∨
    value = .array (bytes.map fun byte => .ofNat byte.toNat)

/-- The SID of the identity that the text of a matching operator or a CDA names. -/
def OverriddenLeaf.identity (model : CompositeModel) (overridden : OverriddenLeaf) :
    Except InspectionError Int :=
  duplicateIdentitySid model overridden.text (overridden.leaf = .matchingOperator)

def OverriddenLeaf.Written (model : CompositeModel) (sourceRule : Rule)
    (overridden : OverriddenLeaf) (raw : Cbor) : Prop :=
  match overridden.leaf with
  | .target =>
    ∃ bytes, HoldsTarget sourceRule overridden.entryIndex overridden.text bytes ∧ raw = .bytes bytes
  | _ => ∃ sid, overridden.identity model = .ok sid ∧ raw = .integer sid

def OverriddenLeaf.Given (model : CompositeModel) (sourceRule : Rule) (overridden : OverriddenLeaf)
    (value : Json) : Prop :=
  match overridden.leaf with
  | .target =>
    ∃ bytes, HoldsTarget sourceRule overridden.entryIndex overridden.text bytes ∧ value.Binary bytes
  | _ => ∃ sid, overridden.identity model = .ok sid ∧ model.identitySidForValue value = .ok sid

structure FieldWritten (deps : Deps) (model : CompositeModel) (sids : ModelSids) (sourceRule : Rule)
    (destination : RuleSelector) (overridden : OverriddenLeaf) (field : InstancePath × Cbor) :
    Prop where
  path : duplicateOverridePath deps destination overridden.entryIndex
    overridden.leaf sids = .ok field.1
  value : overridden.Written model sourceRule field.2

section
variable {deps : Deps} {model : CompositeModel} {sids : ModelSids} {sourceRule : Rule}
  {destination : RuleSelector} {item : RuleDuplicateOverride}

theorem targetOverrideBytes_ok {entry : RuleEntry}
    (h : targetOverrideBytes sourceRule entry text = .ok bytes) :
    HoldsTarget sourceRule entry.entryIndex text bytes := by
  simp only [targetOverrideBytes, bind_ok, need_ok] at h
  obtain ⟨current, hcurrent, _, -, value, hvalue, hbytes⟩ := h
  obtain ⟨field, hfield, hcurrent⟩ := Option.bind_eq_some_iff.mp hcurrent
  obtain ⟨number, hwritable, rfl⟩ := numericTargetValue_ok.mp hvalue
  cases (binaryBytes_array _).symm.trans hbytes
  refine ⟨?_, field, current, hfield, ?_, length_bigEndian _ _⟩
  · rw [toNat_bigEndian hwritable.width]
    have hrange := hwritable.range
    simp only [parseU64, hwritable.digits, hwritable.nonempty, hwritable.value, hrange]
    rfl
  · cases htarget : field.target <;> simp [htarget] at hcurrent
    rw [hcurrent]

def leafItem (model : CompositeModel) (sourceRule : Rule) (entry : RuleEntry)
    (overridden : OverriddenLeaf) : Except InspectionError Cbor :=
  match overridden.leaf with
  | .target => Cbor.bytes <$> targetOverrideBytes sourceRule entry overridden.text
  | _ => Cbor.integer <$> overridden.identity model

theorem leafItem_ok {entry : RuleEntry} (hentry : entry.entryIndex = overridden.entryIndex)
    (h : leafItem model sourceRule entry overridden = .ok raw) :
    overridden.Written model sourceRule raw := by
  obtain ⟨entryIndex, leaf, text⟩ := overridden
  cases leaf with
  | target =>
    obtain ⟨bytes, hbytes, rfl⟩ := map_ok.mp h
    exact ⟨bytes, hentry ▸ targetOverrideBytes_ok hbytes, rfl⟩
  | matchingOperator =>
    obtain ⟨sid, hsid, rfl⟩ := map_ok.mp h
    exact ⟨sid, hsid, rfl⟩
  | cda =>
    obtain ⟨sid, hsid, rfl⟩ := map_ok.mp h
    exact ⟨sid, hsid, rfl⟩

def leafField (deps : Deps) (model : CompositeModel) (sids : ModelSids) (sourceRule : Rule)
    (destination : RuleSelector) (entry : RuleEntry) (overridden : OverriddenLeaf) :
    Except InspectionError (InstancePath × Cbor) := do
  let raw ← leafItem model sourceRule entry overridden
  let path ← duplicateOverridePath deps destination overridden.entryIndex overridden.leaf sids
  return (path, raw)

theorem overrideFields_eq (entry : RuleEntry) :
    overrideFields deps model sids sourceRule destination item entry =
      collect (leafField deps model sids sourceRule destination entry) item.leaves := by
  have hcollect (f : OverriddenLeaf → Except InspectionError (InstancePath × Cbor))
      (first : OverriddenLeaf) (rest : List OverriddenLeaf) : collect f (first :: rest) = do
        let field ← f first
        let fields ← collect f rest
        return field :: fields := by
    rw [collect]
    cases f first with
    | error error => rfl
    | ok field => cases collect f rest <;> rfl
  have hnil (f : OverriddenLeaf → Except InspectionError (InstancePath × Cbor)) :
      collect f [] = pure [] := rfl
  cases htarget : item.targetValue <;> cases hmatching : item.matchingOperator <;>
    cases hcda : item.cda <;>
    simp [overrideFields, htarget, hmatching, hcda,
      RuleDuplicateOverride.leaves, leafField, leafItem, RuleDuplicateOverride.overridden,
      RuleDuplicateOverride.text, hcollect, hnil, OverriddenLeaf.identity]

/-- What is written for an override are its leaves. -/
theorem overrideFields_ok {entry : RuleEntry} (hentry : entry.entryIndex = item.entryIndex)
    (h : overrideFields deps model sids sourceRule destination item entry = .ok fields) :
    List.Forall₂ (FieldWritten deps model sids sourceRule destination) item.leaves fields := by
  rw [overrideFields_eq, collect_ok_iff] at h
  refine ((List.forall₂_and_left _ _).mpr ⟨item.entryIndex_of_mem, h⟩).imp ?_
  rintro overridden field ⟨hindex, hfield⟩
  simp only [leafField, bind_ok, pure_ok] at hfield
  obtain ⟨raw, hraw, path, hpath, rfl⟩ := hfield
  exact ⟨hpath, leafItem_ok (hentry.trans hindex.symm) hraw⟩

end

-- ---------------------------------------------------------------------------
-- Items and paths
-- ---------------------------------------------------------------------------

/-- Numbers and byte strings, in arrays and maps of at most this depth. -/
def Cbor.Within : Nat → Cbor → Prop
  | _, .integer _ => True
  | _, .bytes _ => True
  | depth + 1, .array items => ∀ item ∈ items, item.Within depth
  | depth + 1, .map entries => ∀ entry ∈ entries, entry.1.Within depth ∧ entry.2.Within depth
  | _, _ => False

def PathComponent.number : PathComponent → Option Int
  | .sidDelta delta => some delta
  | .keyValue (.int value) => some value
  | .keyValue _ => none

def inputEntries (sids : ModelSids) (source destination : RuleSelector) (sequence : Bytes) :
    List (Cbor × Cbor) :=
  [(.integer (sids.duplicateFrom - sids.duplicateInput),
      selectorItem sids.duplicateFrom sids.duplicateFromLength sids.duplicateFromValue source)] ++
    (if sequence.isEmpty then []
      else [(.integer (sids.duplicateIpatch - sids.duplicateInput), .bytes sequence)]) ++
    [(.integer (sids.duplicateTo - sids.duplicateInput),
      selectorItem sids.duplicateTo sids.duplicateToLength sids.duplicateToValue destination)]

def operationItem (sids : ModelSids) (source destination : RuleSelector) (sequence : Bytes) :
    Cbor :=
  .map [(.integer (sids.duplicateInput - sids.duplicateRule),
    .map (inputEntries sids source destination sequence))]

def overrideComponents (sids : ModelSids) (destination : RuleSelector) (entryIndex : Nat)
    (leaf : DuplicateLeaf) : List PathComponent :=
  [.sidDelta sids.root, .sidDelta (sids.rule - sids.root), .keyValue (.ofNat destination.value),
    .keyValue (.ofNat destination.bits), .sidDelta (sids.entry - sids.rule),
    .keyValue (.ofNat entryIndex)] ++
    match leaf with
    | .target => [.sidDelta (sids.target - sids.entry), .keyValue (.ofNat 0),
        .sidDelta (sids.targetValue - sids.target)]
    | .matchingOperator => [.sidDelta (sids.matchingOperator - sids.entry)]
    | .cda => [.sidDelta (sids.cda - sids.entry)]

def overrideNumbers (sids : ModelSids) (destination : RuleSelector) (entryIndex : Nat)
    (leaf : DuplicateLeaf) : List Int :=
  [sids.root, sids.rule - sids.root, destination.value, destination.bits,
    sids.entry - sids.rule, entryIndex] ++
    match leaf with
    | .target => [sids.target - sids.entry, 0, sids.targetValue - sids.target]
    | .matchingOperator => [sids.matchingOperator - sids.entry]
    | .cda => [sids.cda - sids.entry]

-- ---------------------------------------------------------------------------
-- What is known of ciborium and rustconf
-- ---------------------------------------------------------------------------

/-- The identities of a leaf start with its short name. -/
def DuplicateLeaf.Identity (leaf : DuplicateLeaf) (name : String) : Prop :=
  leaf = .matchingOperator ∧ "mo-".toList <+: name.toList ∨
    leaf = .cda ∧ "cda-".toList <+: name.toList

/-- rustconf decodes a map member by member, and each SID is that of one identifier. -/
structure ReadsOperations (deps : Deps) (sidJson : String)
    (decodeMember : Cbor × Cbor → Option Instance) : Prop
    extends DecodesMembers deps sidJson decodeMember where
  names : ∀ {model path path' sid}, deps.rustconf.coreconfModel sidJson = .ok model →
    model.compositeModel.getSid path = some sid →
    model.compositeModel.getSid path' = some sid → path = path'

/-- ciborium reads back the shallow items it wrote. rustconf appends SIDs to paths, keys an
instance by the numbers of its path, and reads back the members that are written here:
the operation, and leaves of the destination. -/
structure ReadsRequests (deps : Deps) (sidJson : String)
    (decodeMember : Cbor × Cbor → Option Instance) : Prop
    extends ReadsOperations deps sidJson decodeMember where
  consumes : Consumes deps.ciborium.fromReader
  read : ∀ {value bytes} rest, value.Within 8 → deps.ciborium.intoWriter value = .ok bytes →
    deps.ciborium.fromReader (bytes ++ rest) = .ok (value, bytes.length)
  push : ∀ {path path' delta}, deps.rustconf.pushDelta path delta = .ok path' →
    path'.components = path.components ++ [.sidDelta delta]
  key : ∀ {model path key numbers}, deps.rustconf.coreconfModel sidJson = .ok model →
    path.components.map PathComponent.number = List.map some numbers → 1 < numbers.length →
    model.compositeModel.jsonToCborValue (deps.rustconf.pathToCborValue path) = .ok key →
      key = .array (numbers.map .integer)
  decodes : ∀ {model entries bytes instances}, deps.rustconf.coreconfModel sidJson = .ok model →
    deps.ciborium.intoWriter (.map entries) = .ok bytes →
    List.Forall₂ (fun member entry => decodeMember member = some entry) entries instances →
    model.compositeModel.decodeInstancesToIdentifierAtPath bytes = .ok instances
  operationRead : ∀ {model sids source destination} sequence,
    deps.rustconf.coreconfModel sidJson = .ok model →
    ModelSids.resolve model.compositeModel = .ok sids →
    NarrowIds source destination → source.bits ≤ 64 → destination.bits ≤ 64 → ∃ value,
      decodeMember (.integer sids.duplicateRule, operationItem sids source destination sequence) =
        some { path := { components := [.sidDelta sids.duplicateRule] }, value := some value }
  targetRead : ∀ {model sids destination entryIndex path key} bytes,
    deps.rustconf.coreconfModel sidJson = .ok model →
    ModelSids.resolve model.compositeModel = .ok sids →
    path.components = overrideComponents sids destination entryIndex .target →
    model.compositeModel.jsonToCborValue (deps.rustconf.pathToCborValue path) = .ok key → ∃ value,
      decodeMember (key, .bytes bytes) = some { path, value := some value } ∧ value.Binary bytes
  identityRead : ∀ {model sids destination entryIndex leaf path key name sid},
    deps.rustconf.coreconfModel sidJson = .ok model →
    ModelSids.resolve model.compositeModel = .ok sids →
    DuplicateLeaf.Identity leaf name →
    model.compositeModel.identitySidForValue (.string name) = .ok sid →
    path.components = overrideComponents sids destination entryIndex leaf →
    model.compositeModel.jsonToCborValue (deps.rustconf.pathToCborValue path) = .ok key → ∃ value,
      decodeMember (key, .integer sid) = some { path, value := some value } ∧
        model.compositeModel.identitySidForValue value = .ok sid

section
variable {deps : Deps} {sidJson : String}
  {decodeMember : Cbor × Cbor → Option Instance} {model : CoreconfModel}
  {sids : ModelSids} {destination : RuleSelector} {entryIndex : Nat} {leaf leaf' : DuplicateLeaf}
  {path : InstancePath}

theorem pushSid_ok (hpush : ∀ {path path' delta}, deps.rustconf.pushDelta path delta = .ok path' →
      path'.components = path.components ++ [.sidDelta delta]) {path' : InstancePath}
    (h : pushSid deps path previous sid = .ok path') :
    path'.components = path.components ++ [.sidDelta (sid - previous)] :=
  hpush (mapError_ok.mp h)

theorem duplicateOverridePath_ok (hpush : ∀ {path path' delta},
    deps.rustconf.pushDelta path delta = .ok path' →
      path'.components = path.components ++ [.sidDelta delta])
    (h : duplicateOverridePath deps destination entryIndex leaf sids = .ok path) :
    path.components = overrideComponents sids destination entryIndex leaf := by
  simp only [duplicateOverridePath, bind_ok] at h
  obtain ⟨root, hroot, rule, hrule, entry, hentry, h⟩ := h
  have hlead := pushSid_ok hpush hentry
  rw [InstancePath.pushKey, InstancePath.pushKey, pushSid_ok hpush hrule,
    pushSid_ok hpush hroot] at hlead
  cases leaf with
  | target =>
    simp only [bind_ok] at h
    obtain ⟨target, htarget, h⟩ := h
    rw [pushSid_ok hpush h, InstancePath.pushKey, pushSid_ok hpush htarget,
      InstancePath.pushKey, hlead]
    simp [overrideComponents]
  | matchingOperator =>
    rw [pushSid_ok hpush h, InstancePath.pushKey, hlead]
    simp [overrideComponents]
  | cda =>
    rw [pushSid_ok hpush h, InstancePath.pushKey, hlead]
    simp [overrideComponents]

theorem overrideKey_ok (laws : ReadsRequests deps sidJson decodeMember)
    (hmodel : deps.rustconf.coreconfModel sidJson = .ok model)
    (h : duplicateOverridePath deps destination entryIndex leaf sids = .ok path)
    (hkey : overrideKey deps model.compositeModel path = .ok key) :
    key = .array ((overrideNumbers sids destination entryIndex leaf).map .integer) := by
  refine laws.key hmodel ?_ ?_ (mapError_ok.mp hkey)
  · rw [duplicateOverridePath_ok laws.push h]
    cases leaf <;> rfl
  · cases leaf <;> simp [overrideNumbers]

theorem leafSids_ne (laws : ReadsRequests deps sidJson decodeMember)
    (hmodel : deps.rustconf.coreconfModel sidJson = .ok model)
    (hsids : ModelSids.resolve model.compositeModel = .ok sids) :
    sids.matchingOperator ≠ sids.cda := by
  intro heq
  simp only [ModelSids.resolve, bind_ok, need_ok, pure_ok] at hsids
  obtain ⟨_, -, _, -, _, -, _, -, _, -, _, -, _, -, _, -, _, -, _, -, _, -, _, -,
    _, -, _, -, _, -, _, -, _, -, _, -, _, -, _, hmatching, _, hcda, rfl⟩ := hsids
  have hsame := laws.names hmodel hmatching (hcda.trans (congrArg some heq.symm))
  simp at hsame

theorem duplicateLeafFromPath_override (laws : ReadsRequests deps sidJson decodeMember)
    (hmodel : deps.rustconf.coreconfModel sidJson = .ok model)
    (hsids : ModelSids.resolve model.compositeModel = .ok sids)
    (hvalue : destination.value < 2 ^ 32) (hbits : destination.bits ≤ 64)
    (hentry : entryIndex < 2 ^ 64)
    (h : duplicateOverridePath deps destination entryIndex leaf sids = .ok path) :
    duplicateLeafFromPath path destination sids = .ok (entryIndex, leaf) := by
  have hcomponents := duplicateOverridePath_ok laws.push h
  have hvalue : (Json.ofNat destination.value).asU64 = some destination.value :=
    Json.asU64_ofNat (hvalue.trans (by decide))
  have hbits : (Json.ofNat destination.bits).asU64 = some destination.bits :=
    Json.asU64_ofNat (lt_of_le_of_lt hbits (by decide))
  have hentry : (Json.ofNat entryIndex).asU64 = some entryIndex := Json.asU64_ofNat hentry
  have hzero : (Json.ofNat 0).asU64 = some 0 := Json.asU64_ofNat (by decide)
  have hkeys : path.keys = [.ofNat destination.value, .ofNat destination.bits, .ofNat entryIndex] ++
      if leaf = .target then [.ofNat 0] else [] := by
    rw [InstancePath.keys, hcomponents]
    cases leaf <;> rfl
  have hpath : path.absoluteSids = leaf.pathSids sids := by
    rw [InstancePath.absoluteSids, hcomponents]
    cases leaf <;> simp [overrideComponents, DuplicateLeaf.pathSids]
  have hne := leafSids_ne laws hmodel hsids
  simp only [duplicateLeafFromPath, bind_ok, need_ok, ensure_ok,
    Bool.and_eq_true, decide_eq_true_eq]
  refine ⟨destination.value, Option.bind_eq_some_iff.mpr ⟨_, by rw [hkeys]; rfl, hvalue⟩,
    destination.bits, Option.bind_eq_some_iff.mpr ⟨_, by rw [hkeys]; rfl, hbits⟩, (), ⟨rfl, rfl⟩,
    entryIndex, Option.bind_eq_some_iff.mpr ⟨_, by rw [hkeys]; rfl, hentry⟩, ?_⟩
  rw [hpath]
  cases leaf with
  | target =>
    rw [if_neg (by simp [DuplicateLeaf.pathSids]), if_neg (by simp [DuplicateLeaf.pathSids])]
    simp only [bind_ok, ensure_ok, pure_ok, Bool.and_eq_true, decide_eq_true_eq]
    exact ⟨(), ⟨rfl, by simp [hkeys]⟩, (), Option.bind_eq_some_iff.mpr
      ⟨_, by rw [hkeys]; rfl, hzero⟩, trivial⟩
  | matchingOperator =>
    rw [DuplicateLeaf.pathSids, if_pos rfl, pure_ok]
  | cda =>
    rw [DuplicateLeaf.pathSids, if_neg (by simp [hne.symm]), if_pos rfl, pure_ok]

theorem overrideNumbers_injective (hne : sids.matchingOperator ≠ sids.cda)
    (h : overrideNumbers sids destination entryIndex leaf =
      overrideNumbers sids destination entryIndex leaf') :
    leaf = leaf' := by
  cases leaf <;> cases leaf' <;> simp [overrideNumbers, hne, hne.symm] at h ⊢

end

-- ---------------------------------------------------------------------------
-- One override map
-- ---------------------------------------------------------------------------

theorem eqItemsBy_integers {left right : List Int}
    (h : Cbor.eqItemsBy floats (left.map .integer) (right.map .integer) = true) : left = right := by
  induction left generalizing right with
  | nil => cases right <;> simp [Cbor.eqItemsBy] at h ⊢
  | cons first rest ih =>
    cases right with
    | nil => simp [Cbor.eqItemsBy] at h
    | cons other others =>
      simp only [List.map_cons, Cbor.eqItemsBy, Cbor.eqBy, Bool.and_eq_true, beq_iff_eq] at h
      rw [h.1, ih h.2]

theorem rejectDuplicateItems_integers (error : ε) (numbers : List Int) :
    rejectDuplicateItems error (numbers.map .integer) = .ok () := by
  induction numbers with
  | nil => rfl
  | cons number rest ih =>
    rw [List.map_cons, rejectDuplicateItems, rejectDuplicateKeys]
    · exact ih
    all_goals nofun

theorem rejectDuplicateEntries_ok {error : ε} {previous : List Cbor} {entries : List (Cbor × Cbor)}
    (hinner : ∀ entry ∈ entries, rejectDuplicateKeys error entry.1 = .ok () ∧
      rejectDuplicateKeys error entry.2 = .ok ())
    (hprevious : ∀ entry ∈ entries, ∀ key ∈ previous, (key == entry.1) = false)
    (hapart : entries.Pairwise fun left right => (left.1 == right.1) = false) :
    rejectDuplicateEntries error previous entries = .ok () := by
  induction entries generalizing previous with
  | nil => rfl
  | cons entry rest ih =>
    obtain ⟨key, value⟩ := entry
    obtain ⟨hfirst, hrest⟩ := List.pairwise_cons.mp hapart
    obtain ⟨⟨hkey, hvalue⟩, hinner⟩ := List.forall_mem_cons.mp hinner
    obtain ⟨hnew, hprevious⟩ := List.forall_mem_cons.mp hprevious
    have hnew : (!previous.any (· == key)) = true := by
      simpa [List.any_eq_false] using hnew
    rw [rejectDuplicateEntries, ensure_bind hnew, hkey, ok_bind, hvalue, ok_bind]
    refine ih hinner (fun entry hentry other hother => ?_) hrest
    rcases List.mem_cons.mp hother with rfl | hother
    · exact hfirst entry hentry
    · exact hprevious entry hentry other hother

/-- An instance read for a leaf: it names the leaf, and has its value. -/
structure LeafRead (model : CompositeModel) (sids : ModelSids) (sourceRule : Rule)
    (destination : RuleSelector) (overridden : OverriddenLeaf) (entry : Instance) : Prop where
  leaf : duplicateLeafFromPath entry.path destination sids = .ok overridden.item
  value : ∃ value, entry.value = some value ∧ overridden.Given model sourceRule value

structure MemberWritten (deps : Deps) (model : CompositeModel)
    (sids : ModelSids) (sourceRule : Rule) (destination : RuleSelector)
    (overridden : OverriddenLeaf) (member : Cbor × Cbor) : Prop where
  key : ∃ path, duplicateOverridePath deps destination overridden.entryIndex
    overridden.leaf sids = .ok path ∧ overrideKey deps model path = .ok member.1
  value : overridden.Written model sourceRule member.2

theorem RuleDuplicateOverride.items_nodup (item : RuleDuplicateOverride) :
    (item.leaves.map OverriddenLeaf.item).Nodup := by
  cases htarget : item.targetValue <;> cases hmatching : item.matchingOperator <;>
    cases hcda : item.cda <;>
    simp [RuleDuplicateOverride.leaves, RuleDuplicateOverride.overridden,
      RuleDuplicateOverride.text, OverriddenLeaf.item, htarget, hmatching, hcda]

theorem RuleDuplicateOverride.leaves_length (item : RuleDuplicateOverride)
    (h : (!(item.targetValue.isNone && item.matchingOperator.isNone && item.cda.isNone)) = true) :
    1 ≤ item.leaves.length ∧ item.leaves.length ≤ 3 := by
  cases htarget : item.targetValue <;> cases hmatching : item.matchingOperator <;>
    cases hcda : item.cda <;>
    simp [RuleDuplicateOverride.leaves, RuleDuplicateOverride.overridden,
      RuleDuplicateOverride.text, htarget, hmatching, hcda] at h ⊢

theorem memberLeaves_read {destination : RuleSelector} {sids : ModelSids}
    {leaves : List OverriddenLeaf} {instances : List Instance} {seen : List (Nat × DuplicateLeaf)}
    (h : List.Forall₂ (fun overridden entry =>
      duplicateLeafFromPath entry.path destination sids =
        .ok (OverriddenLeaf.item overridden)) leaves instances)
    (hindex : ∀ overridden ∈ leaves, overridden.entryIndex = entryIndex)
    (hnodup : (leaves.map OverriddenLeaf.item).Nodup)
    (hunseen : ∀ overridden ∈ leaves, overridden.item ∉ seen) :
    memberLeaves destination sids seen instances = .ok (instances.map (·, entryIndex)) := by
  induction h generalizing seen with
  | nil => rfl
  | @cons overridden entry leaves instances hleaf hrest ih =>
    obtain ⟨hfirst, hindex⟩ := List.forall_mem_cons.mp hindex
    obtain ⟨hnew, hunseen⟩ := List.forall_mem_cons.mp hunseen
    rw [List.map_cons, List.nodup_cons] at hnodup
    simp only [memberLeaves, bind_ok, ensure_ok, pure_ok]
    refine ⟨_, hleaf, (), by simpa [OverriddenLeaf.item] using hnew, _, ih hindex hnodup.2 ?_, ?_⟩
    · intro other hother hmem
      rcases List.mem_cons.mp hmem with heq | hmem
      · exact hnodup.1 (List.mem_map.mpr ⟨other, hother, heq⟩)
      · exact hunseen other hother hmem
    · rw [List.map_cons]
      exact congrArg (fun index => (entry, index) :: _) hfirst

theorem forall₂_exists {r : α → β → Prop} {s : β → γ → Prop} {t : α → γ → Prop}
    (hexists : ∀ a b, r a b → ∃ c, s b c ∧ t a c) (h : List.Forall₂ r as bs) :
    ∃ cs, List.Forall₂ s bs cs ∧ List.Forall₂ t as cs := by
  induction h with
  | nil => exact ⟨[], .nil, .nil⟩
  | cons hab _ ih =>
    obtain ⟨c, hbc, hac⟩ := hexists _ _ hab
    obtain ⟨cs, hbs, has⟩ := ih
    exact ⟨c :: cs, .cons hbc hbs, .cons hac has⟩

section
variable {deps : Deps} {sidJson : String}
  {decodeMember : Cbor × Cbor → Option Instance} {model : CoreconfModel}
  {sids : ModelSids} {sourceRule : Rule} {destination : RuleSelector}

theorem OverriddenLeaf.identity_ok {model : CompositeModel} {overridden : OverriddenLeaf}
    (hleaf : overridden.leaf ≠ .target) (h : overridden.identity model = .ok sid) :
    ∃ name, overridden.leaf.Identity name ∧ model.identitySidForValue (.string name) = .ok sid := by
  simp only [identity, duplicateIdentitySid, bind_ok, mapError_ok] at h
  obtain ⟨_, -, hnumber⟩ := h
  refine ⟨_, ?_, hnumber⟩
  have hlead (lead : String) : lead.toList <+:
      (if lead.toList.isPrefixOf overridden.text.toList then overridden.text
        else lead ++ overridden.text).toList := by
    split
    · next hprefix => exact List.isPrefixOf_iff_prefix.mp hprefix
    · exact ⟨_, by rw [String.toList_append]⟩
  cases hcase : overridden.leaf with
  | target => exact absurd hcase hleaf
  | matchingOperator => exact .inl ⟨rfl, by simpa [hcase] using hlead "mo-"⟩
  | cda => exact .inr ⟨rfl, by simpa [hcase] using hlead "cda-"⟩

theorem MemberWritten.decoded (laws : ReadsRequests deps sidJson decodeMember)
    (hmodel : deps.rustconf.coreconfModel sidJson = .ok model)
    (hsids : ModelSids.resolve model.compositeModel = .ok sids)
    (hvalue : destination.value < 2 ^ 32) (hbits : destination.bits ≤ 64)
    {overridden : OverriddenLeaf} (hentry : overridden.entryIndex < 2 ^ 64)
    (h : MemberWritten deps model.compositeModel sids sourceRule destination overridden member) :
    ∃ entry, decodeMember member = some entry ∧
      LeafRead model.compositeModel sids sourceRule destination overridden entry := by
  obtain ⟨⟨path, hpath, hkey⟩, hwritten⟩ := h
  obtain ⟨key, raw⟩ := member
  have hleaf := duplicateLeafFromPath_override laws hmodel hsids hvalue hbits hentry hpath
  by_cases htarget : overridden.leaf = .target
  · obtain ⟨entryIndex, leaf, text⟩ := overridden
    cases htarget
    obtain ⟨bytes, hholds, hraw⟩ := hwritten
    obtain ⟨value, hdecoded, hbinary⟩ := laws.targetRead bytes hmodel hsids
      (duplicateOverridePath_ok laws.push hpath) (mapError_ok.mp hkey)
    cases hraw
    exact ⟨_, hdecoded, hleaf, value, rfl, bytes, hholds, hbinary⟩
  · obtain ⟨sid, hsid, hraw⟩ : ∃ sid, overridden.identity model.compositeModel = .ok sid ∧
      raw = .integer sid := by
      obtain ⟨entryIndex, leaf, text⟩ := overridden
      cases leaf with
      | target => exact absurd rfl htarget
      | matchingOperator => exact hwritten
      | cda => exact hwritten
    obtain ⟨name, hname, hnumber⟩ := OverriddenLeaf.identity_ok htarget hsid
    obtain ⟨value, hdecoded, hidentity⟩ := laws.identityRead hmodel hsids hname hnumber
      (duplicateOverridePath_ok laws.push hpath) (mapError_ok.mp hkey)
    cases hraw
    refine ⟨_, hdecoded, hleaf, value, rfl, ?_⟩
    obtain ⟨entryIndex, leaf, text⟩ := overridden
    cases leaf with
    | target => exact absurd rfl htarget
    | matchingOperator => exact ⟨sid, hsid, hidentity⟩
    | cda => exact ⟨sid, hsid, hidentity⟩

theorem overrideMember_ok {item : RuleDuplicateOverride}
    (h : overrideMember deps model.compositeModel sids sourceRule destination item = .ok bytes) :
    ∃ entries, deps.ciborium.intoWriter (.map entries) = .ok bytes ∧
      1 ≤ item.leaves.length ∧ item.leaves.length ≤ 3 ∧
      List.Forall₂ (MemberWritten deps model.compositeModel sids sourceRule destination)
        item.leaves entries := by
  simp only [overrideMember, bind_ok, need_ok, ensure_ok, mapError_ok] at h
  obtain ⟨entry, hentry, _, hsome, fields, hfields, entries, hentries, hwritten⟩ := h
  have hindex : entry.entryIndex = item.entryIndex := by simpa using List.find?_some hentry
  obtain ⟨hpos, hle⟩ := item.leaves_length hsome
  refine ⟨entries, hwritten, hpos, hle, ?_⟩
  refine forall₂_trans (fun overridden field member hfield hmember => ?_)
    (overrideFields_ok hindex hfields) (collect_ok_iff.mp hentries)
  simp only [bind_ok, pure_ok] at hmember
  obtain ⟨key, hkey, rfl⟩ := hmember
  exact ⟨⟨field.1, hfield.path, hkey⟩, hfield.value⟩

theorem members_apart (laws : ReadsRequests deps sidJson decodeMember)
    (hmodel : deps.rustconf.coreconfModel sidJson = .ok model)
    (hsids : ModelSids.resolve model.compositeModel = .ok sids) {leaves : List OverriddenLeaf}
    (hindex : ∀ overridden ∈ leaves, overridden.entryIndex = entryIndex)
    (hnodup : (leaves.map OverriddenLeaf.item).Nodup)
    (h : List.Forall₂ (MemberWritten deps model.compositeModel sids sourceRule destination)
      leaves entries) :
    entries.Pairwise fun left right => (left.1 == right.1) = false := by
  have hkeys := (List.forall₂_and_left _ _).mpr ⟨hindex, h⟩
  refine forall₂_pairwise (fun left right overridden other hleft hright hne => ?_) hkeys.flip
    (List.pairwise_map.mp hnodup)
  obtain ⟨rfl, ⟨path, hpath, hkey⟩, -⟩ := hleft
  obtain ⟨hsame, ⟨path', hpath', hkey'⟩, -⟩ := hright
  rw [overrideKey_ok laws hmodel hpath hkey, overrideKey_ok laws hmodel hpath' hkey']
  refine Bool.eq_false_iff.mpr fun heq => hne ?_
  have hnumbers := eqItemsBy_integers heq
  rw [hsame] at hnumbers
  exact Prod.ext hsame.symm (overrideNumbers_injective (leafSids_ne laws hmodel hsids) hnumbers)

theorem MemberWritten.shallow (laws : ReadsRequests deps sidJson decodeMember)
    (hmodel : deps.rustconf.coreconfModel sidJson = .ok model) {overridden : OverriddenLeaf}
    (h : MemberWritten deps model.compositeModel sids sourceRule destination overridden member)
    (error : ε) : (member.1.Within 7 ∧ member.2.Within 7) ∧
      rejectDuplicateKeys error member.1 = .ok () ∧
        rejectDuplicateKeys error member.2 = .ok () := by
  obtain ⟨⟨path, hpath, hkey⟩, hwritten⟩ := h
  obtain ⟨key, raw⟩ := member
  cases overrideKey_ok laws hmodel hpath hkey
  have hraw : (∃ bytes, raw = .bytes bytes) ∨ ∃ sid, raw = .integer sid := by
    obtain ⟨entryIndex, leaf, text⟩ := overridden
    cases leaf with
    | target =>
      obtain ⟨bytes, -, hraw⟩ := hwritten
      exact .inl ⟨bytes, hraw⟩
    | matchingOperator =>
      obtain ⟨sid, -, hraw⟩ := hwritten
      exact .inr ⟨sid, hraw⟩
    | cda =>
      obtain ⟨sid, -, hraw⟩ := hwritten
      exact .inr ⟨sid, hraw⟩
  have hitems (numbers : List Int) : ∀ item ∈ numbers.map Cbor.integer, item.Within 6 := by
    intro item hitem
    obtain ⟨number, -, rfl⟩ := List.mem_map.mp hitem
    exact trivial
  have hkeys := rejectDuplicateItems_integers error
    (overrideNumbers sids destination overridden.entryIndex
    overridden.leaf)
  rcases hraw with ⟨bytes, rfl⟩ | ⟨sid, rfl⟩
  · exact ⟨⟨hitems _, trivial⟩, hkeys, rfl⟩
  · exact ⟨⟨hitems _, trivial⟩, hkeys, rfl⟩

/-- An override map is read back: wherever it stands, and as one instance for each leaf. -/
theorem overrideMember_read (laws : ReadsRequests deps sidJson decodeMember)
    (hmodel : deps.rustconf.coreconfModel sidJson = .ok model)
    (hsids : ModelSids.resolve model.compositeModel = .ok sids)
    (hvalue : destination.value < 2 ^ 32) (hbits : destination.bits ≤ 64)
    {item : RuleDuplicateOverride} (hentry : item.entryIndex < 2 ^ 64)
    (h : overrideMember deps model.compositeModel sids sourceRule destination item = .ok bytes) :
    ∃ value instances, (∀ rest, deps.ciborium.fromReader (bytes ++ rest) =
      .ok (value, bytes.length)) ∧ decodeInnerMember deps model.compositeModel
        destination sids value bytes = .ok (instances.map (·, item.entryIndex)) ∧
      List.Forall₂ (LeafRead model.compositeModel sids sourceRule destination)
        item.leaves instances := by
  obtain ⟨entries, hwritten, hpos, hle, hmembers⟩ := overrideMember_ok h
  have hlength := hmembers.length_eq
  have hindexed := (List.forall₂_and_left _ _).mpr ⟨item.entryIndex_of_mem, hmembers⟩
  obtain ⟨instances, hdecoded, hread⟩ : ∃ instances, List.Forall₂ (fun member entry =>
      decodeMember member = some entry) entries instances ∧
      List.Forall₂ (LeafRead model.compositeModel sids sourceRule destination)
        item.leaves instances := by
    refine forall₂_exists ?_ hindexed
    rintro overridden member ⟨hindex, hmember⟩
    exact hmember.decoded laws hmodel hsids hvalue hbits (hindex ▸ hentry)
  have hshallow : ∀ member ∈ entries, (member.1.Within 7 ∧ member.2.Within 7) ∧
      rejectDuplicateKeys (invalidDuplicate "duplicate CBOR map key") member.1 = .ok () ∧
      rejectDuplicateKeys (invalidDuplicate "duplicate CBOR map key") member.2 = .ok () := by
    intro member hmember
    obtain ⟨_, -, hmember⟩ := forall₂_mem_right hmembers hmember
    exact hmember.shallow laws hmodel _
  refine ⟨.map entries, instances, fun rest =>
    laws.read rest (fun member hmember => ?_) hwritten, ?_, hread⟩
  · exact (hshallow member hmember).1
  · have hapart := members_apart laws hmodel hsids item.entryIndex_of_mem item.items_nodup hmembers
    have hunique : rejectDuplicateCborKeys (.map entries) = .ok () :=
      rejectDuplicateEntries_ok (fun member hmember => (hshallow member hmember).2) (by simp) hapart
    simp only [decodeInnerMember, bind_ok, ensure_ok, mapError_ok, decide_eq_true_eq]
    refine ⟨(), ⟨hlength ▸ hpos, hlength ▸ hle⟩, (), hunique, bytes, hwritten, (), rfl, instances,
      laws.decodes hmodel hwritten hdecoded, (), (hdecoded.length_eq).symm, ?_⟩
    exact memberLeaves_read (hread.imp fun _ _ hleaf => hleaf.leaf)
      item.entryIndex_of_mem item.items_nodup (by simp)

/-- The override maps are read back one after the other. -/
theorem decodeInnerMembers_read (laws : ReadsRequests deps sidJson decodeMember)
    (hmodel : deps.rustconf.coreconfModel sidJson = .ok model)
    (hsids : ModelSids.resolve model.compositeModel = .ok sids)
    (hvalue : destination.value < 2 ^ 32) (hbits : destination.bits ≤ 64)
    {overrides : List RuleDuplicateOverride} (h : List.Forall₂ (fun item bytes =>
      overrideMember deps model.compositeModel sids sourceRule destination item =
        .ok bytes) overrides members)
    (hentries : ∀ item ∈ overrides, RuleDuplicateOverride.entryIndex item < 2 ^ 64)
    (hdistinct : (overrides.map (·.entryIndex)).Nodup)
    (hnew : ∀ item ∈ overrides, item.entryIndex ∉ groups) (hfuel : members.flatten.length ≤ fuel) :
    ∃ instances, decodeInnerMembers deps model.compositeModel destination sids
      groups fuel members.flatten =
        .ok instances ∧
      List.Forall₂ (LeafRead model.compositeModel sids sourceRule destination)
        (overrides.flatMap (·.leaves)) instances := by
  induction h generalizing groups fuel with
  | nil =>
    refine ⟨[], ?_, .nil⟩
    cases fuel <;> simp [decodeInnerMembers]
  | @cons item bytes overrides members hmember _ ih =>
    obtain ⟨hentry, hentries⟩ := List.forall_mem_cons.mp hentries
    obtain ⟨hfirst, hnew⟩ := List.forall_mem_cons.mp hnew
    rw [List.map_cons, List.nodup_cons] at hdistinct
    obtain ⟨value, instances, hread, hdecoded, hleaves⟩ :=
      overrideMember_read laws hmodel hsids hvalue hbits hentry hmember
    have hpos := (laws.consumes _ _ _ (hread members.flatten)).1
    rw [List.flatten_cons, List.length_append] at hfuel
    obtain ⟨fuel, rfl⟩ : ∃ rest, fuel = rest + 1 := ⟨fuel - 1, by omega⟩
    have hlater : ∀ other ∈ overrides,
        other.entryIndex ∉ (instances.map (·, item.entryIndex)).map (·.2) ++ groups := by
      intro other hother hmem
      rcases List.mem_append.mp hmem with hmem | hmem
      · simp only [List.map_map, List.mem_map, Function.comp_apply] at hmem
        obtain ⟨_, -, hsame⟩ := hmem
        exact hdistinct.1 (List.mem_map.mpr ⟨other, hother, hsame.symm⟩)
      · exact hnew other hother hmem
    obtain ⟨others, hothers, hrest⟩ := ih hentries hdistinct.2 hlater (show _ ≤ fuel by omega)
    refine ⟨instances ++ others, ?_, ?_⟩
    · have hunused : (!(instances.map (·, item.entryIndex)).any (groups.contains ·.2)) = true := by
        simp [hfirst]
      have hsome : (bytes ++ members.flatten).isEmpty = false := by
        rw [List.isEmpty_eq_false_iff, ← List.length_pos_iff, List.length_append]
        omega
      rw [List.flatten_cons, decodeInnerMembers, hsome, hread]
      simp only [Bool.false_eq_true, if_false, Except.mapError, ok_bind, List.take_left,
        List.drop_left, hdecoded, ensure_bind hunused, hothers, pure_ok]
      simp [Function.comp_def]
    · rw [List.flatMap_cons]
      exact List.rel_append hleaves hrest

end

-- ---------------------------------------------------------------------------
-- What a container states
-- ---------------------------------------------------------------------------

section
variable {model : CompositeModel} {path name : String} {members : List (String × Json)}
  {stated : List (Cbor × Cbor)} {raw : Cbor} {value : Json}

theorem Json.MembersStatedBy.lookup_of_mem
    (hnames : ∀ {path path' sid}, model.getSid path = some sid →
      model.getSid path' = some sid → path = path')
    (h : MembersStatedBy model path members stated) (hkeys : (stated.map Prod.fst).Nodup)
    (hparent : model.getSid path = some parent)
    (hsid : model.getSid (path ++ "/" ++ name) = some sid)
    (hentry : (.integer (sid - parent), raw) ∈ stated) :
    ∃ value, lookup members name = some value ∧ value.StatedBy model (path ++ "/" ++ name) raw := by
  induction members generalizing stated with
  | nil =>
    rw [MembersStatedBy] at h
    subst h
    cases hentry
  | cons member rest ih =>
    obtain ⟨other, first⟩ := member
    rw [MembersStatedBy] at h
    obtain ⟨parent', sid', firstRaw, others, hparent', hsid', rfl, hfirst, hrest⟩ := h
    cases hparent.symm.trans hparent'
    rw [List.map_cons, List.nodup_cons] at hkeys
    rw [lookup]
    by_cases hname : other = name
    · subst hname
      cases hsid.symm.trans hsid'
      rcases List.mem_cons.mp hentry with heq | hmem
      · cases heq
        exact ⟨first, if_pos rfl, hfirst⟩
      · exact absurd (List.mem_map.mpr ⟨_, hmem, rfl⟩) hkeys.1
    · rw [if_neg hname]
      refine ih hrest hkeys.2 (List.mem_of_ne_of_mem ?_ hentry)
      intro heq
      injection heq with hkey _
      injection hkey with hdelta
      have hsame : sid' = sid := by omega
      have hpaths : path ++ "/" ++ other = path ++ "/" ++ name := hnames (hsame ▸ hsid') hsid
      exact hname ((String.append_right_inj _).mp hpaths)

theorem Json.MembersStatedBy.mem_of_name (h : MembersStatedBy model path members stated)
    (hmember : (name, value) ∈ members) :
    ∃ parent sid raw, model.getSid path = some parent ∧
    model.getSid (path ++ "/" ++ name) = some sid ∧
      (.integer (sid - parent), raw) ∈ stated := by
  induction members generalizing stated with
  | nil => cases hmember
  | cons member rest ih =>
    obtain ⟨other, first⟩ := member
    rw [MembersStatedBy] at h
    obtain ⟨parent, sid, raw, others, hparent, hsid, rfl, -, hrest⟩ := h
    rcases List.mem_cons.mp hmember with heq | hmember
    · cases heq
      exact ⟨parent, sid, raw, hparent, hsid, List.mem_cons_self⟩
    · obtain ⟨parent, sid, raw, hparent, hsid, hmem⟩ := ih hrest hmember
      exact ⟨parent, sid, raw, hparent, hsid, List.mem_cons_of_mem _ hmem⟩

theorem Json.lookup_mem {members : List (String × Json)} (h : lookup members name = some value) :
    (name, value) ∈ members := by
  induction members with
  | nil => cases h
  | cons member rest ih =>
    obtain ⟨other, first⟩ := member
    rw [lookup] at h
    by_cases hname : other = name
    · rw [if_pos hname] at h
      cases h
      subst hname
      exact List.mem_cons_self
    · rw [if_neg hname] at h
      exact List.mem_cons_of_mem _ (ih h)

theorem Json.statedBy_map (h : value.StatedBy model path (.map entries)) :
    ∃ members stated, value = .object members ∧ entries.Perm stated ∧
      MembersStatedBy model path members stated := by
  cases value with
  | object members =>
    rw [StatedBy] at h
    obtain ⟨_, stated, heq, hperm, hmembers⟩ := h
    cases heq
    exact ⟨members, stated, rfl, hperm, hmembers⟩
  | int number =>
    rw [StatedBy] at h
    cases h
  | string text =>
    rw [StatedBy] at h
    obtain ⟨_, h, -⟩ := h
    cases h
  | array items =>
    rw [StatedBy] at h
    obtain ⟨_, h, -⟩ := h
    cases h
  | _ => simp [StatedBy] at h

theorem Json.statedBy_number (h : value.StatedBy model path (.integer number)) :
    value = .int number := by
  cases value with
  | int other =>
    rw [StatedBy] at h
    cases h
    rfl
  | object members =>
    rw [StatedBy] at h
    obtain ⟨_, _, h, -⟩ := h
    cases h
  | string text =>
    rw [StatedBy] at h
    obtain ⟨_, h, -⟩ := h
    cases h
  | array items =>
    rw [StatedBy] at h
    obtain ⟨_, h, -⟩ := h
    cases h
  | _ => simp [StatedBy] at h

theorem Json.statedBy_bytes {bytes : Bytes} (h : value.StatedBy model path (.bytes bytes)) :
    value.Binary bytes := by
  cases value with
  | string text =>
    rw [StatedBy] at h
    obtain ⟨_, heq, htext⟩ := h
    cases heq
    exact .inl ⟨text, rfl, htext⟩
  | array items =>
    rw [StatedBy] at h
    obtain ⟨_, heq, rfl⟩ := h
    cases heq
    exact .inr rfl
  | int other =>
    rw [StatedBy] at h
    cases h
  | object members =>
    rw [StatedBy] at h
    obtain ⟨_, _, h, -⟩ := h
    cases h
  | _ => simp [StatedBy] at h

end

-- ---------------------------------------------------------------------------
-- The operation
-- ---------------------------------------------------------------------------

theorem integer_ne {left right : Int} (h : left ≠ right) :
    (Cbor.integer left == Cbor.integer right) = false := by
  refine Bool.eq_false_iff.mpr fun heq => h ?_
  have heq : (left == right) = true := heq
  exact eq_of_beq heq

structure InputSids (model : CompositeModel) (sids : ModelSids) : Prop where
  selectors : sids.duplicateFromLength ≠ sids.duplicateFromValue ∧
    sids.duplicateToLength ≠ sids.duplicateToValue
  members : sids.duplicateFrom ≠ sids.duplicateIpatch ∧ sids.duplicateFrom ≠ sids.duplicateTo ∧
    sids.duplicateIpatch ≠ sids.duplicateTo

section
variable {deps : Deps} {sidJson : String}
  {decodeMember : Cbor × Cbor → Option Instance} {model : CoreconfModel}
  {sids : ModelSids} {source destination selector : RuleSelector} {sequence : Bytes}
  {path : String} {value : Json}

theorem inputSids_apart (laws : ReadsOperations deps sidJson decodeMember)
    (hmodel : deps.rustconf.coreconfModel sidJson = .ok model)
    (hsids : ModelSids.resolve model.compositeModel = .ok sids) :
    InputSids model.compositeModel sids := by
  obtain ⟨-, -, hfrom, hfromLength, hfromValue, hipatch, hto, htoLength, htoValue⟩ :=
    ModelSids.resolve_operation hsids
  have hne {path path' : String} {sid sid' : Int} (hpath : path ≠ path')
      (h : model.compositeModel.getSid path = some sid)
      (h' : model.compositeModel.getSid path' = some sid') :
      sid ≠ sid' := by
    rintro rfl
    exact hpath (laws.names hmodel h h')
  exact {
    selectors := ⟨hne (by decide) hfromLength hfromValue, hne (by decide) htoLength htoValue⟩
    members := ⟨hne (by decide) hfrom hipatch, hne (by decide) hfrom hto,
      hne (by decide) hipatch hto⟩ }

theorem inputEntries_keys (hapart : InputSids model.compositeModel sids) :
    (inputEntries sids source destination sequence).Pairwise fun left right =>
      (left.1 == right.1) = false := by
  obtain ⟨hfromIpatch, hfromTo, hipatchTo⟩ := hapart.members
  have hdelta {left right : Int} (h : left ≠ right) :
      (Cbor.integer (left - sids.duplicateInput) == Cbor.integer (right - sids.duplicateInput)) =
        false :=
    integer_ne (by omega)
  by_cases hempty : sequence.isEmpty
  · simp [inputEntries, hempty, hdelta hfromTo]
  · simp [inputEntries, hempty, hdelta hfromTo, hdelta hfromIpatch, hdelta hipatchTo]

theorem inputEntries_nodup (hapart : InputSids model.compositeModel sids) :
    ((inputEntries sids source destination sequence).map Prod.fst).Nodup := by
  have hkeys : (inputEntries sids source destination sequence).Pairwise fun left right =>
    left.1 ≠ right.1 := by
    obtain ⟨hfromIpatch, hfromTo, hipatchTo⟩ := hapart.members
    by_cases hempty : sequence.isEmpty
    · simp [inputEntries, hempty, hfromTo]
    · simp [inputEntries, hempty, hfromTo, hfromIpatch, hipatchTo]
  exact List.pairwise_map.mpr hkeys

theorem operationItem_unique (hapart : InputSids model.compositeModel sids) :
    rejectDuplicateCborKeys
      (.map [(.integer sids.duplicateRule, operationItem sids source destination sequence)]) =
        .ok () := by
  have hone {error : InspectionError} {key : Int} {value : Cbor}
      (h : rejectDuplicateKeys error value = .ok ()) :
      rejectDuplicateKeys error (.map [(.integer key, value)]) = .ok () :=
    rejectDuplicateEntries_ok (by simpa using ⟨rfl, h⟩) (by simp) (by simp)
  have hselector {error : InspectionError} {container length value : Int} (selector : RuleSelector)
      (h : length ≠ value) :
      rejectDuplicateKeys error (selectorItem container length value selector) = .ok () := by
    refine rejectDuplicateEntries_ok ?_ (by simp) ?_
    · intro entry hentry
      simp only [List.mem_cons, List.not_mem_nil, or_false] at hentry
      rcases hentry with rfl | rfl <;> exact ⟨rfl, rfl⟩
    · simpa using integer_ne (show length - container ≠ value - container by omega)
  refine hone (hone (rejectDuplicateEntries_ok ?_ (by simp) (inputEntries_keys hapart)))
  intro entry hentry
  rw [inputEntries, List.mem_append, List.mem_append] at hentry
  rcases hentry with (hentry | hentry) | hentry
  · cases List.mem_singleton.mp hentry
    exact ⟨rfl, hselector source hapart.selectors.1⟩
  · split at hentry
    · cases hentry
    · cases List.mem_singleton.mp hentry
      exact ⟨rfl, rfl⟩
  · cases List.mem_singleton.mp hentry
    exact ⟨rfl, hselector destination hapart.selectors.2⟩

theorem operationItem_within (key : Int) :
    (Cbor.map [(.integer key, operationItem sids source destination sequence)]).Within 8 := by
  have hselector (container length value : Int) (selector : RuleSelector) :
      (selectorItem container length value selector).Within 5 := by
    intro entry hentry
    simp only [List.mem_cons, List.not_mem_nil, or_false] at hentry
    rcases hentry with rfl | rfl <;> exact ⟨trivial, trivial⟩
  have hinput : (Cbor.map (inputEntries sids source destination sequence)).Within 6 := by
    intro entry hentry
    rw [inputEntries, List.mem_append, List.mem_append] at hentry
    rcases hentry with (hentry | hentry) | hentry
    · cases List.mem_singleton.mp hentry
      exact ⟨trivial, hselector _ _ _ _⟩
    · split at hentry
      · cases hentry
      · cases List.mem_singleton.mp hentry
        exact ⟨trivial, trivial⟩
    · cases List.mem_singleton.mp hentry
      exact ⟨trivial, hselector _ _ _ _⟩
  have hone {depth : Nat} {value : Cbor} (key : Int) (h : value.Within depth) :
      (Cbor.map [(.integer key, value)]).Within (depth + 1) := by
    intro entry hentry
    cases List.mem_singleton.mp hentry
    have hkey : (Cbor.integer key).Within depth := by cases depth <;> trivial
    exact ⟨hkey, h⟩
  exact hone key (hone _ hinput)

theorem selectorItem_states (laws : ReadsOperations deps sidJson decodeMember)
    (hmodel : deps.rustconf.coreconfModel sidJson = .ok model)
    (hstated : value.StatedBy model.compositeModel path
      (selectorItem container length number selector))
    (hcontainer : model.compositeModel.getSid path = some container)
    (hlength : model.compositeModel.getSid (path ++ "/" ++ "rule-id-length") = some length)
    (hnumber : model.compositeModel.getSid (path ++ "/" ++ "rule-id-value") = some number)
    (hne : length ≠ number) (hfits : selector.value < 2 ^ 64 ∧ selector.bits ≤ 64) :
    ∃ members, value = .object members ∧ StatesSelector members selector := by
  obtain ⟨members, stated, rfl, hperm, hmembers⟩ := Json.statedBy_map hstated
  have hkeys : (stated.map Prod.fst).Nodup := by
    refine (hperm.map Prod.fst).nodup_iff.mp ?_
    simpa using fun heq : length - container = number - container => hne (by omega)
  obtain ⟨bits, hbits, hbitsStated⟩ :=
    hmembers.lookup_of_mem (laws.names hmodel) hkeys hcontainer hlength
    (hperm.subset List.mem_cons_self)
  obtain ⟨found, hfound, hfoundStated⟩ :=
    hmembers.lookup_of_mem (laws.names hmodel) hkeys hcontainer hnumber
    (hperm.subset (List.mem_cons_of_mem _ List.mem_cons_self))
  cases Json.statedBy_number hbitsStated
  cases Json.statedBy_number hfoundStated
  exact ⟨members, rfl, hmembers.length_eq.trans hperm.length_eq.symm, hfound, hbits, hfits⟩

theorem rpcSelector_of {members : List (String × Json)}
    (h : StatesSelector members selector) (label : String) :
    rpcSelector members label = .ok selector := by
  have hvalue := Json.asU64_ofNat h.fits.1
  have hbits := Json.asU64_ofNat (lt_of_le_of_lt h.fits.2 (by decide : 64 < 2 ^ 64))
  simp only [rpcSelector, bind_ok, ensure_ok, need_ok, pure_ok, Bool.and_eq_true, decide_eq_true_eq]
  exact ⟨(), ⟨⟨h.length, by rw [h.value]; rfl⟩, by rw [h.bits]; rfl⟩,
    _, Option.bind_eq_some_iff.mpr ⟨_, h.value, hvalue⟩, _,
    Option.bind_eq_some_iff.mpr ⟨_, h.bits, hbits⟩, rfl⟩

theorem inputEntries_states (laws : ReadsOperations deps sidJson decodeMember)
    (hmodel : deps.rustconf.coreconfModel sidJson = .ok model)
    (hsids : ModelSids.resolve model.compositeModel = .ok sids)
    (hstated : value.StatedBy model.compositeModel "/ietf-schc:duplicate-rule/input"
      (.map (inputEntries sids source destination sequence)))
    (hsource : source.value < 2 ^ 64 ∧ source.bits ≤ 64)
    (hdestination : destination.value < 2 ^ 64 ∧ destination.bits ≤ 64) :
    ∃ input, value = .object input ∧ StatesInput input source destination sequence ∧
      ∀ member ∈ input, member.1 ∈ ["from", "to", "ipatch-sequence"] := by
  obtain ⟨-, hinput, hfrom, hfromLength, hfromValue, hipatch, hto, htoLength, htoValue⟩ :=
    ModelSids.resolve_operation hsids
  have hapart := inputSids_apart laws hmodel hsids
  obtain ⟨input, stated, rfl, hperm, hmembers⟩ := Json.statedBy_map hstated
  have hkeys : (stated.map Prod.fst).Nodup :=
    (hperm.map Prod.fst).nodup_iff.mp (inputEntries_nodup hapart)
  have hlookup (name : String) (raw : Cbor) {sid : Int}
      (hsid : model.compositeModel.getSid
        ("/ietf-schc:duplicate-rule/input" ++ "/" ++ name) = some sid)
      (hentry : (.integer (sid - sids.duplicateInput), raw) ∈
        inputEntries sids source destination sequence) :
      ∃ value, Json.lookup input name = some value ∧
        value.StatedBy model.compositeModel
          ("/ietf-schc:duplicate-rule/input" ++ "/" ++ name) raw :=
    hmembers.lookup_of_mem (laws.names hmodel) hkeys hinput hsid (hperm.subset hentry)
  -- a member of the input has the SID of one of the entries
  have hstatedName {name : String} {value : Json} (hmember : (name, value) ∈ input) :
      ∃ sid raw, model.compositeModel.getSid
        ("/ietf-schc:duplicate-rule/input" ++ "/" ++ name) = some sid ∧
        (.integer (sid - sids.duplicateInput), raw) ∈
          inputEntries sids source destination sequence := by
    obtain ⟨parent, sid, raw, hparent, hsid, hentry⟩ := hmembers.mem_of_name hmember
    cases hinput.symm.trans hparent
    exact ⟨sid, raw, hsid, hperm.mem_iff.mpr hentry⟩
  have hname (name name' : String) {sid : Int}
      (h : model.compositeModel.getSid ("/ietf-schc:duplicate-rule/input" ++
        "/" ++ name) = some sid)
      (h' : model.compositeModel.getSid ("/ietf-schc:duplicate-rule/input" ++ "/" ++ name') =
        some sid) :
      name = name' := (String.append_right_inj _).mp (laws.names hmodel h h')
  obtain ⟨sourceValue, hsourceFound, hsourceStated⟩ := hlookup "from"
    (selectorItem sids.duplicateFrom sids.duplicateFromLength sids.duplicateFromValue source) hfrom
    (by simp [inputEntries])
  obtain ⟨destinationValue, hdestinationFound, hdestinationStated⟩ := hlookup "to"
    (selectorItem sids.duplicateTo sids.duplicateToLength sids.duplicateToValue destination) hto
    (by simp [inputEntries])
  obtain ⟨sourceMembers, rfl, hsourceStates⟩ :=
    selectorItem_states laws hmodel hsourceStated hfrom hfromLength
    hfromValue hapart.selectors.1 hsource
  obtain ⟨destinationMembers, rfl, hdestinationStates⟩ :=
    selectorItem_states laws hmodel hdestinationStated hto
    htoLength htoValue hapart.selectors.2 hdestination
  refine ⟨input, rfl, ⟨⟨_, hsourceFound, hsourceStates⟩,
    ⟨_, hdestinationFound, hdestinationStates⟩, ?_⟩, ?_⟩
  · by_cases hempty : sequence = []
    · left
      refine ⟨?_, hempty⟩
      cases hfound : Json.lookup input "ipatch-sequence" with
      | none => rfl
      | some value =>
        obtain ⟨sid, raw, hsid, hentry⟩ := hstatedName (Json.lookup_mem hfound)
        cases hipatch.symm.trans hsid
        simp only [inputEntries, hempty, List.isEmpty_nil, if_true,
          List.append_nil, List.mem_append, List.mem_singleton, Prod.mk.injEq,
          Cbor.integer.injEq] at hentry
        obtain ⟨hfromIpatch, -, hipatchTo⟩ := hapart.members
        omega
    · right
      obtain ⟨value, hfound, hstated⟩ := hlookup "ipatch-sequence" (.bytes sequence) hipatch
        (by simp [inputEntries, hempty])
      rcases Json.statedBy_bytes hstated with ⟨text, rfl, htext⟩ | rfl
      · exact .inl ⟨text, hfound, htext⟩
      · exact .inr ⟨_, hfound, nofun, binaryBytes_array sequence⟩
  · rintro ⟨name, value⟩ hmember
    obtain ⟨sid, raw, hsid, hentry⟩ := hstatedName hmember
    rw [inputEntries, List.mem_append, List.mem_append] at hentry
    have hdelta {sid' : Int} (h : sid - sids.duplicateInput = sid' - sids.duplicateInput) :
        sid = sid' := by
      omega
    rcases hentry with (hentry | hentry) | hentry
    · injection List.mem_singleton.mp hentry with hkey _
      injection hkey with hkey
      cases hdelta hkey
      simp [hname name "from" hsid hfrom]
    · split at hentry
      · cases hentry
      · injection List.mem_singleton.mp hentry with hkey _
        injection hkey with hkey
        cases hdelta hkey
        simp [hname name "ipatch-sequence" hsid hipatch]
    · injection List.mem_singleton.mp hentry with hkey _
      injection hkey with hkey
      cases hdelta hkey
      simp [hname name "to" hsid hto]

theorem rpcInput_of {entry : Instance} {input : List (String × Json)} (rschc : RSchc)
    (hpath : entry.path.components = [.sidDelta sids.duplicateRule])
    (hvalue : entry.value = some (.object [("input", .object input)]))
    (hstates : StatesInput input source destination sequence)
    (hknown : ∀ member ∈ input, member.1 ∈ ["from", "to", "ipatch-sequence"])
    (hsource : RuleSelector.new source.value source.bits = .ok source)
    (hdestination : RuleSelector.new destination.value destination.bits = .ok destination) :
    rpcInput rschc sids [entry] = .ok (source, destination, sequence) := by
  obtain ⟨sourceMembers, hsourceFound, hsourceStates⟩ := hstates.source
  obtain ⟨destinationMembers, hdestinationFound, hdestinationStates⟩ := hstates.destination
  simp only [rpcInput, bind_ok, ensure_ok, need_ok, mapError_ok,
    Bool.and_eq_true, decide_eq_true_eq]
  refine ⟨(), hpath, _, hvalue, _, rfl, (), ⟨rfl, by simp [Json.lookup]⟩,
    input, by simp [Json.lookup, Json.asObject], (), ?_, sourceMembers,
    Option.bind_eq_some_iff.mpr ⟨_, hsourceFound, rfl⟩, destinationMembers,
    Option.bind_eq_some_iff.mpr ⟨_, hdestinationFound, rfl⟩, source,
    ⟨source, rpcSelector_of hsourceStates _, hsource⟩, destination,
    ⟨destination, rpcSelector_of hdestinationStates _, hdestination⟩, ?_⟩
  · rw [List.all_eq_true]
    intro member hmember
    exact List.contains_iff_mem.mpr (hknown member hmember)
  · rcases hstates.sequence with ⟨hnone, rfl⟩ | ⟨text, hfound, htext⟩ |
      ⟨value, hfound, hother, hbytes⟩
    · rw [hnone]
      rfl
    · rw [hfound]
      simp only [base64Decode_ok.mpr htext, ok_bind]
      rfl
    · rw [hfound]
      cases value with
      | string text => exact absurd rfl (hother text)
      | _ =>
        simp only [hbytes, ok_bind]
        rfl

theorem encodeDuplicateRpcPayload_ok (laws : ReadsOperations deps sidJson decodeMember)
    (hmodel : deps.rustconf.coreconfModel sidJson = .ok model)
    (hsids : validateDuplicateModelShape model.compositeModel = .ok sids)
    {request : RuleDuplicateRequest}
    (h : encodeDuplicateRpcPayload deps model request sequence = .ok payload) :
    NarrowIds request.source request.destination ∧
      deps.ciborium.intoWriter (.map [(.integer sids.duplicateRule,
        operationItem sids request.source request.destination sequence)]) = .ok payload := by
  obtain ⟨hrule, hinput, hfrom, hfromLength, hfromValue, hipatch, hto, htoLength, htoValue⟩ :=
    ModelSids.resolve_operation (validateDuplicateModelShape_ok hsids)
  have hfit {path : String} {sid : Int} (h : model.compositeModel.getSid path = some sid) :
      0 ≤ sid ∧ sid < 2 ^ 63 := laws.sids hmodel h
  simp only [encodeDuplicateRpcPayload, hsids, ok_bind, sidDelta_ok (hfit hinput) (hfit hrule),
    sidDelta_ok (hfit hfrom) (hfit hinput), sidDelta_ok (hfit hfromLength) (hfit hfrom),
    sidDelta_ok (hfit hfromValue) (hfit hfrom), sidDelta_ok (hfit hipatch) (hfit hinput),
    sidDelta_ok (hfit hto) (hfit hinput), sidDelta_ok (hfit htoLength) (hfit hto),
    sidDelta_ok (hfit htoValue) (hfit hto), bind_ok, ensure_ok, mapError_ok, Bool.and_eq_true,
    decide_eq_true_eq] at h
  obtain ⟨_, hnarrow, hwritten⟩ := h
  exact ⟨hnarrow, hwritten⟩

theorem operationItem_states (laws : ReadsOperations deps sidJson decodeMember)
    (hmodel : deps.rustconf.coreconfModel sidJson = .ok model)
    (hsids : ModelSids.resolve model.compositeModel = .ok sids)
    (hstated : value.StatedBy model.compositeModel "/ietf-schc:duplicate-rule"
      (operationItem sids source destination sequence))
    (hsource : source.value < 2 ^ 64 ∧ source.bits ≤ 64)
    (hdestination : destination.value < 2 ^ 64 ∧ destination.bits ≤ 64) :
    ∃ input, value = .object [("input", .object input)] ∧
    StatesInput input source destination sequence ∧
      ∀ member ∈ input, member.1 ∈ ["from", "to", "ipatch-sequence"] := by
  obtain ⟨hrule, hinput, -⟩ := ModelSids.resolve_operation hsids
  obtain ⟨members, stated, rfl, hperm, hmembers⟩ := Json.statedBy_map hstated
  rw [List.singleton_perm] at hperm
  subst hperm
  have hkeys : ([(Cbor.integer (sids.duplicateInput - sids.duplicateRule),
      Cbor.map (inputEntries sids source destination sequence))].map
        Prod.fst).Nodup := List.nodup_singleton _
  have hinputSid : model.compositeModel.getSid ("/ietf-schc:duplicate-rule" ++ "/" ++ "input") =
      some sids.duplicateInput := hinput
  obtain ⟨value, hlookup, hinputStated⟩ :=
    hmembers.lookup_of_mem (laws.names hmodel) hkeys hrule hinputSid
    List.mem_cons_self
  obtain ⟨⟨name, found⟩, rfl⟩ := List.length_eq_one_iff.mp hmembers.length_eq
  obtain ⟨rfl, rfl⟩ : name = "input" ∧ found = value := by
    by_cases hname : name = "input"
    · simpa [Json.lookup, hname] using hlookup
    · simp [Json.lookup, hname] at hlookup
  obtain ⟨input, rfl, hstates, hknown⟩ :=
    inputEntries_states laws hmodel hsids hinputStated hsource hdestination
  exact ⟨input, rfl, hstates, hknown⟩

theorem NarrowIds.fits (h : NarrowIds source destination) (hsource : source.bits ≤ 64)
    (hdestination : destination.bits ≤ 64) :
    (source.value < 2 ^ 64 ∧ source.bits ≤ 64) ∧ destination.value < 2 ^ 64 ∧
    destination.bits ≤ 64 := by
  have hwide {value : Nat} (h : value < 2 ^ 32) : value < 2 ^ 64 := h.trans (by decide)
  exact ⟨⟨hwide h.1, hsource⟩, hwide h.2, hdestination⟩

/-- The operation that is written is decoded as one instance, whose value states it. -/
theorem operationItem_decoded (laws : ReadsRequests deps sidJson decodeMember)
    (hmodel : deps.rustconf.coreconfModel sidJson = .ok model)
    (hsids : ModelSids.resolve model.compositeModel = .ok sids)
    (hnarrow : NarrowIds source destination) (hsource : source.bits ≤ 64)
    (hdestination : destination.bits ≤ 64)
    (hwritten : deps.ciborium.intoWriter (.map [(.integer sids.duplicateRule,
      operationItem sids source destination sequence)]) = .ok payload) :
    ∃ entry input, model.compositeModel.decodeInstancesToIdentifierAtPath payload = .ok [entry] ∧
      entry.path.components = [.sidDelta sids.duplicateRule] ∧
      entry.value = some (.object [("input", .object input)]) ∧
      StatesInput input source destination sequence ∧
      ∀ member ∈ input, member.1 ∈ ["from", "to", "ipatch-sequence"] := by
  obtain ⟨hrule, -⟩ := ModelSids.resolve_operation hsids
  obtain ⟨value, hdecoded⟩ := laws.operationRead sequence hmodel hsids hnarrow hsource hdestination
  have hinstances := laws.decodes hmodel hwritten (.cons hdecoded .nil)
  obtain ⟨-, hstated⟩ := laws.operation hmodel hdecoded hrule rfl rfl
  obtain ⟨hsourceFits, hdestinationFits⟩ := hnarrow.fits hsource hdestination
  obtain ⟨input, rfl, hstates, hknown⟩ :=
    operationItem_states laws.toReadsOperations hmodel hsids hstated
    hsourceFits hdestinationFits
  exact ⟨_, input, hinstances, rfl, rfl, hstates, hknown⟩

theorem Json.ofNat_inj {n m : Nat} (h : Json.ofNat n = Json.ofNat m) : n = m :=
  Int.natCast_inj.mp (Json.int.inj h)

theorem StatesSelector.unique {members : List (String × Json)} {selector selector' : RuleSelector}
    (h : StatesSelector members selector) (h' : StatesSelector members selector') :
    selector = selector' := by
  obtain ⟨value, bits⟩ := selector
  obtain ⟨value', bits'⟩ := selector'
  cases Json.ofNat_inj (Option.some.inj (h.value.symm.trans h'.value))
  cases Json.ofNat_inj (Option.some.inj (h.bits.symm.trans h'.bits))
  rfl

theorem StatesInput.unique {input : List (String × Json)} {source' destination' : RuleSelector}
    {sequence' : Bytes} (h : StatesInput input source destination sequence)
    (h' : StatesInput input source' destination' sequence') :
    source = source' ∧ destination = destination' := by
  obtain ⟨_, hfrom, hsource⟩ := h.source
  obtain ⟨_, hfrom', hsource'⟩ := h'.source
  obtain ⟨_, hto, hdestination⟩ := h.destination
  obtain ⟨_, hto', hdestination'⟩ := h'.destination
  cases hfrom.symm.trans hfrom'
  cases hto.symm.trans hto'
  exact ⟨hsource.unique hsource', hdestination.unique hdestination'⟩

/-- What the decoder accepts of an encoded request is an operation on the same rules. -/
theorem decodeDuplicateOperation_selectors (laws : ReadsOperations deps sidJson decodeMember)
    (hmodel : deps.rustconf.coreconfModel sidJson = .ok model) {request : RuleDuplicateRequest}
    (hsource : request.source.bits ≤ 64) (hdestination : request.destination.bits ≤ 64)
    (hencoded : encodeDuplicateRpcPayload deps model request sequence = .ok payload)
    (hdecoded : decodeDuplicateOperation deps model payload = .ok operation) :
    operation.request.source = request.source ∧ operation.request.destination =
      request.destination := by
  simp only [decodeDuplicateOperation, bind_ok, mapError_ok, pure_ok] at hdecoded
  obtain ⟨sids, hshape, outer, houter, _, -, instances, hinstances,
    ⟨source, destination, inner⟩, hinput, _, -, _, -, rfl⟩ := hdecoded
  have hsids := validateDuplicateModelShape_ok hshape
  obtain ⟨hrule, -⟩ := ModelSids.resolve_operation hsids
  obtain ⟨hnarrow, hwritten⟩ := encodeDuplicateRpcPayload_ok laws hmodel hshape hencoded
  obtain ⟨entry, input, rfl, hpath, hvalue, hstates⟩ := rpcInput_ok hinput
  obtain ⟨hdecoded, -⟩ := List.forall₂_cons.mp (laws.members hmodel hwritten hinstances)
  obtain ⟨-, hstated⟩ := laws.operation hmodel hdecoded hrule hpath hvalue
  obtain ⟨hsourceFits, hdestinationFits⟩ := hnarrow.fits hsource hdestination
  obtain ⟨_, hobject, hrequest, -⟩ :=
    operationItem_states laws hmodel hsids hstated hsourceFits hdestinationFits
  cases hobject
  exact hstates.unique hrequest

/-- What the decoder finds in the payload of a request. -/
structure DecodedDuplicateOperation.ReadsBack (deps : Deps) (model : CompositeModel)
    (snapshot : ContextSnapshot) (request : RuleDuplicateRequest)
    (operation : DecodedDuplicateOperation) : Prop where
  source : operation.request.source = request.source
  destination : operation.request.destination = request.destination
  innerPayload : duplicateInnerPayload deps model snapshot request = .ok operation.innerPayload
  overrides : operation.request.overrides = decodedOverrides (request.overrides.map (·.entryIndex))
  instances : ∃ sids sourceRule, ModelSids.resolve model = .ok sids ∧
    snapshot.data.rules.find? (·.id = request.source.ruleId) = some sourceRule ∧
    List.Forall₂ (LeafRead model sids sourceRule request.destination)
      (request.overrides.flatMap (·.leaves)) operation.instances

theorem decodedOverrides_leaves {overrides : List RuleDuplicateOverride}
    (h : ∀ item ∈ overrides, 1 ≤ (RuleDuplicateOverride.leaves item).length) :
    decodedOverrides ((overrides.flatMap (·.leaves)).map (·.entryIndex)) =
      decodedOverrides (overrides.map (·.entryIndex)) := by
  refine congrArg (List.map _) (Sorted.sortDedup_congr fun entryIndex => ?_)
  simp only [List.mem_map, List.mem_flatMap]
  constructor
  · rintro ⟨overridden, ⟨item, hitem, hmem⟩, rfl⟩
    exact ⟨item, hitem, (item.entryIndex_of_mem _ hmem).symm⟩
  · rintro ⟨item, hitem, rfl⟩
    obtain ⟨overridden, hmem⟩ := List.exists_mem_of_length_pos (h item hitem)
    exact ⟨overridden, ⟨item, hitem, hmem⟩, item.entryIndex_of_mem _ hmem⟩

/-- The decoder reads back a request from the payload the encoder makes of it: the RuleIDs,
the bytes of the overrides, and one instance for each leaf the request overrides. -/
theorem duplicate_request_roundtrips (laws : ReadsRequests deps sidJson decodeMember)
    {service : InspectionService} {snapshot : ContextSnapshot} {request : RuleDuplicateRequest}
    (hmodel : deps.rustconf.coreconfModel sidJson = .ok service.model)
    (hsource : RuleSelector.new request.source.value request.source.bits = .ok request.source)
    (hdestination : RuleSelector.new request.destination.value request.destination.bits =
      .ok request.destination)
    (hentries : ∀ item ∈ request.overrides, item.entryIndex < 2 ^ 64)
    (hdistinct : (request.overrides.map (·.entryIndex)).Nodup)
    (h : (service.duplicateRulePayload deps request).alone snapshot = .ok payload) :
    ∃ operation, decodeDuplicateOperation deps service.model payload = .ok operation ∧
      operation.ReadsBack deps service.model.compositeModel snapshot request := by
  have h : (do
      let inner ← duplicateInnerPayload deps service.model.compositeModel snapshot request
      encodeDuplicateRpcPayload deps service.model request inner) = .ok payload := h
  obtain ⟨inner, hinner, hencoded⟩ := bind_ok.mp h
  have hsequence := hinner
  simp only [duplicateInnerPayload, bind_ok, need_ok, ensure_ok, pure_ok] at hsequence
  obtain ⟨sids, hshape, _, -, _, -, sourceRule, hrule, _, -, _, -, members, hmembers, rfl⟩ :=
    hsequence
  have hmembers := collect_ok_iff.mp hmembers
  have hsids := validateDuplicateModelShape_ok hshape
  obtain ⟨hnarrow, hwritten⟩ := encodeDuplicateRpcPayload_ok
    laws.toReadsOperations hmodel hshape hencoded
  obtain ⟨-, -, hsourceBits⟩ := RuleSelector.new_ok hsource
  obtain ⟨-, -, hbits⟩ := RuleSelector.new_ok hdestination
  obtain ⟨entry, input, hdecoded, hpath, hvalue, hstates, hknown⟩ :=
    operationItem_decoded laws hmodel hsids hnarrow hsourceBits hbits hwritten
  obtain ⟨instances, hinstances, hread⟩ :=
    decodeInnerMembers_read laws hmodel hsids hnarrow.2 hbits hmembers
    hentries hdistinct (fun _ _ => List.not_mem_nil) le_rfl
  have hstrict : strictOneCborMap deps.ciborium payload = .ok (.map [(.integer sids.duplicateRule,
      operationItem sids request.source request.destination members.flatten)]) := by
    have hread := laws.read [] (operationItem_within _) hwritten
    rw [List.append_nil] at hread
    simp only [strictOneCborMap, hread, bind_ok, ensure_ok, mapError_ok,
      Prod.exists, decide_eq_true_eq]
    refine ⟨_, _, rfl, (), rfl, ?_⟩
    simp only [hwritten, bind_ok, ensure_ok, mapError_ok, pure_ok, decide_eq_true_eq]
    exact ⟨payload, rfl, (), rfl, trivial⟩
  have hleaves :
      collect (fun entry : Instance => duplicateLeafFromPath entry.path request.destination sids)
      instances = .ok ((request.overrides.flatMap (·.leaves)).map OverriddenLeaf.item) :=
    collect_ok_iff.mpr (List.forall₂_map_right_iff.mpr (hread.imp fun _ _ hleaf => hleaf.leaf).flip)
  refine ⟨{
    request := {
      source := request.source
      destination := request.destination
      overrides := decodedOverrides
        (((request.overrides.flatMap (·.leaves)).map OverriddenLeaf.item).map (·.1)) }
    instances
    innerPayload := members.flatten }, ?_, rfl, rfl, hinner, ?_, sids,
      sourceRule, hsids, hrule, hread⟩
  · simp only [decodeDuplicateOperation, hshape, hstrict,
      operationItem_unique (inputSids_apart laws.toReadsOperations hmodel hsids), hdecoded,
      Except.mapError, rpcInput_of deps.rschc hpath hvalue hstates hknown hsource hdestination,
      decodeDuplicateInner, hinstances, hleaves, ok_bind, pure_ok]
  · rw [List.map_map]
    refine decodedOverrides_leaves fun item hitem => ?_
    obtain ⟨bytes, hmember⟩ := forall₂_left hmembers hitem
    obtain ⟨_, -, hpos, -⟩ := overrideMember_ok hmember
    exact hpos

end

section
open Fixture

def requestSids : ModelSids where
  root := 2800
  rule := 2823
  ruleIdLength := 2824
  ruleIdValue := 2825
  entry := 2846
  entryIndex := 2847
  fieldLength := 2851
  target := 2855
  targetIndex := 2856
  targetValue := 2857
  duplicateRule := 2906
  duplicateInput := 2907
  duplicateFrom := 2908
  duplicateFromLength := 2909
  duplicateFromValue := 2910
  duplicateIpatch := 2911
  duplicateTo := 2912
  duplicateToLength := 2913
  duplicateToValue := 2914
  matchingOperator := 2858
  cda := 2862

theorem requestSids_resolved : ModelSids.resolve requestModel.compositeModel = .ok requestSids := by
  decide +kernel

theorem requestInput_stated {input : Json}
    (h : input.StatedBy requestModel.compositeModel "/ietf-schc:duplicate-rule/input" raw) :
    (Json.object [("input", input)]).StatedBy requestModel.compositeModel
      "/ietf-schc:duplicate-rule" (.map [(.integer 1, raw)]) := by
  rw [Json.StatedBy]
  refine ⟨_, _, rfl, .refl _, ?_⟩
  simp only [Json.MembersStatedBy]
  exact ⟨2906, 2907, _, [], by decide +kernel, by decide +kernel, rfl, h, rfl⟩

theorem requestJson_stated (h : requestJson raw = some value) :
    value.StatedBy requestModel.compositeModel "/ietf-schc:duplicate-rule" raw := by
  have hfrom {raw : Cbor} {value : Json} (h : selectorObject raw = some value) :
      value.StatedBy requestModel.compositeModel "/ietf-schc:duplicate-rule/input/from" raw :=
    selectorObject_stated 2908 h (by decide +kernel) (by decide +kernel) (by decide +kernel)
  have hto {raw : Cbor} {value : Json} (h : selectorObject raw = some value) :
      value.StatedBy requestModel.compositeModel "/ietf-schc:duplicate-rule/input/to" raw :=
    selectorObject_stated 2912 h (by decide +kernel) (by decide +kernel) (by decide +kernel)
  unfold requestJson at h
  split at h
  · next source destination =>
    obtain ⟨sourceValue, hsource, h⟩ := Option.bind_eq_some_iff.mp h
    obtain ⟨destinationValue, hdestination, h⟩ := Option.bind_eq_some_iff.mp h
    cases h
    apply requestInput_stated
    rw [Json.StatedBy]
    refine ⟨_, _, rfl, .refl _, ?_⟩
    simp only [Json.MembersStatedBy]
    exact ⟨2907, 2908, source, _, by decide +kernel, by decide +kernel, rfl,
      hfrom hsource, 2907, 2912, destination, _, by decide +kernel, by decide +kernel,
      rfl, hto hdestination, rfl⟩
  · next source sequence destination =>
    obtain ⟨sourceValue, hsource, h⟩ := Option.bind_eq_some_iff.mp h
    obtain ⟨destinationValue, hdestination, h⟩ := Option.bind_eq_some_iff.mp h
    cases h
    apply requestInput_stated
    rw [Json.StatedBy]
    refine ⟨_, _, rfl, .refl _, ?_⟩
    simp only [Json.MembersStatedBy]
    exact ⟨2907, 2908, source, _, by decide +kernel, by decide +kernel, rfl,
      hfrom hsource, 2907, 2911, .bytes sequence, _, by decide +kernel, by decide +kernel, rfl,
      ⟨sequence, rfl, rfl⟩, 2907, 2912, destination, _, by decide +kernel, by decide +kernel,
      rfl, hto hdestination, rfl⟩
  · cases h

theorem decodesRequests : DecodesMembers requestDeps sidText requestMember where
  sids hmodel hsid := by
    cases requestModel_ok hmodel
    exact decodesMembers_example.sids rfl hsid
  members hmodel hwritten hdecoded := by
    cases requestModel_ok hmodel
    have hcollect := (requestMembers_written hwritten).symm.trans hdecoded
    exact (collect_ok_iff.mp hcollect).imp fun _ _ h => need_ok.mp h
  target {_ member entry sid} hmodel hdecoded hsid hlast := by
    cases requestModel_ok hmodel
    have htarget : (compositeModel emptyWorld).getSid
        "/ietf-schc:schc/rule/entry-universal/target-value/value" = some 2857 := by decide +kernel
    cases htarget.symm.trans hsid
    unfold requestMember at hdecoded
    split at hdecoded
    · split at hdecoded
      · obtain ⟨value, -, rfl⟩ := Option.map_eq_some_iff.mp hdecoded
        exact absurd hlast (by simp [InstancePath.absoluteSids])
      · cases hdecoded
    · obtain ⟨path, hpath, rfl⟩ := Option.map_eq_some_iff.mp hdecoded
      unfold identityPath at hpath
      split at hpath
      · split at hpath <;> cases hpath
        simp [InstancePath.absoluteSids] at hlast
        omega
      · cases hpath
    · unfold targetInstance at hdecoded
      split at hdecoded
      · exact ⟨_, rfl⟩
      · cases hdecoded
  operation {_ member entry sid value} hmodel hdecoded hsid hpath hvalue := by
    cases requestModel_ok hmodel
    have hrule : (compositeModel emptyWorld).getSid "/ietf-schc:duplicate-rule" = some 2906 := by
      decide +kernel
    cases hrule.symm.trans hsid
    unfold requestMember at hdecoded
    split at hdecoded
    · split at hdecoded
      · next hkey =>
        obtain ⟨operation, hoperation, rfl⟩ := Option.map_eq_some_iff.mp hdecoded
        cases hvalue
        exact ⟨.inl (congrArg Cbor.integer hkey), requestJson_stated hoperation⟩
      · cases hdecoded
    · obtain ⟨path, hitems, rfl⟩ := Option.map_eq_some_iff.mp hdecoded
      unfold identityPath at hitems
      split at hitems
      · split at hitems <;> cases hitems
        cases hpath
      · cases hitems
    · unfold targetInstance at hdecoded
      split at hdecoded
      · obtain ⟨path, hitems, hdecoded⟩ := Option.bind_eq_some_iff.mp hdecoded
        cases hdecoded
        unfold pathComponents at hitems
        split at hitems
        · cases hitems
          cases hpath
        · cases hitems
      · cases hdecoded

theorem requestKey {path : InstancePath} {numbers : List Int}
    (h : path.components.map PathComponent.number = numbers.map some)
    (hkey : requestModel.compositeModel.jsonToCborValue
      (requestDeps.rustconf.pathToCborValue path) = .ok key) : key =
        .array (numbers.map .integer) := by
  cases hkey
  obtain ⟨components⟩ := path
  show Cbor.array (serdeItemsToCbor (components.map _)) = _
  refine congrArg Cbor.array ?_
  induction components generalizing numbers with
  | nil =>
    cases numbers with
    | nil => rfl
    | cons => cases h
  | cons component rest ih =>
    cases numbers with
    | nil => cases h
    | cons number numbers =>
      injection h with hfirst hrest
      rw [List.map_cons, List.map_cons, serdeItemsToCbor, ih hrest]
      cases component with
      | sidDelta delta =>
        cases hfirst
        rfl
      | keyValue value =>
        cases value with
        | int value =>
          cases hfirst
          rfl
        | _ => cases hfirst

theorem requestPush {path path' : InstancePath}
    (h : requestDeps.rustconf.pushDelta path delta = .ok path') :
    path'.components = path.components ++ [.sidDelta delta] := by
  cases h
  rfl

theorem readsRequests : ReadsRequests requestDeps sidText requestMember where
  toDecodesMembers := decodesRequests
  consumes := cborCrate_consumes
  read rest _ hwritten := cborCrate_reads hwritten rest
  names {_ path path' sid} hmodel hsid hsid' := by
    cases requestModel_ok hmodel
    obtain ⟨entry, hentry, rfl⟩ := Option.map_eq_some_iff.mp hsid
    obtain ⟨entry', hentry', hsame⟩ := Option.map_eq_some_iff.mp hsid'
    have hall : ∀ left ∈ sids, ∀ right ∈ sids, right.2 = left.2 →
        left.1 = right.1 := by decide +kernel
    have hpath : entry.1 = path := by simpa using List.find?_some hentry
    have hpath' : entry'.1 = path' := by simpa using List.find?_some hentry'
    rw [← hpath, ← hpath']
    exact hall _ (List.mem_of_find?_eq_some hentry) _ (List.mem_of_find?_eq_some hentry') hsame
  push := requestPush
  key hmodel hnumbers _ hkey := by
    cases requestModel_ok hmodel
    exact requestKey hnumbers hkey
  decodes hmodel hwritten hdecoded := by
    cases requestModel_ok hmodel
    refine (requestMembers_written hwritten).trans (collect_ok_iff.mpr ?_)
    exact hdecoded.imp fun _ _ h => need_ok.mpr h
  operationRead {_ found source destination} sequence hmodel hsids _ _ _ := by
    cases requestModel_ok hmodel
    cases requestSids_resolved.symm.trans hsids
    cases sequence with
    | nil => exact ⟨_, rfl⟩
    | cons first rest => exact ⟨_, rfl⟩
  targetRead {_ found destination entryIndex path key} bytes hmodel hsids hcomponents hkey := by
    cases requestModel_ok hmodel
    cases requestSids_resolved.symm.trans hsids
    obtain ⟨components⟩ := path
    cases hcomponents
    cases hkey
    exact ⟨bytesJson bytes, rfl, .inr rfl⟩
  identityRead {_ found destination entryIndex leaf path key name sid} hmodel hsids hname hnumber
      hcomponents hkey := by
    cases requestModel_ok hmodel
    cases requestSids_resolved.symm.trans hsids
    obtain ⟨components⟩ := path
    cases hcomponents
    cases hkey
    obtain ⟨text, htext, hread⟩ := identityNumber_json hnumber
    refine ⟨identityJson sid, ?_, htext ▸ hread⟩
    rcases hname with ⟨rfl, -⟩ | ⟨rfl, -⟩ <;> rfl

theorem duplicate_request_roundtrips_ignored : ∃ snapshot payload,
    (requestService.duplicateRulePayload requestDeps ignoredRequest).alone snapshot = .ok payload ∧
    ∃ operation, decodeDuplicateOperation requestDeps requestModel payload = .ok operation ∧
      operation.ReadsBack requestDeps requestModel.compositeModel snapshot ignoredRequest := by
  have heval : holds (loaded updateWorld rulesBefore) (fun prepared =>
      holds ((requestService.duplicateRulePayload requestDeps ignoredRequest).alone
        (ContextSnapshot.fromPrepared prepared 1)) (fun _ => true)) = true := by decide +kernel
  obtain ⟨prepared, -, hencoded⟩ := holds_iff.mp heval
  obtain ⟨payload, hpayload, -⟩ := holds_iff.mp hencoded
  exact ⟨_, payload, hpayload, duplicate_request_roundtrips readsRequests rfl rfl
    rfl (by decide) (by decide) hpayload⟩

end

end SchcCoreconf
