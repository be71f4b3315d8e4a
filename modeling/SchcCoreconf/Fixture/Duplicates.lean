import SchcCoreconf.Fixture.Grounding
import SchcCoreconf.Lib.Items
import SchcCoreconf.RuleLeaves

/-!
# A rule duplicated on a concrete context

The rules of a world are stated by its trees, and its leaves stored rule by rule.
Application 20/8 is duplicated as 64/8, for another interface identifier.
-/

namespace SchcCoreconf.Fixture

open Fallible

variable {world : World}

-- ---------------------------------------------------------------------------
-- Rules
-- ---------------------------------------------------------------------------

theorem selects_ruleJson {rule : Rule} (h : rule.id.Explicit) :
    RuleKeys.yang.selects rule.id.selector (ruleJson rule) = true := by
  rw [RuleKeys.yang_selects, hasU64, hasU64, get_value, get_length, Option.bind_some,
    Option.bind_some, Json.asU64_ofNat (explicit_value_lt h),
    Json.asU64_ofNat (explicit_bitLen_lt h), RuleId.selector,
    decide_eq_true rfl, decide_eq_true rfl]
  rfl

theorem identified_ruleJson (rule : Rule) : (ruleJson rule).Identified := by
  intro entries hentries entry hentry
  have hitems : (ruleJson rule).items "entry-universal" = some (rule.fields.map entryJson) := by
    simp [ruleJson, Json.items, Json.get, Json.lookup, Json.asArray]
  cases hitems.symm.trans hentries
  obtain ⟨field, -, rfl⟩ := List.mem_map.mp hentry
  simp [entryJson, Json.get, Json.lookup]

theorem loadsStatedRules (h : world.Checked) : LoadsStatedRules (deps world) sidText where
  stated {_ _ _ _ context} hmodel hregistry hencoded hcontext := by
    cases coreconfModel_ok hmodel
    rw [sidRegistry_ok hregistry] at hcontext
    obtain ⟨rules, hrules, rfl, rfl⟩ := encodedAs_ok hencoded
    obtain ⟨hmem, hbytes⟩ := ruleContext_ok hcontext
    cases h.context_eq hmem (mem_contexts hrules) hbytes
    refine ⟨_, rules_tree _, List.forall₂_map_left_iff.mpr
      (List.forall₂_same.mpr fun rule hrule => ?_)⟩
    exact selects_ruleJson (h.explicit rule (List.mem_flatten.mpr ⟨_, hmem, hrule⟩))
  identified hmodel hregistry hencoded _ hmembers member hmember := by
    cases coreconfModel_ok hmodel
    obtain ⟨rules, -, rfl, -⟩ := encodedAs_ok hencoded
    cases (rules_tree rules).symm.trans hmembers
    obtain ⟨rule, -, rfl⟩ := List.mem_map.mp hmember
    exact identified_ruleJson rule

-- ---------------------------------------------------------------------------
-- Leaves
-- ---------------------------------------------------------------------------

/-- What setting a leaf makes of its rule: the leaf is replaced, where it is. -/
def putLeaf (address : LeafAddress) (value rule : Json) : Option Json :=
  if leaves.contains address && (address.readRule rule).isSome then
    some (address.writeRule value rule)
  else none

theorem ofNat_injective : Function.Injective Json.ofNat := by
  intro left right h
  exact Int.natCast_inj.mp (Json.int.inj h)

theorem keys_injective {left right : EntryAddress} (h : left.keys = right.keys) : left = right := by
  obtain ⟨⟨_, _⟩, _⟩ := left
  obtain ⟨⟨_, _⟩, _⟩ := right
  simp only [EntryAddress.keys, List.cons.injEq, ofNat_injective.eq_iff, and_true] at h
  simp_all

theorem leaf_target : ∀ address ∈ leaves, address.leaf = .target 0 := by
  decide

theorem sids_leaf (leaf : EntryLeaf) : (compositeModel world).getSid leaf.path =
    match leaf with
    | .target _ => some 2857
    | .matchingOperator => some 2858
    | .cda => some 2862 := by
  rw [getSid_eq]
  cases leaf with
  | target index =>
    simp [sids, EntryLeaf.path]
  | matchingOperator => simp [sids, EntryLeaf.path]
  | cda => simp [sids, EntryLeaf.path]

theorem createXpath_named {address : LeafAddress}
    (hnamed : address.NamedBy (compositeModel world) sid keys)
    (h : createXpath sid keys = .ok xpath) : address ∈ leaves ∧ xpath = leafXpath address := by
  have hsid := hnamed.sid
  rw [sids_leaf] at hsid
  obtain ⟨entry, leaf⟩ := address
  cases leaf with
  | target index =>
    cases hsid
    obtain ⟨other, hother, rfl⟩ := Option.map_eq_some_iff.mp (need_ok.mp h)
    have hmem := List.mem_of_find?_eq_some hother
    have hkeys : EntryAddress.keys other.entry ++ [.ofNat 0] = keys := by
      simpa using List.find?_some hother
    have hsame : entry.keys ++ [.ofNat index] = EntryAddress.keys other.entry ++ [.ofNat 0] :=
      (hkeys ▸ hnamed.keys).eq_of_length rfl
    obtain ⟨hentry, hindex⟩ := List.append_inj' hsame rfl
    have heq : (⟨entry, .target index⟩ : LeafAddress) = other := by
      have hleaf := leaf_target other hmem
      cases other
      cases keys_injective hentry
      cases hleaf
      rw [ofNat_injective (List.cons.inj hindex).1]
    exact ⟨heq ▸ hmem, by rw [heq]⟩
  | matchingOperator =>
    cases hsid
    cases h
  | cda =>
    cases hsid
    cases h

theorem setsLeaves : SetsLeaves (deps world) sidText putLeaf where
  names hmodel := by
    cases coreconfModel_ok hmodel
    exact sidNames
  floatFree _ _ _ hmodel hread := by
    cases coreconfModel_ok hmodel
    obtain ⟨rules, -, rfl⟩ := Option.map_eq_some_iff.mp (need_ok.mp hread)
    exact floatFree_tree rules
  leafSid h := h
  tree hmodel h := by
    cases coreconfModel_ok hmodel
    cases h
    rfl
  set {_ store _ _ _ address rule} value hmodel hxpath hnamed hfind := by
    cases coreconfModel_ok hmodel
    obtain ⟨hmem, rfl⟩ := createXpath_named hnamed hxpath
    rw [putLeaf, ← RuleKeys.read_of_find hfind, List.contains_iff_mem.mpr hmem, Bool.true_and]
    show (setPath store.tree (leafXpath address) value).toOption.map Datastore.tree = _
    cases hread : (address.read store.tree).isSome with
    | true =>
      rw [setPath_leaf hmem hread, RuleKeys.write_of_find hfind]
      rfl
    | false =>
      rw [setPath, find?_by hmem fun other hother => (xpaths_leaves other hother address hmem).1]
      simp [need, ensure, hread, bind, Except.bind, Except.toOption]
  members h key hkey := by
    simp only [putLeaf, Option.ite_none_right_eq_some, Option.some.injEq] at h
    rw [← h.2]
    exact Json.get_updateIn_of_ne hkey
  replaced h _ := by
    simp only [putLeaf, Option.ite_none_right_eq_some, Option.some.injEq] at h
    exact h.2.symm
  added h hentry := by
    simp only [putLeaf, Option.ite_none_right_eq_some, Option.some.injEq, Bool.and_eq_true] at h
    obtain ⟨⟨-, hread⟩, rfl⟩ := h
    rw [LeafAddress.readRule, hentry] at hread
    exact ⟨_, EntryLeaf.sets_write hread _, LeafAddress.writeRule_eq_replaceIn _ hentry _⟩
  unidentified h hentry := by
    simp [putLeaf, LeafAddress.readRule, hentry] at h

theorem readsLeaves : ReadsLeaves (deps world) sidText where
  leaf {_ store _ _ _ _ _} hmodel hxpath hnamed hget := by
    cases coreconfModel_ok hmodel
    obtain ⟨hmem, rfl⟩ := createXpath_named hnamed hxpath
    exact (Except.ok.inj ((getPath_leaf hmem store.tree).symm.trans hget)).symm
  entry {_ store _ _ _ _ _} hmodel hxpath hsid hkeys hget := by
    cases coreconfModel_ok hmodel
    cases getSid_entry.symm.trans hsid
    obtain ⟨other, hother, hnamed, rfl⟩ := createXpath_entry hxpath
    cases keys_injective (hnamed.trans hkeys.symm)
    exact (Except.ok.inj ((getPath_entry hother store.tree).symm.trans hget)).symm

theorem acceptsRules : AcceptsRules (deps world) sidText := by
  intro model hmodel
  cases coreconfModel_ok hmodel
  exact ⟨fun _ => True, fun _ _ => ⟨fun _ => ⟨⟨_, rfl⟩, fun _ _ => trivial⟩, fun _ => ⟨_, rfl⟩⟩⟩

-- ---------------------------------------------------------------------------
-- The operation
-- ---------------------------------------------------------------------------

def rulesCopied : List Rule := [application 20 5, application 64 7, management]

/-- The path of the application interface identifier of 64/8. -/
def copiedPath : InstancePath where
  components := [.sidDelta 2800, .sidDelta 23, .keyValue (.int 64),
    .keyValue (.int 8), .sidDelta 23, .keyValue (.int 9), .sidDelta 9,
    .keyValue (.int 0), .sidDelta 2]

def overrideMap : Cbor :=
  .map [(serdeValueToCbor (pathToCborValue copiedPath), .bytes (iidBytes 7))]

def selectorCbor (value : Int) : Cbor :=
  .map [(.integer 1, .integer 8), (.integer 2, .integer value)]

/-- The RPC that duplicates 20/8 as 64/8. -/
def duplicateCbor : Cbor :=
  .map [(.integer 2906, .map [(.integer 1, .map [(.integer 1, selectorCbor 20),
    (.integer 4, .bytes (cborBytes overrideMap)), (.integer 5, selectorCbor 64)])])]

def duplicateWorld : World where
  complete := [rulesBefore, rulesCopied]
  digests := [
    digestBefore,
    ⟨#[163, 166, 134, 29, 196, 160, 195, 253, 208, 97, 147, 100, 44, 53, 18,
      55, 147, 63, 206, 34, 29, 163, 33, 2, 46, 249, 78, 38, 131, 178, 218, 139], rfl⟩]
  requests := [duplicateCbor, overrideMap]

theorem duplicateWorld_checked : duplicateWorld.Checked :=
  .of_checks (by decide +kernel) (by decide +kernel) (by decide +kernel) (by decide +kernel)

theorem duplicateWorld_separated : LoadsSeparated (deps duplicateWorld) sidText :=
  loadsSeparated duplicateWorld_checked (by decide +kernel)

def duplicateOperation : DecodedDuplicateOperation where
  request := {
    source := { value := 20, bits := 8 }
    destination := { value := 64, bits := 8 }
    overrides := [{ entryIndex := 9, targetValue := none, matchingOperator := none, cda := none }] }
  instances := [{ path := copiedPath, value := some (.string (base64Text (iidBytes 7))) }]
  innerPayload := cborBytes overrideMap

def nextPath : InstancePath where
  components := [.sidDelta 2800, .sidDelta 23, .keyValue (.int 65), .keyValue (.int 8),
    .sidDelta 23, .keyValue (.int 9), .sidDelta 9, .keyValue (.int 0), .sidDelta 2]

/-- Duplicates 20/8 as 65/8, for a third interface identifier. -/
def nextOperation : DecodedDuplicateOperation where
  request := {
    source := { value := 20, bits := 8 }
    destination := { value := 65, bits := 8 }
    overrides := [{ entryIndex := 9, targetValue := none, matchingOperator := none, cda := none }] }
  instances := [{ path := nextPath, value := some (.string (base64Text (iidBytes 8))) }]
  innerPayload :=
    cborBytes (.map [(serdeValueToCbor (pathToCborValue nextPath), .bytes (iidBytes 8))])

def duplicatePacket : Packet where
  messageId := 0
  messageType := .nonConfirmable
  code := .request .post
  token := []
  options := [(CoapOption.uriPath, [schcSegment]), (CoapOption.contentFormat, [[142]])]
  payload := cborBytes duplicateCbor

def duplicateDatagram : Bytes := CoapWire.encode (wireOf duplicatePacket)

-- ---------------------------------------------------------------------------
-- A map for two entries
-- ---------------------------------------------------------------------------

def otherPath : InstancePath where
  components := [.sidDelta 2800, .sidDelta 23, .keyValue (.int 64),
    .keyValue (.int 8), .sidDelta 23, .keyValue (.int 10), .sidDelta 9,
    .keyValue (.int 0), .sidDelta 2]

def mixedMap : Cbor :=
  .map [(serdeValueToCbor (pathToCborValue copiedPath), .bytes (iidBytes 7)),
    (serdeValueToCbor (pathToCborValue otherPath), .bytes (iidBytes 8))]

/-- The RPC that duplicates 20/8 as 64/8 with one map for both entries. -/
def mixedCbor : Cbor :=
  .map [(.integer 2906, .map [(.integer 1, .map [(.integer 1, selectorCbor 20),
    (.integer 4, .bytes (cborBytes mixedMap)), (.integer 5, selectorCbor 64)])])]

def mixedWorld : World where
  complete := [rulesBefore]
  digests := [digestBefore]
  requests := [mixedCbor, mixedMap]

theorem fromReader_consumes (h : ∀ value ∈ world.documents, cborBytes value ≠ []) :
    Items.Consumes (deps world).ciborium.fromReader := by
  intro bytes value n hread
  obtain ⟨hmem, rfl, rfl⟩ := fromReader_ok hread
  exact ⟨List.length_pos_of_ne_nil (h value hmem), le_rfl⟩

end SchcCoreconf.Fixture
