import SchcCoreconf.Atomicity
import SchcCoreconf.CanonicalOrder
import SchcCoreconf.DuplicateFrame
import SchcCoreconf.Fixture.Duplicates
import SchcCoreconf.Operations
import SchcCoreconf.TargetWidths

/-!
# What a target patch changes

An accepted iPATCH replaces one target value, of one entry of one rule that is not
protected, by bytes of the same length that fit the field, and changes nothing else of
the tree. Its payload is one instance, at the canonical path of that value.
-/

namespace SchcCoreconf

open Fallible FirstMatch
open ActiveContext (Publishes)

-- ---------------------------------------------------------------------------
-- Payloads
-- ---------------------------------------------------------------------------

def targetComponents (sids : ModelSids) (entry : EntryAddress) (index : Nat) : List PathComponent :=
  [.sidDelta sids.root, .sidDelta (sids.rule - sids.root), .keyValue (.ofNat entry.rule.value),
    .keyValue (.ofNat entry.rule.bits), .sidDelta (sids.entry - sids.rule),
    .keyValue (.ofNat entry.entryIndex), .sidDelta (sids.target - sids.entry),
    .keyValue (.ofNat index), .sidDelta (sids.targetValue - sids.target)]

theorem patchKey_ok {component : Option PathComponent} (h : patchKey component name = .ok n) :
    component = some (.keyValue (.ofNat n)) := by
  unfold patchKey at h
  split at h
  · rw [Json.eq_ofNat_of_asU64 (need_ok.mp h)]
  · cases h

theorem patchDelta_ok {component : Option PathComponent}
    (h : patchDelta component delta missing wrong = .ok ()) :
    component = some (.sidDelta delta) := by
  unfold patchDelta at h
  split at h
  · rw [of_decide_eq_true (ensure_ok.mp h)]
  · cases h

theorem patchRoot_ok {components : List PathComponent} (h : patchRoot components sids = .ok ()) :
    components[0]? = some (.sidDelta sids.root) ∧
      components[1]? = some (.sidDelta (sids.rule - sids.root)) := by
  unfold patchRoot at h
  split at h
  · next first second hfirst hsecond =>
    simp only [ensure_ok, Bool.and_eq_true, decide_eq_true_eq] at h
    rw [hfirst, hsecond, h.1, h.2]
    exact ⟨rfl, rfl⟩
  · cases h
  · cases h

theorem targetPatchFromInstance_ok (h : targetPatchFromInstance deps entry sids = .ok target) :
    ∃ entryIndex index, entry.path.components = targetComponents sids
      ⟨target.selector, entryIndex⟩ index ∧ target.path = entry.path ∧
      entry.value = some target.value := by
  simp only [targetPatchFromInstance, bind_ok, ensure_ok, mapError_ok, need_ok, pure_ok,
    decide_eq_true_eq] at h
  obtain ⟨_, hlength, _, hroot, ruleValue, hvalue, ruleBits, hbits, selector,
    hselector, _, hentry, entryIndex, hindex, _, htarget, targetIndex, htargetIndex, _, hleaf, _, -,
      _, -, value, hsome, rfl⟩ := h
  obtain ⟨rfl, -⟩ := RuleSelector.new_ok hselector
  obtain ⟨hfirst, hsecond⟩ := patchRoot_ok hroot
  refine ⟨entryIndex, targetIndex, ?_, rfl, hsome⟩
  refine List.ext_getElem? fun i => ?_
  rcases i with _ | _ | _ | _ | _ | _ | _ | _ | _ | i
  · exact hfirst
  · exact hsecond
  · exact patchKey_ok hvalue
  · exact patchKey_ok hbits
  · exact patchDelta_ok hentry
  · exact patchKey_ok hindex
  · exact patchDelta_ok htarget
  · exact patchKey_ok htargetIndex
  · exact patchDelta_ok hleaf
  · rw [List.getElem?_eq_none (by omega)]
    rfl

theorem decodeTargetPatch_ok (h : decodeTargetPatch deps model request = .ok (sids, target)) :
    ModelSids.resolve model.compositeModel = .ok sids ∧ ∃ entry,
      model.compositeModel.decodeInstancesWithModel request.payload = .ok [entry] ∧
      targetPatchFromInstance deps entry sids = .ok target := by
  simp only [decodeTargetPatch, bind_ok, mapError_ok] at h
  obtain ⟨_, -, _, -, _, -, shaped, hshape, instances, hinstances, h⟩ := h
  split at h
  · next entry =>
    simp only [bind_ok, pure_ok, Prod.mk.injEq] at h
    obtain ⟨_, htarget, rfl, rfl⟩ := h
    simp only [validateUpdateModelShape, bind_ok, pure_ok] at hshape
    obtain ⟨_, hsids, _, -, _, -, _, -, rfl⟩ := hshape
    exact ⟨hsids, entry, hinstances, htarget⟩
  · cases h

theorem parseIfMatchOption_ok (h : parseIfMatchOption packet = .ok ifMatch) (values : List Bytes)
    (hvalues : packet.getOption CoapOption.ifMatch = some values) :
    ∃ bytes tag, values = [bytes] ∧ ContextTag.ofBytes bytes = some tag ∧ ifMatch = some tag := by
  unfold parseIfMatchOption at h
  rw [hvalues] at h
  match values with
  | [bytes] =>
    simp only [bind_ok, need_ok, pure_ok] at h
    obtain ⟨tag, htag, rfl⟩ := h
    exact ⟨bytes, tag, rfl, htag, rfl⟩
  | [] | _ :: _ :: _ => cases h

-- ---------------------------------------------------------------------------
-- Paths
-- ---------------------------------------------------------------------------

def targetAddress (entry : EntryAddress) (index : Nat) : LeafAddress :=
  { entry, leaf := .target index }

section
variable {model : CoreconfModel} {path : InstancePath} {sids : ModelSids}
  {entry : EntryAddress} {index : Nat}

theorem targetComponents_keys (h : path.components = targetComponents sids entry index) :
    path.keys = (targetAddress entry index).keys := by
  simp [InstancePath.keys, h, targetComponents, targetAddress, LeafAddress.keys, EntryAddress.keys]

theorem targetComponents_sid (h : path.components = targetComponents sids entry index) :
    path.absoluteSids.getLast? = some sids.targetValue := by
  simp [InstancePath.absoluteSids, h, targetComponents]

theorem SetsLeaves.target_namedBy (laws : SetsLeaves deps sidJson put)
    (hsids : ModelSids.resolve model.compositeModel = .ok sids)
    (hpath : path.components = targetComponents sids entry index)
    (hsid : deps.rustconf.absoluteSid path = some sid) :
    (targetAddress entry index).NamedBy model.compositeModel sid path.keys := by
  obtain ⟨-, -, -, -, -, -, -, -, -, htarget, -⟩ := ModelSids.resolve_ok hsids
  cases (laws.leafSid hsid).symm.trans (targetComponents_sid hpath)
  exact ⟨htarget, by rw [targetComponents_keys hpath]⟩

end

-- a leaf that rustconf set, in the rule its path names
section
variable {address : LeafAddress} {model : CoreconfModel} {rule : Json}

theorem SetsLeaves.set_ok (stores : SetsLeaves deps sidJson put)
    (hmodel : deps.rustconf.coreconfModel sidJson = .ok model)
    (hxpath : model.createXpath store sid keys = .ok xpath)
    (hnamed : address.NamedBy model.compositeModel sid keys)
    (hrule : RuleKeys.yang.find store.tree address.entry.rule = some rule)
    (hset : model.setPath store xpath value = .ok store') :
    ∃ next, put address value rule = some next ∧
      store'.tree = RuleKeys.yang.updateRule address.entry.rule (fun _ => next) store.tree := by
  have hput := stores.set value hmodel hxpath hnamed hrule
  rw [hset] at hput
  obtain ⟨next, hnext, htree⟩ := Option.map_eq_some_iff.mp hput.symm
  exact ⟨next, hnext, htree.symm⟩

theorem SetsLeaves.set_write (stores : SetsLeaves deps sidJson put)
    (hmodel : deps.rustconf.coreconfModel sidJson = .ok model)
    (hxpath : model.createXpath store sid keys = .ok xpath)
    (hnamed : address.NamedBy model.compositeModel sid keys)
    (hthere : (address.read store.tree).isSome = true)
    (hset : model.setPath store xpath value = .ok store') :
    store'.tree = address.write value store.tree := by
  obtain ⟨current, hread⟩ := Option.isSome_iff_exists.mp hthere
  obtain ⟨entry, hentry, -⟩ := Option.bind_eq_some_iff.mp hread
  obtain ⟨rule, hrule⟩ := RuleKeys.find_of_read hentry
  obtain ⟨next, hnext, htree⟩ := stores.set_ok hmodel hxpath hnamed hrule hset
  rw [htree, RuleKeys.write_of_find hrule, stores.replaced hnext]
  rw [← RuleKeys.read_of_find hrule]
  exact hthere

end

theorem treeKey_of_name {path : String} (hnames : SidNames model)
    (hsid : model.getSid path = some sid) (h : treeKeyForSid model sid = .ok key) :
    key = lastSegment path := by
  simp only [treeKeyForSid, hnames hsid, bind_ok, need_ok, Option.some.injEq,
    exists_eq_left', pure_ok] at h
  obtain ⟨_, -, rfl⟩ := h
  rfl

-- ---------------------------------------------------------------------------
-- The replaced value
-- ---------------------------------------------------------------------------

/-- The schema path under which rustconf has a leaf of the tree. -/
def LeafAddress.SchemaPath (deps : Deps) (model : CoreconfModel)
    (tree : Json) (address : LeafAddress) (path : String) : Prop :=
  ∃ store sid keys xpath, model.withData tree = .ok store ∧
    address.NamedBy model.compositeModel sid keys ∧ model.createXpath store sid keys = .ok xpath ∧
    deps.rustconf.predicatePath xpath = .ok path

def TargetBytes (model : CompositeModel) (path : String) (value : Json) (bytes : Bytes) : Prop :=
  ∃ wire, model.identifierValueToSidValueAtPath value path = .ok wire ∧ binaryBytes wire = .ok bytes

/-- The bytes are the number of a field of this many bits. -/
def FitsField (bytes : Bytes) (fieldLength : Nat) : Prop :=
  0 < fieldLength ∧ fieldLength ≤ bytes.length * 8 ∧ BigEndian.toNat bytes < 2 ^ fieldLength

/-- A target value of the entry is replaced by another at the same width, within the field. -/
structure ReplacesTarget (model : CompositeModel) (address : LeafAddress)
    (path : String) (tree : Json) (current replacement : Json) : Prop where
  read : address.read tree = some current
  fits : ∃ entry fieldLength before after, address.entry.read tree = some entry ∧
    (entry.get "field-length").bind Json.asU64 = some fieldLength ∧
    TargetBytes model path current before ∧ TargetBytes model path replacement after ∧
    after.length = before.length ∧ FitsField before fieldLength ∧ FitsField after fieldLength

theorem patchedTree_replaces (stores : SetsLeaves deps sidJson put)
    (reads : ReadsLeaves deps sidJson) (hmodel : deps.rustconf.coreconfModel sidJson = .ok model)
    (hsids : ModelSids.resolve model.compositeModel = .ok sids)
    (hpath : target.path.components = targetComponents sids entry index)
    (h : patchedTree deps model sids tree target = .ok tree') :
    ∃ path current replacement, (targetAddress entry index).SchemaPath deps model tree path ∧
      model.compositeModel.sidValueToIdentifierValueAtPath target.value path = .ok replacement ∧
      ReplacesTarget model.compositeModel (targetAddress entry index) path
        tree current replacement ∧
      tree' = (targetAddress entry index).write replacement tree := by
  simp only [patchedTree, orConflict, inspectionConflict, bind_ok, mapError_ok, need_ok, ensure_ok,
    pure_ok, decide_eq_true_eq, Bool.and_eq_true] at h
  obtain ⟨store, hstore, sid, hsid, xpath, hxpath, path, hpredicate, _, hcurrent,
    current, rfl, wire, hwire, before, hbefore, entryXpath, hentryXpath, _, hentry, found, rfl, key,
    hkey, fieldLength, hfieldLength, _, hfits, replacement, hreplacement, wire', hwire', after,
      hafter, _, hlength, _, hfits', store', hset, rfl⟩ := h
  have hnamed := stores.target_namedBy hsids hpath hsid
  have htree := stores.tree hmodel hstore
  have hread := reads.leaf hmodel hxpath hnamed hcurrent
  obtain ⟨-, -, -, -, hentrySid, -, hfieldSid, -⟩ := ModelSids.resolve_ok hsids
  have hkeys : entry.keys = target.path.keys.take 3 := by
    rw [targetComponents_keys hpath]
    rfl
  have hfound := reads.entry hmodel hentryXpath hentrySid hkeys hentry
  rw [htree] at hread hfound
  have hlast :
      lastSegment "/ietf-schc:schc/rule/entry-universal/field-length" = "field-length" := by
    simp [lastSegment]
  rw [treeKey_of_name (stores.names hmodel) hfieldSid hkey, hlast] at hfieldLength
  refine ⟨path, current, replacement,
    ⟨store, sid, _, xpath, hstore, hnamed, hxpath, hpredicate⟩, hreplacement,
    ⟨hread.symm, found, fieldLength, before, after, hfound.symm,
    hfieldLength, ⟨wire, hwire, hbefore⟩,
      ⟨wire', hwire', hafter⟩, hlength, binaryFitsFieldLength_iff.mp hfits.1,
      binaryFitsFieldLength_iff.mp hfits'⟩, ?_⟩
  rw [← htree]
  exact stores.set_write hmodel hxpath hnamed (by rw [htree, ← hread]; rfl) hset

-- ---------------------------------------------------------------------------
-- The tree
-- ---------------------------------------------------------------------------

section
variable {address other : LeafAddress} {rule tree : Json}

theorem LeafAddress.readRule_write_of_ne (hrule : other.entry.rule = address.entry.rule)
    (h : other ≠ address) (value : Json) :
    other.readRule (address.writeRule value rule) = other.readRule rule := by
  rw [readRule, readRule, EntryAddress.readRule, EntryAddress.readRule, writeRule]
  by_cases hindex : other.entry.entryIndex = address.entry.entryIndex
  · have hleaf : other.leaf ≠ address.leaf := by
      intro hleaf
      obtain ⟨⟨_, _⟩, _⟩ := other
      obtain ⟨⟨_, _⟩, _⟩ := address
      simp_all
    rw [hindex, Json.findIn_updateIn (EntryLeaf.write_index value _), Option.bind_map]
    exact congrArg (Option.bind _) (funext fun entry => EntryLeaf.read_write_of_ne hleaf value)
  · rw [Json.findIn_updateIn_of_disjoint fun entry hentry => ?_]
    have hother : ∀ entry, hasU64 entry "entry-index" address.entry.entryIndex = true →
        hasU64 entry "entry-index" other.entry.entryIndex = false := by
      intro entry hentry
      by_contra hsame
      exact hindex (hasU64_unique (by simpa using hsame) hentry)
    exact ⟨hother entry hentry, hother _ (EntryLeaf.write_index value _ entry hentry)⟩

/-- Writing a leaf leaves all others of the tree alone. -/
theorem LeafAddress.read_write_of_ne (h : other ≠ address) (value : Json) :
    other.read (address.write value tree) = other.read tree := by
  simp only [read, EntryAddress.read, write, Json.get_modify_self, Option.bind_eq_bind]
  cases tree.get "ietf-schc:schc" with
  | none => rfl
  | some root =>
    simp only [Option.map_some, Option.bind_some]
    by_cases hrule : other.entry.rule = address.entry.rule
    · rw [hrule, Json.findIn_updateIn fun rule hrule =>
        (selects_writeRule _ value rule).trans hrule]
      cases root.findIn "rule" (RuleKeys.yang.selects address.entry.rule) with
      | none => rfl
      | some rule => exact readRule_write_of_ne hrule h value
    · rw [Json.findIn_updateIn_of_disjoint fun rule hselects => ?_]
      have hother : RuleKeys.yang.selects other.entry.rule rule = false := by
        by_contra hsame
        exact hrule (RuleKeys.selects_unique (by simpa using hsame) hselects)
      exact ⟨hother, (selects_writeRule _ value rule).trans hother⟩

theorem LeafAddress.write_self (h : address.read tree = some current) :
    address.write current tree = tree := by
  obtain ⟨entry, hentry, hleaf⟩ := Option.bind_eq_some_iff.mp h
  simp only [EntryAddress.read, Option.bind_eq_bind] at hentry
  obtain ⟨root, hroot, hentry⟩ := Option.bind_eq_some_iff.mp hentry
  obtain ⟨rule, hrule, hentry⟩ := Option.bind_eq_some_iff.mp hentry
  refine Json.modify_id fun found hfound => ?_
  cases hroot.symm.trans hfound
  refine Json.updateIn_id fun found hfound => ?_
  cases hrule.symm.trans hfound
  refine Json.updateIn_id fun found hfound => ?_
  cases hentry.symm.trans hfound
  exact EntryLeaf.write_self hleaf

end

theorem filter_of_nodup {key : α → κ} {items : List α} {test : α → Bool}
    (hnodup : (items.map key).Nodup)
    (hkey : ∀ left right, test left = true → test right = true → key left = key right)
    (hmem : item ∈ items) (htest : test item = true) : items.filter test = [item] := by
  have hsame : ∀ other ∈ items.filter test, other = item := by
    intro other hother
    obtain ⟨hother, hpasses⟩ := List.mem_filter.mp hother
    exact List.inj_on_of_nodup_map hnodup hother hmem (hkey _ _ hpasses htest)
  have hdistinct : (items.filter test).Nodup := hnodup.of_map.filter test
  have hfound : item ∈ items.filter test := List.mem_filter.mpr ⟨hmem, htest⟩
  cases hlist : items.filter test with
  | nil => simp [hlist] at hfound
  | cons first rest =>
    rw [hlist] at hsame hdistinct
    have hfirst : first = item := hsame first List.mem_cons_self
    cases rest with
    | nil => rw [hfirst]
    | cons second rest =>
      have hsecond : second = item := hsame second (by simp)
      simp [hfirst, hsecond] at hdistinct

theorem RuleKeys.Ordered.filter_selects {rules : List Json}
    {selector : RuleSelector} (h : Ordered rules) (hmem : rule ∈ rules)
    (hselects : RuleKeys.yang.selects selector rule = true) :
    rules.filter (RuleKeys.yang.selects selector) = [rule] := by
  have hnodup : (rules.map RuleKeys.yang.sortKey).Nodup :=
    List.pairwise_map.mpr (h.strict.imp fun hlt => hlt.ne)
  refine filter_of_nodup hnodup (fun left right hleft hright => ?_) hmem hselects
  exact (RuleKeys.sortKey_of_selects hleft).trans (RuleKeys.sortKey_of_selects hright).symm

theorem Canonical.filter_index {rule : Json} {entries : List Json} (h : Canonical rule)
    (hentries : rule.items "entry-universal" = some entries) (hmem : entry ∈ entries)
    (hindex : hasU64 entry "entry-index" index = true) :
    entries.filter (hasU64 · "entry-index" index) = [entry] := by
  obtain ⟨hordered, -⟩ := normalizeValue_items h hentries
  obtain ⟨-, hnodup⟩ := (orderItems_ok.mp hordered).1 rfl
  refine filter_of_nodup hnodup (fun left right hleft hright => ?_) hmem hindex
  rw [entrySortKey_of_index (of_decide_eq_true hleft),
    entrySortKey_of_index (of_decide_eq_true hright)]

-- ---------------------------------------------------------------------------
-- Accepted datagrams
-- ---------------------------------------------------------------------------

/-- The one rule of the tree with the RuleID is written, in its one entry with the index. -/
structure WritesRule (address : LeafAddress) (replacement : Json)
    (before after : List Json) (rule entry : Json)
    (tree tree' : Json) : Prop where
  rules : RuleKeys.yang.rules tree = some (before ++ rule :: after)
  only : (before ++ rule :: after).filter (RuleKeys.yang.selects address.entry.rule) = [rule]
  entries : ∃ entries, rule.items "entry-universal" = some entries ∧
    entries.filter (hasU64 · "entry-index" address.entry.entryIndex) = [entry]
  tree : tree' = RuleKeys.yang.setRules tree (before ++ address.writeRule replacement rule :: after)
  frame : RuleFrame [address] rule (address.writeRule replacement rule)

/-- What an accepted target patch asks for, and does to the context. -/
structure PatchesTarget (deps : Deps) (model : CoreconfModel) (packet : Packet) (data : ContextData)
    (tree' : Json) (address : LeafAddress) (current replacement : Json) : Prop where
  payload : ∃ request sids entry index value path,
    deps.rustconf.packetToRequest packet "schc" = .ok request ∧
    ModelSids.resolve model.compositeModel = .ok sids ∧
    model.compositeModel.decodeInstancesWithModel request.payload = .ok [entry] ∧
    address.leaf = .target index ∧ entry.path.components =
      targetComponents sids address.entry index ∧
    entry.value = some value ∧ address.SchemaPath deps model data.tree path ∧
    model.compositeModel.sidValueToIdentifierValueAtPath value path = .ok replacement ∧
    ReplacesTarget model.compositeModel address path data.tree current replacement
  ifMatch : ∀ values, packet.getOption CoapOption.ifMatch = some values →
    ∃ bytes, values = [bytes] ∧ ContextTag.ofBytes bytes = some data.tag
  unprotected : data.protectedRules.contains address.entry.rule.ruleId = false
  loaded : ∃ rule ∈ data.rules, rule.id = address.entry.rule.ruleId
  written : ∃ before after rule entry, WritesRule address replacement before after
    rule entry data.tree tree'
  reads : address.read data.tree = some current ∧ address.read tree' = some replacement
  others : ∀ other, other ≠ address → other.read tree' = other.read data.tree
  same : replacement = current → tree' = data.tree

theorem ReplacesTarget.writesRule {rules : List Json} (hordered : RuleKeys.Ordered rules)
    (hrules : RuleKeys.yang.rules tree = some rules) (hcanonical : ∀ rule ∈ rules, Canonical rule)
    (hfind : RuleKeys.yang.find tree address.entry.rule = some rule)
    (h : ReplacesTarget model address path tree current replacement) :
    ∃ before after entry, WritesRule address replacement before after rule entry tree
      (address.write replacement tree) := by
  have hfound : rules.find? (RuleKeys.yang.selects address.entry.rule) = some rule := by
    rwa [RuleKeys.find, hrules] at hfind
  obtain ⟨hselects, before, after, rfl, hbefore⟩ := List.find?_eq_some_iff_append.mp hfound
  have hmem : rule ∈ before ++ rule :: after := List.mem_of_find?_eq_some hfound
  have hread : address.readRule rule = some current := by rw [← RuleKeys.read_of_find hfind, h.read]
  obtain ⟨entry, hentry, hleaf⟩ := Option.bind_eq_some_iff.mp hread
  obtain ⟨entries, hentries, hitem⟩ := Option.bind_eq_some_iff.mp hentry
  refine ⟨before, after, entry, hrules, hordered.filter_selects hmem hselects,
    ⟨entries, hentries, ?_⟩, ?_, ?_⟩
  · exact (hcanonical rule hmem).filter_index hentries (List.mem_of_find?_eq_some hitem)
      (EntryAddress.index_of_readRule hentry)
  · rw [RuleKeys.write_eq_updateRule, RuleKeys.updateRule_of_rules hrules,
      updateFirst_append (by simpa using hbefore) hselects]
  · rw [LeafAddress.writeRule_eq_replaceIn address hentry]
    exact ruleFrame_replaceIn hentry (EntryLeaf.sets_write (by rw [hleaf]; rfl) replacement)

/-- A datagram is accepted when it changes the context, or is answered with 2.04. -/
def Accepts (deps : Deps) (service : InspectionService) (state : BackendState) (datagram : Bytes) :
    Prop :=
  (service.handleDatagram deps state datagram).state.active ≠ state.active ∨
    ∃ bytes, (service.handleDatagram deps state datagram).result = some (.ok bytes) ∧
      ReadsAs deps.coap bytes .changed

theorem Accepts.patched {service : InspectionService} {state : BackendState}
    (laws : ManagementLaws deps service.handler)
    (hpacket : deps.coap.fromBytes datagram = .ok packet)
    (h : Accepts deps service state datagram) :
    Patched deps service.model packet state (service.handleDatagram deps state datagram) := by
  rcases InspectionService.handleDatagram_cases laws state hpacket with
    ⟨hstate, hrefused⟩ | hpatched
  · rcases h with hchanged | ⟨bytes, hbytes, hreads⟩
    · exact absurd hstate hchanged
    · obtain ⟨type, hne, hreply⟩ := hrefused bytes hbytes
      exact absurd ((hreply.readsAs_iff laws.toReplyLaws hpacket).mp hreads) hne
  · exact hpatched

theorem ContextData.Derived.finds_target {recipe : ContextRecipe} {snapshot : ContextSnapshot}
    (hstated : LoadsStatedRules deps recipe.sidJson) (h : snapshot.data.Derived deps recipe)
    (hcheck : checkTargetRule snapshot ifMatch target = .ok ()) :
    ∃ rule, RuleKeys.yang.find snapshot.data.tree target.selector = some rule := by
  simp only [checkTargetRule, bind_ok, ensure_ok, List.any_eq_true, decide_eq_true_eq] at hcheck
  obtain ⟨_, -, _, -, loaded, hloaded, hid⟩ := hcheck
  obtain ⟨model, hmodel, hencoded⟩ := h.encoded
  obtain ⟨registry, context, hregistry, hcontext, hrules, -⟩ := h.full
  obtain ⟨members, hmembers, hall⟩ := hstated.stated hmodel hregistry hencoded hcontext
  obtain ⟨member, hmember, hselects⟩ := forall₂_mem_right hall (hrules ▸ hloaded)
  have hselector : loaded.id.selector = target.selector := by rw [hid]; rfl
  rw [hselector] at hselects
  rw [RuleKeys.find, hmembers, Option.bind_some]
  exact Option.isSome_iff_exists.mp (List.find?_isSome.mpr ⟨member, hmember, hselects⟩)

/-- An accepted target patch changes one target value, of an unprotected rule, and nothing else. -/
theorem target_patch_frame {recipe : ContextRecipe}
    {service : InspectionService} {state : BackendState}
    (laws : ManagementLaws deps service.handler) (hstated : LoadsStatedRules deps recipe.sidJson)
    (hseparated : LoadsSeparated deps recipe.sidJson) (stores : SetsLeaves deps recipe.sidJson put)
    (reads : ReadsLeaves deps recipe.sidJson)
    (hreached : Reached deps recipe source prepared state.active)
    (hmodel : deps.rustconf.coreconfModel recipe.sidJson = .ok service.model)
    (hpacket : deps.coap.fromBytes datagram = .ok packet)
    (haccepted : Accepts deps service state datagram) :
    ∃ address current replacement, PatchesTarget deps service.model packet
      state.active.snapshot.data (service.handleDatagram deps state
        datagram).state.active.snapshot.data.tree address current
      replacement := by
  obtain ⟨-, ⟨request, ifMatch, sids, target, tree, hrequest, hifMatch, hdecode,
    hcheck, htree, hpublish⟩, -⟩ := haccepted.patched laws hpacket
  rw [hpublish.tree_eq (hreached.sidJson ▸ stores.floatFree)]
  obtain ⟨hsids, entry, hinstances, htarget⟩ := decodeTargetPatch_ok hdecode
  obtain ⟨entryIndex, index, hcomponents, hpath, hvalue⟩ := targetPatchFromInstance_ok htarget
  have hderived := hreached.sound.current
  rw [← hreached.sidJson] at hstated hseparated
  obtain ⟨rule, hfind⟩ := hderived.finds_target hstated hcheck
  obtain ⟨rules, hrules, hordered, -⟩ := hderived.ordered hstated hseparated
  simp only [checkTargetRule, bind_ok, ensure_ok, Bool.not_eq_true', List.any_eq_true,
    decide_eq_true_eq] at hcheck
  obtain ⟨_, htag, _, hunprotected, loaded, hloaded, hid⟩ := hcheck
  rw [← hpath] at hcomponents
  obtain ⟨path, current, replacement, hschema, hreplacement, hreplaces, rfl⟩ :=
    patchedTree_replaces stores reads hmodel hsids hcomponents htree
  have hthere : ((targetAddress ⟨target.selector, entryIndex⟩ index).read
      state.active.snapshot.data.tree).isSome = true := by
    rw [hreplaces.read]
    rfl
  obtain ⟨before, after, found, hwrites⟩ := hreplaces.writesRule hordered hrules
    (hderived.canonical.rules_sorted hrules).2 hfind
  refine ⟨_, current, replacement,
    ⟨request, sids, entry, index, target.value, path, hrequest, hsids, hinstances,
      rfl, hpath ▸ hcomponents, hvalue, hschema, hreplacement, hreplaces⟩,
    fun values hvalues => ?_, hunprotected, ⟨loaded, hloaded, hid⟩,
    ⟨before, after, rule, found, hwrites⟩,
    ⟨hreplaces.read, LeafAddress.read_write hthere replacement⟩, fun other hne =>
      LeafAddress.read_write_of_ne hne replacement, ?_⟩
  · obtain ⟨bytes, tag, rfl, hbytes, rfl⟩ := parseIfMatchOption_ok hifMatch values hvalues
    rw [Option.all_some, decide_eq_true_eq] at htag
    exact ⟨bytes, rfl, htag ▸ hbytes⟩
  · rintro rfl
    exact LeafAddress.write_self hreplaces.read

section
open Fixture

theorem patched_evaluated : holds (loaded updateWorld rulesBefore) (fun prepared =>
    holds ((deps updateWorld).coap.fromBytes patchDatagram)
      (fun _ => prepared.data.tree = tree rulesBefore ∧
      ((service updateWorld).handleDatagram (deps updateWorld) (start prepared)
        patchDatagram).state.active.snapshot.data.tree = tree rulesAfter) = true) = true := by
  decide +kernel

theorem target_patched : ∃ prepared packet address current replacement,
    loaded updateWorld rulesBefore = .ok prepared ∧
    PatchesTarget (deps updateWorld) (service updateWorld).model packet prepared.data
      (tree rulesAfter) address current replacement := by
  obtain ⟨prepared, hprepared, h⟩ := holds_iff.mp patched_evaluated
  obtain ⟨packet, hpacket, h⟩ := holds_iff.mp (of_decide_eq_true h)
  obtain ⟨hbefore, hafter⟩ := of_decide_eq_true h
  have haccepted :
      Accepts (deps updateWorld) (service updateWorld) (start prepared) patchDatagram := by
    refine .inl fun hsame => ?_
    have htrees : tree rulesBefore = tree rulesAfter := by
      rw [← hafter, hsame, ← hbefore]
      rfl
    exact absurd htrees (by decide +kernel)
  have hreached : Reached (deps updateWorld) recipe (.sor (sorBytes rulesBefore)) prepared
      (start prepared).active := Reached.of_loaded hprepared []
  obtain ⟨address, current, replacement, hpatches⟩ := target_patch_frame managementLaws
    (loadsStatedRules updateWorld_checked)
      (loadsSeparated updateWorld_checked (by decide +kernel)) setsLeaves
    readsLeaves hreached rfl hpacket haccepted
  rw [hafter] at hpatches
  exact ⟨prepared, packet, address, current, replacement, hprepared, hpatches⟩

end

end SchcCoreconf
