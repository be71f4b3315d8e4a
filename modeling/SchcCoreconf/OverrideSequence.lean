import SchcCoreconf.DuplicateTree
import SchcCoreconf.Fixture.Duplicates
import SchcCoreconf.Lib.Items

/-!
# The override maps of a duplicate operation

The `ipatch-sequence` of a duplicate-rule request is a sequence of CBOR maps. What the
decoder accepts is a sequence of canonical maps of one to three leaves of the
destination, no leaf twice, and no entry in two maps; so the tree builder never meets
a leaf it has set. That all leaves of a map are of one entry is not checked.
-/

namespace SchcCoreconf

open Fallible Machine Items

-- ---------------------------------------------------------------------------
-- The decoder, by positions
-- ---------------------------------------------------------------------------

def readInner (ciborium : Ciborium) (bytes : Bytes) : Except InspectionError (Cbor × Nat) :=
  (ciborium.fromReader bytes).mapError fun error =>
    invalidDuplicate s!"invalid ipatch-sequence CBOR: {error}"

/-- What the loop does with an item: the entries of the maps so far, and their instances. -/
def innerStep (deps : Deps) (model : CompositeModel) (destination : RuleSelector) (sids : ModelSids)
    (state : List Nat × List Instance) (value : Cbor) (member : Bytes) :
    Except InspectionError (List Nat × List Instance) := do
  let decoded ← decodeInnerMember deps model destination sids value member
  ensure (!decoded.any (state.1.contains ·.2))
    (invalidDuplicate "duplicate entry-index override group")
  return (decoded.map (·.2) ++ state.1, state.2 ++ decoded.map (·.1))

def decodeDuplicateInnerChecked (deps : Deps) (model : CompositeModel) (bytes : Bytes)
    (destination : RuleSelector) (sids : ModelSids) : Checked InspectionError (List Instance) := do
  let (_, instances) ← walkFrom (readInner deps.ciborium)
      (innerStep deps model destination sids) bytes
    (bytes.length + 1) 0 ([], [])
  return instances

section
variable {deps : Deps} {model : CompositeModel} {destination : RuleSelector} {sids : ModelSids}

theorem walk_inner {groups : List Nat} {instances : List Instance} {bytes : Bytes} :
    (walk (readInner deps.ciborium) (innerStep deps model destination sids) fuel bytes
        (groups, instances)).map Prod.snd =
      (decodeInnerMembers deps model destination sids groups fuel bytes).map (instances ++ ·) := by
  induction fuel generalizing groups instances bytes with
  | zero => simp [walk, decodeInnerMembers, Except.map]
  | succ fuel ih =>
    rw [walk, decodeInnerMembers]
    split
    · simp [Except.map]
    · rw [readInner]
      cases deps.ciborium.fromReader bytes with
      | error error => rfl
      | ok pair =>
        obtain ⟨value, consumed⟩ := pair
        simp only [Except.mapError, ok_bind, innerStep]
        cases decodeInnerMember deps model destination sids value (bytes.take consumed) with
        | error error => rfl
        | ok member =>
          simp only [ok_bind]
          cases hany : member.any (groups.contains ·.2) with
          | true => rfl
          | false =>
            rw [ensure_bind (by rfl), ensure_bind (by rfl)]
            refine ih.trans ?_
            cases decodeInnerMembers deps model destination sids (member.map (·.2) ++ groups) fuel
                (bytes.drop consumed) with
            | error error => rfl
            | ok rest => simp [Except.map, bind, Except.bind, pure, Except.pure]

theorem readInner_consumes (h : Consumes deps.ciborium.fromReader) :
    Consumes (readInner deps.ciborium) :=
  h.mapError _

theorem readInner_reads {bytes : Bytes} {items : List (Cbor × Bytes)} :
    Reads (readInner deps.ciborium) bytes items ↔ Reads deps.ciborium.fromReader bytes items :=
  reads_mapError

/-- The decoder ends, and reads what the exact one reads. -/
theorem decodeDuplicateInnerChecked_eq (hconsumes : Consumes deps.ciborium.fromReader)
    (bytes : Bytes) : decodeDuplicateInnerChecked deps model bytes destination sids =
      lift (decodeDuplicateInner deps model bytes destination sids) := by
  have hinner :
      (walk (readInner deps.ciborium) (innerStep deps model destination sids) bytes.length bytes
      ([], [])).map Prod.snd = (decodeInnerMembers deps model destination sids
        [] bytes.length bytes).map ([] ++ ·) := walk_inner
  have hsame (x : Except InspectionError (List Instance)) :
      x.map ([] ++ ·) = x := by cases x <;> rfl
  rw [decodeDuplicateInnerChecked, walkFrom_start (readInner_consumes hconsumes),
    decodeDuplicateInner, ← hsame (decodeInnerMembers deps model destination sids
      [] bytes.length bytes), ← hinner]
  exact lift_bind_pure

end

-- ---------------------------------------------------------------------------
-- Override maps
-- ---------------------------------------------------------------------------

def DuplicateLeaf.pathSids (sids : ModelSids) : DuplicateLeaf → List Int
  | .target => [sids.root, sids.rule, sids.entry, sids.target, sids.targetValue]
  | .matchingOperator => [sids.root, sids.rule, sids.entry, sids.matchingOperator]
  | .cda => [sids.root, sids.rule, sids.entry, sids.cda]

/-- The absolute SIDs along a path, as `i64` sums that wrap around. -/
def InstancePath.wrappedSids (path : InstancePath) : List Int :=
  let deltas := path.components.filterMap fun
    | .sidDelta delta => some delta
    | .keyValue _ => none
  (deltas.scanl wrapAdd 0).tail

/-- The decoder compares the sums one by one, so where they overflow the path names no leaf. -/
theorem wrappedSids_eq_iff {path : InstancePath} {leaf : DuplicateLeaf} {sids : ModelSids}
    (hdeltas : ∀ delta, .sidDelta delta ∈ path.components → -2 ^ 63 ≤ delta ∧ delta < 2 ^ 63)
    (hsids : ∀ sid ∈ leaf.pathSids sids, 0 ≤ sid ∧ sid < 2 ^ 63) :
    path.wrappedSids = leaf.pathSids sids ↔ path.absoluteSids = leaf.pathSids sids := by
  refine scanl_wrapAdd_eq_iff ⟨by decide, by decide⟩ (fun delta hdelta => ?_) hsids
  obtain ⟨component, hmem, hcomponent⟩ := List.mem_filterMap.mp hdelta
  cases component with
  | sidDelta other =>
    cases hcomponent
    exact hdeltas delta hmem
  | keyValue value => cases hcomponent

/-- The path names this leaf of an entry of the destination; of a target, its first value. -/
structure InstancePath.NamesLeaf (path : InstancePath)
    (destination : RuleSelector) (sids : ModelSids)
    (item : Nat × DuplicateLeaf) : Prop where
  value : path.keys[0]? = some (.ofNat destination.value)
  bits : path.keys[1]? = some (.ofNat destination.bits)
  entry : path.keys[2]? = some (.ofNat item.1)
  leaf : path.absoluteSids = item.2.pathSids sids
  index : item.2 = .target → path.keys[3]? = some (.ofNat 0) ∧ path.keys.length = 4

/-- One map of a sequence: the bytes it was read from, its instances and the leaves they name. -/
structure OverrideMap where
  value : Cbor
  bytes : Bytes
  instances : List Instance
  leaves : List (Nat × DuplicateLeaf)

structure OverrideMap.Canonical (deps : Deps) (model : CompositeModel) (destination : RuleSelector)
    (sids : ModelSids) (map : OverrideMap) : Prop where
  members : ∃ entries, map.value = .map entries ∧ entries.length = map.instances.length
  written : deps.ciborium.intoWriter map.value = .ok map.bytes
  decoded : model.decodeInstancesToIdentifierAtPath map.bytes = .ok map.instances
  few : 1 ≤ map.leaves.length ∧ map.leaves.length ≤ 3
  leaf : List.Forall₂ (fun entry item =>
    duplicateLeafFromPath entry.path destination sids = .ok item)
    map.instances map.leaves
  names : List.Forall₂ (fun entry item => entry.path.NamesLeaf destination sids item)
    map.instances map.leaves
  distinct : map.leaves.Nodup

def OverrideMap.Apart (left right : OverrideMap) : Prop :=
  ∀ item ∈ left.leaves, ∀ item' ∈ right.leaves, item.1 ≠ item'.1

def OverrideMap.Single (map : OverrideMap) : Prop :=
  ∃ entryIndex, ∀ item ∈ map.leaves, item.1 = entryIndex

/-- The bytes are the concatenation of these maps, no entry occurs in two of them, and
these are their instances. -/
structure OverrideMaps (deps : Deps) (model : CompositeModel) (destination : RuleSelector)
    (sids : ModelSids) (bytes : Bytes) (instances : List Instance) (maps : List OverrideMap) :
    Prop where
  concatenated : bytes = maps.flatMap OverrideMap.bytes
  reads : Reads deps.ciborium.fromReader bytes (maps.map fun map => (map.value, map.bytes))
  canonical : ∀ map ∈ maps, map.Canonical deps model destination sids
  apart : maps.Pairwise OverrideMap.Apart
  listed : instances = maps.flatMap OverrideMap.instances

section
variable {deps : Deps} {model : CompositeModel} {destination : RuleSelector} {sids : ModelSids}

theorem key_of_asU64 {key : Option Json} (h : key.bind Json.asU64 = some n) :
    key = some (.ofNat n) := by
  obtain ⟨value, rfl, hvalue⟩ := Option.bind_eq_some_iff.mp h
  rw [Json.eq_ofNat_of_asU64 hvalue]

theorem duplicateLeafFromPath_names {path : InstancePath}
    (h : duplicateLeafFromPath path destination sids = .ok item) :
    path.NamesLeaf destination sids item := by
  simp only [duplicateLeafFromPath, bind_ok, need_ok, ensure_ok, Bool.and_eq_true,
    decide_eq_true_eq] at h
  obtain ⟨_, hvalue, _, hbits, _, ⟨rfl, rfl⟩, index, hindex, h⟩ := h
  have hnames {leaf : DuplicateLeaf} (hleaf : path.absoluteSids = leaf.pathSids sids)
      (hzero : leaf = .target → path.keys[3]? = some (.ofNat 0) ∧ path.keys.length = 4) :
      path.NamesLeaf destination sids (index, leaf) :=
    ⟨key_of_asU64 hvalue, key_of_asU64 hbits, key_of_asU64 hindex, hleaf, hzero⟩
  split at h
  · next hsids =>
    cases h
    exact hnames hsids nofun
  · split at h
    · next hsids =>
      cases h
      exact hnames hsids nofun
    · simp only [bind_ok, ensure_ok, pure_ok, Bool.and_eq_true, decide_eq_true_eq] at h
      obtain ⟨_, ⟨hsids, hlength⟩, _, hzero, rfl⟩ := h
      exact hnames hsids fun _ => ⟨key_of_asU64 hzero, hlength⟩

theorem memberLeaves_ok {seen : List (Nat × DuplicateLeaf)} {instances : List Instance}
    {pairs : List (Instance × Nat)} (h : memberLeaves destination sids seen instances = .ok pairs) :
    ∃ leaves, List.Forall₂ (fun entry item =>
      duplicateLeafFromPath entry.path destination sids = .ok item)
        instances leaves ∧
      leaves.Nodup ∧ (∀ item ∈ leaves, item ∉ seen) ∧ pairs.map Prod.fst = instances ∧
      pairs.map Prod.snd = leaves.map Prod.fst := by
  induction instances generalizing seen pairs with
  | nil =>
    cases h
    exact ⟨[], .nil, List.nodup_nil, nofun, rfl, rfl⟩
  | cons entry rest ih =>
    simp only [memberLeaves, bind_ok, ensure_ok, pure_ok, Bool.not_eq_true', List.contains_eq_mem,
      decide_eq_false_iff_not, Prod.exists] at h
    obtain ⟨index, leaf, hleaf, _, hnew, others, hrest, rfl⟩ := h
    obtain ⟨leaves, hleaves, hdistinct, hunseen, hinstances, hentries⟩ := ih hrest
    refine ⟨(index, leaf) :: leaves, .cons hleaf hleaves, ?_, ?_, ?_, ?_⟩
    · refine List.nodup_cons.mpr ⟨fun hmem => ?_, hdistinct⟩
      exact hunseen _ hmem List.mem_cons_self
    · intro item hitem
      rcases List.mem_cons.mp hitem with rfl | hitem
      · exact hnew
      · exact fun hmem => hunseen item hitem (List.mem_cons_of_mem _ hmem)
    · rw [List.map_cons, hinstances]
    · rw [List.map_cons, List.map_cons, hentries]

theorem decodeInnerMember_ok {value : Cbor} {member : Bytes} {pairs : List (Instance × Nat)}
    (h : decodeInnerMember deps model destination sids value member = .ok pairs) :
    ∃ map : OverrideMap, map.Canonical deps model destination sids ∧ map.value = value ∧
      map.bytes = member ∧ pairs.map Prod.fst = map.instances ∧
      pairs.map Prod.snd = map.leaves.map Prod.fst := by
  cases value with
  | map entries =>
    simp only [decodeInnerMember, bind_ok, ensure_ok, mapError_ok, decide_eq_true_eq] at h
    obtain ⟨_, hfew, _, -, canonical, hwritten, _, rfl, decoded, hdecoded, _, hlength, hleaves⟩ := h
    obtain ⟨leaves, hnames, hdistinct, -, hinstances, hentries⟩ := memberLeaves_ok hleaves
    refine ⟨⟨.map entries, canonical, decoded, leaves⟩,
      ⟨⟨entries, rfl, hlength.symm⟩, hwritten, hdecoded, ?_, hnames, hnames.imp fun _ _ =>
        duplicateLeafFromPath_names, hdistinct⟩, rfl, rfl, hinstances, hentries⟩
    rwa [← hnames.length_eq, hlength]
  | _ => cases h

theorem innerSteps_ok {items : List (Cbor × Bytes)} {groups : List Nat} {instances : List Instance}
    (h : items.foldlM (fun state item => innerStep deps model destination sids state item.1 item.2)
      (groups, instances) = .ok final) :
    ∃ maps : List OverrideMap, maps.map (fun map => (map.value, map.bytes)) = items ∧
      (∀ map ∈ maps, map.Canonical deps model destination sids) ∧ maps.Pairwise OverrideMap.Apart ∧
      (∀ map ∈ maps, ∀ item ∈ map.leaves, item.1 ∉ groups) ∧
      final.2 = instances ++ maps.flatMap OverrideMap.instances := by
  induction items generalizing groups instances with
  | nil =>
    cases h
    exact ⟨[], rfl, nofun, .nil, nofun, (List.append_nil _).symm⟩
  | cons item items ih =>
    obtain ⟨value, member⟩ := item
    rw [List.foldlM_cons, bind_ok] at h
    obtain ⟨state, hstep, hrest⟩ := h
    simp only [innerStep, bind_ok, ensure_ok, pure_ok] at hstep
    obtain ⟨pairs, hmember, _, hnew, rfl⟩ := hstep
    obtain ⟨map, hmap, rfl, rfl, hinstances, hentries⟩ := decodeInnerMember_ok hmember
    obtain ⟨maps, hitems, hmaps, hapart, hfresh, hfinal⟩ := ih hrest
    have hunused : ∀ item ∈ map.leaves, item.1 ∉ groups := by
      intro item hitem hmem
      have hpair : item.1 ∈ pairs.map Prod.snd := hentries ▸ List.mem_map_of_mem hitem
      obtain ⟨pair, hpair, heq⟩ := List.mem_map.mp hpair
      simp only [Bool.not_eq_true', List.any_eq_false, List.contains_eq_mem,
        decide_eq_true_eq] at hnew
      exact hnew pair hpair (heq ▸ hmem)
    refine ⟨map :: maps, by rw [List.map_cons, hitems], ?_, ?_, ?_, ?_⟩
    · rw [List.forall_mem_cons]
      exact ⟨hmap, hmaps⟩
    · refine List.pairwise_cons.mpr ⟨?_, hapart⟩
      intro other hother item hitem item' hitem' heq
      refine hfresh other hother item' hitem' (List.mem_append_left _ ?_)
      rw [hentries, ← heq]
      exact List.mem_map_of_mem hitem
    · rw [List.forall_mem_cons]
      exact ⟨hunused, fun other hother item hitem hmem =>
        hfresh other hother item hitem (List.mem_append_right _ hmem)⟩
    · rw [hfinal, hinstances, List.flatMap_cons, List.append_assoc]

/-- What the decoder accepts is a sequence of override maps. -/
theorem decodeDuplicateInner_ok (hconsumes : Consumes deps.ciborium.fromReader) {bytes : Bytes}
    (h : decodeDuplicateInner deps model bytes destination sids = .ok instances) :
    ∃ maps, OverrideMaps deps model destination sids bytes instances maps := by
  have hinner :
      (walk (readInner deps.ciborium) (innerStep deps model destination sids) bytes.length bytes
      ([], [])).map Prod.snd = (decodeInnerMembers deps model destination sids
        [] bytes.length bytes).map ([] ++ ·) := walk_inner
  rw [decodeDuplicateInner] at h
  rw [h] at hinner
  cases hwalk : walk (readInner deps.ciborium)
    (innerStep deps model destination sids) bytes.length bytes
      ([], []) with
  | error error =>
    rw [hwalk] at hinner
    cases hinner
  | ok final =>
    rw [hwalk] at hinner
    obtain ⟨items, hitems, hfold⟩ := (walk_ok (readInner_consumes hconsumes) le_rfl).mp hwalk
    obtain ⟨maps, rfl, hmaps, hapart, -, hfinal⟩ := innerSteps_ok hfold
    have hinstances : final.2 = instances := Except.ok.inj hinner
    refine ⟨maps, ?_, readInner_reads.mp hitems, hmaps, hapart, hinstances.symm.trans hfinal⟩
    rw [← hitems.flatten, List.map_map, List.flatMap_def]
    rfl

end

-- ---------------------------------------------------------------------------
-- The duplicate-leaf check of the tree builder
-- ---------------------------------------------------------------------------

def overridesApplied (deps : Deps) (model : CoreconfModel) (destination : RuleSelector)
    (sids : ModelSids) (store : Datastore) (front : List Instance) :
    Except InspectionError (List (Nat × DuplicateLeaf) × Datastore) :=
  front.foldlM (fun state entry => applyOverride deps model destination sids state.1 state.2 entry)
    ([], store)

section
variable {deps : Deps} {model : CoreconfModel} {destination : RuleSelector} {sids : ModelSids}

theorem overridesApplied_seen {store : Datastore} {front : List Instance}
    (h : overridesApplied deps model destination sids store front = .ok state) :
    List.Forall₂ (fun entry item => duplicateLeafFromPath entry.path destination sids = .ok item)
      front state.1.reverse := by
  induction front using List.reverseRecOn generalizing state with
  | nil =>
    cases h
    exact .nil
  | append_singleton front entry ih =>
    rw [overridesApplied, List.foldlM_append, bind_ok] at h
    obtain ⟨before, hfront, hlast⟩ := h
    simp only [List.foldlM_cons, List.foldlM_nil, bind_ok, pure_ok] at hlast
    obtain ⟨_, hlast, rfl⟩ := hlast
    obtain ⟨item, _, _, _, hleaf, -, -, -, -, -, hseen⟩ := applyOverride_ok.mp hlast
    rw [hseen, List.reverse_cons]
    exact List.rel_append (ih hfront) (.cons hleaf .nil)

end

def LeavesDiffer (destination : RuleSelector) (sids : ModelSids) (left right : Instance) : Prop :=
  ∀ item, duplicateLeafFromPath left.path destination sids = .ok item →
    duplicateLeafFromPath right.path destination sids ≠ .ok item

theorem not_mem_seen {deps : Deps} {model : CoreconfModel}
    {destination : RuleSelector} {sids : ModelSids}
    (hdiffer : (front ++ entry :: rest).Pairwise (LeavesDiffer destination sids))
    (hfront : overridesApplied deps model destination sids store front = .ok state)
    (hleaf : duplicateLeafFromPath entry.path destination sids = .ok item) : item ∉ state.1 := by
  intro hmem
  obtain ⟨earlier, hearlier, hsame⟩ :=
    forall₂_mem_right (overridesApplied_seen hfront) (List.mem_reverse.mpr hmem)
  obtain ⟨-, -, hacross⟩ := List.pairwise_append.mp hdiffer
  exact hacross earlier hearlier entry List.mem_cons_self item hsame hleaf

section
variable {deps : Deps} {model : CompositeModel} {destination : RuleSelector} {sids : ModelSids}
  {bytes : Bytes} {instances : List Instance} {maps : List OverrideMap}

theorem OverrideMaps.leaves (h : OverrideMaps deps model destination sids bytes instances maps) :
    List.Forall₂ (fun entry item => duplicateLeafFromPath entry.path destination sids = .ok item)
      instances (maps.flatMap OverrideMap.leaves) := by
  rw [h.listed]
  exact forall₂_flatMap fun map hmap => (h.canonical map hmap).leaf

theorem OverrideMaps.distinct (h : OverrideMaps deps model destination sids bytes instances maps) :
    (maps.flatMap OverrideMap.leaves).Nodup := by
  refine List.nodup_flatMap.mpr ⟨fun map hmap => (h.canonical map hmap).distinct, h.apart.imp ?_⟩
  intro left right hapart item hleft hright
  exact hapart item hleft item hright rfl

theorem OverrideMaps.differ (h : OverrideMaps deps model destination sids bytes instances maps) :
    instances.Pairwise (LeavesDiffer destination sids) := by
  refine forall₂_pairwise (fun entry entry' item item' hitem hitem' hne other hother hother' => ?_)
    h.leaves h.distinct
  cases hitem.symm.trans hother
  cases hitem'.symm.trans hother'
  exact hne rfl

end

-- ---------------------------------------------------------------------------
-- One entry for each map
-- ---------------------------------------------------------------------------

def statedSequence (deps : Deps) (model : CoreconfModel) (payload : Bytes) :
    Except InspectionError (RuleSelector × RuleSelector × Bytes) := do
  let sids ← validateDuplicateModelShape model.compositeModel
  let instances ← (model.compositeModel.decodeInstancesToIdentifierAtPath payload).mapError
    fun error => invalidDuplicate s!"RPC payload decode failed: {error}"
  rpcInput deps.rschc sids instances

def NamesOneEntry (model : CompositeModel) (member : Bytes) : Prop :=
  ∀ instances, model.decodeInstancesToIdentifierAtPath member = .ok instances →
    ∀ left ∈ instances, ∀ right ∈ instances, left.path.keys[2]? = right.path.keys[2]?

/-- The paths in each map of the sequence that a payload states have one entry-index. -/
def OneEntryPerMap (deps : Deps) (model : CoreconfModel) (payload : Bytes) : Prop :=
  ∀ source destination sequence, statedSequence deps model payload =
    .ok (source, destination, sequence) → ∀ items, Reads deps.ciborium.fromReader sequence items →
      ∀ item ∈ items, NamesOneEntry model.compositeModel item.2

section
variable {deps : Deps} {model : CompositeModel} {destination : RuleSelector} {sids : ModelSids}

theorem OverrideMap.Canonical.single_iff {map : OverrideMap}
    (h : map.Canonical deps model destination sids) :
    map.Single ↔ NamesOneEntry model map.bytes := by
  constructor
  · rintro ⟨entryIndex, hsingle⟩ instances hdecoded left hleft right hright
    cases h.decoded.symm.trans hdecoded
    have hkey (entry : Instance) (hentry : entry ∈ map.instances) :
        entry.path.keys[2]? = some (.ofNat entryIndex) := by
      obtain ⟨item, hitem, hnames⟩ := forall₂_mem_left h.names hentry
      rw [hnames.entry, hsingle item hitem]
    rw [hkey left hleft, hkey right hright]
  · intro hone
    obtain ⟨first, rest, hleaves⟩ := List.exists_cons_of_length_pos h.few.1
    have hmem : first ∈ map.leaves := hleaves ▸ List.mem_cons_self
    obtain ⟨entry, hentry, hfirst⟩ := forall₂_mem_right h.names hmem
    refine ⟨first.1, fun item hitem => ?_⟩
    obtain ⟨other, hother, hnames⟩ := forall₂_mem_right h.names hitem
    have hkey := hone _ h.decoded other hother entry hentry
    rw [hnames.entry, hfirst.entry] at hkey
    exact Int.natCast_inj.mp (Json.int.inj (Option.some.inj hkey))

end

theorem decodeDuplicateOperation_maps {model : CoreconfModel}
    (hconsumes : Consumes deps.ciborium.fromReader)
    (h : decodeDuplicateOperation deps model payload = .ok operation) :
    ∃ sids maps, validateDuplicateModelShape model.compositeModel = .ok sids ∧
      statedSequence deps model payload =
        .ok (operation.request.source, operation.request.destination, operation.innerPayload) ∧
      OverrideMaps deps model.compositeModel operation.request.destination
        sids operation.innerPayload operation.instances maps := by
  simp only [decodeDuplicateOperation, bind_ok, mapError_ok, pure_ok] at h
  obtain ⟨sids, hsids, _, -, _, -, instances, hinstances,
    ⟨source, destination, inner⟩, hinput, _, hinner, leaves, -, rfl⟩ := h
  obtain ⟨maps, hmaps⟩ := decodeDuplicateInner_ok hconsumes hinner
  refine ⟨sids, maps, hsids, ?_, hmaps⟩
  simp only [statedSequence, bind_ok, mapError_ok]
  exact ⟨sids, hsids, instances, hinstances, hinput⟩

-- ---------------------------------------------------------------------------
-- Accepted payloads
-- ---------------------------------------------------------------------------

def OverrideGroups (deps : Deps) (model : CoreconfModel) (operation : DecodedDuplicateOperation) :
    Prop :=
  ∃ sids maps, validateDuplicateModelShape model.compositeModel = .ok sids ∧
    OverrideMaps deps model.compositeModel operation.request.destination sids operation.innerPayload
      operation.instances maps ∧
    ∀ map ∈ maps, map.Single

/-- However far the tree builder gets, it has not set the leaf it sets next. -/
def LeavesUnseen (deps : Deps) (model : CoreconfModel) (operation : DecodedDuplicateOperation) :
    Prop :=
  ∀ sids store front entry rest state item, validateDuplicateModelShape
    model.compositeModel = .ok sids → operation.instances = front ++ entry :: rest →
    overridesApplied deps model operation.request.destination sids store front = .ok state →
    duplicateLeafFromPath entry.path operation.request.destination sids = .ok item → item ∉ state.1

theorem leavesUnseen {model : CoreconfModel} (hconsumes : Consumes deps.ciborium.fromReader)
    (h : decodeDuplicateOperation deps model payload = .ok operation) :
    LeavesUnseen deps model operation := by
  intro sids store front entry rest state item hsids hsplit hfront hleaf
  obtain ⟨sids', maps, hsids', -, hmaps⟩ := decodeDuplicateOperation_maps hconsumes h
  cases hsids.symm.trans hsids'
  have hdiffer := hmaps.differ
  rw [hsplit] at hdiffer
  exact not_mem_seen hdiffer hfront hleaf

theorem overrideGroups_iff {model : CoreconfModel} (hconsumes : Consumes deps.ciborium.fromReader)
    (h : decodeDuplicateOperation deps model payload = .ok operation) :
    OverrideGroups deps model operation ↔ OneEntryPerMap deps model payload := by
  obtain ⟨sids, maps, hsids, hstated, hmaps⟩ := decodeDuplicateOperation_maps hconsumes h
  constructor
  · rintro ⟨sids', maps', hsids', hmaps', hsingle⟩ source destination sequence
      hsequence items hitems item hitem
    cases hsids.symm.trans hsids'
    cases hstated.symm.trans hsequence
    rw [hitems.unique hmaps'.reads] at hitem
    obtain ⟨map, hmap, rfl⟩ := List.mem_map.mp hitem
    exact (hmaps'.canonical map hmap).single_iff.mp (hsingle map hmap)
  · intro hone
    refine ⟨sids, maps, hsids, hmaps, fun map hmap => ?_⟩
    refine (hmaps.canonical map hmap).single_iff.mpr ?_
    exact hone _ _ _ hstated _ hmaps.reads (map.value, map.bytes) (List.mem_map_of_mem hmap)

/-- The sequence of an accepted payload is made of override groups exactly where the
paths in each of its maps have one entry-index. -/
theorem override_groups_exact (model : CoreconfModel) (payload : Bytes)
    (hconsumes : Consumes deps.ciborium.fromReader) :
    (∀ bytes destination sids, decodeDuplicateInnerChecked deps model.compositeModel
      bytes destination sids =
      lift (decodeDuplicateInner deps model.compositeModel bytes destination sids)) ∧
    ∀ operation, decodeDuplicateOperation deps model payload = .ok operation →
      (OverrideGroups deps model operation ∧ LeavesUnseen deps model operation ↔
        OneEntryPerMap deps model payload) := by
  refine ⟨fun bytes _ _ => decodeDuplicateInnerChecked_eq hconsumes bytes, fun operation h => ?_⟩
  rw [overrideGroups_iff hconsumes h, and_iff_left (leavesUnseen hconsumes h)]

section
open Fixture

theorem single_map_grouped : OverrideGroups (deps duplicateWorld) (coreconfModel duplicateWorld)
      duplicateOperation ∧
    LeavesUnseen (deps duplicateWorld) (coreconfModel duplicateWorld) duplicateOperation := by
  have hconsumes : Consumes (deps duplicateWorld).ciborium.fromReader :=
    fromReader_consumes (by decide +kernel)
  have hdecoded : decodeDuplicateOperation (deps duplicateWorld) (coreconfModel duplicateWorld)
      (cborBytes duplicateCbor) = .ok duplicateOperation := by decide +kernel
  have hstated : statedSequence (deps duplicateWorld) (coreconfModel duplicateWorld)
      (cborBytes duplicateCbor) = .ok (⟨20, 8⟩, ⟨64, 8⟩, cborBytes overrideMap) := by decide +kernel
  have hread : (deps duplicateWorld).ciborium.fromReader (cborBytes overrideMap) =
      .ok (overrideMap, (cborBytes overrideMap).length) := by decide +kernel
  have hinstances : (coreconfModel duplicateWorld).compositeModel.decodeInstancesToIdentifierAtPath
      (cborBytes overrideMap) = .ok duplicateOperation.instances := by decide +kernel
  refine ((override_groups_exact (coreconfModel duplicateWorld)
    (cborBytes duplicateCbor) hconsumes).2 duplicateOperation hdecoded).mpr ?_
  intro source destination sequence hsequence items hitems item hitem instances
    hdecoded left hleft right hright
  cases hstated.symm.trans hsequence
  rw [hitems.unique (reads_one (by decide +kernel) hread), List.mem_singleton] at hitem
  rw [hitem] at hdecoded
  cases hinstances.symm.trans hdecoded
  rw [List.mem_singleton.mp hleft, List.mem_singleton.mp hright]

theorem mixed_map_accepted : ∃ operation,
    decodeDuplicateOperation (deps mixedWorld) (coreconfModel mixedWorld) (cborBytes mixedCbor) =
      .ok operation ∧ operation.innerPayload = cborBytes mixedMap ∧
    operation.request.overrides.map (·.entryIndex) = [9, 10] ∧
    ¬OverrideGroups (deps mixedWorld) (coreconfModel mixedWorld) operation := by
  have heval : holds (decodeDuplicateOperation (deps mixedWorld) (coreconfModel mixedWorld)
      (cborBytes mixedCbor)) (fun operation => operation.innerPayload = cborBytes mixedMap &&
        operation.request.overrides.map (·.entryIndex) = [9, 10]) = true := by decide +kernel
  obtain ⟨operation, hdecoded, hfacts⟩ := holds_iff.mp heval
  simp only [Bool.and_eq_true, decide_eq_true_eq] at hfacts
  have hconsumes : Consumes (deps mixedWorld).ciborium.fromReader :=
    fromReader_consumes (by decide +kernel)
  refine ⟨operation, hdecoded, hfacts.1, hfacts.2, fun hgroups => ?_⟩
  have hone := (overrideGroups_iff hconsumes hdecoded).mp hgroups
  have hstated : statedSequence (deps mixedWorld) (coreconfModel mixedWorld) (cborBytes mixedCbor) =
      .ok (⟨20, 8⟩, ⟨64, 8⟩, cborBytes mixedMap) := by decide +kernel
  have hread : (deps mixedWorld).ciborium.fromReader (cborBytes mixedMap) =
      .ok (mixedMap, (cborBytes mixedMap).length) := by decide +kernel
  have hinstances : (coreconfModel mixedWorld).compositeModel.decodeInstancesToIdentifierAtPath
      (cborBytes mixedMap) = .ok [⟨copiedPath, some (.string (base64Text (iidBytes 7)))⟩,
        ⟨otherPath, some (.string (base64Text (iidBytes 8)))⟩] := by decide +kernel
  have hitems := reads_one (by decide +kernel) hread
  have hkeys := hone _ _ _ hstated _ hitems _ List.mem_cons_self _ hinstances _ List.mem_cons_self _
    (List.mem_cons_of_mem _ List.mem_cons_self)
  exact absurd hkeys (by decide)

end

end SchcCoreconf
