import SchcCoreconf.RuleLeaves

/-!
# The tree a duplicate operation describes

Every override names one leaf of the destination, whatever its path looks like.
The tree of an operation is the active tree with one rule in its place: the source
with the RuleID of the destination and the named leaves set.
-/

namespace SchcCoreconf

open Fallible FirstMatch

-- ---------------------------------------------------------------------------
-- Override paths
-- ---------------------------------------------------------------------------

def DuplicateLeaf.entryLeaf : DuplicateLeaf → EntryLeaf
  | .target => .target 0
  | .matchingOperator => .matchingOperator
  | .cda => .cda

def DuplicateLeaf.sid (sids : ModelSids) : DuplicateLeaf → Int
  | .target => sids.targetValue
  | .matchingOperator => sids.matchingOperator
  | .cda => sids.cda

def duplicateLeafAddress (destination : RuleSelector) (item : Nat × DuplicateLeaf) :
    LeafAddress where
  entry := { rule := destination, entryIndex := item.1 }
  leaf := item.2.entryLeaf

theorem duplicateLeafAddress_injective (destination : RuleSelector) :
    Function.Injective (duplicateLeafAddress destination) := by
  rintro ⟨index, leaf⟩ ⟨index', leaf'⟩ h
  simp only [duplicateLeafAddress, LeafAddress.mk.injEq, EntryAddress.mk.injEq, true_and] at h
  obtain ⟨rfl, hleaf⟩ := h
  cases leaf <;> cases leaf' <;> simp_all [DuplicateLeaf.entryLeaf]

theorem Json.eq_ofNat_of_asU64 {value : Json} (h : value.asU64 = some n) : value = .ofNat n := by
  cases value with
  | int number =>
    simp only [asU64, Option.ite_none_right_eq_some, Option.some.injEq] at h
    obtain ⟨⟨hnonneg, -⟩, rfl⟩ := h
    rw [ofNat, Int.toNat_of_nonneg hnonneg]
  | _ => cases h

theorem keys_of_asU64 {keys : List Json} (hvalue : keys[0]?.bind Json.asU64 = some value)
    (hbits : keys[1]?.bind Json.asU64 = some bits)
    (hindex : keys[2]?.bind Json.asU64 = some index) :
    [.ofNat value, .ofNat bits, .ofNat index] <+: keys := by
  match keys, hvalue, hbits, hindex with
  | first :: second :: third :: rest, hvalue, hbits, hindex =>
    cases Json.eq_ofNat_of_asU64 hvalue
    cases Json.eq_ofNat_of_asU64 hbits
    cases Json.eq_ofNat_of_asU64 hindex
    exact List.prefix_append _ rest

/-- A path that is accepted has the keys and the SID of a leaf of the destination. -/
theorem duplicateLeafFromPath_ok {path : InstancePath} {destination : RuleSelector}
    {sids : ModelSids} (h : duplicateLeafFromPath path destination sids = .ok item) :
    (duplicateLeafAddress destination item).keys <+: path.keys ∧
      path.absoluteSids.getLast? = some (item.2.sid sids) ∧
      destination.value < 2 ^ 64 ∧ destination.bits < 2 ^ 64 := by
  simp only [duplicateLeafFromPath, bind_ok, need_ok, ensure_ok, Bool.and_eq_true,
    decide_eq_true_eq] at h
  obtain ⟨_, hvalue, _, hbits, _, ⟨rfl, rfl⟩, index, hindex, h⟩ := h
  have hlead := keys_of_asU64 hvalue hbits hindex
  obtain ⟨_, -, hvalue⟩ := Option.bind_eq_some_iff.mp hvalue
  obtain ⟨_, -, hbits⟩ := Option.bind_eq_some_iff.mp hbits
  split at h
  · next hsids =>
    cases h
    exact ⟨hlead, by simp [hsids, DuplicateLeaf.sid], Json.asU64_lt hvalue, Json.asU64_lt hbits⟩
  · split at h
    · next hsids =>
      cases h
      exact ⟨hlead, by simp [hsids, DuplicateLeaf.sid], Json.asU64_lt hvalue, Json.asU64_lt hbits⟩
    · simp only [bind_ok, ensure_ok, pure_ok, Bool.and_eq_true, decide_eq_true_eq] at h
      obtain ⟨_, ⟨hsids, hlength⟩, _, hzero, rfl⟩ := h
      obtain ⟨rest, hrest⟩ := hlead
      obtain ⟨last, rfl⟩ : ∃ last, rest = [last] :=
        List.length_eq_one_iff.mp (by simpa [← hrest] using hlength)
      have hlast : last.asU64 = some 0 := by simpa [← hrest] using hzero
      cases Json.eq_ofNat_of_asU64 hlast
      exact ⟨⟨[], hrest⟩, by simp [hsids, DuplicateLeaf.sid], Json.asU64_lt hvalue,
        Json.asU64_lt hbits⟩

structure OverrideNames (model : CompositeModel) (destination : RuleSelector) (entry : Instance)
    (item : LeafAddress × Json) : Prop where
  leaf : ∃ sids named, ModelSids.resolve model = .ok sids ∧
    duplicateLeafFromPath entry.path destination sids = .ok named ∧
    item.1 = duplicateLeafAddress destination named
  value : entry.value = some item.2

def Instance.Located (deps : Deps) (model : CoreconfModel) (entry : Instance) : Prop :=
  ∃ store sid xpath, deps.rustconf.absoluteSid entry.path = some sid ∧
    model.createXpath store sid entry.path.keys = .ok xpath

theorem OverrideNames.rule_eq {destination : RuleSelector} {entry : Instance}
    {item : LeafAddress × Json} (h : OverrideNames model destination entry item) :
    item.1.entry.rule = destination := by
  obtain ⟨_, _, -, -, hitem⟩ := h.leaf
  rw [hitem]
  rfl

-- ---------------------------------------------------------------------------
-- The override loop
-- ---------------------------------------------------------------------------

theorem applyOverride_ok {destination : RuleSelector} {sids : ModelSids} {entry : Instance}
    {seen seen' : List (Nat × DuplicateLeaf)} :
    applyOverride deps model destination sids seen store entry = .ok (seen', store') ↔
      ∃ item value sid xpath, duplicateLeafFromPath entry.path destination sids = .ok item ∧
        item ∉ seen ∧ entry.value = some value ∧ deps.rustconf.absoluteSid entry.path = some sid ∧
        model.createXpath store sid entry.path.keys = .ok xpath ∧
        model.setPath store xpath value = .ok store' ∧ seen' = item :: seen := by
  simp only [applyOverride, bind_ok, need_ok, ensure_ok, mapError_ok, pure_ok, Prod.mk.injEq,
    Bool.not_eq_true', List.contains_eq_mem, decide_eq_false_iff_not]
  constructor
  · rintro ⟨⟨index, leaf⟩, hleaf, _, hnew, value, hvalue, sid, hsid, xpath,
      hxpath, _, hset, rfl, rfl⟩
    exact ⟨_, value, sid, xpath, hleaf, hnew, hvalue, hsid, hxpath, hset, rfl⟩
  · rintro ⟨⟨index, leaf⟩, value, sid, xpath, hleaf, hnew, hvalue, hsid, hxpath, hset, rfl⟩
    exact ⟨_, hleaf, (), hnew, value, hvalue, sid, hsid, xpath, hxpath, _, hset, rfl, rfl⟩

section
variable {deps : Deps} {put : LeafAddress → Json → Json → Option Json} {model : CoreconfModel}
  {sids : ModelSids} {destination : RuleSelector} {tree current : Json} {rules : List Json}

theorem SetsLeaves.namedBy (laws : SetsLeaves deps sidJson put)
    (hsids : ModelSids.resolve model.compositeModel = .ok sids)
    (hleaf : duplicateLeafFromPath path destination sids = .ok item)
    (hsid : deps.rustconf.absoluteSid path = some sid) :
    (duplicateLeafAddress destination item).NamedBy model.compositeModel sid path.keys := by
  obtain ⟨hkeys, hlast, -⟩ := duplicateLeafFromPath_ok hleaf
  obtain ⟨-, -, -, -, -, -, -, -, -, htarget, hmatching, hcda⟩ := ModelSids.resolve_ok hsids
  cases (laws.leafSid hsid).symm.trans hlast
  refine ⟨?_, hkeys⟩
  obtain ⟨_, leaf⟩ := item
  cases leaf with
  | target => exact htarget
  | matchingOperator => exact hmatching
  | cda => exact hcda

theorem SetsLeaves.set_placed (laws : SetsLeaves deps sidJson put)
    (hmodel : deps.rustconf.coreconfModel sidJson = .ok model)
    (hrules : RuleKeys.yang.rules tree = some rules) (hordered : RuleKeys.Ordered rules)
    (hcurrent : RuleKeys.yang.selects destination current = true)
    (hstore : store.tree =
      RuleKeys.yang.setRules tree (placeRule .yang destination rules current))
    (hxpath : model.createXpath store sid keys = .ok xpath)
    (hnamed : LeafAddress.NamedBy address model.compositeModel sid keys)
    (hrule : address.entry.rule = destination) (value : Json) :
    (model.setPath store xpath value).toOption.map Datastore.tree =
      (put address value current).map fun next =>
        RuleKeys.yang.setRules tree (placeRule .yang destination rules next) := by
  have hplaced : RuleKeys.yang.rules store.tree =
      some (placeRule .yang destination rules current) := by
    rw [hstore, RuleKeys.rules_setRules hrules]
  have hfind := hordered.find?_placeRule hcurrent
  rw [laws.set value hmodel hxpath hnamed (by rw [hrule, RuleKeys.find, hplaced]; exact hfind)]
  cases hput : put address value current with
  | none => rfl
  | some next =>
    have hnext : RuleKeys.yang.selects destination next = true :=
      (laws.selects hput destination).trans hcurrent
    simp only [Option.map_some, hrule, RuleKeys.updateRule_of_rules hplaced]
    rw [← (hordered.placeRule hcurrent).placeRule_found hfind hnext,
      hordered.placeRule_placeRule hcurrent hnext, hstore, RuleKeys.setRules_setRules]

theorem applyOverrides_ok (laws : SetsLeaves deps sidJson put)
    (hmodel : deps.rustconf.coreconfModel sidJson = .ok model)
    (hsids : ModelSids.resolve model.compositeModel = .ok sids)
    (hrules : RuleKeys.yang.rules tree = some rules) (hordered : RuleKeys.Ordered rules)
    (hcurrent : RuleKeys.yang.selects destination current = true)
    (hstore : store.tree =
      RuleKeys.yang.setRules tree (placeRule .yang destination rules current))
    (h : applyOverrides deps model destination sids seen store instances = .ok store') :
    ∃ named new, List.Forall₂ (OverrideNames model.compositeModel destination) instances named ∧
      (∀ entry ∈ instances, entry.Located deps model) ∧ (named.map Prod.fst).Nodup ∧
      (∀ item ∈ named, item.1 ∉ seen.map (duplicateLeafAddress destination)) ∧
      putAll put named current = some new ∧
      store'.tree = RuleKeys.yang.setRules tree (placeRule .yang destination rules new) := by
  induction instances generalizing seen store current with
  | nil =>
    cases h
    exact ⟨[], current, .nil, by simp, List.nodup_nil, by simp, rfl, hstore⟩
  | cons entry rest ih =>
    simp only [applyOverrides, bind_ok] at h
    obtain ⟨⟨seen', store''⟩, hfirst, hrest⟩ := h
    obtain ⟨item, value, sid, xpath, hleaf, hnew, hvalue, hsid, hxpath, hset, rfl⟩ :=
      applyOverride_ok.mp hfirst
    have hput := laws.set_placed hmodel hrules hordered hcurrent hstore hxpath
      (laws.namedBy hsids hleaf hsid) rfl value
    rw [hset] at hput
    obtain ⟨next, hnext, hstore'⟩ := Option.map_eq_some_iff.mp hput.symm
    obtain ⟨named, new, hnames, hlocated, hdistinct, hunseen, hall, htree⟩ :=
      ih ((laws.selects hnext destination).trans hcurrent) hstore'.symm hrest
    refine ⟨(duplicateLeafAddress destination item, value) :: named, new,
      .cons ⟨⟨sids, item, hsids, hleaf, rfl⟩, hvalue⟩ hnames, ?_, ?_, ?_, ?_, htree⟩
    · rintro other (_ | ⟨_, hother⟩)
      · exact ⟨store, sid, xpath, hsid, hxpath⟩
      · exact hlocated other hother
    · refine List.nodup_cons.mpr ⟨fun hmem => ?_, hdistinct⟩
      obtain ⟨other, hother, heq⟩ := List.mem_map.mp hmem
      exact hunseen other hother (heq ▸ List.mem_map_of_mem List.mem_cons_self)
    · rintro other (_ | ⟨_, hother⟩)
      · rw [List.mem_map_of_injective (duplicateLeafAddress_injective destination)]
        exact hnew
      · exact fun hmem => hunseen other hother (List.mem_cons_of_mem _ hmem)
    · rw [putAll, hnext]
      exact hall

theorem applyOverrides_of_put (laws : SetsLeaves deps sidJson put)
    (hmodel : deps.rustconf.coreconfModel sidJson = .ok model)
    (hsids : ModelSids.resolve model.compositeModel = .ok sids)
    (hpaths : ∀ {store sid keys xpath} (store' : Datastore),
      model.createXpath store sid keys = .ok xpath → model.createXpath store' sid keys = .ok xpath)
    (hrules : RuleKeys.yang.rules tree = some rules) (hordered : RuleKeys.Ordered rules)
    (hcurrent : RuleKeys.yang.selects destination current = true)
    (hstore : store.tree =
      RuleKeys.yang.setRules tree (placeRule .yang destination rules current))
    (hnames : List.Forall₂ (OverrideNames model.compositeModel destination) instances named)
    (hlocated : ∀ entry ∈ instances, entry.Located deps model)
    (hdistinct : (named.map Prod.fst).Nodup)
    (hunseen : ∀ item ∈ named, item.1 ∉ seen.map (duplicateLeafAddress destination))
    (hall : putAll put named current = some new) :
    ∃ store', applyOverrides deps model destination sids seen store instances = .ok store' ∧
      store'.tree = RuleKeys.yang.setRules tree (placeRule .yang destination rules new) := by
  induction hnames generalizing seen store current with
  | nil =>
    cases hall
    exact ⟨store, rfl, hstore⟩
  | @cons entry item rest named hname hnames ih =>
    obtain ⟨next, hnext, hall⟩ := Option.bind_eq_some_iff.mp hall
    obtain ⟨⟨sids', leaf, hsids', hleaf, haddress⟩, hvalue⟩ := hname
    cases hsids.symm.trans hsids'
    obtain ⟨_, sid, xpath, hsid, hxpath⟩ := hlocated entry List.mem_cons_self
    obtain ⟨hfresh, hdistinct⟩ := List.nodup_cons.mp hdistinct
    rw [haddress] at hnext hfresh
    have hput := laws.set_placed hmodel hrules hordered hcurrent hstore (hpaths store hxpath)
      (laws.namedBy hsids hleaf hsid) rfl item.2
    rw [hnext] at hput
    cases hset : model.setPath store xpath item.2 with
    | error error =>
      rw [hset] at hput
      cases hput
    | ok store₁ =>
      rw [hset] at hput
      have hunseen' : ∀ other ∈ named,
          other.1 ∉ (leaf :: seen).map (duplicateLeafAddress destination) := by
        intro other hother hmem
        rcases List.mem_cons.mp hmem with heq | hmem
        · exact hfresh (heq ▸ List.mem_map_of_mem hother)
        · exact hunseen other (List.mem_cons_of_mem item hother) hmem
      obtain ⟨store', hrest, htree⟩ := ih ((laws.selects hnext destination).trans hcurrent)
        (Option.some.inj hput) (fun other hother =>
          hlocated other (List.mem_cons_of_mem entry hother))
        hdistinct hunseen' hall
      have hnew : leaf ∉ seen := fun hmem =>
        hunseen item List.mem_cons_self (haddress ▸ List.mem_map_of_mem hmem)
      have hfirst : applyOverride deps model destination sids seen store entry =
          .ok (leaf :: seen, store₁) := applyOverride_ok.mpr
        ⟨leaf, item.2, sid, xpath, hleaf, hnew, hvalue, hsid, hpaths store hxpath, hset, rfl⟩
      exact ⟨store', by simp only [applyOverrides, bind_ok]; exact ⟨_, hfirst, hrest⟩, htree⟩

end

-- ---------------------------------------------------------------------------
-- The tree
-- ---------------------------------------------------------------------------

def copyRule (destination : RuleSelector) (rule : Json) : Json :=
  match rule with
  | .object members =>
    .object (Json.insertMember
      (Json.insertMember members "rule-id-value" (.ofNat destination.value))
      "rule-id-length" (.ofNat destination.bits))
  | rule => rule

/-- The rule a duplicate operation makes, by its source and the leaves its overrides name. -/
structure DuplicateBuilds (deps : Deps) (put : LeafAddress → Json → Json → Option Json)
    (model : CoreconfModel) (snapshot : ContextSnapshot) (request : RuleDuplicateRequest)
    (instances : List Instance) (rules : List Json) (named : List (LeafAddress × Json))
    (source new : Json) : Prop where
  shape : ∃ sids, validateDuplicateModelShape model.compositeModel = .ok sids
  found : rules.find? (RuleKeys.yang.selects request.source) = some source
  checks : checkDuplicateRules snapshot request = .ok ()
  accepted : ∃ store, model.withData (RuleKeys.yang.setRules snapshot.data.tree
    (placeRule .yang request.destination rules (copyRule request.destination source))) = .ok store
  names : List.Forall₂ (OverrideNames model.compositeModel request.destination) instances named
  located : ∀ entry ∈ instances, entry.Located deps model
  distinct : (named.map Prod.fst).Nodup
  built : putAll put named (copyRule request.destination source) = some new

theorem validateDuplicateModelShape_ok (h : validateDuplicateModelShape model = .ok sids) :
    ModelSids.resolve model = .ok sids := by
  simp only [validateDuplicateModelShape, bind_ok, pure_ok] at h
  obtain ⟨_, hsids, _, -, rfl⟩ := h
  exact hsids

theorem Json.lookup_insertMember_self (members : List (String × Json))
    (key : String) (value : Json) : lookup (insertMember members key value) key = some value := by
  induction members with
  | nil => simp [insertMember, lookup]
  | cons member rest ih =>
    obtain ⟨name, old⟩ := member
    by_cases hname : name = key
    · simp [insertMember, lookup, hname]
    · by_cases hlt : key < name
      · simp [insertMember, lookup, hname, hlt]
      · simp [insertMember, lookup, hname, hlt, ih]

theorem Json.lookup_insertMember_of_ne {other key : String} (h : other ≠ key)
    (members : List (String × Json)) (value : Json) :
    lookup (insertMember members key value) other = lookup members other := by
  induction members with
  | nil => simp [insertMember, lookup, Ne.symm h]
  | cons member rest ih =>
    obtain ⟨name, old⟩ := member
    by_cases hname : name = key
    · simp [insertMember, lookup, hname, Ne.symm h]
    · by_cases hlt : key < name
      · simp [insertMember, lookup, hname, hlt, Ne.symm h]
      · simp [insertMember, lookup, hname, hlt, ih]

theorem Json.object_of_get {value : Json} (h : value.get key = some member) :
    ∃ members, value = .object members := by
  cases value with
  | object members => exact ⟨members, rfl⟩
  | _ => cases h

theorem RuleKeys.object_of_selects {selector : RuleSelector}
    (h : RuleKeys.yang.selects selector rule = true) : ∃ members, rule = .object members := by
  simp only [selects, Bool.and_eq_true, decide_eq_true_eq] at h
  obtain ⟨_, hget, -⟩ := Option.bind_eq_some_iff.mp h.1
  exact Json.object_of_get hget

section
variable {destination : RuleSelector} {members : List (String × Json)}

theorem copyRule_value : (copyRule destination (.object members)).get "rule-id-value" =
    some (.ofNat destination.value) := by
  rw [copyRule, Json.get, Json.lookup_insertMember_of_ne (by decide), Json.lookup_insertMember_self]

theorem copyRule_length : (copyRule destination (.object members)).get "rule-id-length" =
    some (.ofNat destination.bits) := by
  rw [copyRule, Json.get, Json.lookup_insertMember_self]

theorem copyRule_get {rule : Json} (hvalue : key ≠ "rule-id-value")
    (hlength : key ≠ "rule-id-length") : (copyRule destination rule).get key = rule.get key := by
  cases rule with
  | object members =>
    rw [copyRule, Json.get, Json.lookup_insertMember_of_ne hlength,
      Json.lookup_insertMember_of_ne hvalue]
    rfl
  | _ => rfl

theorem copyRule_selects (hvalue : destination.value < 2 ^ 64) (hbits : destination.bits < 2 ^ 64) :
    RuleKeys.yang.selects destination (copyRule destination (.object members)) = true := by
  rw [RuleKeys.yang_selects, hasU64, hasU64, copyRule_value, copyRule_length, Option.bind_some,
    Option.bind_some, Json.asU64_ofNat hvalue, Json.asU64_ofNat hbits, decide_eq_true rfl,
    decide_eq_true rfl]
  rfl

theorem setTreeRuleKey_object (hkey : ruleKey model sid = .ok key) (value : Json) :
    setTreeRuleKey (.object members) model sid value =
      .ok (.object (Json.insertMember members key value)) := by
  simp only [setTreeRuleKey, hkey]
  rfl

end

/-- The tree of a duplicate operation is the active one with the rule it builds. -/
theorem expectedDuplicateTree_ok (laws : SetsLeaves deps sidJson put)
    (hmodel : deps.rustconf.coreconfModel sidJson = .ok model)
    (hrules : RuleKeys.yang.rules snapshot.data.tree = some rules)
    (hordered : RuleKeys.Ordered rules)
    (hvalue : request.destination.value < 2 ^ 64) (hbits : request.destination.bits < 2 ^ 64)
    (h : expectedDuplicateTree deps model snapshot request instances = .ok tree') :
    ∃ source new named,
      DuplicateBuilds deps put model snapshot request instances rules named source new ∧
      tree' = RuleKeys.yang.setRules snapshot.data.tree
        (placeRule .yang request.destination rules new) := by
  simp only [expectedDuplicateTree, bind_ok, need_ok, mapError_ok, pure_ok] at h
  obtain ⟨sids, hshape, found, hfound, source, rfl, _, hchecks, keys, hkeys, first, hfirst, second,
    hsecond, _, hactive, store, hstore, store', hoverrides, rfl⟩ := h
  have hsids := validateDuplicateModelShape_ok hshape
  have hnames : SidNames model.compositeModel := laws.names hmodel
  cases hkeys.symm.trans (ruleKeys_yang hnames hsids)
  cases hrules.symm.trans hactive
  have hsource : rules.find? (RuleKeys.yang.selects request.source) = some source := by
    rw [findTreeRule_yang hnames hfound, hrules, Option.bind_some]
  obtain ⟨members, rfl⟩ := RuleKeys.object_of_selects (List.find?_some hsource)
  obtain ⟨-, -, hlengthSid, hvalueSid, -⟩ := ModelSids.resolve_ok hsids
  rw [setTreeRuleKey_object
    (ruleKey_of_name hnames hvalueSid "rule-id-value" (by simp [lastSegment]) rfl)] at hfirst
  cases hfirst
  rw [setTreeRuleKey_object
    (ruleKey_of_name hnames hlengthSid "rule-id-length" (by simp [lastSegment]) rfl)] at hsecond
  cases hsecond
  obtain ⟨named, new, hoverride, hlocated, hdistinct, -, hbuilt, htree⟩ := applyOverrides_ok laws
    hmodel hsids hrules hordered (copyRule_selects hvalue hbits)
      (laws.tree hmodel hstore) hoverrides
  exact ⟨.object members, new, named, ⟨⟨sids, hshape⟩, hsource, hchecks, ⟨store, hstore⟩, hoverride,
    hlocated, hdistinct, hbuilt⟩, htree⟩

theorem DuplicateBuilds.expected {request : RuleDuplicateRequest}
    {named : List (LeafAddress × Json)} (laws : SetsLeaves deps sidJson put)
    (hmodel : deps.rustconf.coreconfModel sidJson = .ok model)
    (hpaths : ∀ {store sid keys xpath} (store' : Datastore),
      model.createXpath store sid keys = .ok xpath → model.createXpath store' sid keys = .ok xpath)
    (hrules : RuleKeys.yang.rules snapshot.data.tree = some rules)
    (hordered : RuleKeys.Ordered rules)
    (hvalue : request.destination.value < 2 ^ 64) (hbits : request.destination.bits < 2 ^ 64)
    (h : DuplicateBuilds deps put model snapshot request instances rules named source new) :
    expectedDuplicateTree deps model snapshot request instances =
      .ok (RuleKeys.yang.setRules snapshot.data.tree
        (placeRule .yang request.destination rules new)) := by
  obtain ⟨⟨sids, hshape⟩, hsource, hchecks, ⟨store, hstore⟩, hoverride,
    hlocated, hdistinct, hbuilt⟩ := h
  have hsids := validateDuplicateModelShape_ok hshape
  have hnames : SidNames model.compositeModel := laws.names hmodel
  obtain ⟨members, rfl⟩ := RuleKeys.object_of_selects (List.find?_some hsource)
  obtain ⟨-, -, hlengthSid, hvalueSid, -⟩ := ModelSids.resolve_ok hsids
  have hunseen : ∀ item ∈ named,
      item.1 ∉ ([] : List (Nat × DuplicateLeaf)).map
        (duplicateLeafAddress request.destination) := by
    simp
  obtain ⟨store', hoverrides, htree⟩ :=
    applyOverrides_of_put laws hmodel hsids hpaths hrules hordered
    (copyRule_selects hvalue hbits) (laws.tree hmodel hstore) hoverride hlocated hdistinct hunseen
    hbuilt
  simp only [expectedDuplicateTree, bind_ok, need_ok, mapError_ok, pure_ok]
  have hfound : findTreeRule snapshot.data.tree model.compositeModel request.source =
      .ok (some (.object members)) := by
    rw [RuleKeys.findTreeRule_eq hnames hsids, RuleKeys.find, hrules, Option.bind_some, hsource]
  exact ⟨sids, hshape, _, hfound, _, rfl, (), hchecks, .yang, ruleKeys_yang hnames hsids, _,
    setTreeRuleKey_object (ruleKey_of_name hnames hvalueSid "rule-id-value"
      (by simp [lastSegment]) rfl) _,
    _, setTreeRuleKey_object
      (ruleKey_of_name hnames hlengthSid "rule-id-length" (by simp [lastSegment]) rfl) _,
      rules, hrules, store, hstore, store', hoverrides, htree⟩

end SchcCoreconf
