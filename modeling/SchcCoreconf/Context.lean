import SchcCoreconf.Policy
import SchcCoreconf.Lib.Runs

/-!
# Loaded, prepared and active contexts

`context.rs`: a Set-of-Rules is loaded through both models, bound to its
runtimes and identity, and published in one snapshot. A candidate is validated
against the current snapshot before it replaces it.
-/

namespace SchcCoreconf

open Fallible

structure GuardPeriod where
  ticksDuration : Nat
  ticksNumbers : Nat
  deriving DecidableEq, Repr

def guardPeriodFromTree (tree : Json) : Except ContextError (Option GuardPeriod) := do
  let some context := (tree.get "ietf-schc:context").or (tree.get "context")
    | return none
  let some value := context.get "guard-period"
    | return none
  let some period := value.asObject
    | throw (.model "guard-period is not an object")
  let duration ← match Json.lookup period "ticks-duration" with
    | none => .ok 20
    | some value =>
      need (value.asU64.filter (· < 2 ^ 8)) (.model "guard-period/ticks-duration is not uint8")
  -- the leaf is optional and has no default
  let some numbersValue := Json.lookup period "ticks-numbers"
    | return none
  let numbers ← need (numbersValue.asU64.filter (· < 2 ^ 16))
    (.model "guard-period/ticks-numbers is not uint16")
  return some { ticksDuration := duration, ticksNumbers := numbers }

-- ---------------------------------------------------------------------------
-- Loading
-- ---------------------------------------------------------------------------

structure LoadedContext where
  model : CoreconfModel
  sidRegistry : SidRegistry
  ruleContext : RuleContext
  tree : Json
  sor : Bytes
  protectedRules : ProtectedRules
  guardPeriod : Option GuardPeriod

def LoadedContext.fromSor (deps : Deps) (sidJson : String) (sor : Bytes) :
    Except ContextError LoadedContext := do
  let model ← (deps.rustconf.coreconfModel sidJson).mapError .model
  let sidRegistry ← (deps.rschc.sidRegistry sidJson).mapError .schc
  let value ← strictCborValue deps.ciborium sor
  let rootSid ← need (model.compositeModel.getSid "/ietf-schc:schc")
    (.model "SID model is missing /ietf-schc:schc")
  ensureSchcRoot value rootSid
  let initialTree ← (model.toValue sor).mapError .model
  let initialTree ← normalizeTree initialTree
  let canonicalSor ← encodeTree deps.ciborium model initialTree
  let _ ← strictCborValue deps.ciborium canonicalSor
  let canonicalTree ← (model.toValue canonicalSor).mapError .model
  let canonicalTree ← normalizeTree canonicalTree
  ensure (canonicalTree == initialTree)
    (.model "canonical tree does not round-trip through rustconf")
  let ruleContext ← (sidRegistry.ruleContext canonicalSor).mapError .schc
  let protectedRules ← ProtectedRules.derive deps.rschc ruleContext
  let guardPeriod ← guardPeriodFromTree canonicalTree
  return { model, sidRegistry, ruleContext, tree := canonicalTree, sor := canonicalSor,
           protectedRules, guardPeriod }

def canonicalSorFromTree (deps : Deps) (sidJson : String) (tree : Json) :
    Except ContextError Bytes := do
  let model ← (deps.rustconf.coreconfModel sidJson).mapError .model
  let normalized ← normalizeTree tree
  ensure (normalized == tree) .nonCanonicalCandidate
  let sor ← encodeTree deps.ciborium model tree
  let loaded ← LoadedContext.fromSor deps sidJson sor
  ensure (loaded.tree == tree) .nonCanonicalCandidate
  return loaded.sor

/-- Construction parameters shared by initial and candidate contexts. -/
structure ContextRecipe where
  sidJson : String
  deviceId : DeviceId
  profile : DeviceProfile
  dynamicRuleIds : Option DynamicRuleIdNamespace
  contextProfile : Option ContextProfile
  deriving DecidableEq, Repr

inductive ContextSource
  | sor (bytes : Bytes)
  | tree (tree : Json)

def ContextSource.load (deps : Deps) (sidJson : String) :
    ContextSource → Except ContextError LoadedContext
  | .sor bytes => LoadedContext.fromSor deps sidJson bytes
  | .tree candidate => do
    let model ← (deps.rustconf.coreconfModel sidJson).mapError .model
    let canonicalTree ← normalizeTree candidate
    ensure (canonicalTree == candidate) .nonCanonicalCandidate
    let sor ← encodeTree deps.ciborium model canonicalTree
    let loaded ← LoadedContext.fromSor deps sidJson sor
    ensure (loaded.tree == canonicalTree) .nonCanonicalCandidate
    return loaded

-- ---------------------------------------------------------------------------
-- The application runtime
-- ---------------------------------------------------------------------------

def cborMapValue (value : Cbor) (sid : Int) : Option Cbor :=
  match value with
  | .map entries =>
    entries.findSome? fun (key, value) => if key.asI64 = some sid then some value else none
  | _ => none

def setCborMapEntry (sid : Int) (next : Cbor) : List (Cbor × Cbor) → List (Cbor × Cbor)
  | [] => []
  | (key, value) :: rest =>
    if key.asI64 = some sid then (key, next) :: rest
    else (key, value) :: setCborMapEntry sid next rest

def setCborMapValue (value : Cbor) (sid : Int) (next : Cbor) : Cbor :=
  match value with
  | .map entries => .map (setCborMapEntry sid next entries)
  | _ => value

def Cbor.asArray : Cbor → Option (List Cbor)
  | .array items => some items
  | _ => none

def checkedSub (a b : Int) : Option Int :=
  if -(2 ^ 63) ≤ a - b ∧ a - b < 2 ^ 63 then some (a - b) else none

/-- Where a SoR keeps its rules, and each rule its identity. -/
structure RuleSids where
  root : Int
  ruleDelta : Int
  lengthDelta : Int
  valueDelta : Int
  deriving DecidableEq, Repr

def ruleSids (composite : CompositeModel) : Except ContextError RuleSids := do
  let root ← need (composite.getSid "/ietf-schc:schc")
    (.model "SID model is missing /ietf-schc:schc")
  let rule ← need (composite.getSid "/ietf-schc:schc/rule")
    (.model "SID model is missing /ietf-schc:schc/rule")
  let length ← need (composite.getSid "/ietf-schc:schc/rule/rule-id-length")
    (.model "SID model is missing rule-id-length")
  let value ← need (composite.getSid "/ietf-schc:schc/rule/rule-id-value")
    (.model "SID model is missing rule-id-value")
  let ruleDelta ← need (checkedSub rule root) (.model "rule SID precedes the SCHC root SID")
  let lengthDelta ← need (checkedSub length rule)
    (.model "rule-id-length SID precedes the rule SID")
  let valueDelta ← need (checkedSub value rule) (.model "rule-id-value SID precedes the rule SID")
  return { root, ruleDelta, lengthDelta, valueDelta }

namespace RuleSids

def rules (sids : RuleSids) (sor : Cbor) : Except ContextError (List Cbor) := do
  let root ← need (cborMapValue sor sids.root) (.cbor "missing SCHC root in canonical SoR")
  need ((cborMapValue root sids.ruleDelta).bind Cbor.asArray)
    (.cbor "missing rule list in canonical SoR")

def setRules (sids : RuleSids) (sor : Cbor) (rules : List Cbor) : Cbor :=
  match cborMapValue sor sids.root with
  | none => sor
  | some root => setCborMapValue sor sids.root (setCborMapValue root sids.ruleDelta (.array rules))

def memberId (sids : RuleSids) (member : Cbor) : Option RuleId := do
  let value ← (cborMapValue member sids.valueDelta).bind Cbor.asU64
  let bitLen ← (cborMapValue member sids.lengthDelta).bind Cbor.asU64
  return { value, bitLen }

def unprotected (sids : RuleSids) (protectedRules : ProtectedRules) (member : Cbor) : Bool :=
  match sids.memberId member with
  | some id => !protectedRules.contains id
  | none => true

end RuleSids

/-- `application_runtime`: the runtime without the protected rules, and its RuleIDs. -/
def applicationRuntime (deps : Deps) (recipe : ContextRecipe) (loaded : LoadedContext) :
    Except ContextError (Runtime × List RuleId) := do
  if loaded.protectedRules.ids.isEmpty then
    let runtime ← (deps.rschc.runtime recipe.deviceId loaded.ruleContext recipe.profile).mapError
      .runtime
    return (runtime, loaded.ruleContext.rules.map (·.id))
  let (value, _) ← (deps.ciborium.fromReader loaded.sor).mapError .cbor
  let sids ← ruleSids loaded.model.compositeModel
  let rules ← sids.rules value
  let filtered := sids.setRules value (rules.filter (sids.unprotected loaded.protectedRules))
  let filteredSor ← (deps.ciborium.intoWriter filtered).mapError .cbor
  let filteredContext ← (loaded.sidRegistry.ruleContext filteredSor).mapError .schc
  let runtime ← (deps.rschc.runtime recipe.deviceId filteredContext
      recipe.profile).mapError .runtime
  return (runtime, filteredContext.rules.map (·.id))

-- ---------------------------------------------------------------------------
-- Prepared contexts
-- ---------------------------------------------------------------------------

structure ContextData where
  tree : Json
  sor : Bytes
  runtime : Runtime
  applicationRuntime : Runtime
  applicationRuleIds : List RuleId
  protectedRules : ProtectedRules
  guardPeriod : Option GuardPeriod
  ruleIds : List RuleId
  rules : List Rule
  digest : Digest
  tag : ContextTag

/-- A context bound to one canonical tree, SoR, runtime and identity. -/
structure PreparedContext where
  recipe : ContextRecipe
  data : ContextData

def checkNamespace (ns : DynamicRuleIdNamespace) (rule : Rule) : Except ContextError Unit :=
  ensure (!(overlaps rule.id ns.prefixSpec.ruleId && !ns.accepts rule.id))
    (.ruleIdTree (.collision rule.id.value rule.id.bitLen))

/-- The recipe with its namespace normalized and checked against the rules. -/
def bindRecipe (recipe : ContextRecipe) (rules : List Rule) : Except ContextError ContextRecipe :=
  match recipe.dynamicRuleIds with
  | none => .ok recipe
  | some ns => do
    let ns ← ns.validate.mapError .ruleIdTree
    let _ ← collect (checkNamespace ns) rules
    return { recipe with dynamicRuleIds := some ns }

namespace PreparedContext

def fromLoaded (deps : Deps) (recipe : ContextRecipe) (loaded : LoadedContext) :
    Except ContextError PreparedContext := do
  let recipe ← bindRecipe recipe loaded.ruleContext.rules
  let runtime ← (deps.rschc.runtime recipe.deviceId loaded.ruleContext recipe.profile).mapError
    .runtime
  let (applicationRuntime, applicationRuleIds) ← applicationRuntime deps recipe loaded
  let digest ← digestContext deps loaded.tree loaded.sor
  let rules := loaded.ruleContext.rules
  return {
    recipe
    data := {
      tree := loaded.tree
      sor := loaded.sor
      runtime, applicationRuntime, applicationRuleIds
      protectedRules := loaded.protectedRules
      guardPeriod := loaded.guardPeriod
      ruleIds := rules.map (·.id)
      rules, digest
      tag := contextTag digest } }

def fromSource (deps : Deps) (recipe : ContextRecipe) (source : ContextSource) :
    Except ContextError PreparedContext := do
  let loaded ← source.load deps recipe.sidJson
  fromLoaded deps recipe loaded

def fromTreeForRecipe (deps : Deps) (recipe : ContextRecipe) (tree : Json) :
    Except ContextError PreparedContext :=
  fromSource deps recipe (.tree tree)

end PreparedContext

-- ---------------------------------------------------------------------------
-- The active context
-- ---------------------------------------------------------------------------

/-- The immutable tuple published by an active context. -/
structure ContextSnapshot where
  data : ContextData
  generation : Nat
  dynamicRuleIds : Option DynamicRuleIdNamespace
  contextProfile : Option ContextProfile

def ContextSnapshot.fromPrepared (prepared : PreparedContext) (generation : Nat) :
    ContextSnapshot :=
  { data := prepared.data
    generation
    dynamicRuleIds := prepared.recipe.dynamicRuleIds
    contextProfile := prepared.recipe.contextProfile }

def ContextSnapshot.containsApplicationRuleId (self : ContextSnapshot) (id : RuleId) : Bool :=
  self.data.applicationRuleIds.contains id

/-- The publisher of snapshots. Calls that take its writer lock are single steps. -/
structure ActiveContext where
  snapshots : ArcSwap ContextSnapshot
  recipe : ContextRecipe

namespace ActiveContext

def new (prepared : PreparedContext) : ActiveContext :=
  { snapshots := .fromPointee (.fromPrepared prepared 1), recipe := prepared.recipe }

def snapshot (self : ActiveContext) : ContextSnapshot := self.snapshots.current

/-- `publish_locked`; it panics when the generation is the last `u64`. -/
def publishLocked (self : ActiveContext) (prepared : PreparedContext) : Option ActiveContext :=
  let generation := self.snapshot.generation + 1
  if generation < 2 ^ 64 then
    some { self with snapshots := self.snapshots.store (.fromPrepared prepared generation) }
  else none

def validateCandidate (deps : Deps) (self : ActiveContext) (current : ContextSnapshot)
    (prepared : PreparedContext) : Except ContextError Unit := do
  ensure (prepared.recipe = self.recipe) .candidateRecipeMismatch
  let canonicalSor ← canonicalSorFromTree deps self.recipe.sidJson prepared.data.tree
  ensure (canonicalSor = prepared.data.sor) .nonCanonicalCandidate
  current.data.protectedRules.enforce prepared.data.protectedRules

end ActiveContext

/-- What a call leaves behind: its result, unless it panicked, and the state. -/
structure Outcome (σ α : Type) where
  result : Option α
  state : σ

theorem Outcome.eq_mk {outcome : Outcome σ α} {result : Option α} (h : outcome.result = result) :
    outcome = { result, state := outcome.state } := by
  cases h
  rfl

/-- Publishes a candidate that passed its checks. A panic leaves the context as it was. -/
def ActiveContext.commit (self : ActiveContext) (answer : α) :
    Except ε PreparedContext → Outcome ActiveContext (Except ε α)
  | .error error => { result := some (.error error), state := self }
  | .ok prepared =>
    match self.publishLocked prepared with
    | none => { result := none, state := self }
    | some active => { result := some (.ok answer), state := active }

-- ---------------------------------------------------------------------------
-- The rustconf backend
-- ---------------------------------------------------------------------------

/-- One backend handle: the digest of the context it last observed. -/
structure ActiveContextBackend where
  observed : Option Digest
  deriving DecidableEq

def ActiveContext.backend (self : ActiveContext) : ActiveContextBackend :=
  { observed := some self.snapshot.data.digest }

def backendError (deps : Deps) (error : ContextError) : CoreconfError :=
  .validationError s!"schc-coreconf backend rejected candidate: {error.text deps.rustconf}"

structure BackendState where
  active : ActiveContext
  backend : ActiveContextBackend

namespace BackendState

def readTree (self : BackendState) : Json × BackendState :=
  (self.active.snapshot.data.tree,
    { self with backend := { observed := some self.active.snapshot.data.digest } })

def candidate (deps : Deps) (self : BackendState) (next : Json) :
    Except CoreconfError PreparedContext := do
  let current := self.active.snapshot
  ensure (self.backend.observed = some current.data.digest)
    (.validationError "active context changed while candidate was being built")
  let prepared ← (PreparedContext.fromTreeForRecipe deps self.active.recipe next).mapError
    (backendError deps)
  (self.active.validateCandidate deps current prepared).mapError (backendError deps)
  return prepared

/-- `replace_tree`, under the writer lock. Only a publication moves the handle. -/
def replaceTree (deps : Deps) (self : BackendState) (next : Json) :
    Outcome BackendState (Except CoreconfError Unit) :=
  let outcome := self.active.commit () (self.candidate deps next)
  match outcome.result with
  | some (.ok ()) => { outcome with state := { active := outcome.state,
                                               backend := outcome.state.backend } }
  | _ => { outcome with state := { self with active := outcome.state } }

end BackendState

end SchcCoreconf
