import SchcCoreconf.Allocation
import SchcCoreconf.External
import Mathlib.Data.Prod.Lex

/-!
# Canonical trees, their encoding and their identity

`codec.rs`: strict CBOR, the normal form of a tree, its encoding, and the digest
and tag of a tree with its bytes. Normalizing a normalized tree changes nothing.
-/

namespace SchcCoreconf

open Fallible

inductive ContextError
  | cbor (message : String)
  | model (message : String)
  | schc (message : String)
  | runtime (message : String)
  | nonCanonicalCandidate
  | protectedRuleChanged (message : String)
  | candidateRecipeMismatch
  | rustconf (error : CoreconfError)
  | ruleIdTree (error : RuleIdTreeError)
  deriving DecidableEq, Repr

def ContextError.text (rustconf : Rustconf) : ContextError → String
  | .cbor message => s!"invalid complete CBOR: {message}"
  | .model message => s!"model loading failed: {message}"
  | .schc message => s!"SCHC context construction failed: {message}"
  | .runtime message => s!"SCHC runtime construction failed: {message}"
  | .nonCanonicalCandidate => "candidate tree is not canonical"
  | .protectedRuleChanged message => s!"protected management rule changed: {message}"
  | .candidateRecipeMismatch =>
    "candidate construction parameters differ from the active context"
  | .rustconf error => s!"rustconf error: {rustconf.errorText error}"
  | .ruleIdTree error => s!"invalid dynamic RuleID namespace: {error.text}"

-- ---------------------------------------------------------------------------
-- Strict CBOR
-- ---------------------------------------------------------------------------

mutual
def rejectDuplicateKeys (error : ε) : Cbor → Except ε Unit
  | .array items => rejectDuplicateItems error items
  | .map entries => rejectDuplicateEntries error [] entries
  | .tag _ value => rejectDuplicateKeys error value
  | _ => .ok ()
def rejectDuplicateItems (error : ε) : List Cbor → Except ε Unit
  | [] => .ok ()
  | value :: rest => do
    rejectDuplicateKeys error value
    rejectDuplicateItems error rest
def rejectDuplicateEntries (error : ε) (previous : List Cbor) :
    List (Cbor × Cbor) → Except ε Unit
  | [] => .ok ()
  | (key, value) :: rest => do
    ensure (!previous.any (· == key)) error
    rejectDuplicateKeys error key
    rejectDuplicateKeys error value
    rejectDuplicateEntries error (key :: previous) rest
end

def rejectDuplicateMapKeys : Cbor → Except ContextError Unit :=
  rejectDuplicateKeys (.cbor "duplicate CBOR map key")

def strictCborValue (ciborium : Ciborium) (bytes : Bytes) : Except ContextError Cbor := do
  let (value, position) ← (ciborium.fromReader bytes).mapError .cbor
  ensure (position = bytes.length)
    (.cbor s!"trailing bytes after root value at offset {position} of {bytes.length}")
  rejectDuplicateMapKeys value
  return value

def ensureSchcRoot (value : Cbor) (rootSid : Int) : Except ContextError Unit := do
  let .map entries := value
    | throw (.cbor "SoR root must be a CBOR map")
  let hasRoot := entries.any fun (key, _) =>
    match key with
    | .integer integer => integer = rootSid
    | _ => false
  ensure hasRoot (.cbor s!"SoR root is missing SCHC SID {rootSid}")

-- ---------------------------------------------------------------------------
-- The normal form of a tree
-- ---------------------------------------------------------------------------

/-- The member of an object as `u64`, 0 when there is none. -/
def numericMember (value : Json) (name : String) : Nat :=
  ((value.get name).bind Json.asU64).getD 0

def ruleSortKey (rule : Json) : ℕ ×ₗ ℕ :=
  toLex (numericMember rule "rule-id-length", numericMember rule "rule-id-value")

def entrySortKey (entry : Json) : ℕ := numericMember entry "entry-index"

/-- Every entry has a numeric index, and no two have the same. -/
def checkEntryIndexes (seen : List Nat) : List Json → Except ContextError Unit
  | [] => .ok ()
  | entry :: rest => do
    let index ← need ((entry.get "entry-index").bind Json.asU64)
      (.model "SCHC entry is missing numeric entry-index")
    ensure (!seen.contains index) (.model s!"duplicate SCHC entry-index {index}")
    checkEntryIndexes (index :: seen) rest

def orderItems (key : Option String) (items : List Json) : Except ContextError (List Json) :=
  match key with
  | some "rule" => .ok (items.insertionSort (Sorted.byKey ruleSortKey))
  | some "entry-universal" => do
    let sorted := items.insertionSort (Sorted.byKey entrySortKey)
    checkEntryIndexes [] sorted
    return sorted
  | _ => .ok items

mutual
def normalizeValue : Json → Option String → Except ContextError Json
  | .object members, _ => do return .object (← normalizeMembers members)
  | .array items, key => do return .array (← orderItems key (← normalizeItems items))
  | value, _ => .ok value
def normalizeItems : List Json → Except ContextError (List Json)
  | [] => .ok []
  | item :: rest => do return (← normalizeValue item none) :: (← normalizeItems rest)
def normalizeMembers : List (String × Json) → Except ContextError (List (String × Json))
  | [] => .ok []
  | (key, value) :: rest => do
    return (key, ← normalizeValue value (some key)) :: (← normalizeMembers rest)
end

def normalizeTree (tree : Json) : Except ContextError Json := normalizeValue tree none

/-- The tree is its own normal form. -/
def Canonical (tree : Json) : Prop := normalizeTree tree = .ok tree

-- ---------------------------------------------------------------------------
-- Normalizing twice
-- ---------------------------------------------------------------------------

theorem orderItems_mem (h : orderItems key items = .ok ordered) {item : Json} :
    item ∈ ordered ↔ item ∈ items := by
  unfold orderItems at h
  split at h
  · cases h
    exact List.mem_insertionSort _
  · simp only [bind_ok, pure_ok] at h
    obtain ⟨_, -, rfl⟩ := h
    exact List.mem_insertionSort _
  · cases h
    rfl

theorem orderItems_idempotent (h : orderItems key items = .ok ordered) :
    orderItems key ordered = .ok ordered := by
  unfold orderItems at h ⊢
  split at h
  · cases h
    rw [(List.pairwise_insertionSort _ items).insertionSort_eq]
  · simp only [bind_ok, pure_ok] at h
    obtain ⟨_, hindexes, rfl⟩ := h
    simp only [(List.pairwise_insertionSort (Sorted.byKey entrySortKey) items).insertionSort_eq,
      hindexes]
    rfl
  · rfl

theorem normalizeItems_self {items : List Json}
    (h : ∀ item ∈ items, normalizeTree item = .ok item) :
    normalizeItems items = .ok items := by
  induction items with
  | nil => rfl
  | cons item rest ih =>
    have hitem : normalizeValue item none = .ok item := h item List.mem_cons_self
    rw [normalizeItems, hitem, ih fun other hother => h other (List.mem_cons_of_mem _ hother)]
    rfl

mutual
theorem normalizeValue_idempotent : (value : Json) → (key : Option String) →
    normalizeValue value key = .ok normal → normalizeValue normal key = .ok normal
  | .object members, key, h => by
    simp only [normalizeValue, bind_ok, pure_ok] at h
    obtain ⟨normals, hmembers, rfl⟩ := h
    rw [normalizeValue, normalizeMembers_idempotent members hmembers]
    rfl
  | .array items, key, h => by
    simp only [normalizeValue, bind_ok, pure_ok] at h
    obtain ⟨normals, hitems, ordered, hordered, rfl⟩ := h
    have hself : normalizeItems ordered = .ok ordered := normalizeItems_self fun item hitem =>
      normalizeItems_canonical items hitems item ((orderItems_mem hordered).mp hitem)
    rw [normalizeValue, hself]
    simp only [bind, Except.bind, orderItems_idempotent hordered]
    rfl
  | .null, _, h | .bool _, _, h | .int _, _, h | .float _, _, h | .string _, _, h => by
    simp only [normalizeValue, Except.ok.injEq] at h
    subst h
    rfl
theorem normalizeItems_canonical : (items : List Json) → normalizeItems items = .ok normals →
    ∀ item ∈ normals, normalizeTree item = .ok item
  | [], h => by
    cases h
    simp
  | item :: rest, h => by
    simp only [normalizeItems, bind_ok, pure_ok] at h
    obtain ⟨normal, hitem, normals, hrest, rfl⟩ := h
    rintro other (_ | ⟨_, hother⟩)
    · exact normalizeValue_idempotent item none hitem
    · exact normalizeItems_canonical rest hrest other hother
theorem normalizeMembers_idempotent : (members : List (String × Json)) →
    normalizeMembers members = .ok normals → normalizeMembers normals = .ok normals
  | [], h => by
    cases h
    rfl
  | (key, value) :: rest, h => by
    simp only [normalizeMembers, bind_ok, pure_ok] at h
    obtain ⟨normal, hvalue, normals, hrest, rfl⟩ := h
    rw [normalizeMembers, normalizeValue_idempotent value (some key) hvalue,
      normalizeMembers_idempotent rest hrest]
    rfl
end

theorem canonical_of_normalizeTree (h : normalizeTree tree = .ok normal) : Canonical normal :=
  normalizeValue_idempotent tree none h

theorem allFloatsItems_iff : Json.allFloatsItems p items = true ↔
    ∀ item ∈ items, item.allFloats p = true := by
  induction items with
  | nil => simp [Json.allFloatsItems]
  | cons item rest ih => simp [Json.allFloatsItems, ih]

-- normalizing reorders lists, and keeps their numbers
mutual
theorem normalizeValue_allFloats : (value : Json) → normalizeValue value key = .ok normal →
    value.allFloats p = true → normal.allFloats p = true
  | .object members, h, hp => by
    simp only [normalizeValue, bind_ok, pure_ok] at h
    obtain ⟨normals, hmembers, rfl⟩ := h
    exact normalizeMembers_allFloats members hmembers hp
  | .array items, h, hp => by
    simp only [normalizeValue, bind_ok, pure_ok] at h
    obtain ⟨normals, hitems, ordered, hordered, rfl⟩ := h
    refine allFloatsItems_iff.mpr fun item hitem => ?_
    exact allFloatsItems_iff.mp (normalizeItems_allFloats items hitems hp) item
      ((orderItems_mem hordered).mp hitem)
  | .null, h, hp | .bool _, h, hp | .int _, h, hp | .float _, h, hp | .string _, h, hp => by
    simp only [normalizeValue, Except.ok.injEq] at h
    exact h ▸ hp
theorem normalizeItems_allFloats : (items : List Json) → normalizeItems items = .ok normals →
    Json.allFloatsItems p items = true → Json.allFloatsItems p normals = true
  | [], h, _ => by
    cases h
    rfl
  | item :: rest, h, hp => by
    simp only [normalizeItems, bind_ok, pure_ok] at h
    obtain ⟨normal, hitem, normals, hrest, rfl⟩ := h
    simp only [Json.allFloatsItems, Bool.and_eq_true] at hp ⊢
    exact ⟨normalizeValue_allFloats item hitem hp.1, normalizeItems_allFloats rest hrest hp.2⟩
theorem normalizeMembers_allFloats : (members : List (String × Json)) →
    normalizeMembers members = .ok normals →
    Json.allFloatsMembers p members = true → Json.allFloatsMembers p normals = true
  | [], h, _ => by
    cases h
    rfl
  | (key, value) :: rest, h, hp => by
    simp only [normalizeMembers, bind_ok, pure_ok] at h
    obtain ⟨normal, hvalue, normals, hrest, rfl⟩ := h
    simp only [Json.allFloatsMembers, Bool.and_eq_true] at hp ⊢
    exact ⟨normalizeValue_allFloats value hvalue hp.1, normalizeMembers_allFloats rest hrest hp.2⟩
end

-- ---------------------------------------------------------------------------
-- Encoding and identity
-- ---------------------------------------------------------------------------

def encodeTree (ciborium : Ciborium) (model : CoreconfModel) (tree : Json) :
    Except ContextError Bytes := do
  let value ← (model.compositeModel.identifierJsonToCborValue tree).mapError .rustconf
  let bytes ← (ciborium.intoWriter value).mapError .cbor
  let _ ← strictCborValue ciborium bytes
  return bytes

/-- The bytes encode the tree, or one that serde takes as equal to it. -/
def EncodedAs (ciborium : Ciborium) (model : CoreconfModel) (tree : Json) (sor : Bytes) : Prop :=
  ∃ initial, (initial == tree) = true ∧ encodeTree ciborium model initial = .ok sor

theorem EncodedAs.congr (h : EncodedAs ciborium model tree sor) (htree : (tree == tree') = true) :
    EncodedAs ciborium model tree' sor := by
  obtain ⟨initial, hinitial, hencoded⟩ := h
  exact ⟨initial, Json.beq_trans hinitial htree, hencoded⟩

theorem EncodedAs.encodeTree (h : EncodedAs ciborium model tree sor) (htree : tree.ZeroFree) :
    encodeTree ciborium model tree = .ok sor := by
  obtain ⟨initial, hinitial, hencoded⟩ := h
  rwa [← htree.eq_of_beq hinitial]

def toBeBytes64 (n : Nat) : Bytes :=
  [56, 48, 40, 32, 24, 16, 8, 0].map fun shift => UInt8.ofNat (n >>> shift)

abbrev Digest := Vector UInt8 32

/-- `schc-coreconf/managed-context/v1` and a zero byte. -/
def digestDomain : Bytes := "schc-coreconf/managed-context/v1".toUTF8.toList ++ [0]

def digestContext (deps : Deps) (tree : Json) (sor : Bytes) : Except ContextError Digest := do
  let treeBytes ← (deps.serdeToVec tree).mapError fun error =>
      .model s!"tree serialization: {error}"
  return deps.sha256 (digestDomain ++ toBeBytes64 treeBytes.length ++ treeBytes ++
    toBeBytes64 sor.length ++ sor)

structure ContextTag where
  bytes : Vector UInt8 8
  deriving DecidableEq, Repr

/-- The first eight bytes of the digest. -/
def contextTag (digest : Digest) : ContextTag := { bytes := digest.take 8 }

end SchcCoreconf
