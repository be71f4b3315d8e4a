import SchcCoreconf.Link

/-!
# Selecting a rule, an entry and a target value

The vocabulary of `management.rs`: its errors, the exact RuleID selector, the
SIDs of the model, and the readable view of a rule in which an operator selects
an entry.
-/

namespace SchcCoreconf

open Fallible

-- ---------------------------------------------------------------------------
-- RuleID selectors
-- ---------------------------------------------------------------------------

structure RuleSelector where
  value : Nat
  bits : Nat
  deriving DecidableEq, Repr

instance : ToString RuleSelector := ⟨fun selector => s!"{selector.value}/{selector.bits}"⟩

def RuleSelector.ruleId (self : RuleSelector) : RuleId :=
  { value := self.value, bitLen := self.bits }

theorem RuleSelector.ruleId_injective : Function.Injective RuleSelector.ruleId := by
  rintro ⟨lv, lb⟩ ⟨rv, rb⟩ h
  obtain ⟨rfl, rfl⟩ := RuleId.mk.inj h
  rfl

def RuleSelector.orderKey (self : RuleSelector) : ℕ ×ₗ ℕ := toLex (self.value, self.bits)

structure RuleEntry where
  entryIndex : Nat
  fid : String
  fieldPosition : Nat
  direction : String
  length : String
  target : String
  matching : String
  cda : String
  deriving DecidableEq, Repr

-- ---------------------------------------------------------------------------
-- Errors
-- ---------------------------------------------------------------------------

inductive InspectionError
  | invalidSelector (message : String)
  | missingRule (value bits : Nat)
  | ambiguousRule (value bits count : Nat)
  | invalidUpdate (message : String)
  | missingEntry (rule : RuleSelector) (selector : String)
  | ambiguousEntry (rule : RuleSelector) (selector : String) (entries : List RuleEntry)
      (readableMatches : String)
  | invalidTarget (message : String)
  | datastore (message : String)
  | coap (message : String)
  | invalidToken (message : String)
  | link (error : LinkError)
  | correlation (message : String)
  | unexpectedResponse (message : String)
  | missingDynamicRuleIdNamespace
  | ruleIdTree (error : RuleIdTreeError)
  | unrepresentableFlow (message : String)
  deriving DecidableEq, Repr

def InspectionError.text (rschc : RSchc) : InspectionError → String
  | .invalidSelector message => s!"invalid RuleID selector: {message}"
  | .missingRule value bits => s!"RuleID {value}/{bits} was not found"
  | .ambiguousRule value bits count => s!"RuleID {value}/{bits} was ambiguous ({count} matches)"
  | .invalidUpdate message => s!"invalid rule update command: {message}"
  | .missingEntry rule selector => s!"RuleID {rule} has no entry matching {selector}"
  | .ambiguousEntry rule selector _ readableMatches =>
    s!"RuleID {rule} selector {selector} was ambiguous; matching entries:\n{readableMatches}"
  | .invalidTarget message => s!"invalid targeted rule update: {message}"
  | .datastore message => s!"management datastore error: {message}"
  | .coap message => s!"management CoAP error: {message}"
  | .invalidToken message => s!"invalid CoAP token: {message}"
  | .link error => s!"management SCHC link error: {error.text rschc}"
  | .correlation message => s!"management response correlation failed: {message}"
  | .unexpectedResponse message => s!"unexpected management response: {message}"
  | .missingDynamicRuleIdNamespace =>
    "automatic flow management requires an explicit dynamic RuleID namespace"
  | .ruleIdTree error => s!"dynamic RuleID allocation failed: {error.text}"
  | .unrepresentableFlow message =>
    s!"flow cannot be represented by duplicate-rule management: {message}"

def invalidTarget (message : String) : InspectionError := .invalidTarget message

namespace RuleSelector

def new (value bits : Nat) : Except InspectionError RuleSelector := do
  ensure (1 ≤ bits ∧ bits ≤ 64)
    (.invalidSelector s!"bit length must be between 1 and 64, got {bits}")
  ensure (!(bits < 64 && value ≥ 1 <<< bits))
    (.invalidSelector s!"value {value} does not fit in {bits} bits")
  return { value, bits }

theorem new_ok {value bits : Nat} (h : new value bits = .ok selector) :
    selector = ⟨value, bits⟩ ∧ 1 ≤ bits ∧ bits ≤ 64 := by
  simp only [new, bind_ok, ensure_ok, pure_ok, decide_eq_true_eq] at h
  obtain ⟨_, ⟨hpos, hle⟩, _, -, rfl⟩ := h
  exact ⟨rfl, hpos, hle⟩

theorem new_explicit {id : RuleId} (h : id.Explicit) :
    new id.value id.bitLen = .ok ⟨id.value, id.bitLen⟩ := by
  obtain ⟨hpos, hle, hvalue⟩ := h
  have hfit : ¬ (1 <<< id.bitLen ≤ id.value) := by
    rw [Nat.one_shiftLeft]
    exact not_le.mpr hvalue
  simp only [new, bind_ok, ensure_ok, pure_ok]
  exact ⟨(), by simpa using ⟨hpos, by omega⟩, (), by simp [hfit], trivial⟩

end RuleSelector

-- ---------------------------------------------------------------------------
-- The SIDs of the model
-- ---------------------------------------------------------------------------

structure ModelSids where
  root : Int
  rule : Int
  ruleIdLength : Int
  ruleIdValue : Int
  entry : Int
  entryIndex : Int
  fieldLength : Int
  target : Int
  targetIndex : Int
  targetValue : Int
  duplicateRule : Int
  duplicateInput : Int
  duplicateFrom : Int
  duplicateFromLength : Int
  duplicateFromValue : Int
  duplicateIpatch : Int
  duplicateTo : Int
  duplicateToLength : Int
  duplicateToValue : Int
  matchingOperator : Int
  cda : Int
  deriving DecidableEq, Repr

def ModelSids.resolve (model : CompositeModel) : Except InspectionError ModelSids := do
  let sid (path : String) : Except InspectionError Int :=
    need (model.getSid path) (invalidTarget s!"SID model is missing identifier {path}")
  return {
    root := ← sid "/ietf-schc:schc"
    rule := ← sid "/ietf-schc:schc/rule"
    ruleIdLength := ← sid "/ietf-schc:schc/rule/rule-id-length"
    ruleIdValue := ← sid "/ietf-schc:schc/rule/rule-id-value"
    entry := ← sid "/ietf-schc:schc/rule/entry-universal"
    entryIndex := ← sid "/ietf-schc:schc/rule/entry-universal/entry-index"
    fieldLength := ← sid "/ietf-schc:schc/rule/entry-universal/field-length"
    target := ← sid "/ietf-schc:schc/rule/entry-universal/target-value"
    targetIndex := ← sid "/ietf-schc:schc/rule/entry-universal/target-value/index"
    targetValue := ← sid "/ietf-schc:schc/rule/entry-universal/target-value/value"
    duplicateRule := ← sid "/ietf-schc:duplicate-rule"
    duplicateInput := ← sid "/ietf-schc:duplicate-rule/input"
    duplicateFrom := ← sid "/ietf-schc:duplicate-rule/input/from"
    duplicateFromLength := ← sid "/ietf-schc:duplicate-rule/input/from/rule-id-length"
    duplicateFromValue := ← sid "/ietf-schc:duplicate-rule/input/from/rule-id-value"
    duplicateIpatch := ← sid "/ietf-schc:duplicate-rule/input/ipatch-sequence"
    duplicateTo := ← sid "/ietf-schc:duplicate-rule/input/to"
    duplicateToLength := ← sid "/ietf-schc:duplicate-rule/input/to/rule-id-length"
    duplicateToValue := ← sid "/ietf-schc:duplicate-rule/input/to/rule-id-value"
    matchingOperator := ← sid "/ietf-schc:schc/rule/entry-universal/matching-operator"
    cda := ← sid "/ietf-schc:schc/rule/entry-universal/comp-decomp-action" }

def requireListKeys (model : CompositeModel) (listSid : Int) (expected : List Int) :
    Except InspectionError Unit := do
  let keys ← need (model.getKeys listSid) (invalidTarget s!"SID {listSid} has no list key mapping")
  ensure (keys = expected)
    (invalidTarget s!"SID {listSid} list keys are {keys}, expected {expected}")

def validateUpdateModelShape (model : CompositeModel) : Except InspectionError ModelSids := do
  let sids ← ModelSids.resolve model
  requireListKeys model sids.rule [sids.ruleIdValue, sids.ruleIdLength]
  requireListKeys model sids.entry [sids.entryIndex]
  requireListKeys model sids.target [sids.targetIndex]
  return sids

/-- `rsplit('/').next()`: what follows the last slash. -/
def lastSegment (identifier : String) : String :=
  .ofList (identifier.toList.reverse.takeWhile (· ≠ '/')).reverse

def treeKeyForSid (model : CompositeModel) (sid : Int) : Except InspectionError String := do
  let identifier ← need (model.getIdentifier sid)
    (invalidTarget s!"SID model is missing identifier {sid}")
  let key := lastSegment identifier
  ensure (!key.isEmpty) (invalidTarget s!"SID {sid} has an empty tree key")
  return key

-- ---------------------------------------------------------------------------
-- Binary target values
-- ---------------------------------------------------------------------------

def byteOf (value : Json) : Except InspectionError UInt8 := do
  let byte ← need value.asU64 (invalidTarget "target-value/value contains a non-byte")
  ensure (byte < 256) (invalidTarget "target-value/value contains an out-of-range byte")
  return UInt8.ofNat byte

def binaryBytes (value : Json) : Except InspectionError Bytes := do
  let values ← need value.asArray (invalidTarget "target-value/value is not a binary byte array")
  collect byteOf values

def binaryFitsFieldLength (bytes : Bytes) (fieldLength : Nat) : Bool :=
  let storageBits := bytes.length * 8
  if fieldLength = 0 ∨ fieldLength > storageBits then false
  else
    let excessBits := storageBits - fieldLength
    let wholeBytes := excessBits / 8
    let remainingBits := excessBits % 8
    if (bytes.take wholeBytes).any (· ≠ 0) then false
    else if remainingBits = 0 then true
    else match bytes[wholeBytes]? with
      | none => true
      | some byte => byte &&& (0xff <<< UInt8.ofNat (8 - remainingBits)) = 0

def bigEndian : Nat → Nat → Bytes
  | 0, _ => []
  | width + 1, number => bigEndian width (number / 256) ++ [UInt8.ofNat number]

/-- `numeric_target_value`: a decimal spelling in the byte width of the current value. -/
def numericTargetValue (input : String) (currentBytes : Bytes) (fieldLength : Json) :
    Except InspectionError Json := do
  ensure (!input.isEmpty && input.toList.all Char.isDigit)
    (invalidTarget "tv must be an unsigned decimal value for a binary target")
  let number := Nat.ofDigitChars 10 input.toList 0
  ensure (number < 2 ^ 64) (invalidTarget "tv is out of range for an unsigned target value")
  ensure (!currentBytes.isEmpty)
    (invalidTarget "existing target value has no byte width to preserve")
  let storageBits := currentBytes.length * 8
  ensure (!(storageBits < 64 && number ≥ 1 <<< storageBits))
    (invalidTarget s!"tv={input} does not fit existing target width of {storageBits} bits")
  if let some bits := fieldLength.asU64 then
    ensure (bits ≠ 0) (invalidTarget "selected field has a zero-bit length")
    ensure (!(bits < 64 && number ≥ 1 <<< bits))
      (invalidTarget s!"tv={input} does not fit selected field length of {bits} bits")
  ensure (number < 256 ^ currentBytes.length)
    (invalidTarget s!"tv={input} does not fit existing target width of {storageBits} bits")
  return .array ((bigEndian currentBytes.length number).map fun byte => .ofNat byte.toNat)

-- ---------------------------------------------------------------------------
-- Instance paths
-- ---------------------------------------------------------------------------

def InstancePath.pushKey (path : InstancePath) (value : Json) : InstancePath :=
  { components := path.components ++ [.keyValue value] }

def InstancePath.keys (path : InstancePath) : List Json :=
  path.components.filterMap fun
    | .keyValue value => some value
    | .sidDelta _ => none

/-- `push_sid`; the previous SID is the caller's. -/
def pushSid (deps : Deps) (path : InstancePath) (previous sid : Int) :
    Except InspectionError InstancePath :=
  (deps.rustconf.pushDelta path (sid - previous)).mapError fun error =>
    invalidTarget s!"target-value path construction failed: {error}"

def targetValuePath (deps : Deps) (sids : ModelSids) (rule : RuleSelector)
    (entryIndex targetValueIndex : Nat) : Except InspectionError InstancePath := do
  let path ← pushSid deps { components := [] } 0 sids.root
  let path ← pushSid deps path sids.root sids.rule
  let path := (path.pushKey (.ofNat rule.value)).pushKey (.ofNat rule.bits)
  let path ← pushSid deps path sids.rule sids.entry
  let path := path.pushKey (.ofNat entryIndex)
  let path ← pushSid deps path sids.entry sids.target
  let path := path.pushKey (.ofNat targetValueIndex)
  pushSid deps path sids.target sids.targetValue

-- ---------------------------------------------------------------------------
-- The readable view of a rule
-- ---------------------------------------------------------------------------

def RuleNature.asStr : RuleNature → String
  | .compression => "compression"
  | .management => "management"
  | .other identifier => identifier

def fieldName : FieldRef → String
  | .ipv6 name | .udp name | .coap name | .icmpv6 name => name
  | .coapOption number => s!"coap-option({number})"
  | .unused => "fid-unused"
  | .payload => "fid-payload"
  | .syntheticCoapMarker => "fid-coap-payload-marker"
  | .unknownSid sid => s!"sid:{sid}"

def directionName : DirectionSelector → String
  | .bidirectional => "bi"
  | .up => "up"
  | .down => "down"

def lengthName : FieldLength → String
  | .fixedBits bits => toString bits
  | .variableBytes => "variable-bytes"
  | .variableBits => "variable-bits"
  | .remaining => "remaining"
  | .tokenLength => "token-length"
  | .fromPreviousField entryIndex .bytes => s!"from-entry-{entryIndex}/bytes"
  | .fromPreviousField entryIndex .bits => s!"from-entry-{entryIndex}/bits"
  | .functionSid sid => s!"sid:{sid}"

def hexBytes (bytes : Bytes) : String :=
  let digit (n : Nat) := Nat.digitChar n
  .ofList ('0' :: 'x' :: bytes.flatMap fun byte =>
    [digit (byte.toNat / 16), digit (byte.toNat % 16)])

def targetName : TargetValue → String
  | .none => "-"
  | .bytes value => hexBytes value
  | .mapping values => "[" ++ ",".intercalate (values.map hexBytes) ++ "]"

def matchingName : MatchingOperator → String
  | .equal => "equal"
  | .ignore => "ignore"
  | .msb bits => s!"msb({bits})"
  | .matchMapping => "match-mapping"

def cdaName : Cda → String
  | .notSent => "not-sent"
  | .valueSent => "value-sent"
  | .mappingSent => "mapping-sent"
  | .lsb => "lsb"
  | .compute => "compute"
  | .deviceIid => "deviid"
  | .appIid => "appiid"

def entryFromRule (field : FieldRule) : RuleEntry where
  entryIndex := field.entryIndex
  fid := fieldName field.field
  fieldPosition := field.fieldPosition
  direction := directionName field.direction
  length := lengthName field.length
  target := targetName field.target
  matching := matchingName field.matching
  cda := cdaName field.action

/-- A complete readable rule, its entries sorted by index. -/
structure RuleDetail where
  id : RuleSelector
  nature : String
  entries : List RuleEntry
  deriving DecidableEq, Repr

def detailFromRule (rule : Rule) : RuleDetail where
  id := { value := rule.id.value, bits := rule.id.bitLen }
  nature := rule.nature.asStr
  entries := (rule.fields.map entryFromRule).insertionSort (Sorted.byKey (·.entryIndex))

def formatRuleEntry (entry : RuleEntry) : String :=
  s!"ENTRY {entry.entryIndex} fid={entry.fid} fp={entry.fieldPosition} di={entry.direction} " ++
    s!"length={entry.length} tv={entry.target} mo={entry.matching} cda={entry.cda}"

inductive RuleEntrySelector
  | entry (entryIndex : Nat)
  | field (fid : String) (fieldPosition : Option Nat) (direction : Option String)
  deriving DecidableEq, Repr

def RuleEntrySelector.description : RuleEntrySelector → String
  | .entry entryIndex => s!"entry={entryIndex}"
  | .field fid fieldPosition direction =>
    s!"fid={fid}" ++ (fieldPosition.elim "" fun position => s!" fp={position}") ++
      (direction.elim "" fun name => s!" di={name}")

/-- Unicode `White_Space`, as `str::trim` drops it. -/
def isTrimmed (c : Char) : Bool :=
  let n := c.toNat
  (9 ≤ n && n ≤ 13) || n = 32 || n = 0x85 || n = 0xA0 || n = 0x1680 || (0x2000 ≤ n && n ≤ 0x200A)
    || n = 0x2028 || n = 0x2029 || n = 0x202F || n = 0x205F || n = 0x3000

def trim (text : List Char) : List Char :=
  ((text.dropWhile isTrimmed).reverse.dropWhile isTrimmed).reverse

def dropLeading (lead text : List Char) : List Char :=
  if lead.isPrefixOf text then text.drop lead.length else text

def normalizeFid (fid : String) : String :=
  let lower := (trim fid.toList).map Char.toLower
  .ofList ((dropLeading "fid-".toList lower).filter Char.isAlphanum)

def entryMatchesSelector (entry : RuleEntry) : RuleEntrySelector → Bool
  | .entry entryIndex => entry.entryIndex = entryIndex
  | .field fid fieldPosition direction =>
    normalizeFid entry.fid = normalizeFid fid
      && fieldPosition.all (· = entry.fieldPosition)
      && direction.all (· = entry.direction)

def RuleDetail.resolveEntryIndex (self : RuleDetail) (selector : RuleEntrySelector) :
    Except InspectionError Nat :=
  let found := (self.entries.filter (entryMatchesSelector · selector)).insertionSort
    (Sorted.byKey (·.entryIndex))
  match found with
  | [] => .error (.missingEntry self.id selector.description)
  | [entry] => .ok entry.entryIndex
  | _ => .error (.ambiguousEntry self.id selector.description found
      ("\n".intercalate (found.map formatRuleEntry)))

end SchcCoreconf
