import SchcCoreconf.Duplicate

/-!
# Operator commands

The `rule update` command of the core console: a rule selector, one entry
selector, one target value, and an optional If-Match flag. The `rule duplicate`
command: two rule selectors, and groups of overrides, each after its entry.
-/

namespace SchcCoreconf

open Fallible

-- ---------------------------------------------------------------------------
-- Words
-- ---------------------------------------------------------------------------

def splitWhitespace (input : String) : List String :=
  ((input.toList.splitOnP isTrimmed).filter (· ≠ [])).map .ofList

def splitOnce (separator : Char) (text : String) : Option (String × String) :=
  let before := text.toList.takeWhile (· ≠ separator)
  match text.toList.drop before.length with
  | [] => none
  | _ :: after => some (.ofList before, .ofList after)

def isControl (c : Char) : Bool := c.toNat < 0x20 || (0x7f ≤ c.toNat && c.toNat < 0xa0)

def parseRuleSelector (input : String) : Except InspectionError RuleSelector := do
  let (value, bits) ← need (splitOnce '/' (.ofList (trim input.toList)))
    (.invalidSelector "expected <value>/<bit-length>")
  ensure (!(value.isEmpty || bits.isEmpty || bits.toList.contains '/' || value.toList.contains '/'))
    (.invalidSelector "expected one numeric value and one numeric bit length")
  ensure (value.toList.all Char.isDigit && bits.toList.all Char.isDigit)
    (.invalidSelector "value and bit length must be unsigned decimal numbers")
  let value ← need (parseU64 value) (.invalidSelector "RuleID value is out of range")
  let bits ← need (parseU64 bits) (.invalidSelector "bit length is out of range")
  RuleSelector.new value bits

def invalidUpdate (message : String) : InspectionError := .invalidUpdate message

def parseUnsignedArgument (value key : String) : Except InspectionError Nat := do
  ensure (value.toList.all Char.isDigit)
    (invalidUpdate s!"{key} must be an unsigned decimal number")
  need (parseU64 value) (invalidUpdate s!"{key} is out of range for a canonical entry position")

def validFidToken (value : String) : Bool :=
  !value.isEmpty && !value.toList.any fun c => isTrimmed c || isControl c

-- ---------------------------------------------------------------------------
-- rule update
-- ---------------------------------------------------------------------------

/-- A parsed, not-yet-applied targeted rule update command. -/
structure RuleUpdateRequest where
  rule : RuleSelector
  entry : RuleEntrySelector
  targetValue : String
  ifMatch : Bool
  deriving DecidableEq, Repr

structure UpdateArguments where
  entryIndex : Option Nat := none
  fid : Option String := none
  fieldPosition : Option Nat := none
  direction : Option String := none
  targetValue : Option String := none
  ifMatch : Bool := false
  deriving DecidableEq, Repr

namespace UpdateArguments

def keyValue (self : UpdateArguments) (key value : String) :
    Except InspectionError UpdateArguments := do
  match key with
  | "entry" =>
    ensure self.entryIndex.isNone (invalidUpdate "duplicate 'entry' argument")
    return { self with entryIndex := some (← parseUnsignedArgument value "entry") }
  | "fid" =>
    ensure self.fid.isNone (invalidUpdate "duplicate 'fid' argument")
    ensure (validFidToken value) (invalidUpdate "fid must be a readable non-empty field name")
    return { self with fid := some value }
  | "fp" =>
    ensure self.fieldPosition.isNone (invalidUpdate "duplicate 'fp' argument")
    let position ← parseUnsignedArgument value "fp"
    ensure (position ≠ 0) (invalidUpdate "fp must be a one-based field position")
    return { self with fieldPosition := some position }
  | "di" =>
    ensure self.direction.isNone (invalidUpdate "duplicate 'di' argument")
    ensure (["bi", "up", "down"].contains value)
      (invalidUpdate "di must be one of 'bi', 'up', or 'down'")
    return { self with direction := some value }
  | "tv" =>
    ensure self.targetValue.isNone (invalidUpdate "duplicate 'tv' argument")
    ensure (!value.toList.any isControl) (invalidUpdate "tv must not contain control characters")
    return { self with targetValue := some value }
  | _ => throw (invalidUpdate s!"unknown update argument '{key}'")

def argument (self : UpdateArguments) (argument : String) :
    Except InspectionError UpdateArguments := do
  if argument = "--if-match" then
    ensure (!self.ifMatch) (invalidUpdate "duplicate '--if-match' flag")
    return { self with ifMatch := true }
  let (key, value) ← need (splitOnce '=' argument)
    (invalidUpdate s!"malformed argument '{argument}'; expected key=value")
  ensure (!(key.isEmpty || value.isEmpty || value.toList.contains '='))
    (invalidUpdate s!"malformed argument '{argument}'; expected one non-empty key and value")
  self.keyValue key value

def entry (self : UpdateArguments) : Except InspectionError RuleEntrySelector :=
  match self.entryIndex, self.fid with
  | some entryIndex, none =>
    if self.fieldPosition.isSome || self.direction.isSome then
      .error (invalidUpdate "exact 'entry' cannot be combined with 'fp' or 'di'")
    else .ok (.entry entryIndex)
  | none, some fid => .ok (.field fid self.fieldPosition self.direction)
  | some _, some _ => .error (invalidUpdate "entry and fid selectors cannot be combined")
  | none, none =>
    if self.fieldPosition.isSome || self.direction.isSome then
      .error (invalidUpdate "fp and di require a fid selector")
    else .error (invalidUpdate "exactly one of 'entry' or 'fid' is required")

end UpdateArguments

def parseRuleUpdateCommand (deps : Deps) (input : String) :
    Except InspectionError RuleUpdateRequest := do
  let "rule" :: "update" :: words := splitWhitespace input
    | throw (invalidUpdate "expected 'rule update <value>/<bits> ...'")
  let ruleToken :: arguments := words
    | throw (invalidUpdate "missing RuleID; expected <value>/<bits>")
  let rule ← (parseRuleSelector ruleToken).mapError fun error =>
    invalidUpdate s!"invalid RuleID: {error.text deps.rschc}"
  let read ← arguments.foldlM UpdateArguments.argument {}
  let targetValue ← need read.targetValue (invalidUpdate "exactly one 'tv' is required")
  return { rule, entry := ← read.entry, targetValue, ifMatch := read.ifMatch }

-- ---------------------------------------------------------------------------
-- rule duplicate
-- ---------------------------------------------------------------------------

/-- The overrides read so far, and the one that is still open. -/
structure DuplicateArguments where
  overrides : List RuleDuplicateOverride := []
  current : Option RuleDuplicateOverride := none
  deriving DecidableEq, Repr

namespace DuplicateArguments

/-- The open override ends, at the next entry or at the end of the command. -/
def close (self : DuplicateArguments) : Except InspectionError (List RuleDuplicateOverride) :=
  match self.current with
  | none => .ok self.overrides
  | some previous => do
    ensure (!(previous.targetValue.isNone &&
      previous.matchingOperator.isNone && previous.cda.isNone))
      (invalidUpdate s!"entry {previous.entryIndex} has no override leaves")
    return self.overrides ++ [previous]

def keyValue (self : DuplicateArguments) (kind value : String) :
    Except InspectionError DuplicateArguments := do
  match kind with
  | "entry" =>
    let overrides ← self.close
    let entryIndex ← parseUnsignedArgument value "entry"
    ensure (!overrides.any (·.entryIndex = entryIndex))
      (invalidUpdate s!"duplicate override entry={entryIndex}")
    let opened : RuleDuplicateOverride :=
      { entryIndex, targetValue := none, matchingOperator := none, cda := none }
    return { overrides, current := some opened }
  | "tv" =>
    let current ← need self.current (invalidUpdate "'tv' must follow an entry=INDEX")
    ensure current.targetValue.isNone (invalidUpdate "duplicate tv in one override")
    return { self with current := some { current with targetValue := some value } }
  | "mo" =>
    let current ← need self.current (invalidUpdate "'mo' must follow an entry=INDEX")
    ensure current.matchingOperator.isNone (invalidUpdate "duplicate mo in one override")
    return { self with current := some { current with matchingOperator := some value } }
  | "cda" =>
    let current ← need self.current (invalidUpdate "'cda' must follow an entry=INDEX")
    ensure current.cda.isNone (invalidUpdate "duplicate cda in one override")
    return { self with current := some { current with cda := some value } }
  | _ => throw (invalidUpdate s!"unknown duplicate argument '{kind}'")

def argument (self : DuplicateArguments) (argument : String) :
    Except InspectionError DuplicateArguments := do
  let (kind, value) ← need (splitOnce '=' argument)
    (invalidUpdate s!"malformed duplicate argument '{argument}'; expected key=value")
  ensure (!value.isEmpty) (invalidUpdate s!"duplicate argument '{kind}' has an empty value")
  self.keyValue kind value

end DuplicateArguments

def duplicateSelector (deps : Deps) (role : String) (word : Option String) :
    Except InspectionError RuleSelector :=
  ((need word (invalidUpdate s!"missing duplicate {role} RuleID")).bind parseRuleSelector).mapError
    fun error => invalidUpdate s!"invalid {role} RuleID: {error.text deps.rschc}"

def parseRuleDuplicateCommand (deps : Deps) (input : String) :
    Except InspectionError RuleDuplicateRequest := do
  let "rule" :: "duplicate" :: words := splitWhitespace input
    | throw (invalidUpdate "expected 'rule duplicate <source>/<bits> <destination>/<bits> ...'")
  let source ← duplicateSelector deps "source" words[0]?
  let destination ← duplicateSelector deps "destination" words[1]?
  let read ← (words.drop 2).foldlM DuplicateArguments.argument {}
  return { source, destination, overrides := ← read.close }

end SchcCoreconf
