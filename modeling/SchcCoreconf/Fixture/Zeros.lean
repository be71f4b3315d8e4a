import SchcCoreconf.Fixture.Grounding

/-!
# A model that turns zeros around

Two Sets-of-Rules without rules, each with one floating-point zero. Their model
reads a zero with the other sign than it has in the bytes; serde takes both trees
as equal, so both Sets-of-Rules load.
-/

namespace SchcCoreconf.Fixture

open Fallible

def negativeZero : F64 := { bits := 0x8000000000000000, finite := by decide }
def positiveZero : F64 := negativeZero.unsigned

def zeroSor (zero : F64) : Cbor :=
  .map [(.integer 2800, .map [(.integer 23, .array [])]), (.integer 2999, .float zero.bits)]

def zeroTree (zero : F64) : Json :=
  .object [("ietf-schc:schc", .object [("rule", .array [])]), ("ratio", .float zero)]

def zeroBytes (zero : F64) : Bytes := cborBytes (zeroSor zero)

/-- The zero of some bytes. -/
def zeroOf (bytes : Bytes) : Option F64 :=
  [positiveZero, negativeZero].find? (zeroBytes · = bytes)

/-- The zero with the other sign. -/
def turned (zero : F64) : F64 := if zero = positiveZero then negativeZero else positiveZero

def turningModel : CoreconfModel :=
  { coreconfModel { complete := [], digests := [], requests := [] } with
    compositeModel := { compositeModel { complete := [], digests := [], requests := [] } with
      identifierJsonToCborValue tree := need
        (([positiveZero, negativeZero].find? (zeroTree · = tree)).map zeroSor) (.other noDocument) }
    toValue bytes := need ((zeroOf bytes).map fun zero => zeroTree (turned zero)) noDocument }

def turningDeps : Deps :=
  let fixed := deps { complete := [], digests := [], requests := [] }
  { fixed with
    ciborium := {
      fromReader bytes := need ((zeroOf bytes).map fun zero =>
        (zeroSor zero, bytes.length)) noDocument
      intoWriter value := need
        (([positiveZero, negativeZero].find? (zeroSor · = value)).map zeroBytes) noDocument }
    rustconf := { fixed.rustconf with
      coreconfModel text := if text = sidText then .ok turningModel else .error "not a SID file" }
    rschc := { fixed.rschc with
      sidRegistry text :=
        if text = sidText then
          .ok { ruleContext bytes := need ((zeroOf bytes).map fun _ => { rules := [] }) noDocument }
        else .error "not a SID file" } }

theorem turningModel_ok (h : turningDeps.rustconf.coreconfModel sidText = .ok model) :
    model = turningModel := (Except.ok.inj h).symm

theorem turning_ruleSids (h : ruleSids turningModel.compositeModel = .ok found) :
    found = schcSids := by
  change ruleSids (compositeModel { complete := [], digests := [], requests := [] }) = _ at h
  exact ruleSids_eq h

theorem rules_zeroSor (zero : F64) : schcSids.rules (zeroSor zero) = .ok [] := rfl

theorem zeroOf_zeroBytes :
    ∀ zero ∈ [positiveZero, negativeZero], zeroOf (zeroBytes zero) = some zero := by
  decide +kernel

theorem turning_fromReader {bytes : Bytes} :
    turningDeps.ciborium.fromReader bytes = .ok (value, position) ↔
      ∃ zero, zeroOf bytes = some zero ∧ (zeroSor zero, bytes.length) = (value, position) :=
  need_ok.trans Option.map_eq_some_iff

theorem turning_ruleContext {bytes : Bytes}
    (hregistry : turningDeps.rschc.sidRegistry sidText = .ok registry)
    (h : registry.ruleContext bytes = .ok context) :
    ∃ zero, zeroOf bytes = some zero ∧ context = { rules := [] } := by
  cases hregistry
  obtain ⟨zero, hzero, rfl⟩ := Option.map_eq_some_iff.mp (need_ok.mp h)
  exact ⟨zero, hzero, rfl⟩

theorem turning_readsRuleByRule : ReadsRuleByRule turningDeps sidText where
  memberwise hmodel hregistry hsids := by
    cases turningModel_ok hmodel
    cases turning_ruleSids hsids
    refine ⟨fun _ => none, by simp, fun bytes context hcontext => ?_⟩
    obtain ⟨zero, hzero, rfl⟩ := turning_ruleContext hregistry hcontext
    exact ⟨zeroSor zero, bytes.length, [], turning_fromReader.mpr ⟨zero, hzero, rfl⟩,
      rules_zeroSor zero, .nil⟩
  reread keep hmodel hsids hread hmembers hwritten := by
    cases turningModel_ok hmodel
    cases turning_ruleSids hsids
    obtain ⟨zero, hzero, hread⟩ := turning_fromReader.mp hread
    cases hread
    cases hmembers.symm.trans (rules_zeroSor zero)
    -- there is no rule to leave out
    have hsame : schcSids.setRules (zeroSor zero) ([].filter keep) = zeroSor zero := rfl
    rw [hsame] at hwritten ⊢
    obtain ⟨found, hfound, rfl⟩ := Option.map_eq_some_iff.mp (need_ok.mp hwritten)
    have hfound' : zeroSor found = zeroSor zero := by simpa using List.find?_some hfound
    exact ⟨_, turning_fromReader.mpr ⟨found,
      zeroOf_zeroBytes found (List.mem_of_find?_eq_some hfound), Prod.ext hfound' rfl⟩⟩

theorem turning_loadsRooted : LoadsRooted turningDeps sidText := by
  intro model registry rootSid bytes value context hmodel _ hroot hvalue _
  cases turningModel_ok hmodel
  cases hroot
  simp only [strictCborValue, bind_ok, mapError_ok, pure_ok] at hvalue
  obtain ⟨⟨read, position⟩, hread, _, -, _, -, rfl⟩ := hvalue
  obtain ⟨zero, -, hread⟩ := turning_fromReader.mp hread
  cases hread
  rfl

end SchcCoreconf.Fixture
