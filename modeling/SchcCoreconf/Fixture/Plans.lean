import SchcCoreconf.Fixture.Duplicates
import SchcCoreconf.Fixture.Flows

/-!
# A flow that needs a rule of its own

The rule 20/8 carries the flow of one interface of the core. A packet from another
interface is carried by its duplicate 64/8.
-/

namespace SchcCoreconf.Fixture

def planMap : Cbor := .map [(serdeValueToCbor (pathToCborValue copiedPath), .bytes (iidBytes 3))]

def planCbor : Cbor :=
  .map [(.integer 2906, .map [(.integer 1, .map [(.integer 1, selectorCbor 20),
    (.integer 4, .bytes (cborBytes planMap)), (.integer 5, selectorCbor 64)])])]

def planDatagram : Bytes :=
  CoapWire.encode (wireOf { duplicatePacket with payload := cborBytes planCbor })

def plannedRules : List Rule :=
  [flowRule 20 [0, 0, 0] 2, flowRule 64 [0, 0, 0] 3, completeManagement]

def planWorld : World where
  complete := [flowRules, plannedRules]
  digests := flowWorld.digests ++ [
    ⟨#[169, 169, 26, 183, 162, 230, 64, 165, 251, 101, 204, 79, 172, 219, 41, 71,
      2, 53, 22, 197, 96, 213, 110, 126, 11, 39, 238, 243, 29, 100, 16, 232], rfl⟩]
  requests := [planCbor, planMap]

theorem planWorld_checked : planWorld.Checked :=
  .of_checks (by decide +kernel) (by decide +kernel) (by decide +kernel) (by decide +kernel)

theorem planWorld_separated : LoadsSeparated (deps planWorld) sidText :=
  loadsSeparated planWorld_checked (by decide +kernel)

def otherCoreAddress : Bytes := coreLogicalAddress.take 8 ++ iidBytes 3

def planRequest : RuleDuplicateRequest where
  source := { value := 20, bits := 8 }
  destination := { value := 64, bits := 8 }
  overrides := [{ entryIndex := 9, targetValue := some "3", matchingOperator := none, cda := none }]

end SchcCoreconf.Fixture
