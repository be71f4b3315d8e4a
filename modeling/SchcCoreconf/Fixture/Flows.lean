import SchcCoreconf.Fixture.Grounding
import SchcCoreconf.Flow

/-!
# A flow on concrete rules

Application packets from the core to the device, and rules that compare every
field of their flow.
-/

namespace SchcCoreconf.Fixture

open Fallible

/-- The entries of a rule that compares a flow: its label, and an interface identifier. -/
def flowEntries (label : Bytes) (appIid : UInt8) : List FieldRule :=
  [entry 0 (.ipv6 "fid-ipv6-version") (.fixedBits 4) none,
    entry 1 (.ipv6 "fid-ipv6-trafficclass") (.fixedBits 8) none,
    entry 2 (.ipv6 "fid-ipv6-flowlabel") (.fixedBits 20) (some label),
    entry 3 (.ipv6 "fid-ipv6-payload-length") (.fixedBits 16) none,
    entry 4 (.ipv6 "fid-ipv6-nextheader") (.fixedBits 8) none,
    entry 5 (.ipv6 "fid-ipv6-hoplimit") (.fixedBits 8) none,
    entry 6 (.ipv6 "fid-ipv6-devprefix") (.fixedBits 64) (some (deviceLogicalAddress.take 8)),
    entry 7 (.ipv6 "fid-ipv6-deviid") (.fixedBits 64) (some (deviceLogicalAddress.drop 8)),
    entry 8 (.ipv6 "fid-ipv6-appprefix") (.fixedBits 64) (some (coreLogicalAddress.take 8)),
    entry 9 (.ipv6 "fid-ipv6-appiid") (.fixedBits 64) (some (iidBytes appIid)),
    entry 10 (.udp "fid-udp-dev-port") (.fixedBits 16) (some (bigEndian 2 applicationPort)),
    entry 11 (.udp "fid-udp-app-port") (.fixedBits 16) (some (bigEndian 2 applicationPort)),
    entry 12 (.udp "fid-udp-length") (.fixedBits 16) none,
    entry 13 (.udp "fid-udp-checksum") (.fixedBits 16) none,
    entry 14 .payload .remaining none]

def flowRule (value : Nat) (label : Bytes) (appIid : UInt8) : Rule where
  id := { value, bitLen := 8 }
  nature := .compression
  fields := flowEntries label appIid

def flowBytes (label : Nat) : Bytes :=
  0x60 :: bigEndian 3 label ++
    (buildPacket coreLogicalAddress deviceLogicalAddress applicationPort applicationPort [1]).drop 4

def flowPacket (source destination : Bytes) : Bytes :=
  buildPacket source destination applicationPort applicationPort [0x40, 1, 0, 0]

def flowRules : List Rule := [flowRule 20 [0, 0, 0] 2, completeManagement]

def flowWorld : World where
  complete := [flowRules]
  digests := [
    ⟨#[64, 229, 4, 223, 208, 88, 82, 76, 236, 113, 192, 6, 135, 222, 128,
      199, 126, 31, 160, 20, 213, 66, 184, 142, 158, 201, 109, 4, 167, 153, 26, 27], rfl⟩]
  requests := []

theorem flowWorld_checked : flowWorld.Checked :=
  .of_checks (by decide +kernel) (by decide +kernel) (by decide +kernel) (by decide +kernel)

theorem flowWorld_separated : LoadsSeparated (deps flowWorld) sidText :=
  loadsSeparated flowWorld_checked (by decide +kernel)

theorem nat16_lt (bytes : Bytes) (offset : Nat) : nat16 bytes offset < 65536 := by
  unfold nat16
  split
  · next high low _ _ =>
    have hhigh : high.toNat < 256 := high.toNat_lt
    have hlow : low.toNat < 256 := low.toNat_lt
    omega
  · decide

theorem flowLabelsFit (world : World) : FlowLabelsFit (deps world).rschc := by
  intro bytes packet h
  simp only [deps, parsePacket, bind_ok, pure_ok] at h
  obtain ⟨_, -, _, -, _, -, rfl⟩ := h
  have hlow := nat16_lt bytes 2
  show nat16 bytes 0 % 16 * 65536 + nat16 bytes 2 < 2 ^ 20
  omega

end SchcCoreconf.Fixture
