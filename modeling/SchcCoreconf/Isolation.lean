import SchcCoreconf.Fixture.Plans
import SchcCoreconf.Link
import SchcCoreconf.Operations

/-!
# Management isolation

Two endpoints that loaded one Set-of-Rules may then diverge in every application
rule, but both keep the protected rules they loaded. The RuleID a frame was
encoded with and the RuleID it is decoded with both start the frame, so where
one of them is protected, both are ids of one prefix-free context, and equal.
-/

namespace SchcCoreconf

open Fallible

-- ---------------------------------------------------------------------------
-- The RuleIDs of a context
-- ---------------------------------------------------------------------------

namespace ContextData

theorem Derived.prefixFree {recipe : ContextRecipe} {data : ContextData}
    (h : data.Derived deps recipe) (hfree : LoadsPrefixFree deps recipe.sidJson) :
    RuleId.PrefixFree data.ruleIds := by
  obtain ⟨registry, context, hregistry, hcontext, hrules, -, -⟩ := h.full
  rw [h.ruleIds, hrules]
  exact hfree hregistry hcontext

theorem ApplicationSplit.known {recipe : ContextRecipe} {data : ContextData} {id : RuleId}
    (h : data.ApplicationSplit deps recipe)
    (hid : id ∈ data.ruleIds ∨ id ∈ data.applicationRuleIds) : id ∈ data.ruleIds := by
  rcases hid with hid | hid
  · exact hid
  · rw [h.ruleIds] at hid
    exact List.mem_of_mem_filter hid

end ContextData

-- ---------------------------------------------------------------------------
-- Frames between two endpoints
-- ---------------------------------------------------------------------------

/-- The RuleID of an encoded frame: known, protected exactly for management, and
at the start of the frame. -/
theorem encoded_ruleId {self : SchcLink} (hframes : FramesCarryRuleIds deps)
    (hsound : ActiveContext.Sound deps initial active) (hsplit : ActiveContext.Split deps active)
    (h : self.encodeValidated deps active origin packet udpPayload = .ok encoding) :
    ∃ id : RuleId, id ∈ active.snapshot.data.ruleIds ∧ (origin = .management ↔ id ∈ initial.ids) ∧
      id.bits <+: BitString.ofBytes encoding.frame.bytes := by
  have hderived := hsound.current
  have happlication := hsplit active.snapshot List.mem_cons_self
  obtain ⟨encoded, hencoded, hframe, -, hknown, horigin⟩ := SchcLink.encodeValidated_ok h
  rw [hsound.current_protectedRules] at horigin
  refine ⟨encoded.ruleId, happlication.known hknown, horigin, ?_⟩
  rw [hframe]
  cases origin with
  | application =>
    obtain ⟨_, hruntime, -⟩ := happlication.runtime
    exact hframes.encode hruntime hencoded
  | management =>
    obtain ⟨_, _, -, -, -, -, hruntime⟩ := hderived.full
    exact hframes.encode hruntime hencoded

theorem decoded_ruleId {self : SchcLink} (hframes : FramesCarryRuleIds deps)
    (hsound : ActiveContext.Sound deps initial active) (hsplit : ActiveContext.Split deps active)
    (h : self.decodePacket deps active frame = .ok decoded) :
    ∃ id : RuleId, id ∈ active.snapshot.data.ruleIds ∧
      (decoded.route = .protectedManagement ↔ id ∈ initial.ids) ∧
      id.bits <+: BitString.ofBytes frame := by
  have happlication := hsplit active.snapshot List.mem_cons_self
  obtain ⟨⟨inner, hinner, hid⟩, hknown, hroute⟩ := SchcLink.decodePacket_ok h
  rw [hsound.current_protectedRules] at hroute
  refine ⟨decoded.ruleId, happlication.known hknown, hroute, ?_⟩
  rw [hid]
  rcases SchcLink.decodeFrame_ok hinner with hdecoded | hdecoded
  · obtain ⟨_, _, -, -, -, -, hruntime⟩ := hsound.current.full
    exact hframes.decode hruntime hdecoded
  · obtain ⟨_, hruntime, -⟩ := happlication.runtime
    exact hframes.decode hruntime hdecoded

theorem eq_of_starts {left right : RuleId} (hfree : RuleId.PrefixFree ids) (hl : left ∈ ids)
    (hr : right ∈ ids) (hleft : left.bits <+: frame) (hright : right.bits <+: frame) :
    left = right :=
  hfree left hl right hr (BitString.Comparable.of_prefix hleft hright)

/-- However two endpoints have diverged since they loaded one Set-of-Rules, a
frame keeps its side: management frames arrive on the management route only. -/
theorem management_isolation {recipe recipe' : ContextRecipe} {link peer : SchcLink}
    (hframes : FramesCarryRuleIds deps) (hreads : ReadsRuleByRule deps recipe.sidJson)
    (hfree : LoadsPrefixFree deps recipe.sidJson) (hsid : recipe'.sidJson = recipe.sidJson)
    (hsender : Reached deps recipe source prepared sender)
    (hreceiver : Reached deps recipe' source prepared' receiver)
    (hencode : link.encodeValidated deps sender origin packet udpPayload = .ok encoding)
    (hdecode : peer.decodePacket deps receiver encoding.frame.bytes = .ok decoded) :
    (origin = .application → decoded.route ≠ .protectedManagement) ∧
      (origin = .management → decoded.route ≠ .application) := by
  have hsame : prepared'.data.protectedRules = prepared.data.protectedRules :=
    (PreparedContext.fromSource_congr hsid hreceiver.1 hsender.1).2.2
  have hsound' : ActiveContext.Sound deps prepared.data.protectedRules receiver :=
    hsame ▸ hreceiver.sound
  have hsound := hsender.sound
  obtain ⟨id, hid, horigin, hstarts⟩ := encoded_ruleId hframes hsound (hsender.split hreads) hencode
  obtain ⟨id', hid', hroute, hstarts'⟩ :=
    decoded_ruleId hframes hsound' (hreceiver.split (hsid ▸ hreads)) hdecode
  constructor
  · rintro rfl hmanagement
    -- the receiver's id is protected, so the sender has it too
    have hprotected : id' ∈ prepared.data.protectedRules.ids := hroute.mp hmanagement
    have hmem : id' ∈ sender.snapshot.data.ruleIds :=
      hsound.current.protected_mem (hsound.current_protectedRules ▸ hprotected)
    have heq :
        id = id' := eq_of_starts (hsound.current.prefixFree (hsender.sidJson ▸ hfree)) hid hmem
      hstarts hstarts'
    exact nomatch horigin.mpr (heq ▸ hprotected)
  · rintro rfl happlication
    have hprotected : id ∈ prepared.data.protectedRules.ids := horigin.mp rfl
    have hmem : id ∈ receiver.snapshot.data.ruleIds :=
      hsound'.current.protected_mem (hsound'.current_protectedRules ▸ hprotected)
    have heq : id = id' := eq_of_starts
      (hsound'.current.prefixFree (hreceiver.sidJson ▸ hsid ▸ hfree)) hmem hid' hstarts hstarts'
    exact nomatch happlication.symm.trans (hroute.mpr (heq ▸ hprotected))

section
open Fallible Fixture

/-- The device, once it has a duplicate that the core lacks. -/
def ahead (prepared : PreparedContext) : ActiveContext :=
  ((service planWorld).operate (deps planWorld) (start prepared)
    [.datagramNoResponse planDatagram]).active

def crosses (prepared : PreparedContext) (origin : TrafficOrigin) (packet payload : Bytes) :
    Except LinkError DecodedPacket := do
  let encoding ← (link .core).encodeValidated (deps planWorld) (.new prepared) origin packet payload
  (link .device).decodePacket (deps planWorld) (ahead prepared) encoding.frame.bytes

def corePacket : Bytes := flowPacket coreLogicalAddress deviceLogicalAddress

theorem crossed_evaluated : holds (loaded planWorld flowRules) (fun prepared =>
    (ahead prepared).snapshot.data.tree = tree plannedRules &&
      holds (crosses prepared .management (requestPacket patchDatagram) patchDatagram)
        (fun _ => true) &&
      holds (crosses prepared .application corePacket [0x40, 1, 0, 0]) fun _ => true) = true := by
  decide +kernel

/-- Both kinds of packets keep their side at a device that is ahead of the core. -/
theorem management_isolation_diverged : ∃ prepared managed applied,
    (ahead prepared).snapshot.data.tree = tree plannedRules ∧
    crosses prepared .management (requestPacket patchDatagram) patchDatagram = .ok managed ∧
    managed.route ≠ .application ∧
    crosses prepared .application corePacket [0x40, 1, 0, 0] = .ok applied ∧
    applied.route ≠ .protectedManagement := by
  obtain ⟨prepared, hprepared, hcrossed⟩ := holds_iff.mp crossed_evaluated
  simp only [Bool.and_eq_true, decide_eq_true_eq] at hcrossed
  obtain ⟨⟨htree, hmanaged⟩, happlied⟩ := hcrossed
  obtain ⟨managed, hmanaged, -⟩ := holds_iff.mp hmanaged
  obtain ⟨applied, happlied, -⟩ := holds_iff.mp happlied
  obtain ⟨_, hmanagedSent, hmanagedRead⟩ := bind_ok.mp hmanaged
  obtain ⟨_, happliedSent, happliedRead⟩ := bind_ok.mp happlied
  have hcore := Reached.of_loaded hprepared []
  have hdevice := Reached.of_loaded hprepared [.datagramNoResponse planDatagram]
  exact ⟨prepared, managed, applied, htree, hmanaged,
    (management_isolation framesCarryRuleIds (readsRuleByRule planWorld_checked)
      (loadsPrefixFree planWorld_checked) rfl hcore hdevice hmanagedSent hmanagedRead).2 rfl,
    happlied,
    (management_isolation framesCarryRuleIds (readsRuleByRule planWorld_checked)
      (loadsPrefixFree planWorld_checked) rfl hcore hdevice happliedSent happliedRead).1 rfl⟩

end

end SchcCoreconf
