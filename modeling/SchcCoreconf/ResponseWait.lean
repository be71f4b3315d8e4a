import SchcCoreconf.Correlation
import SchcCoreconf.Endpoints

/-!
# Waiting for a response

While the core waits it runs another loop than its main loop. Whatever the devices
give and take, the wait sends and writes what the main loop would, frame by frame and
packet by packet; it ends with the first frame that is a response to the request, at
the deadline, or where a device fails. A main loop that runs with `--once` ends with
the first of these frames and packets.
-/

namespace SchcCoreconf

open Fallible

-- ---------------------------------------------------------------------------
-- Traffic
-- ---------------------------------------------------------------------------

def CoreOutput.isTraffic : CoreOutput → Bool
  | .sent _ | .written _ => true
  | .printed _ => false

namespace LoopRun

def traffic (run : LoopRun α) : List CoreOutput := run.outputs.filter CoreOutput.isTraffic

theorem andThen_ended (second : LoopRun α) (h : LoopRun.ended first = some result) :
    first.andThen second = first := by
  obtain ⟨outputs, ended⟩ := first
  cases h
  rfl

theorem andThen_open (second : LoopRun α) (h : LoopRun.ended first = none) :
    first.andThen second =
      { outputs := first.outputs ++ second.outputs, ended := second.ended } := by
  simp [andThen, h]

theorem traffic_andThen_open {second : LoopRun α} (h : LoopRun.ended first = none) :
    (first.andThen second).traffic = first.traffic ++ second.traffic := by
  simp [traffic, andThen_open second h]

@[simp] theorem traffic_ofError (debug : Bool) (error : CorePacketError) :
    (ofError debug error : LoopRun α).traffic = [] := by
  cases error with
  | drop error => rfl
  | expectedNonUdp error => cases debug <;> rfl
  | fatal error => rfl

/-- Runs of two loops with the same traffic, that go on both, or end both with one error. -/
structure Alike (run : LoopRun α) (other : LoopRun β) : Prop where
  traffic : run.traffic = other.traffic
  ended : (run.ended = none ∧ other.ended = none) ∨
    ∃ error, run.ended = some (.error error) ∧ other.ended = some (.error error)

theorem ofError_alike (debug : Bool) (error : CorePacketError) :
    Alike (ofError debug error : LoopRun α) (ofError debug error : LoopRun β) := by
  refine ⟨by simp, ?_⟩
  cases error with
  | drop error => exact .inl ⟨rfl, rfl⟩
  | expectedNonUdp error => exact .inl ⟨rfl, rfl⟩
  | fatal error => exact .inr ⟨error, rfl, rfl⟩

end LoopRun

-- ---------------------------------------------------------------------------
-- One frame
-- ---------------------------------------------------------------------------

section
variable {deps : Deps} {active : ActiveContext} {link : SchcLink} {debug : Bool}
  {prepared : PreparedManagementRequest}

/-- A frame at a core that waits: its response, or a frame the main loop takes as well, or
drops as well. -/
theorem processCoreRawFrame_waiting (deps : Deps) (active : ActiveContext)
    (link : SchcLink) (debug : Bool) (prepared : PreparedManagementRequest) (frame : Bytes) :
    (∃ code exchange error,
      processCoreRawFrame deps active link frame debug (some prepared) =
        .ok (.management code exchange) ∧
        processCoreRawFrame deps active link frame debug none = .error (.drop error)) ∨
    (∃ error error', processCoreRawFrame deps active link frame debug
      (some prepared) = .error (.drop error) ∧
      processCoreRawFrame deps active link frame debug none = .error (.drop error')) ∨
    (processCoreRawFrame deps active link frame debug (some prepared) =
        processCoreRawFrame deps active link frame debug none ∧
      ∀ code exchange,
        processCoreRawFrame deps active link frame debug none ≠
          .ok (.management code exchange)) := by
  cases hdecode : link.decode deps active frame with
  | error error => simp [processCoreRawFrame, hdecode, Except.mapError, bind, Except.bind]
  | ok decoded =>
    cases hprint : printReport deps .rx decoded.report debug with
    | error error => simp [processCoreRawFrame, hdecode, hprint, Except.mapError, bind, Except.bind]
    | ok printed =>
      cases hroute : decoded.route with
      | protectedManagement =>
        cases hvalid : validateManagementResponse prepared decoded <;>
          simp [processCoreRawFrame, processCoreApplication, hdecode, hprint, hroute,
            hvalid, Except.mapError, ensure, bind, Except.bind, pure, Except.pure]
      | application =>
        refine .inr (.inr ⟨?_, fun code exchange h => ?_⟩)
        · simp [processCoreRawFrame, hdecode, hprint, hroute, Except.mapError, bind, Except.bind]
        · obtain ⟨_, _, hnone, -⟩ := processCoreRawFrame_management h
          cases hnone

def Answers (deps : Deps) (active : ActiveContext) (link : SchcLink) (debug : Bool)
    (prepared : PreparedManagementRequest) (received : LinkReceive)
    (result : Nat × ManagementExchange) : Prop :=
  ∃ frame, received = .frame frame ∧
    processCoreRawFrame deps active link frame debug (some prepared) =
      .ok (.management result.1 result.2)

/-- The link gave no response and did not fail. -/
def GoesOn (deps : Deps) (active : ActiveContext) (link : SchcLink) (debug : Bool)
    (prepared : PreparedManagementRequest) (received : LinkReceive) : Prop :=
  (∀ result, ¬Answers deps active link debug prepared received result) ∧
    ∀ text, received ≠ .failed text

/-- A pass of the wait beside one of the main loop: it took the response, found the link
failed, or did what the main loop did. -/
inductive PassAgrees (deps : Deps) (active : ActiveContext) (link : SchcLink) (debug : Bool)
    (prepared : PreparedManagementRequest) (received : LinkReceive)
    (waited : LoopRun (Nat × ManagementExchange)) (main : LoopRun Unit) : Prop
  | answered : Answers deps active link debug prepared received result →
      waited.ended = some (.ok result) → main.ended = none → waited.traffic = main.traffic →
      PassAgrees deps active link debug prepared received waited main
  | linkFailed : received = .failed text →
      waited.ended = some (.error s!"receive management SCHC frame: {text}") → main.ended = none →
      waited.traffic = main.traffic →
      PassAgrees deps active link debug prepared received waited main
  | alike : waited.Alike main →
      (waited.ended = none → GoesOn deps active link debug prepared received) →
      PassAgrees deps active link debug prepared received waited main

theorem writeApplication_alike (debug : Bool) (write : Bytes → Except PacketDeviceError Nat)
    (packet : Bytes) :
    (writeApplication debug none write packet : LoopRun α).Alike
      (writeApplication debug none write packet : LoopRun β) := by
  unfold writeApplication
  split
  · exact ⟨rfl, .inl ⟨rfl, rfl⟩⟩
  · exact LoopRun.ofError_alike ..

theorem receive_agrees (input : CoreInput) :
    PassAgrees deps active link debug prepared input.received
      (receiveAwaited deps active link debug prepared input)
      (receiveCore deps active link debug false input) := by
  obtain ⟨read, send, received, write⟩ := input
  cases received with
  | quiet =>
    refine .alike ⟨rfl, .inl ⟨rfl, rfl⟩⟩ fun _ => ⟨fun result hanswers => ?_, fun _ => nofun⟩
    obtain ⟨_, ⟨⟩, -⟩ := hanswers
  | failed text => exact .linkFailed rfl rfl rfl rfl
  | frame frame =>
    rcases processCoreRawFrame_waiting deps active link debug prepared frame with
      ⟨code, exchange, error, hsome, hnone⟩ | ⟨error, error', hsome, hnone⟩ | ⟨hsame, hmanagement⟩
    · have hanswers : Answers deps active link debug prepared (.frame frame) (code, exchange) :=
        ⟨frame, rfl, hsome⟩
      refine .answered hanswers ?_ ?_ ?_
      · simp [receiveAwaited, hsome]
      · simp [receiveCore, hnone, LoopRun.ofError]
      · simp [receiveAwaited, receiveCore, hsome, hnone, LoopRun.traffic, LoopRun.ofError,
          CoreOutput.isTraffic]
    · refine .alike ⟨?_, .inl ?_⟩ fun _ => ⟨fun result hanswers => ?_, fun _ => nofun⟩
      · simp only [receiveAwaited, receiveCore, hsome, hnone, LoopRun.traffic_ofError]
      · simp [receiveAwaited, receiveCore, hsome, hnone, LoopRun.ofError]
      · obtain ⟨_, ⟨⟩, hanswer⟩ := hanswers
        cases hsome.symm.trans hanswer
    · refine .alike ?_ fun _ => ⟨fun result hanswers => ?_, fun _ => nofun⟩
      · simp only [receiveAwaited, receiveCore, hsame]
        cases hresult : processCoreRawFrame deps active link frame debug none with
        | error error => exact LoopRun.ofError_alike debug error
        | ok result =>
          cases result with
          | application packet => exact writeApplication_alike debug write packet
          | management code exchange => exact absurd hresult (hmanagement code exchange)
      · obtain ⟨_, ⟨⟩, hanswer⟩ := hanswers
        exact hmanagement _ _ (hsame.symm.trans hanswer)

theorem pollCoreTun_alike (input : CoreInput) :
    (pollCoreTun deps active link debug none input : LoopRun α).Alike
      (pollCoreTun deps active link debug none input : LoopRun β) := by
  unfold pollCoreTun
  split
  · next error _ => exact ⟨rfl, .inr ⟨error.text, rfl, rfl⟩⟩
  · exact ⟨rfl, .inl ⟨rfl, rfl⟩⟩
  · split
    · exact ⟨rfl, .inl ⟨rfl, rfl⟩⟩
    · exact LoopRun.ofError_alike ..

theorem PassAgrees.after {poll : LoopRun (Nat × ManagementExchange)} {poll' : LoopRun Unit}
    (hpoll : poll.Alike poll')
    (h : PassAgrees deps active link debug prepared received waited main) :
    PassAgrees deps active link debug prepared received (poll.andThen waited)
      (poll'.andThen main) := by
  rcases hpoll.ended with ⟨hopen, hopen'⟩ | ⟨error, hended, hended'⟩
  · have htraffic : waited.traffic = main.traffic →
        (poll.andThen waited).traffic = (poll'.andThen main).traffic := fun hsame => by
      rw [LoopRun.traffic_andThen_open hopen,
        LoopRun.traffic_andThen_open hopen', hpoll.traffic, hsame]
    have hends : (poll.andThen waited).ended = waited.ended ∧
        (poll'.andThen main).ended = main.ended := by
      rw [LoopRun.andThen_open waited hopen, LoopRun.andThen_open main hopen']
      exact ⟨rfl, rfl⟩
    cases h with
    | answered hanswers hwaited hmain hsame =>
      exact .answered hanswers (hends.1.trans hwaited) (hends.2.trans hmain) (htraffic hsame)
    | linkFailed hfailed hwaited hmain hsame =>
      exact .linkFailed hfailed (hends.1.trans hwaited) (hends.2.trans hmain) (htraffic hsame)
    | alike halike hnone =>
      refine .alike ⟨htraffic halike.traffic, ?_⟩ fun hwaited => hnone (hends.1.symm.trans hwaited)
      rw [hends.1, hends.2]
      exact halike.ended
  · rw [LoopRun.andThen_ended waited hended, LoopRun.andThen_ended main hended']
    refine .alike hpoll fun hopen => ?_
    cases hended.symm.trans hopen

-- ---------------------------------------------------------------------------
-- The wait
-- ---------------------------------------------------------------------------

/-- A pass that does not end the wait. -/
structure WaitInput.Passes (deps : Deps) (active : ActiveContext) (link : SchcLink) (debug : Bool)
    (prepared : PreparedManagementRequest) (input : WaitInput) : Prop where
  early : input.overdue = false
  received : GoesOn deps active link debug prepared input.devices.received
  late : input.overdueAfter = false

/-- How a pass ends the wait, and how the main loop ends in it, if it does. -/
inductive PassEnded (deps : Deps) (active : ActiveContext) (link : SchcLink) (debug : Bool)
    (prepared : PreparedManagementRequest) (last : WaitInput) :
    Option (Except String Unit) → Except String (Nat × ManagementExchange) → Prop
  | answered : Answers deps active link debug prepared last.devices.received result →
      PassEnded deps active link debug prepared last none (.ok result)
  | linkFailed : last.devices.received = .failed text →
      PassEnded deps active link debug prepared last none
        (.error s!"receive management SCHC frame: {text}")
  | overdue : GoesOn deps active link debug prepared last.devices.received →
      last.overdueAfter = true → PassEnded deps active link debug prepared last none waitTimeout
  | fatal : PassEnded deps active link debug prepared last (some (.error error)) (.error error)

/-- How a wait ends that took some passes and left the rest, and what the main loop makes of
the same: it goes on, was overdue before the next pass, or ended in the last. -/
inductive WaitEnded (deps : Deps) (active : ActiveContext) (link : SchcLink) (debug : Bool)
    (prepared : PreparedManagementRequest) (consumed rest : List WaitInput)
    (main : LoopRun Unit) : Option (Except String (Nat × ManagementExchange)) → Prop
  | waiting : main.ended = none →
      (∀ input ∈ consumed, input.Passes deps active link debug prepared) →
      WaitEnded deps active link debug prepared consumed rest main none
  | overdue : main.ended = none →
      (∀ input ∈ consumed, input.Passes deps active link debug prepared) →
      rest = next :: later → next.overdue = true →
      WaitEnded deps active link debug prepared consumed rest main (some waitTimeout)
  | inPass : consumed = before ++ [last] →
      (∀ input ∈ before, input.Passes deps active link debug prepared) → last.overdue = false →
      PassEnded deps active link debug prepared last main.ended result →
      WaitEnded deps active link debug prepared consumed rest main (some result)

theorem PassAgrees.ends {waited : LoopRun (Nat × ManagementExchange)} {last : WaitInput}
    (h : PassAgrees deps active link debug prepared last.devices.received waited main)
    (hwaited : waited.ended = some result) :
    waited.traffic = main.traffic ∧
      PassEnded deps active link debug prepared last main.ended result := by
  cases h with
  | answered hanswers hends hmain hsame =>
    cases hends.symm.trans hwaited
    rw [hmain]
    exact ⟨hsame, .answered hanswers⟩
  | linkFailed hfailed hends hmain hsame =>
    cases hends.symm.trans hwaited
    rw [hmain]
    exact ⟨hsame, .linkFailed hfailed⟩
  | alike halike _ =>
    rcases halike.ended with ⟨hopen, -⟩ | ⟨error, hends, hmain⟩
    · cases hopen.symm.trans hwaited
    · cases hends.symm.trans hwaited
      rw [hmain]
      exact ⟨halike.traffic, .fatal⟩

theorem PassAgrees.goes_on {waited : LoopRun (Nat × ManagementExchange)}
    (h : PassAgrees deps active link debug prepared received waited main)
    (hwaited : waited.ended = none) :
    main.ended = none ∧ waited.traffic = main.traffic ∧
      GoesOn deps active link debug prepared received := by
  cases h with
  | answered _ hends _ _ => cases hends.symm.trans hwaited
  | linkFailed _ hends _ _ => cases hends.symm.trans hwaited
  | alike halike hgoes =>
    rcases halike.ended with ⟨-, hmain⟩ | ⟨error, hends, -⟩
    · exact ⟨hmain, halike.traffic, hgoes hwaited⟩
    · cases hends.symm.trans hwaited

theorem WaitEnded.cons {iteration main : LoopRun Unit} {input : WaitInput}
    (hopen : iteration.ended = none) (hpasses : input.Passes deps active link debug prepared)
    (h : WaitEnded deps active link debug prepared consumed rest main ended) :
    WaitEnded deps active link debug prepared (input :: consumed) rest
      (iteration.andThen main) ended := by
  have hended : (iteration.andThen main).ended = main.ended := by
    rw [LoopRun.andThen_open main hopen]
  have hcons (inputs : List WaitInput)
      (hinputs : ∀ other ∈ inputs, other.Passes deps active link debug prepared) :
      ∀ other ∈ input :: inputs, other.Passes deps active link debug prepared :=
    List.forall_mem_cons.mpr ⟨hpasses, hinputs⟩
  cases h with
  | waiting hmain hothers => exact .waiting (hended.trans hmain) (hcons _ hothers)
  | overdue hmain hothers hrest hnext =>
    exact .overdue (hended.trans hmain) (hcons _ hothers) hrest hnext
  | inPass hsplit hbefore hearly hends =>
    rw [← hended] at hends
    exact .inPass (congrArg (input :: ·) hsplit) (hcons _ hbefore) hearly hends

theorem coreLoop_one (deps : Deps) (active : ActiveContext) (link : SchcLink) (debug : Bool)
    (input : CoreInput) :
    (coreLoop deps active link debug false [input]).traffic =
        (coreIteration deps active link debug false input).traffic ∧
      (coreLoop deps active link debug false [input]).ended =
        (coreIteration deps active link debug false input).ended := by
  simp only [coreLoop]
  cases hended : (coreIteration deps active link debug false input).ended with
  | none =>
    rw [LoopRun.traffic_andThen_open hended, LoopRun.andThen_open _ hended]
    exact ⟨by simp [LoopRun.traffic], rfl⟩
  | some result =>
    rw [LoopRun.andThen_ended _ hended]
    exact ⟨rfl, hended⟩

/-- A wait that took some passes did on them what the main loop does. -/
structure WaitAgrees (deps : Deps) (active : ActiveContext) (link : SchcLink) (debug : Bool)
    (prepared : PreparedManagementRequest) (inputs consumed rest : List WaitInput)
    (waited : LoopRun (Nat × ManagementExchange)) : Prop where
  split : inputs = consumed ++ rest
  traffic : waited.traffic =
    (coreLoop deps active link debug false (consumed.map (·.devices))).traffic
  ended : WaitEnded deps active link debug prepared consumed rest
    (coreLoop deps active link debug false (consumed.map (·.devices))) waited.ended
  unread : waited.ended = none → rest = []

theorem WaitAgrees.inPass {waited : LoopRun (Nat × ManagementExchange)}
    (hearly : input.overdue = false)
    (htraffic : waited.traffic = (coreIteration deps active link debug false input.devices).traffic)
    (hwaited : waited.ended = some result)
    (hends : PassEnded deps active link debug prepared input
      (coreIteration deps active link debug false input.devices).ended result) :
    WaitAgrees deps active link debug prepared (input :: inputs) [input] inputs waited := by
  obtain ⟨hone, hended⟩ := coreLoop_one deps active link debug input.devices
  refine ⟨rfl, htraffic.trans hone.symm, ?_, fun hopen => nomatch hwaited.symm.trans hopen⟩
  rw [hwaited]
  rw [← hended] at hends
  exact .inPass (List.nil_append _).symm (fun _ hmem => absurd hmem List.not_mem_nil) hearly hends

theorem waitLoop_agrees (deps : Deps) (active : ActiveContext) (link : SchcLink) (debug : Bool)
    (prepared : PreparedManagementRequest) (inputs : List WaitInput) :
    ∃ consumed rest, WaitAgrees deps active link debug prepared inputs consumed rest
      (waitLoop deps active link debug prepared inputs) := by
  induction inputs with
  | nil =>
    exact ⟨[], [], rfl, rfl, .waiting rfl fun _ hmem => absurd hmem List.not_mem_nil, fun _ => rfl⟩
  | cons input inputs ih =>
    rw [waitLoop]
    cases hearly : input.overdue with
    | true =>
      exact ⟨[], input :: inputs, rfl, rfl,
        .overdue rfl (fun _ hmem => absurd hmem List.not_mem_nil) rfl hearly, nofun⟩
    | false =>
      rw [if_neg Bool.false_ne_true]
      have hpass : PassAgrees deps active link debug prepared input.devices.received _
          (coreIteration deps active link debug false input.devices) :=
        (receive_agrees input.devices).after (pollCoreTun_alike input.devices)
      generalize (pollCoreTun deps active link debug none input.devices).andThen
        (receiveAwaited deps active link debug prepared input.devices) = waited at hpass
      cases hwaited : waited.ended with
      | some result =>
        obtain ⟨htraffic, hends⟩ := hpass.ends hwaited
        rw [LoopRun.andThen_ended _ hwaited]
        exact ⟨[input], inputs, .inPass hearly htraffic hwaited hends⟩
      | none =>
        obtain ⟨hmain, htraffic, hgoes⟩ := hpass.goes_on hwaited
        cases hlate : input.overdueAfter with
        | true =>
          rw [if_pos rfl]
          have hends : PassEnded deps active link debug prepared input
              (coreIteration deps active link debug false input.devices).ended waitTimeout := by
            rw [hmain]
            exact .overdue hgoes hlate
          refine ⟨[input], inputs, .inPass hearly ?_ ?_ hends⟩
          · rw [LoopRun.traffic_andThen_open hwaited, htraffic]
            exact List.append_nil _
          · rw [LoopRun.andThen_open _ hwaited]
        | false =>
          rw [if_neg Bool.false_ne_true]
          obtain ⟨consumed, rest, hsplit, htraffics, hends, hrest⟩ := ih
          refine ⟨input :: consumed, rest, congrArg (input :: ·) hsplit, ?_, ?_, ?_⟩
          · rw [LoopRun.traffic_andThen_open hwaited, List.map_cons, coreLoop,
              LoopRun.traffic_andThen_open hmain, htraffic, htraffics]
          · rw [LoopRun.andThen_open _ hwaited, List.map_cons, coreLoop]
            exact hends.cons hmain ⟨hearly, hgoes, hlate⟩
          · rw [LoopRun.andThen_open _ hwaited]
            exact hrest

-- ---------------------------------------------------------------------------
-- The main loop with `--once`
-- ---------------------------------------------------------------------------

/-- One run ends where the other first sends or writes, and is the same before. -/
structure LoopRun.Once (once run : LoopRun Unit) : Prop where
  traffic : once.traffic = run.traffic.take 1
  ended : once.ended = if run.traffic = [] then run.ended else some (.ok ())

theorem LoopRun.Once.same (h : run.traffic = []) : LoopRun.Once run run :=
  ⟨by rw [h, List.take_nil], by rw [if_pos h]⟩

theorem LoopRun.Once.andThen {once run once' run' : LoopRun Unit} (h : LoopRun.Once once run)
    (h' : LoopRun.Once once' run') : LoopRun.Once (once.andThen once') (run.andThen run') := by
  obtain ⟨htraffic, hended⟩ := h
  cases hrun : run.traffic with
  | nil =>
    rw [hrun, List.take_nil] at htraffic
    rw [if_pos hrun] at hended
    cases hopen : run.ended with
    | some result =>
      rw [LoopRun.andThen_ended _ (hended.trans hopen), LoopRun.andThen_ended _ hopen]
      exact ⟨by rw [htraffic, hrun, List.take_nil], by rw [hended, if_pos hrun]⟩
    | none =>
      have hafter : (run.andThen run').traffic = run'.traffic := by
        rw [LoopRun.traffic_andThen_open hopen, hrun, List.nil_append]
      refine ⟨?_, ?_⟩
      · rw [LoopRun.traffic_andThen_open (hended.trans hopen), htraffic, List.nil_append, hafter]
        exact h'.traffic
      · rw [LoopRun.andThen_open _ (hended.trans hopen), hafter, LoopRun.andThen_open _ hopen]
        exact h'.ended
  | cons first rest =>
    rw [if_neg (by rw [hrun]; exact List.cons_ne_nil _ _)] at hended
    obtain ⟨others, hothers⟩ : ∃ others, (run.andThen run').traffic = first :: others := by
      cases hopen : run.ended with
      | some result => exact ⟨rest, by rw [LoopRun.andThen_ended _ hopen, hrun]⟩
      | none => exact ⟨rest ++ run'.traffic, by rw [LoopRun.traffic_andThen_open hopen, hrun]; rfl⟩
    rw [LoopRun.andThen_ended _ hended]
    refine ⟨?_, ?_⟩
    · rw [htraffic, hrun, hothers]
      rfl
    · rw [hended, hothers, if_neg (List.cons_ne_nil _ _)]

theorem pollCoreTun_once (input : CoreInput) :
    LoopRun.Once (pollCoreTun deps active link debug (onceEnded true) input)
      (pollCoreTun deps active link debug (onceEnded false) input) := by
  unfold pollCoreTun
  split
  · exact .same rfl
  · exact .same rfl
  · split
    · exact ⟨rfl, rfl⟩
    · exact .same (LoopRun.traffic_ofError ..)

theorem receiveCore_once (input : CoreInput) :
    LoopRun.Once (receiveCore deps active link debug true input)
      (receiveCore deps active link debug false input) := by
  unfold receiveCore
  split
  · exact .same rfl
  · exact .same rfl
  · split
    · unfold writeApplication
      split
      · exact ⟨rfl, rfl⟩
      · exact .same (LoopRun.traffic_ofError ..)
    · exact .same rfl
    · exact .same (LoopRun.traffic_ofError ..)

theorem coreLoop_once (deps : Deps) (active : ActiveContext) (link : SchcLink) (debug : Bool)
    (inputs : List CoreInput) :
    LoopRun.Once (coreLoop deps active link debug true inputs)
      (coreLoop deps active link debug false inputs) := by
  induction inputs with
  | nil => exact .same rfl
  | cons input inputs ih =>
    exact ((pollCoreTun_once input).andThen (receiveCore_once input)).andThen ih

/-- A wait sends the request, if the socket takes it, and then whatever the main loop would
send and write. It ends with the first response to the request, at the deadline, where the
link fails, or where the main loop ends; with `--once` that ends with the first of these
frames and packets. -/
theorem wait_forwards_as_main (deps : Deps) (active : ActiveContext)
    (link : SchcLink) (debug : Bool) (prepared : PreparedManagementRequest)
    (socket : Bytes → Except String Nat) (inputs : List WaitInput) :
    let run := waitManagementResponse deps active link debug prepared socket inputs
    (∃ error, sendBytes socket prepared.frame.bytes = .error error ∧ run.outputs = [] ∧
      run.ended = some (.error s!"send management SCHC frame: {error.text deps.rschc}")) ∨
    (sendBytes socket prepared.frame.bytes = .ok () ∧
      ∃ consumed rest, inputs = consumed ++ rest ∧
        run.traffic = .sent prepared.frame.bytes ::
          (coreLoop deps active link debug false (consumed.map (·.devices))).traffic ∧
        WaitEnded deps active link debug prepared consumed rest
          (coreLoop deps active link debug false (consumed.map (·.devices))) run.ended ∧
        (run.ended = none → rest = []) ∧
        LoopRun.Once (coreLoop deps active link debug true (consumed.map (·.devices)))
          (coreLoop deps active link debug false (consumed.map (·.devices)))) := by
  intro run
  cases hsent : sendBytes socket prepared.frame.bytes with
  | error error =>
    refine .inl ⟨error, rfl, ?_⟩
    simp [run, waitManagementResponse, hsent]
  | ok sent =>
    obtain ⟨consumed, rest, hsplit, htraffic, hended, hrest⟩ :=
      waitLoop_agrees deps active link debug prepared inputs
    have hrun : run = LoopRun.andThen { outputs := [.sent prepared.frame.bytes], ended := none }
        (waitLoop deps active link debug prepared inputs) := by
      simp [run, waitManagementResponse, hsent]
    refine .inr ⟨rfl, consumed, rest, hsplit, ?_, ?_, ?_, coreLoop_once ..⟩
    · rw [hrun, LoopRun.traffic_andThen_open rfl, htraffic]
      rfl
    · rw [hrun, LoopRun.andThen_open _ rfl]
      exact hended
    · rw [hrun, LoopRun.andThen_open _ rfl]
      exact hrest

end

end SchcCoreconf
