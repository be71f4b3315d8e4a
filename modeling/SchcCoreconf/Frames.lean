import SchcCoreconf.Exchange
import SchcCoreconf.Report

/-!
# Frames at the device and at the core

`receive_device_frame` and `process_core_raw_frame`: one received frame is
decoded, reported, and handled by its route. Whatever is wrong with it should
drop it; a `Fatal` outcome ends the process. Writes to the TUN, sends and console
output are taken to succeed, and appear as what was written or sent.
-/

namespace SchcCoreconf

open Fallible

/-- `DevicePacketError` and `CorePacketError`, which are alike. -/
inductive PacketOutcomeError
  | drop (message : String)
  | expectedNonUdp (message : String)
  | fatal (message : String)
  deriving DecidableEq, Repr

abbrev DevicePacketError := PacketOutcomeError
abbrev CorePacketError := PacketOutcomeError

/-- The outcome ends the process. -/
def PacketOutcomeError.Fatal (result : Except PacketOutcomeError α) : Prop :=
  ∃ message, result = .error (.fatal message)

-- ---------------------------------------------------------------------------
-- The device
-- ---------------------------------------------------------------------------

inductive DeviceEffect
  | duplicate
  | respond (frame : SchcFrame)
  | application (packet : Bytes)
  deriving DecidableEq, Repr

def managementResponse (deps : Deps) (answer : Except InspectionError Bytes) :
    Except DevicePacketError Ipv6UdpCoapPacket := do
  let datagram ← answer.mapError fun error =>
    .drop s!"handle management request: {error.text deps.rschc}"
  (deps.rschc.newCoapPacket deviceLogicalAddress coreLogicalAddress managementPort managementPort
    datagram).mapError fun error =>
      .drop s!"construct management response: {deps.rschc.packetErrorText error}"

/-- The response frame, encoded over the context the request has left. -/
def sendManagementResponse (deps : Deps) (active : ActiveContext) (link : SchcLink) (debug : Bool)
    (answer : Except InspectionError Bytes) : Except DevicePacketError DeviceEffect := do
  let response ← managementResponse deps answer
  let encoded ← (link.encode deps active .management response).mapError fun error =>
    .drop s!"encode management response: {error.text deps.rschc}"
  (printReport deps .tx encoded.report debug).mapError .fatal
  return .respond encoded.frame

def handleDeviceRequest (deps : Deps) (link : SchcLink) (service : InspectionService)
    (state : BackendState) (debug : Bool) (datagram : Bytes) :
    Outcome BackendState (Except DevicePacketError DeviceEffect) :=
  if isDuplicateRuleDatagram deps.coap datagram then
    -- success and failure of a duplicate are both reported on the console
    let outcome := service.handleDatagramNoResponse deps state datagram
    { result := outcome.result.map fun _ => .ok .duplicate, state := outcome.state }
  else
    let outcome := service.handleDatagram deps state datagram
    { result := outcome.result.map (sendManagementResponse deps outcome.state.active link debug)
      state := outcome.state }

def receiveDeviceFrame (deps : Deps) (link : SchcLink) (service : InspectionService)
    (state : BackendState) (frame : Bytes) (debug : Bool) :
    Outcome BackendState (Except DevicePacketError DeviceEffect) :=
  match link.decode deps state.active frame with
  | .error error => InspectionService.answer state
      (.error (.drop s!"drop malformed SCHC frame: {error.text deps.rschc}"))
  | .ok decoded =>
    match printReport deps .rx decoded.report debug with
    | .error error => InspectionService.answer state (.error (.fatal error))
    | .ok () =>
      match decoded.route with
      | .protectedManagement =>
        if oriented decoded.packet.udp coreLogicalAddress deviceLogicalAddress managementPort then
          handleDeviceRequest deps link service state debug decoded.packet.coapDatagram
        else InspectionService.answer state
          (.error (.drop "drop unsupported management orientation"))
      | .application => InspectionService.answer state
          (if oriented decoded.packet.udp coreLogicalAddress
            deviceLogicalAddress applicationPort then .ok (.application decoded.packet.udp.bytes)
          else .error (.drop "drop unsupported application orientation"))

-- ---------------------------------------------------------------------------
-- The core
-- ---------------------------------------------------------------------------

inductive CoreFrameResult
  | application (packet : Bytes)
  | management (code : Nat) (exchange : ManagementExchange)
  deriving DecidableEq, Repr

/-- A frame at the core that is no response to an outstanding request. -/
def processCoreApplication (decoded : LinkDecoded) : Except CorePacketError CoreFrameResult := do
  ensure (decoded.route = .application) (.drop "drop unrelated protected SCHC frame")
  ensure (oriented decoded.packet.udp deviceLogicalAddress coreLogicalAddress applicationPort)
    (.drop "drop unsupported SCHC application orientation")
  return .application decoded.packet.udp.bytes

def processCoreRawFrame (deps : Deps) (active : ActiveContext) (link : SchcLink) (frame : Bytes)
    (debug : Bool) (prepared : Option PreparedManagementRequest) :
    Except CorePacketError CoreFrameResult := do
  let decoded ← (link.decode deps active frame).mapError fun error =>
    .drop s!"drop malformed SCHC frame: {error.text deps.rschc}"
  (printReport deps .rx decoded.report debug).mapError .fatal
  match prepared, decoded.route with
  | some prepared, .protectedManagement => do
    let (code, exchange) ← (validateManagementResponse prepared decoded).mapError fun error =>
      .drop s!"ignore unrelated management response: {error.text deps.rschc}"
    return .management code exchange
  | _, _ => processCoreApplication decoded

end SchcCoreconf
