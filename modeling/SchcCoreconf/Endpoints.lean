import SchcCoreconf.Frames

/-!
# The loops of the endpoints

Each endpoint polls its TUN, then its link: a packet of the TUN goes out as a frame,
a frame of the link comes out as a packet. While the core waits for a management
response it runs a loop of its own, that does the same in between. What the devices
give and take in an iteration is its input, what it sends, writes and prints its
output. With `--once` the main loop ends with its first frame or packet.
-/

namespace SchcCoreconf

open Fallible

-- ---------------------------------------------------------------------------
-- The packet device and the link
-- ---------------------------------------------------------------------------

inductive PacketDeviceError
  | wouldBlock (text : String)
  | other (text : String)
  deriving DecidableEq, Repr

def PacketDeviceError.text : PacketDeviceError → String
  | .wouldBlock text | .other text => text

inductive PacketPoll
  | idle
  | packet (bytes : Bytes)
  deriving DecidableEq, Repr

inductive PacketLoopError
  | device (error : PacketDeviceError)
  | shortWrite (expected actual : Nat)
  deriving DecidableEq, Repr

def PacketLoopError.text : PacketLoopError → String
  | .device error => s!"TUN packet-device operation failed: {error.text}"
  | .shortWrite expected actual =>
    s!"short TUN packet write: expected {expected} bytes, wrote {actual}"

namespace PacketEventLoop

def poll : Except PacketDeviceError Bytes → Except PacketLoopError PacketPoll
  | .ok packet => .ok (.packet packet)
  | .error (.wouldBlock _) => .ok .idle
  | .error error => .error (.device error)

def write (device : Bytes → Except PacketDeviceError Nat) (packet : Bytes) :
    Except PacketLoopError Unit := do
  let written ← (device packet).mapError .device
  ensure (written = packet.length) (.shortWrite packet.length written)

end PacketEventLoop

/-- What the link's `recv` gives: a frame, nothing within its timeout, or an error. -/
inductive LinkReceive
  | frame (bytes : Bytes)
  | quiet
  | failed (text : String)
  deriving DecidableEq, Repr

def sendBytes (socket : Bytes → Except String Nat) (bytes : Bytes) : Except LinkError Unit := do
  ensure (!bytes.isEmpty) .emptyFrame
  let sent ← (socket bytes).mapError .io
  ensure (sent = bytes.length) (.shortSend bytes.length sent)

def takesAll (bytes : Bytes) : Except ε Nat := .ok bytes.length

-- ---------------------------------------------------------------------------
-- A packet of the TUN
-- ---------------------------------------------------------------------------

def classifyTunPacketError (rschc : RSchc) : PacketError → PacketOutcomeError
  | .unsupportedNextHeader nextHeader =>
    .expectedNonUdp s!"ignore non-UDP TUN packet: IPv6 next header {nextHeader}"
  | error => .drop s!"drop malformed TUN packet: {rschc.packetErrorText error}"

/-- A packet of the TUN from one logical endpoint to the other, as the frame that is sent. -/
def processTunPacket (deps : Deps) (active : ActiveContext) (link : SchcLink)
    (source destination : Bytes) (unsupported subject : String) (socket : Bytes → Except String Nat)
    (bytes : Bytes) (debug : Bool) : Except PacketOutcomeError Bytes := do
  let packet ← (deps.rschc.parseCoapPacket bytes).mapError (classifyTunPacketError deps.rschc)
  ensure (oriented packet.udp source destination applicationPort) (.drop unsupported)
  let encoded ← (link.encode deps active .application packet).mapError fun error =>
    .drop s!"encode TUN application {subject}: {error.text deps.rschc}"
  (printReport deps .tx encoded.report debug).mapError .fatal
  (sendBytes socket encoded.frame.bytes).mapError fun error =>
    .fatal s!"send application SCHC frame: {error.text deps.rschc}"
  return encoded.frame.bytes

def processCoreTunPacket (deps : Deps) (active : ActiveContext) (link : SchcLink)
    (socket : Bytes → Except String Nat) (bytes : Bytes) (debug : Bool) :
    Except CorePacketError Bytes :=
  processTunPacket deps active link coreLogicalAddress deviceLogicalAddress
    "drop unsupported TUN application orientation" "packet" socket bytes debug

def sendDeviceTunResponse (deps : Deps) (active : ActiveContext) (link : SchcLink)
    (socket : Bytes → Except String Nat) (bytes : Bytes) (debug : Bool) :
    Except DevicePacketError Bytes :=
  processTunPacket deps active link deviceLogicalAddress coreLogicalAddress
    "drop unsupported TUN response orientation" "response" socket bytes debug

-- ---------------------------------------------------------------------------
-- The loops of the core
-- ---------------------------------------------------------------------------

inductive CoreOutput
  | sent (frame : Bytes)
  | written (packet : Bytes)
  | printed (line : String)
  deriving DecidableEq, Repr

/-- What the TUN and the link give in one iteration, and what they do with what they are given. -/
structure CoreInput where
  read : Except PacketDeviceError Bytes
  send : Bytes → Except String Nat
  received : LinkReceive
  write : Bytes → Except PacketDeviceError Nat

/-- An iteration or a loop: its outputs, and how it ended, if it did. -/
structure LoopRun (α : Type) where
  outputs : List CoreOutput
  ended : Option (Except String α)

namespace LoopRun

/-- The second part runs where the first has not ended. -/
def andThen (first second : LoopRun α) : LoopRun α :=
  match first.ended with
  | some result => { outputs := first.outputs, ended := some result }
  | none => { outputs := first.outputs ++ second.outputs, ended := second.ended }

/-- What an iteration makes of the error of a packet or frame. -/
def ofError (debug : Bool) : CorePacketError → LoopRun α
  | .drop error => { outputs := [.printed s!"ERROR {error}"], ended := none }
  | .expectedNonUdp error =>
    { outputs := if debug then [.printed s!"DEBUG {error}"] else [], ended := none }
  | .fatal error => { outputs := [], ended := some (.error error) }

end LoopRun

/-- How the main loop ends with a frame it sent or a packet it wrote: with `--once` it does. -/
def onceEnded (once : Bool) : Option (Except String Unit) := if once then some (.ok ()) else none

/-- The poll of the TUN, which both loops begin with; a frame that was sent ends the loop so. -/
def pollCoreTun (deps : Deps) (active : ActiveContext) (link : SchcLink) (debug : Bool)
    (completed : Option (Except String α)) (input : CoreInput) : LoopRun α :=
  match PacketEventLoop.poll input.read with
  | .error error => { outputs := [], ended := some (.error error.text) }
  | .ok .idle => { outputs := [], ended := none }
  | .ok (.packet bytes) =>
    match processCoreTunPacket deps active link input.send bytes debug with
    | .ok frame => { outputs := [.sent frame], ended := completed }
    | .error error => .ofError debug error

def writeApplication (debug : Bool) (completed : Option (Except String α))
    (write : Bytes → Except PacketDeviceError Nat) (packet : Bytes) : LoopRun α :=
  match PacketEventLoop.write write packet with
  | .ok () => { outputs := [.written packet], ended := completed }
  | .error error => .ofError debug (.fatal s!"write application packet to TUN: {error.text}")

def receiveCore (deps : Deps) (active : ActiveContext) (link : SchcLink) (debug once : Bool)
    (input : CoreInput) : LoopRun Unit :=
  match input.received with
  | .quiet => { outputs := [], ended := none }
  | .failed error => { outputs := [.printed s!"ERROR receive SCHC frame: {error}"], ended := none }
  | .frame frame =>
    match processCoreRawFrame deps active link frame debug none with
    | .ok (.application packet) => writeApplication debug (onceEnded once) input.write packet
    | .ok (.management ..) => { outputs := [], ended := none }
    | .error error => .ofError debug error

/-- One iteration of the main loop, between commands. -/
def coreIteration (deps : Deps) (active : ActiveContext) (link : SchcLink) (debug once : Bool)
    (input : CoreInput) : LoopRun Unit :=
  (pollCoreTun deps active link debug (onceEnded once) input).andThen
    (receiveCore deps active link debug once input)

def coreLoop (deps : Deps) (active : ActiveContext) (link : SchcLink) (debug once : Bool) :
    List CoreInput → LoopRun Unit
  | [] => { outputs := [], ended := none }
  | input :: rest => (coreIteration deps active link debug once input).andThen
      (coreLoop deps active link debug once rest)

def receiveAwaited (deps : Deps) (active : ActiveContext) (link : SchcLink) (debug : Bool)
    (prepared : PreparedManagementRequest) (input : CoreInput) :
    LoopRun (Nat × ManagementExchange) :=
  match input.received with
  | .quiet => { outputs := [], ended := none }
  | .failed error =>
    { outputs := [], ended := some (.error s!"receive management SCHC frame: {error}") }
  | .frame frame =>
    match processCoreRawFrame deps active link frame debug (some prepared) with
    | .ok (.application packet) => writeApplication debug none input.write packet
    | .ok (.management code exchange) => { outputs := [], ended := some (.ok (code, exchange)) }
    | .error error => .ofError debug error

/-- One pass of a wait: the deadline is looked at before and after. -/
structure WaitInput where
  overdue : Bool
  devices : CoreInput
  overdueAfter : Bool

def operationTimeout : Nat := 30000

def waitTimeout : Except String α :=
  .error s!"management response timeout after {operationTimeout} ms"

def waitLoop (deps : Deps) (active : ActiveContext) (link : SchcLink) (debug : Bool)
    (prepared : PreparedManagementRequest) : List WaitInput → LoopRun (Nat × ManagementExchange)
  | [] => { outputs := [], ended := none }
  | input :: rest =>
    if input.overdue then { outputs := [], ended := some waitTimeout }
    else
      ((pollCoreTun deps active link debug none input.devices).andThen
          (receiveAwaited deps active link debug prepared input.devices)).andThen
        (if input.overdueAfter then { outputs := [], ended := some waitTimeout }
        else waitLoop deps active link debug prepared rest)

def waitManagementResponse (deps : Deps) (active : ActiveContext) (link : SchcLink) (debug : Bool)
    (prepared : PreparedManagementRequest) (socket : Bytes → Except String Nat)
    (inputs : List WaitInput) : LoopRun (Nat × ManagementExchange) :=
  match sendBytes socket prepared.frame.bytes with
  | .error error =>
    { outputs := [], ended := some
        (.error s!"send management SCHC frame: {error.text deps.rschc}") }
  | .ok () =>
    LoopRun.andThen { outputs := [.sent prepared.frame.bytes], ended := none }
      (waitLoop deps active link debug prepared inputs)

end SchcCoreconf
