import BtClient.Json
import BtClient.Path
import BtClient.PeerStats

/-!
# The configuration of a run and its event log

`RuntimeConfig` and `OutputPaths` of `logging.hpp`, and the events that
`EventWriter` appends to the log. Each line of the log is one JSON object; the
log is kept as the list of these objects. `dump` throws for a string that is not
UTF-8, and then the line is not written.
-/

namespace BtClient

/-- `kClientVersion` -/
def clientVersion : String := "btclient/0.2.0"

structure RuntimeConfig where
  torrentSource : ByteString := []
  torrentSourceType : ByteString := []
  runId : ByteString := []
  sessionId : ByteString := []
  nodeRole : ByteString := "unknown"
  announceIp : ByteString := []
  clientLabel : ByteString := []
  profileId : ByteString := []
  destinationUrl : ByteString := []
  artifactsDir : Path := "./artifacts"
  savePath : Path := "./data"
  runtimeSeconds : Int := 60
  listenPort : Int := 51413
  snapshotIntervalMs : Int := 1000
  consoleStatus : Bool := true
  enableDht : Bool := false
  enableLsd : Bool := false
  enableUpnp : Bool := false
  enableNatpmp : Bool := false

structure OutputPaths where
  artifactDir : Path
  stateJsonPath : Path
  eventLogPath : Path
  summaryJsonPath : Path
  deriving DecidableEq

/-- The exceptions: those the client throws, with their text, and those of the
libraries it calls. -/
inductive Failure where
  | runtimeError (message : ByteString)
  | invalidArgument (message : ByteString)
  | invalidUtf8
  | jsonError
  | filesystemError
  deriving DecidableEq

theorem exists_of_isOk {α : Type} {x : Except Failure α} (h : x.isOk = true) :
    ∃ a, x = .ok a := by
  cases x with
  | ok a => exact ⟨a, rfl⟩
  | error failure => cases h

theorem exists_of_any {α : Type} {x : Except Failure α} {q : α → Bool}
    (h : x.toOption.any q = true) : ∃ a, x = .ok a ∧ q a = true := by
  cases x with
  | ok a => exact ⟨a, rfl, h⟩
  | error failure => cases h

/-- The part of `EventWriter` that determines the lines it writes, with the lines
written so far. -/
structure EventWriter where
  config : RuntimeConfig
  infoHash : ByteString := []
  lines : List Json := []

namespace EventWriter

def setInfoHash (infoHash : ByteString) (writer : EventWriter) : EventWriter :=
  { writer with infoHash := infoHash }

/-- The object that `write_event` writes as one line. -/
def event (writer : EventWriter) (ts : TimestampPair) (eventType : String)
    (payload : Json) (peerContext : Option EventPeerContext) : Json :=
  let event := Json.Members.ofList [
    ("utc_ts", Json.text ts.utcTs),
    ("mono_ns", .integer ts.monoNs),
    ("run_id", .string writer.config.runId),
    ("session_id", .string writer.config.sessionId),
    ("event_type", Json.text eventType),
    ("node_role", .string writer.config.nodeRole),
    ("torrent_source", .string writer.config.torrentSource),
    ("info_hash", if writer.infoHash.isEmpty then .null else .string writer.infoHash)]
  let event := match peerContext with
    | none => event
    | some context =>
        ((((event.set "peer_key" (Json.text context.peerKey)).set
          "peer_ip" (Json.text context.peerIp)).set
          "peer_port" (.integer context.peerPort)).set
          "direction" (Json.text context.direction)).set
          "transport" (Json.text context.transport)
  .object (event.set "payload" payload)

/-- `write_event`, with the timestamp it captures. -/
def writeEvent (ts : TimestampPair) (eventType : String) (payload : Json)
    (peerContext : Option EventPeerContext) (writer : EventWriter) :
    Except Failure EventWriter :=
  let event := writer.event ts eventType payload peerContext
  if event.isUtf8 then .ok { writer with lines := writer.lines ++ [event] }
  else .error .invalidUtf8

end EventWriter

end BtClient
