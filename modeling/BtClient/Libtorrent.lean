import Mathlib

/-!
# What the client reads from libtorrent

The data of libtorrent that the client looks at, with nothing of how libtorrent
produces it: endpoints, peer ids, the bit flags and counters of a `peer_info`,
the status of a torrent, and the alerts the client dispatches on. A C++ string
is a sequence of bytes (`ByteString`); text that the program itself spells out
is a `String` and becomes bytes through its UTF-8 encoding. Addresses are an
arbitrary type with the text that `address::to_string` prints for them.
-/

namespace BtClient

/-- A `std::string`: any sequence of bytes, not necessarily UTF-8. -/
abbrev ByteString := List UInt8

namespace ByteString

/-- The bytes of a text the program spells out. -/
def ofString (s : String) : ByteString := s.toUTF8.data.toList

instance : Coe String ByteString := ⟨ofString⟩

/-- Being the UTF-8 encoding of some text. -/
def IsValidUtf8 (b : ByteString) : Prop := (ByteArray.mk b.toArray).IsValidUTF8

instance (b : ByteString) : Decidable (IsValidUtf8 b) :=
  inferInstanceAs (Decidable (ByteArray.mk b.toArray).IsValidUTF8)

theorem isValidUtf8_ofString (s : String) : IsValidUtf8 (ofString s) := by
  have harray : (ByteArray.mk (ofString s).toArray) = s.toUTF8 := by
    simp [ofString]
  rw [IsValidUtf8, harray]
  exact s.isValidUTF8

/-- The text that the bytes encode, if they are UTF-8. -/
def toText? (b : ByteString) : Option String :=
  if h : IsValidUtf8 b then some (String.fromUTF8 (ByteArray.mk b.toArray) h) else none

@[simp] theorem toText?_ofString (s : String) : toText? (ofString s) = some s := by
  rw [toText?, dif_pos (isValidUtf8_ofString s)]
  obtain ⟨⟨⟨l⟩⟩, hs⟩ := s
  rfl

theorem ofString_eq_nil {s : String} (h : ofString s = []) : s = "" := by
  have htext := toText?_ofString s
  rw [h] at htext
  exact Option.some.inj (htext.symm.trans (toText?_ofString ""))

end ByteString

/-- The text of an address, as `address::to_string` prints it; different addresses
have different texts. -/
class Address (A : Type) where
  toString : A → String
  toString_injective : Function.Injective toString

/-- `tcp::endpoint` -/
structure Endpoint (A : Type) where
  address : A
  port : UInt16
  deriving DecidableEq

/-- `peer_id`: twenty bytes. -/
abbrev PeerId := Vector UInt8 20

def PeerId.isAllZeros (pid : PeerId) : Bool :=
  pid.toList.all (· == 0)

inductive SocketType where
  | tcp | socks5 | http | utp | i2p | tcpSsl | socks5Ssl | httpSsl | utpSsl
  deriving DecidableEq, Repr

/-- `torrent_status::state_t` -/
inductive TorrentState where
  | queuedForChecking
  | checkingFiles
  | downloadingMetadata
  | downloading
  | finished
  | seeding
  | allocating
  | checkingResumeData
  deriving DecidableEq, Repr

/-- The flags of `peer_info::flags` that the client tests. -/
inductive PeerFlag where
  | interesting | choked | remoteInterested | remoteChoked | supportsExtensions
  | outgoingConnection | handshake | connecting | onParole | seed
  | optimisticUnchoke | snubbed | uploadOnly | endgameMode | holepunched
  | i2pSocket | utpSocket | sslSocket | rc4Encrypted | plaintextEncrypted
  deriving DecidableEq, Repr

/-- The flags of `peer_info::source`. -/
inductive PeerSource where
  | tracker | dht | pex | lsd | resumeData | incoming
  deriving DecidableEq, Repr

/-- `peer_info`, with the fields the client reads or logs. Durations are in
nanoseconds. -/
structure PeerInfo (A : Type) where
  ip : Endpoint A
  pid : PeerId := Vector.replicate 20 0
  client : ByteString := []
  flags : Finset PeerFlag := ∅
  source : Finset PeerSource := ∅
  totalDownload : Int := 0
  totalUpload : Int := 0
  payloadDownSpeed : Int := 0
  payloadUpSpeed : Int := 0
  downSpeed : Int := 0
  upSpeed : Int := 0
  downloadRatePeak : Int := 0
  uploadRatePeak : Int := 0
  downloadQueueLength : Int := 0
  uploadQueueLength : Int := 0
  timedOutRequests : Int := 0
  busyRequests : Int := 0
  requestsInBuffer : Int := 0
  queueBytes : Int := 0
  requestTimeout : Int := 0
  lastActive : Int := 0
  lastRequest : Int := 0
  downloadingPieceIndex : Int := -1
  downloadingBlockIndex : Int := -1
  downloadingProgress : Int := 0
  downloadingTotal : Int := 0

/-- `total_milliseconds` of a duration in nanoseconds. -/
def totalMilliseconds (duration : Int) : Int := duration.tdiv 1000000

/-- `torrent_status`, with the fields the client reads. -/
structure TorrentStatus where
  state : TorrentState := .checkingResumeData
  progress : ℚ := 0
  numPeers : Int := 0
  numSeeds : Int := 0
  totalDone : Int := 0
  totalUpload : Int := 0
  downloadRate : Int := 0
  uploadRate : Int := 0

/-- `peer_request` -/
structure PeerRequest where
  piece : Int
  start : Int
  length : Int
  deriving DecidableEq, Repr

/-- The operations that `is_connection_failure_operation` tells apart. -/
inductive OperationKind where
  | connect | sockOpen | sslHandshake | sockBind | sockAccept | other
  deriving DecidableEq, Repr

/-- `operation_t`, with the name that `operation_name` gives it. -/
structure Operation where
  kind : OperationKind := .other
  name : ByteString := "unknown"

inductive TrackerEvent where
  | none | completed | started | stopped | paused
  deriving DecidableEq, Repr

/-- `peer_connect_alert::direction_t` -/
inductive ConnectDirection where
  | inward | outward
  deriving DecidableEq, Repr

/-- The alert types that `drain_alerts` dispatches on, each with the fields it
reads; `unhandled` stands for every other type. -/
inductive AlertBody (A : Type) where
  | listenSucceeded (address : A) (port : Int) (socketType : SocketType)
  | listenFailed (address : A) (port : Int) (op : Operation) (error : ByteString)
      (socketType : SocketType)
  | trackerAnnounce (trackerUrl : ByteString) (event : TrackerEvent)
  | trackerReply (trackerUrl : ByteString) (numPeers : Int)
  | trackerError (trackerUrl : ByteString) (timesInRow : Int) (error : ByteString)
      (op : Operation) (failureReason : ByteString)
  | trackerWarning (trackerUrl warningMessage : ByteString)
  | stateChanged (state prevState : TorrentState)
  | torrentFinished
  | peerConnect (endpoint : Endpoint A) (pid : PeerId) (direction : ConnectDirection)
      (socketType : SocketType)
  | peerError (endpoint : Endpoint A) (pid : PeerId) (op : Operation) (error : ByteString)
  | peerDisconnected (endpoint : Endpoint A) (pid : PeerId) (op : Operation)
      (error : ByteString) (reason : Int) (socketType : SocketType)
  | incomingConnection (endpoint : Endpoint A) (socketType : SocketType)
  | peerSnubbed (endpoint : Endpoint A) (pid : PeerId)
  | peerUnsnubbed (endpoint : Endpoint A) (pid : PeerId)
  | blockDownloading (endpoint : Endpoint A) (pid : PeerId) (pieceIndex blockIndex : Int)
  | blockFinished (endpoint : Endpoint A) (pid : PeerId) (pieceIndex blockIndex : Int)
  | blockTimeout (endpoint : Endpoint A) (pid : PeerId) (pieceIndex blockIndex : Int)
  | requestDropped (endpoint : Endpoint A) (pid : PeerId) (pieceIndex blockIndex : Int)
  | incomingRequest (endpoint : Endpoint A) (pid : PeerId) (req : PeerRequest)
  | blockUploaded (endpoint : Endpoint A) (pid : PeerId) (pieceIndex blockIndex : Int)
  | pieceFinished (pieceIndex : Int)
  | peerLog (endpoint : Endpoint A) (pid : PeerId) (eventType : ByteString) (direction : Int)
      (logMessage : ByteString)
  | alertsDropped (droppedCount : ℕ)
  | unhandled

/-- An alert: what `what()` and `message()` return, and the typed part. -/
structure Alert (A : Type) where
  what : ByteString := []
  message : ByteString := []
  body : AlertBody A

end BtClient
