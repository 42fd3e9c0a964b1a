import BtClient.Libtorrent
import BtClient.Library.NumberedText

/-!
# Helpers of the client

The helpers of `util.cpp` that the recorded data goes through: timestamps, unit
conversion, the texts of peer ids, endpoints, sockets and flags. A `double` is a
rational number here, so that the conversion to milliseconds is exact.
-/

namespace BtClient

/-- `TimestampPair` -/
structure TimestampPair where
  utcTs : String := ""
  monoNs : Int := 0
  deriving DecidableEq, Repr

/-- What a signed 64-bit word keeps of a sum or a product of words. -/
def word (n : Int) : Int := n.bmod (2 ^ 64)

/-- A sum or a product of words is exact when the integers meet within 64 bits, and only
then. -/
theorem word_eq_self_iff (n : Int) :
    word n = n ↔ -9223372036854775808 ≤ n ∧ n ≤ 9223372036854775807 := by
  rw [word, Int.bmod_eq_iff (by norm_num)]
  constructor
  · rintro ⟨hlower, hupper, -⟩
    norm_num at hlower hupper
    omega
  · rintro ⟨hlower, hupper⟩
    refine ⟨?_, ?_, by simp⟩
    · norm_num
      omega
    · norm_num
      omega

/-- `has_flag` for a flag of one bit. -/
def hasFlag {F : Type} [DecidableEq F] (value : Finset F) (flag : F) : Bool :=
  decide (flag ∈ value)

/-- `ns_to_ms` -/
def nsToMs (ns : Int) : ℚ := (ns : ℚ) / 1000000

def stateName : TorrentState → String
  | .queuedForChecking => "queued_for_checking"
  | .checkingFiles => "checking_files"
  | .downloadingMetadata => "downloading_metadata"
  | .downloading => "downloading"
  | .finished => "finished"
  | .seeding => "seeding"
  | .allocating => "allocating"
  | .checkingResumeData => "checking_resume_data"

/-- Two lower-case hexadecimal digits. -/
def hexByte (byte : UInt8) : String :=
  String.ofList [Nat.digitChar (byte.toNat / 16), Nat.digitChar (byte.toNat % 16)]

/-- `peer_id_to_hex` -/
def peerIdToHex (pid : PeerId) : String :=
  if pid.isAllZeros then "unknown"
  else pid.toList.foldl (fun out byte => out ++ hexByte byte) ""

/-- `peer_id_prefix` -/
def peerIdPrefix (pid : PeerId) : String :=
  if pid.isAllZeros then ""
  else
    let hex := peerIdToHex pid
    if hex = "unknown" then "" else String.ofList (hex.toList.take 16)

/-- `endpoint_to_string` -/
def endpointToString {A : Type} [Address A] (endpoint : Endpoint A) : String :=
  Address.toString endpoint.address ++ ":" ++ toString endpoint.port.toNat

def socketTypeLabel : SocketType → String
  | .tcp => "tcp"
  | .socks5 => "socks5"
  | .http => "http"
  | .utp => "utp"
  | .i2p => "i2p"
  | .tcpSsl => "tcp_ssl"
  | .socks5Ssl => "socks5_ssl"
  | .httpSsl => "http_ssl"
  | .utpSsl => "utp_ssl"

/-- `transport_from_socket_type` -/
def transportFromSocketType : SocketType → String
  | .utp | .utpSsl => "utp"
  | .tcp | .tcpSsl | .socks5 | .socks5Ssl | .http | .httpSsl => "tcp"
  | .i2p => "unknown"

/-- `transport_from_peer_info` -/
def transportFromPeerInfo {A : Type} (peer : PeerInfo A) : String :=
  if hasFlag peer.flags .utpSocket then "utp"
  else if hasFlag peer.flags .i2pSocket then "unknown"
  else "tcp"

/-- `peer_flag_labels` -/
def peerFlagLabels {A : Type} (peer : PeerInfo A) : List String :=
  [(PeerFlag.interesting, "interesting"),
    (.choked, "we_choked_peer"),
    (.remoteInterested, "peer_interested"),
    (.remoteChoked, "peer_choked_us"),
    (.supportsExtensions, "supports_extensions"),
    (.outgoingConnection, "outgoing_connection"),
    (.handshake, "handshake"),
    (.connecting, "connecting"),
    (.onParole, "on_parole"),
    (.seed, "seed"),
    (.optimisticUnchoke, "optimistic_unchoke"),
    (.snubbed, "snubbed"),
    (.uploadOnly, "upload_only"),
    (.endgameMode, "endgame_mode"),
    (.holepunched, "holepunched"),
    (.i2pSocket, "i2p_socket"),
    (.utpSocket, "utp_socket"),
    (.sslSocket, "ssl_socket"),
    (.rc4Encrypted, "rc4_encrypted"),
    (.plaintextEncrypted, "plaintext_encrypted")].filterMap fun (flag, label) =>
      if hasFlag peer.flags flag then some label else none

/-- `peer_source_labels` -/
def peerSourceLabels {A : Type} (peer : PeerInfo A) : List String :=
  [(PeerSource.tracker, "tracker"),
    (.dht, "dht"),
    (.pex, "pex"),
    (.lsd, "lsd"),
    (.resumeData, "resume_data"),
    (.incoming, "incoming")].filterMap fun (flag, label) =>
      if hasFlag peer.source flag then some label else none

/-- Endpoints are told apart by their text: the port is read back from the right
end. -/
theorem endpointToString_injective {A : Type} [Address A] :
    Function.Injective (endpointToString (A := A)) := by
  rintro ⟨address, port⟩ ⟨address', port'⟩ h
  have hparts := (NumberedText.numbered_inj ":" (c := ':') (by decide) (by decide)).mp h
  have haddr : address = address' := Address.toString_injective hparts.1
  have hport : port = port' := UInt16.toNat_inj.mp hparts.2
  rw [haddr, hport]

/-- An `address_v4` in the dotted notation. -/
structure AddressV4 where
  a : UInt8
  b : UInt8
  c : UInt8
  d : UInt8
  deriving DecidableEq

def AddressV4.toString (x : AddressV4) : String :=
  NumberedText.numbered "." (NumberedText.numbered "."
    (NumberedText.numbered "." (ToString.toString x.a.toNat) x.b.toNat) x.c.toNat) x.d.toNat

instance : Address AddressV4 where
  toString := AddressV4.toString
  toString_injective := by
    rintro ⟨a, b, c, d⟩ ⟨a', b', c', d'⟩ h
    have hdot : ∀ {e e' : String} {n n' : ℕ},
        NumberedText.numbered "." e n = NumberedText.numbered "." e' n' → e = e' ∧ n = n' :=
      (NumberedText.numbered_inj "." (c := '.') (by decide) (by decide)).mp
    obtain ⟨habc, hd⟩ := hdot h
    obtain ⟨hab, hc⟩ := hdot habc
    obtain ⟨ha, hb⟩ := hdot hab
    rw [AddressV4.mk.injEq]
    exact ⟨UInt8.toNat_inj.mp (NumberedText.toString_nat_injective ha),
      UInt8.toNat_inj.mp hb, UInt8.toNat_inj.mp hc, UInt8.toNat_inj.mp hd⟩

/-- The key of the record number `n` of an endpoint, as
`ensure_peer_for_endpoint` composes it. -/
def numberedPeerKey (endpointKey : String) (n : ℕ) : String :=
  endpointKey ++ "#" ++ toString n

/-- A peer key determines the endpoint key and the sequence number in it. -/
theorem numberedPeerKey_inj {e e' : String} {n n' : ℕ} :
    numberedPeerKey e n = numberedPeerKey e' n' ↔ e = e' ∧ n = n' :=
  NumberedText.numbered_inj "#" (c := '#') (by decide) (by decide)

end BtClient
