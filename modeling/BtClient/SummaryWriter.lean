import BtClient.SessionStats
import BtClient.Library.MapTotal

/-!
# Totals for the session summary

The loop of `summary_writer.cpp` over the records, which adds up the bytes that each
connection transferred.
-/

namespace BtClient

structure NetworkByteTotals where
  downloaded : Int := 0
  uploaded : Int := 0

/-- `peer_network_byte_totals` -/
def peerNetworkByteTotals (s : SessionStats) : NetworkByteTotals :=
  s.peersByKey.foldl (fun totals _ peer =>
    { downloaded := totals.downloaded + peer.totalDownloadBytes
      uploaded := totals.uploaded + peer.totalUploadBytes }) {}

/-- The loop computes the two totals over the map. -/
theorem peerNetworkByteTotals_eq (s : SessionStats) :
    peerNetworkByteTotals s =
      ⟨MapTotal.total PeerStats.totalDownloadBytes s.peersByKey,
        MapTotal.total PeerStats.totalUploadBytes s.peersByKey⟩ := by
  have hloop : ∀ (l : List (String × PeerStats)) (t : NetworkByteTotals),
      l.foldl (fun totals entry =>
        ({ downloaded := totals.downloaded + entry.2.totalDownloadBytes
           uploaded := totals.uploaded + entry.2.totalUploadBytes } : NetworkByteTotals)) t =
      ⟨t.downloaded + (l.map fun entry => entry.2.totalDownloadBytes).sum,
        t.uploaded + (l.map fun entry => entry.2.totalUploadBytes).sum⟩ := by
    intro l
    induction l with
    | nil => simp
    | cons entry rest ih =>
        intro t
        rw [List.foldl_cons, ih]
        simp [add_assoc]
  rw [peerNetworkByteTotals, Std.ExtTreeMap.foldl_eq_foldl_toList, hloop]
  simp [MapTotal.total]

end BtClient
