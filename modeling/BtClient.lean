import BtClient.Representation
import BtClient.Isolation
import BtClient.Connections
import BtClient.EventLog
import BtClient.PieceRace
import BtClient.SnapshotRace
import BtClient.RetryUploads
import BtClient.CaptureSession
import BtClient.ArtifactRules
import BtClient.BlockLatency
import BtClient.UploadMatching
import BtClient.BlockIndex
import BtClient.BurstSegmentation
import BtClient.ActivityTime
import BtClient.ClosedRecords
import BtClient.PeerText
import BtClient.JsonSyntax
import BtClient.ArchiveRules
import BtClient.UploadHistory
import BtClient.Discovery
import BtClient.CaptureRules
import BtClient.RetriedForm
import BtClient.ArchiveClash
import BtClient.PeerKeys
import BtClient.ChokeEdges
import BtClient.SocketFields
import BtClient.Pacing
import BtClient.PieceCredit
import BtClient.Distribution
import BtClient.TimeArithmetic
import BtClient.FoundSessions
import BtClient.StateWrites
import BtClient.AllOrNothing
import BtClient.ReadBack
import BtClient.ArchivedFiles
import BtClient.CompleteArtifacts
import BtClient.MainLoop
import BtClient.LogReplay
import BtClient.SummaryRows
import BtClient.SummaryText
import BtClient.Arguments
import BtClient.LaterRuns
import BtClient.UntouchedFiles
import BtClient.ExitCodes
import BtClient.EventLogText
import BtClient.ReadArtifacts
