import Redisdal.SyncConnection
import Redisdal.Theorems.ReplyKinds
import Redisdal.Theorems.ScanLoop
import Redisdal.Theorems.OutParameters
import Redisdal.Theorems.ClientOutParameters
import Redisdal.Theorems.BatchHget
import Redisdal.Theorems.ReplyErrors
import Redisdal.Theorems.Payloads
import Redisdal.Theorems.FieldPairs
import Redisdal.Theorems.Url
import Redisdal.Theorems.UrlRoundTrip
import Redisdal.Theorems.QueryParams
import Redisdal.Theorems.Credentials
import Redisdal.Theorems.ReplyConversion
import Redisdal.Theorems.Handshake
import Redisdal.Theorems.Counts
import Redisdal.Theorems.ZsetScores
import Redisdal.Theorems.HashStore
import Redisdal.Theorems.HgetallFields
import Redisdal.Theorems.Scripts
import Redisdal.Theorems.AtMostOnce
import Redisdal.Theorems.ScriptCache
import Redisdal.Theorems.StreamReads
import Redisdal.Theorems.StreamAdds
import Redisdal.Theorems.StreamLog
import Redisdal.Theorems.FloatRoundTrip
import Redisdal.Theorems.FacadeContract
import Redisdal.Theorems.Commands
import Redisdal.Theorems.Wire
import Redisdal.Theorems.StreamCommands
import Redisdal.Theorems.KeyspaceStreams
import Redisdal.Theorems.KeyspaceRuns
import Redisdal.Theorems.KeyspaceSessions
import Redisdal.Theorems.Queues
import Redisdal.Theorems.WorkQueues
import Redisdal.Theorems.Counters
import Redisdal.Theorems.Leaderboards
import Redisdal.Theorems.Lifetimes
