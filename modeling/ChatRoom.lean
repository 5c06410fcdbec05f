import ChatRoom.Lib.Run
import ChatRoom.Base.Bytes
import ChatRoom.Redis.FormatCommand
import ChatRoom.Redis.CommandWords
import ChatRoom.Redis.CommandText
import ChatRoom.Redis.Session
import ChatRoom.Lib.Lease
import ChatRoom.Job.Consumer
import ChatRoom.Base.Json
import ChatRoom.Service.Frame
import ChatRoom.Service.HttpHandler
import ChatRoom.Service.WebSocketConn
import ChatRoom.Service.Closing
import ChatRoom.Service.Segmentation
import ChatRoom.Service.Presence
import ChatRoom.Api.Statements
import ChatRoom.Api.Account
import ChatRoom.Api.History
import ChatRoom.Lib.ConnectionPool
import ChatRoom.Service.ConnectionPools
import ChatRoom.Service.PubSubService
import ChatRoom.Service.HandlerTable
import ChatRoom.Job.Deduplication
import ChatRoom.Job.LockOwner
import ChatRoom.Job.SharedContext
import ChatRoom.Service.Forwarding
import ChatRoom.Service.ActiveConnections
import ChatRoom.Logic.Send
import ChatRoom.Service.HybridDelivery
import ChatRoom.Service.HttpConn
import ChatRoom.Api.Persistence
import ChatRoom.Service.FrameCodec
import ChatRoom.Service.Broadcast
import ChatRoom.Api.Paging
import ChatRoom.Api.TieredStore
import ChatRoom.Service.ClientMessages
import ChatRoom.Service.PersistQueue
import ChatRoom.Api.TieredHistory
import ChatRoom.Api.Registrations
import ChatRoom.Api.Cookies
import ChatRoom.Logic.HttpServer
import ChatRoom.Base.Search
import ChatRoom.Logic.PostRequest
import ChatRoom.Service.UidParameter
import ChatRoom.Service.HeaderLines
import ChatRoom.Service.UpgradeHead
import ChatRoom.Service.FrameBounds
import ChatRoom.Api.FailedHistory
import ChatRoom.Lib.UnstableSort
import ChatRoom.Service.HelloHistory
import ChatRoom.Logic.MessageIds
import ChatRoom.Job.Marks
import ChatRoom.Lib.Grouping
import ChatRoom.Job.CometGroups
import ChatRoom.Base.MemFind
import ChatRoom.Base.PercentCode
import ChatRoom.Base.Base64
import ChatRoom.Lib.Base64
import ChatRoom.Service.AcceptKey
import ChatRoom.Base.StrExplode
import ChatRoom.Service.HeaderCapture
import ChatRoom.Lib.BoundedLines
import ChatRoom.Base.ConfigFile
import ChatRoom.Base.ConfigFile
import ChatRoom.Api.Timestamps
import ChatRoom.Lib.Requests
import ChatRoom.Api.PoolCalls
import ChatRoom.Service.MissingConnections
import ChatRoom.Redis.Replies
import ChatRoom.Redis.NestedReplies
import ChatRoom.Redis.ReplyRuns
import ChatRoom.Redis.BlockingCalls
import ChatRoom.Redis.AnsweredCalls
import ChatRoom.Base.Md5
import ChatRoom.Base.Md5Digest
import ChatRoom.Lib.WaitingCallers
import ChatRoom.Job.Cooldown
import ChatRoom.Lib.Scanner
import ChatRoom.Service.HttpParser
import ChatRoom.Service.ParserSafety
import ChatRoom.Service.ParserBytes
import ChatRoom.Service.RequestLine
import ChatRoom.Service.ParserFields
import ChatRoom.Service.ParsedRequests
import ChatRoom.Service.ParserReports
import ChatRoom.Service.AnsweredRequests
