import NestQuickfix.Lib.OrderedMap
import NestQuickfix.Message.Parser
import NestQuickfix.Message.Chunking
import NestQuickfix.Message.Trailer
import NestQuickfix.Lib.Run
import NestQuickfix.Lib.Json
import NestQuickfix.Lib.StableSort
import NestQuickfix.Flow.PriorityQueue
import NestQuickfix.Flow.Serving
import NestQuickfix.Flow.Shutdown
import NestQuickfix.Flow.Delivery
import NestQuickfix.Flow.Batches
import NestQuickfix.Flow.Entries
import NestQuickfix.Session.Outgoing
import NestQuickfix.Session.SequenceNumbers
import NestQuickfix.Acceptor.HandlerFailures
import NestQuickfix.Acceptor.Heartbeats
import NestQuickfix.Acceptor.Isolation
import NestQuickfix.Acceptor.Reports
import NestQuickfix.Acceptor.Zombies
import NestQuickfix.Acceptor.Answers
import NestQuickfix.Acceptor.Replacements
import NestQuickfix.Session.RoomIndexes
import NestQuickfix.Session.RoomSets
import NestQuickfix.Flow.Retries
import NestQuickfix.Flow.SendOrder
import NestQuickfix.Message.Reencoding
import NestQuickfix.Acceptor.Closes
import NestQuickfix.Acceptor.Finality
import NestQuickfix.Acceptor.Watching
import NestQuickfix.Acceptor.Authentication
import NestQuickfix.Acceptor.Memberships
import NestQuickfix.Acceptor.Ordering
import NestQuickfix.Acceptor.Stopping
import NestQuickfix.Acceptor.Limits
import NestQuickfix.Service.Targets
import NestQuickfix.Initiator.Addressing
import NestQuickfix.Message.Frames
import NestQuickfix.Message.Spelling
import NestQuickfix.Protocol.Streaming
import NestQuickfix.Protocol.Checksums
import NestQuickfix.Message.Storage
import NestQuickfix.Protocol.Queueing
import NestQuickfix.Acceptor.Lookups
import NestQuickfix.Acceptor.Departures
import NestQuickfix.Initiator.LoggingOn
import NestQuickfix.Initiator.Stopping
import NestQuickfix.Initiator.Reconnecting
import NestQuickfix.Service.MetadataExplorer
import NestQuickfix.Session.FailedSends
import NestQuickfix.Session.Counterparty
import NestQuickfix.Message.Layout
import NestQuickfix.Message.EntryPoints
import NestQuickfix.Message.Injection
import NestQuickfix.Protocol.Validation
import NestQuickfix.Service.Broadcast
import NestQuickfix.Acceptor.Chunks
import NestQuickfix.Acceptor.TearDowns
import NestQuickfix.Acceptor.LogonRules
import NestQuickfix.Acceptor.PendingLogouts
import NestQuickfix.Acceptor.Arrivals
import NestQuickfix.Session.SendingTimes
import NestQuickfix.Flow.Copies
import NestQuickfix.Acceptor.Outcomes
import NestQuickfix.Flow.Draining
import NestQuickfix.Acceptor.Escapes
import NestQuickfix.Acceptor.Disclosures
import NestQuickfix.Acceptor.Deliveries
import NestQuickfix.Acceptor.Numbering
import NestQuickfix.Acceptor.CleanOutput
