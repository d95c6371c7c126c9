import MktSim.Api.Crossing
import MktSim.Api.PricePriority
import MktSim.Api.Conservation
import MktSim.Api.DollarVolume
import MktSim.Api.Listings
import MktSim.Api.Views
import MktSim.Api.Independence
import MktSim.Lib.RingQueue
import MktSim.MatchingEngine.Journaler
import MktSim.Api.Handlers
import MktSim.Api.FailedSubmission
import MktSim.Api.Exchange
import MktSim.Api.TimePriority
import MktSim.Api.Exposure
import MktSim.Api.Reservations
import MktSim.Api.Completion
import MktSim.Api.MarketOrders
import MktSim.Api.ReferenceMatcher
import MktSim.Api.ReportedVolume
import MktSim.Lib.Endian
import MktSim.Protocol.Message
import MktSim.Protocol.Io
import MktSim.MatchingEngine.FrameReaders
import MktSim.MatchingEngine.Connection
import MktSim.MatchingEngine.Engine
import MktSim.Api.Users
import MktSim.Api.Guards
import MktSim.Api.Registration
import MktSim.Api.AdminBootstrap
import MktSim.Api.Assets
import MktSim.Api.RegisteredAssets
import MktSim.MatchingEngine.Delimited
import MktSim.MatchingEngine.Verdicts
import MktSim.Protocol.ReadBack
import MktSim.MatchingEngine.Rejections
import MktSim.Api.Holdings
import MktSim.MatchingEngine.Resending
import MktSim.Api.AllOrNothing
import MktSim.Api.SubmitReply
import MktSim.Protocol.Hosts
import MktSim.MatchingEngine.Accounting
import MktSim.Api.Audit
import MktSim.Api.Answers
import MktSim.Api.Members
import MktSim.Api.Sessions
import MktSim.Api.Supply
import MktSim.Api.Catalogue
import MktSim.Api.Fulfilment
import MktSim.Api.Sharding
import MktSim.Api.Solvency
import MktSim.MatchingEngine.Aborts
import MktSim.MatchingEngine.ReplyStream
import MktSim.Api.Paging
import MktSim.Api.Matcher
