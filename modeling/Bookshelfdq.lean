import Bookshelfdq.Foundation.Execution
import Bookshelfdq.Foundation.Table
import Bookshelfdq.Clisrv
import Bookshelfdq.Server.Mysql
import Bookshelfdq.Server.Allocation
import Bookshelfdq.Server.Srvdb
import Bookshelfdq.Server.Effects
import Bookshelfdq.Server.Numbering
import Bookshelfdq.Server.Account
import Bookshelfdq.Server.SocketSrv
import Bookshelfdq.Server.Frames
import Bookshelfdq.Server.Service
import Bookshelfdq.Client.Requests
import Bookshelfdq.Server.ShelfIntegrity
import Bookshelfdq.Server.Abandonment
import Bookshelfdq.Session.DeletedBooks
import Bookshelfdq.Client.Clidb
import Bookshelfdq.Client.Clishell
import Bookshelfdq.Server.Replies
import Bookshelfdq.Foundation.Window
import Bookshelfdq.Session.Paging
import Bookshelfdq.Session.Alignment
import Bookshelfdq.Session.Pairing
import Bookshelfdq.Session.Mirror
import Bookshelfdq.Server.Framing
import Bookshelfdq.Client.BookPositions
import Bookshelfdq.Session.BookPages
import Bookshelfdq.Server.Counting
import Bookshelfdq.Server.RoundTrips
import Bookshelfdq.Server.BookRoundTrip
import Bookshelfdq.Foundation.BoundedMap
import Bookshelfdq.Server.AccountStore
import Bookshelfdq.Server.Multiplexer
import Bookshelfdq.Client.RegisterPage
import Bookshelfdq.Session.PageEffects
import Bookshelfdq.Session.Descriptions
import Bookshelfdq.Session.Modes
import Bookshelfdq.Session.Fleet
import Bookshelfdq.Session.Exclusion
import Bookshelfdq.Session.Overwriting
import Bookshelfdq.Foundation.Terminated
import Bookshelfdq.Client.LimitStrWidth
import Bookshelfdq.Client.DisplayBuffers
import Bookshelfdq.Client.SearchClauses
import Bookshelfdq.Server.LikePatterns
import Bookshelfdq.Session.KeywordSearch
import Bookshelfdq.Client.ShelfFile
import Bookshelfdq.Client.CacheIsolation
import Bookshelfdq.Session.CacheDurability
import Bookshelfdq.Session.Outcomes
import Bookshelfdq.Foundation.Search
import Bookshelfdq.Session.ShelfRows
import Bookshelfdq.Client.BookVisits
import Bookshelfdq.Session.CalmCalls
import Bookshelfdq.Session.Coverage
import Bookshelfdq.Session.ListedPages
import Bookshelfdq.Session.Leafing
import Bookshelfdq.Session.CompleteListings
import Bookshelfdq.Foundation.Replay
import Bookshelfdq.Client.CachedPages
import Bookshelfdq.Client.PadScroll
import Bookshelfdq.Client.ShelfFloors
import Bookshelfdq.Session.CompleteBooks
import Bookshelfdq.Foundation.Trimmed
import Bookshelfdq.Foundation.Fields
import Bookshelfdq.Client.StringFilter
import Bookshelfdq.Client.SplitLabels
import Bookshelfdq.Client.TaggingBox
import Bookshelfdq.Client.LoginLine
import Bookshelfdq.Client.SearchFields
import Bookshelfdq.Server.StatementBuffers
import Bookshelfdq.Server.EscapeBuffers
import Bookshelfdq.Server.ResultCursor
import Bookshelfdq.Session.SearchScope
import Bookshelfdq.Client.StringSplitter
import Bookshelfdq.Client.SearchBytes
import Bookshelfdq.Foundation.Tenancy
import Bookshelfdq.Server.Scratch
import Bookshelfdq.Server.Tables
import Bookshelfdq.Server.Host
import Bookshelfdq.Server.Isolation
import Bookshelfdq.Server.HostRuns
import Bookshelfdq.Foundation.BlockChaining
import Bookshelfdq.Wire.AesOptions
import Bookshelfdq.Foundation.Layout
import Bookshelfdq.Wire.MessageLayout
import Bookshelfdq.Wire.SecureChannel
import Bookshelfdq.Wire.ReplyFits
import Bookshelfdq.Wire.Exchange
import Bookshelfdq.Wire.Tampering
import Bookshelfdq.Wire.Network
import Bookshelfdq.Wire.KeyFile
import Bookshelfdq.Server.Lifetimes
import Bookshelfdq.Server.CryptBlowfish
import Bookshelfdq.Server.Libbcrypt
import Bookshelfdq.Client.LoginPage
import Bookshelfdq.Foundation.Since
import Bookshelfdq.Foundation.Numbering
import Bookshelfdq.Foundation.SqlLexer
import Bookshelfdq.Foundation.SqlStatement
import Bookshelfdq.Foundation.SqlTable
import Bookshelfdq.Server.SplicedStatements
import Bookshelfdq.Server.SplicedMeaning
import Bookshelfdq.Server.SplicedEffects
import Bookshelfdq.Server.SplicedNumbering
import Bookshelfdq.Server.SplicedImages
import Bookshelfdq.Server.SplicedRefinement
import Bookshelfdq.Session.Asking
import Bookshelfdq.Session.FrontDoor
import Bookshelfdq.Session.Pages
import Bookshelfdq.Session.Identity
