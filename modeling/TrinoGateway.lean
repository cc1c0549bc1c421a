import TrinoGateway.Lib.Text
import TrinoGateway.Lib.Slice
import TrinoGateway.Lib.Lexemes
import TrinoGateway.Lib.Like
import TrinoGateway.Lib.Pattern
import TrinoGateway.Lib.Numeral
import TrinoGateway.Lib.Fraction
import TrinoGateway.Lib.Binary
import TrinoGateway.Lib.Rounding
import TrinoGateway.Lib.Interchange
import TrinoGateway.Lib.Wire
import TrinoGateway.Lib.ByteText
import TrinoGateway.Lib.Calendar
import TrinoGateway.Lib.IsoTime
import TrinoGateway.Lib.Pull
import TrinoGateway.Lib.Run
import TrinoGateway.Lib.Registry
import TrinoGateway.Pgwire
import TrinoGateway.Types.TypeMap
import TrinoGateway.Types.Temporal
import TrinoGateway.Types.Encode
import TrinoGateway.Types.Integers
import TrinoGateway.Types.Floats
import TrinoGateway.Types.JsonText
import TrinoGateway.Types.Varbinary
import TrinoGateway.Types.Moment
import TrinoGateway.Types.Timestamptz
import TrinoGateway.Types.Timetz
import TrinoGateway.Types.Truncation
import TrinoGateway.Types.WallClock
import TrinoGateway.Types.PgTimestamp
import TrinoGateway.ErrorMapping
import TrinoGateway.UrlMasking
import TrinoGateway.ErrorSlices
import TrinoGateway.ClientMessage
import TrinoGateway.TrinoStream
import TrinoGateway.Paging
import TrinoGateway.Sql.Ast
import TrinoGateway.Sql.Rewrite
import TrinoGateway.Sql.Inspection
import TrinoGateway.Sql.Passes
import TrinoGateway.Sql.Fold
import TrinoGateway.Sql.Casts
import TrinoGateway.Sql.LimitOffset
import TrinoGateway.Sql.ILike
import TrinoGateway.Sql.LetterCase
import TrinoGateway.Sql.Dialects
import TrinoGateway.Sql.Meaning
import TrinoGateway.Catalog
import TrinoGateway.Oids
import TrinoGateway.Intercept
import TrinoGateway.InfoSchema
import TrinoGateway.Splice
import TrinoGateway.Probes
import TrinoGateway.Pipeline
import TrinoGateway.Refinement
import TrinoGateway.Routing
import TrinoGateway.Portals
import TrinoGateway.Stash
import TrinoGateway.Batches
import TrinoGateway.Connection
import TrinoGateway.Cancel
import TrinoGateway.Framing
import TrinoGateway.Described
import TrinoGateway.Prepared
import TrinoGateway.ErrorOrigins
import TrinoGateway.Answers
import TrinoGateway.CancelRegistry
import TrinoGateway.CancelRaces
import TrinoGateway.CancelDelivery
import TrinoGateway.Idle
import TrinoGateway.Policy
import TrinoGateway.Startup
import TrinoGateway.Access
import TrinoGateway.Server
import TrinoGateway.Accounting
import TrinoGateway.Drain
import TrinoGateway.Shutdown
