import Sqlx.Lib.Bytes
import Sqlx.Lib.Radix
import Sqlx.Lib.Run
import Sqlx.Lib.EStateM
import Sqlx.Lib.LruCache
import Sqlx.Core.Transaction
import Sqlx.Core.StatementCache
import Sqlx.Postgres.Arguments
import Sqlx.Postgres.ArgumentFrames
import Sqlx.Postgres.ArgumentLayout
import Sqlx.Postgres.Numeric
import Sqlx.Postgres.BigDecimal
import Sqlx.Postgres.BigDecimalRoundTrip
import Sqlx.Postgres.RustDecimal
import Sqlx.Postgres.RustDecimalRoundTrip
import Sqlx.Postgres.Transaction
import Sqlx.MySql.Packet
import Sqlx.MySql.PacketFraming
import Sqlx.MySql.Transaction
import Sqlx.Sqlite.Transaction
import Sqlx.Migrate.Migrator
import Sqlx.Migrate.Contract
import Sqlx.MySql.Arguments
import Sqlx.Postgres.DataRow
import Sqlx.Postgres.RustDecimalDecode
import Sqlx.Lib.Reader
import Sqlx.Postgres.Message
import Sqlx.Postgres.Bind
import Sqlx.Postgres.Listener
import Sqlx.Postgres.ListenerSubscriptions
import Sqlx.Core.WriteBuffer
import Sqlx.Postgres.ValueDecode
import Sqlx.Lib.PercentEncoding
import Sqlx.Lib.Url
import Sqlx.MySql.Io
import Sqlx.MySql.Time
import Sqlx.MySql.Chrono
import Sqlx.Lib.Calendar
import Sqlx.Core.DateTime
import Sqlx.Lib.Binary64
import Sqlx.Sqlite.DateTime
import Sqlx.MySql.Row
import Sqlx.Sqlite.Arguments
import Sqlx.Core.QueryBuilder
import Sqlx.Postgres.CopyIn
import Sqlx.Sqlite.Execute
import Sqlx.Any.Arguments
import Sqlx.MySql.Options
import Sqlx.Core.ReadBuffer
import Sqlx.Postgres.Stream
import Sqlx.Postgres.Options
import Sqlx.Postgres.PgPass
import Sqlx.Postgres.ArrayText
import Sqlx.Postgres.Range
import Sqlx.Postgres.Record
import Sqlx.Lib.SortedMap
import Sqlx.Postgres.Hstore
import Sqlx.Postgres.Money
import Sqlx.Postgres.DateTime
import Sqlx.MySql.Response
import Sqlx.MySql.Connection
import Sqlx.Lib.Slots
import Sqlx.Sqlite.IntMap
import Sqlx.Lib.Ascii
import Sqlx.Postgres.TypeName
import Sqlx.Postgres.LTree
import Sqlx.Postgres.Describe
import Sqlx.Sqlite.ExplainState
import Sqlx.Sqlite.ExplainOps
import Sqlx.Sqlite.Explain
import Sqlx.Sqlite.ExplainBudget
import Sqlx.Core.AsyncStream
import Sqlx.Postgres.BackendMessages
import Sqlx.Postgres.Protocol
import Sqlx.Postgres.Backend
import Sqlx.Postgres.Connection
import Sqlx.Postgres.ConnectionSync
import Sqlx.Postgres.ExecutorSync
import Sqlx.Postgres.History
