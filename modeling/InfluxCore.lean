import InfluxCore.QueryLog.AtomicDuration
import InfluxCore.QueryLog.Entry
import InfluxCore.QueryLog.ComputeDuration
import InfluxCore.QueryLog.Token
import InfluxCore.QueryLog.Lifecycle
import InfluxCore.QueryLog.Durations
import InfluxCore.QueryLog.Log
import InfluxCore.QueryLog.System
import InfluxCore.QueryLog.Readers
import InfluxCore.Encoding.Utf8
import InfluxCore.Encoding.Decimal
import InfluxCore.Encoding.Percent
import InfluxCore.Chrono.Calendar
import InfluxCore.Chrono.Strftime
import InfluxCore.Chrono.Parse
import InfluxCore.Chrono.RoundTrip
import InfluxCore.Partition.Template
import InfluxCore.Partition.Rejection
import InfluxCore.Partition.Bucket
import InfluxCore.Partition.Decode
import InfluxCore.Partition.TimeRange
import InfluxCore.Partition.KeyRoundTrip
import InfluxCore.Partition.Columns
import InfluxCore.PanicLogging.Hook
import InfluxCore.ClapBlocks.CatalogCache
