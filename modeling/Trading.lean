import Trading.Calendar
import Trading.Text
import Trading.Grouping
import Trading.SqlText
import Trading.SqlTemplates
import Trading.Sed
import Trading.Runs
import Trading.Journal
import Trading.Cursor
import Trading.Recup.Database
import Trading.Recup.CacheFile
import Trading.Recup.BDD
import Trading.Recup.ArchiveSafety
import Trading.Recup.ArchiveRecovery
import Trading.Recup.Rollover
import Trading.Recup.LiveTable
import Trading.Recup.Store
import Trading.Recup.Volumes
import Trading.Recup.ArchivedDays
import Trading.Recup.Page
import Trading.Recup.Prices
import Trading.Recup.Launcher
import Trading.Recup.Polling
import Trading.Recup.StartUp
import Trading.Recup.ChangeLog
import Trading.Recup.Registry
import Trading.Recup.Attribution
import Trading.Recup.Statements
import Trading.Recup.SharedTables
import Trading.Recup.RefusedInserts
import Trading.Recup.PageRows
import Trading.Recup.Execution
import Trading.Recup.Instruments
import Trading.Recup.Registrations
import Trading.Recup.Undisturbed
import Trading.Dao.CacheDirectory
import Trading.Dao.IndiceDaoImpl
import Trading.Dao.RoundTrip
import Trading.Dao.Sampling
import Trading.Dao.Periods
import Trading.Dao.Queries
import Trading.Dao.Strides
import Trading.Dao.PollStatement
import Trading.Dao.Answers
import Trading.Dao.SplitReads
import Trading.Dao.OpenFiles
import Trading.Dao.StoredValues
import Trading.Dao.EndToEnd
import Trading.Dao.GetIndices
import Trading.Front.IndicesComponent
import Trading.Front.Effects
import Trading.Front.Pollers
import Trading.Front.Chart
import Trading.Front.Selection
import Trading.Front.Totals
import Trading.Front.Session
import Trading.Front.Polls
import Trading.Front.Increments
import Trading.Front.RunningTotals
import Trading.Front.StorePage
import Trading.Front.OverlappingTotals
import Trading.Front.Template
import Trading.Front.Screen
import Trading.Front.ArchivedPolls
