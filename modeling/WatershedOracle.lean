import WatershedOracle.Library.Effect
import WatershedOracle.Library.Json
import WatershedOracle.Library.JsonFraming
import WatershedOracle.Library.Ledger
import WatershedOracle.Library.Lines
import WatershedOracle.Library.Rounding
import WatershedOracle.Library.Tower
import WatershedOracle.Library.Utf8Stream
import WatershedOracle.Library.ZigDecimal
import WatershedOracle.Library.ZigIo
import WatershedOracle.Library.ZigJson
import WatershedOracle.Library.ZigJsonReadback
import WatershedOracle.Library.ZigJsonText
import WatershedOracle.Library.ZigStd
import WatershedOracle.Binary64
import WatershedOracle.Faults
import WatershedOracle.Externals
import WatershedOracle.WatershedStack
import WatershedOracle.SearchSpec
import WatershedOracle.StackRuns
import WatershedOracle.UpdateRuns
import WatershedOracle.Regions
import WatershedOracle.StackChain
import WatershedOracle.Dataset
import WatershedOracle.Boxes
import WatershedOracle.Lookup
import WatershedOracle.PlainSearch
import WatershedOracle.TableFaults
import WatershedOracle.SearchCode
import WatershedOracle.SearchPaths
import WatershedOracle.Coverage
import WatershedOracle.Completeness
import WatershedOracle.OptionalLevels
import WatershedOracle.SearchCalls
import WatershedOracle.Ownership
import WatershedOracle.OwnershipRuns
import WatershedOracle.UpdateEffect
import WatershedOracle.SkippedLevels
import WatershedOracle.EnvelopeSearch
import WatershedOracle.RepeatedRequests
import WatershedOracle.Nmea
import WatershedOracle.NmeaSafety
import WatershedOracle.NmeaChecksum
import WatershedOracle.NmeaFormat
import WatershedOracle.NmeaSentences
import WatershedOracle.NmeaRoundTrip
import WatershedOracle.NmeaPositions
import WatershedOracle.NmeaCorruption
import WatershedOracle.NmeaLog
import WatershedOracle.NmeaRounding
import WatershedOracle.PointSrc
import WatershedOracle.Main
import WatershedOracle.Display
import WatershedOracle.Session
import WatershedOracle.RejectedRequests
import WatershedOracle.LineFaults
import WatershedOracle.TextReports
import WatershedOracle.DisplayRuns
import WatershedOracle.DisplayFrames
import WatershedOracle.AnswerFormat
import WatershedOracle.MalformedLines
import WatershedOracle.RequestFormat
import WatershedOracle.LineSources
import WatershedOracle.SourceRefinement
import WatershedOracle.PointStream
import WatershedOracle.SerialGps
import WatershedOracle.SerialRecovery
import WatershedOracle.PathUtil
import WatershedOracle.PathReplay
import WatershedOracle.RandomSources
import WatershedOracle.EndlessRuns
import WatershedOracle.LineIterator
import WatershedOracle.TelegramBot
import WatershedOracle.Protocol
import WatershedOracle.OracleProcess
import WatershedOracle.Delivery
import WatershedOracle.BotReplies
import WatershedOracle.ProcessExit
