import ClpszDemos.TransitionSystem
import ClpszDemos.LocalTransaction
import ClpszDemos.UniqueTable
import ClpszDemos.ItemStock
import ClpszDemos.OrderTables
import ClpszDemos.TccModel
import ClpszDemos.SagaServices
import ClpszDemos.SagaModel
import ClpszDemos.TccAgreement
import ClpszDemos.TccHanging
import ClpszDemos.TccRetry
import ClpszDemos.StockConservation
import ClpszDemos.SagaSteps
import ClpszDemos.SagaEventLoop
import ClpszDemos.SqlCalls
import ClpszDemos.SagaOutcomeEvents
import ClpszDemos.SagaPhase
import ClpszDemos.SagaOutcomeSafety
import ClpszDemos.SagaQuiescence
import ClpszDemos.Compensation
import ClpszDemos.SagaCompensation
import ClpszDemos.ByteMemory
import ClpszDemos.SerialCmd
import ClpszDemos.SerialFrames
import ClpszDemos.BigEndian
import ClpszDemos.JvmInstruction
import ClpszDemos.BytecodeEncoding
import ClpszDemos.ProgramLogic
import ClpszDemos.JvmRuntime
import ClpszDemos.OperandStackLogic
import ClpszDemos.JvmReference
import ClpszDemos.InterpreterSimulation
import ClpszDemos.StackDiscipline
import ClpszDemos.LocalAccess
import ClpszDemos.DecoderSoundness
import ClpszDemos.SortedSearch
import ClpszDemos.SwitchTables
import ClpszDemos.JvmClassFile
import ClpszDemos.ClassFileEncoding
import ClpszDemos.AttributeFraming
import ClpszDemos.ClassFileQueries
import ClpszDemos.SerialReceiver
import ClpszDemos.SerialResync
import ClpszDemos.SerialSend
import ClpszDemos.SerialExchange
import ClpszDemos.SerialReplies
import ClpszDemos.JavaText
import ClpszDemos.UidSharding
import ClpszDemos.JsText
import ClpszDemos.SqlSyntax
import ClpszDemos.SqlParsers
import ClpszDemos.ShardPlugin
import ClpszDemos.ShardRewriting
import ClpszDemos.ElectronRouter
import ClpszDemos.ConstantPoolLayout
import ClpszDemos.ModifiedUtf8
import ClpszDemos.Procedures
import ClpszDemos.ClassFileTermination
import ClpszDemos.IntegerArithmetic
import ClpszDemos.SerialChecksum
import ClpszDemos.SerialLength
import ClpszDemos.Collecting
import ClpszDemos.SelectVisitor
import ClpszDemos.ShardIds
import ClpszDemos.LinkedRing
import ClpszDemos.DoubleLink
import ClpszDemos.DoubleLinkRing
import ClpszDemos.PhpStrings
import ClpszDemos.DoubleLinkComparison
import ClpszDemos.LongStorage
import ClpszDemos.Overlay
import ClpszDemos.Blacklist
import ClpszDemos.BmpRows
import ClpszDemos.CallLedger
import ClpszDemos.ChargedAmount
import ClpszDemos.CString
import ClpszDemos.CJsonItems
import ClpszDemos.CJsonParser
import ClpszDemos.CJsonPrinter
import ClpszDemos.CJsonDouble
import ClpszDemos.CJsonPrinting
import ClpszDemos.CJsonGrammar
import ClpszDemos.CJsonStrings
import ClpszDemos.CJsonNumbers
import ClpszDemos.CJsonParsing
import ClpszDemos.CJsonRoundTrip
import ClpszDemos.CJsonSafety
import ClpszDemos.TwoCursors
import ClpszDemos.CJsonMinify
import ClpszDemos.RingFamily
import ClpszDemos.KernelList
import ClpszDemos.KernelListRuns
import ClpszDemos.RequestReply
import ClpszDemos.SerialLink
import ClpszDemos.CJsonChains
import ClpszDemos.CJsonCopying
import ClpszDemos.CJsonTreeRuns
