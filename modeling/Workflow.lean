import Workflow.WorkflowConfig
import Workflow.PacketCodec
import Workflow.Serializer
import Workflow.Engine
import Workflow.Reference
import Workflow.Refinement
import Workflow.PipelineSemantics
import Workflow.Faults
import Workflow.RunShape
import Workflow.TwoRuns
import Workflow.Isolation
import Workflow.Noninterference
import Workflow.AuditPaths
import Workflow.AuditTrail
import Workflow.SnapshotSites
import Workflow.SnapshotFailure
import Workflow.ErrorPolicy
import Workflow.CompleteTrail
import Workflow.ConfigLoading
import Workflow.FileLoading
import Workflow.CommandRegistry
import Workflow.FactoryResolution
import Workflow.Lib.Run
import Workflow.PluginLoader
import Workflow.PluginHandles
import Workflow.PluginCode
import Workflow.AuditWarnings
import Workflow.AuditNames
import Workflow.ShippedCommands
import Workflow.TransformFlow
import Workflow.StepExchange
import Workflow.InstanceNames
import Workflow.JsonLexer
import Workflow.JsonParser
import Workflow.JsonGrammar
import Workflow.JsonNumbers
import Workflow.JsonStrings
import Workflow.LexerCorrect
import Workflow.ParserCorrect
import Workflow.JsonValues
import Workflow.JsonRoundTrip
import Workflow.ParserOverflow
import Workflow.FileFormat
import Workflow.PacketFile
import Workflow.AuditFiles
import Workflow.AuditReadback
import Workflow.Utf8Runs
import Workflow.Demo
import Workflow.PluginEngine
import Workflow.Containers
import Workflow.RunLog
import Workflow.JsonReading
import Workflow.Session
import Workflow.ErrorPositions
