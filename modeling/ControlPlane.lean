import ControlPlane.Lib.Cidr
import ControlPlane.Lib.Dict
import ControlPlane.Lib.Interleaving
import ControlPlane.Lib.Ipaddress
import ControlPlane.Lib.Json
import ControlPlane.Lib.JsonRead
import ControlPlane.Lib.JsonRoundTrip
import ControlPlane.Lib.JsonIndent
import ControlPlane.Lib.JsonText
import ControlPlane.Lib.PercentEncoding
import ControlPlane.Lib.Prog
import ControlPlane.Lib.Regex
import ControlPlane.Lib.Binary64
import ControlPlane.Lib.Receiver
import ControlPlane.Lib.Text
import ControlPlane.Lib.Traverse
import ControlPlane.Lib.Url
import ControlPlane.Lib.Utf8
import ControlPlane.Lib.Xml
import ControlPlane.Intel.Agent
import ControlPlane.Intel.Backend
import ControlPlane.Intel.Cleared
import ControlPlane.Intel.Conflict
import ControlPlane.Intel.Consistency
import ControlPlane.Intel.Enforcement
import ControlPlane.Intel.Gate
import ControlPlane.Intel.Graph
import ControlPlane.Intel.Guardrails
import ControlPlane.Intel.LimitRuns
import ControlPlane.Intel.Limits
import ControlPlane.Intel.Models
import ControlPlane.Intel.NeverBlock
import ControlPlane.Intel.Nodes
import ControlPlane.Intel.Pipeline
import ControlPlane.Intel.Placement
import ControlPlane.Intel.Prepare
import ControlPlane.Intel.PushedRule
import ControlPlane.Intel.Reasoning
import ControlPlane.Intel.Rebind
import ControlPlane.Intel.RuleId
import ControlPlane.Intel.ResponseCache
import ControlPlane.Intel.Startup
import ControlPlane.Intel.Stored
import ControlPlane.Intel.Topology
import ControlPlane.Intel.TtlPolicy
import ControlPlane.Intel.Validators
import ControlPlane.Intel.YangRule
import ControlPlane.Know.Fences
import ControlPlane.Know.HotSwap
import ControlPlane.Know.Models
import ControlPlane.Know.Parser
import ControlPlane.Know.Reader
import ControlPlane.Know.Represented
import ControlPlane.Secure.Adapter
import ControlPlane.Secure.AdapterSpec
import ControlPlane.Secure.AgentSource
import ControlPlane.Secure.Audit
import ControlPlane.Secure.AuditReport
import ControlPlane.Secure.AuditTrail
import ControlPlane.Secure.TwoStores
import ControlPlane.Secure.Broadcast
import ControlPlane.Secure.Calls
import ControlPlane.Secure.ChunkLoop
import ControlPlane.Secure.Chunks
import ControlPlane.Secure.Complete
import ControlPlane.Secure.Dispatch
import ControlPlane.Secure.Durable
import ControlPlane.Secure.Framing
import ControlPlane.Secure.FrontEnds
import ControlPlane.Secure.Payload
import ControlPlane.Secure.Policies
import ControlPlane.Secure.PolicyImport
import ControlPlane.Secure.Pool
import ControlPlane.Secure.Rbac
import ControlPlane.Secure.RoleApi
import ControlPlane.Secure.Revoke
import ControlPlane.Secure.RoleApiSpec
import ControlPlane.Secure.Routing
import ControlPlane.Secure.Server
import ControlPlane.Secure.SetDelete
import ControlPlane.Secure.Slices
import ControlPlane.Secure.Sunny
import ControlPlane.Secure.TamperLog
import ControlPlane.Secure.TamperLogger
import ControlPlane.Secure.Zones
import ControlPlane.Lib.SortedSet
import ControlPlane.Lib.Runs
import ControlPlane.Lib.Halting
import ControlPlane.Lib.Lines
import ControlPlane.Lib.Expiring
import ControlPlane.Intel.FlowWindow
import ControlPlane.Intel.EventsStore
import ControlPlane.Ids.SseServer
import ControlPlane.Ids.TailLoop
import ControlPlane.Secure.PoolRuns
import ControlPlane.Stream.Consumer
import ControlPlane.Stream.FlowIngest
import ControlPlane.Stream.Labeler
import ControlPlane.Stream.FlowAggregator
import ControlPlane.Stream.LlamaClassifier
import ControlPlane.Stream.FlowBatch
import ControlPlane.Stream.Conservation
import ControlPlane.Stream.Evidence
import ControlPlane.Stream.Suspects
import ControlPlane.Stream.FlowGate
import ControlPlane.Lib.XmlText
import ControlPlane.Secure.Replies
import ControlPlane.Secure.ZoneMaps
import ControlPlane.Intel.Correlation
import ControlPlane.Intel.PromptInjection
import ControlPlane.Intel.Prompts
import ControlPlane.Lib.JsonScan
import ControlPlane.Lib.JsonRecode
import ControlPlane.Ids.Rules
import ControlPlane.Lib.CypherTokens
import ControlPlane.Intel.QueryKg
import ControlPlane.Lib.GnmiPath
import ControlPlane.Secure.RulePaths
import ControlPlane.Know.Accepted
import ControlPlane.Know.Loaded
import ControlPlane.Know.Rows
import ControlPlane.Know.Chains
import ControlPlane.Know.Edges
import ControlPlane.Know.Graph
import ControlPlane.Know.Plane
import ControlPlane.Know.ReadBack
import ControlPlane.Know.RoundTrip
import ControlPlane.Know.Script
import ControlPlane.Know.StartUp
import ControlPlane.Lib.GraphPaths
import ControlPlane.Lib.PropertyGraph
import ControlPlane.Ids.Hub
import ControlPlane.Intel.OpenaiCompat
import ControlPlane.Intel.ToolLoop
import ControlPlane.Lib.Fanout
import ControlPlane.Lib.GoJson
import ControlPlane.Stream.Events
import ControlPlane.Stream.Relay
