import ContractCapsule.Library.Index
import ContractCapsule.Library.JsonText
import ContractCapsule.Library.PyJson
import ContractCapsule.Library.Pattern
import ContractCapsule.Library.Closure
import ContractCapsule.Library.Table
import ContractCapsule.Library.Run
import ContractCapsule.Registry.AppendOnly
import ContractCapsule.Library.Worklist
import ContractCapsule.Resolve.Owners
import ContractCapsule.Resolve.Globs
import ContractCapsule.Build.SourceMaps
import ContractCapsule.Build.Promotion
import ContractCapsule.Compile.Agreement
import ContractCapsule.Compile.OrderIndependence
import ContractCapsule.Compile.Unambiguous
import ContractCapsule.Compile.NativeEvidence
import ContractCapsule.Store.Reversibility
import ContractCapsule.Store.Isolation
import ContractCapsule.Store.TornRead
import ContractCapsule.Formal.Substitution
import ContractCapsule.Formal.Closures
import ContractCapsule.Twin.Attempts
import ContractCapsule.Twin.Observation
import ContractCapsule.Twin.Trees
import ContractCapsule.Twin.Deltas
import ContractCapsule.Twin.GitTree
import ContractCapsule.Adapters.Events
import ContractCapsule.Twin.Process
import ContractCapsule.Twin.Staging
import ContractCapsule.Twin.DockerLifecycle
import ContractCapsule.Twin.Bookkeeping
import ContractCapsule.Twin.DockerRunner
import ContractCapsule.Mcp.Stdio
import ContractCapsule.Mcp.Discovery
import ContractCapsule.Experiments.RunOnce
import ContractCapsule.Storage.Cas
import ContractCapsule.Baselines.Verbatim
import ContractCapsule.Store.Enforcement
import ContractCapsule.Build.Evidence
import ContractCapsule.Library.Base64
import ContractCapsule.Library.Sealed
import ContractCapsule.Twin.Coverage
import ContractCapsule.Twin.Approvals
import ContractCapsule.Twin.Reading
import ContractCapsule.Twin.Verdict
import ContractCapsule.Twin.Stages
import ContractCapsule.Twin.Honest
import ContractCapsule.Twin.HonestPairs
