import Polymind.Jobs.Equiv.Transitions
import Polymind.Jobs.Equiv.Invariant
import Polymind.Jobs.Equiv.Runs
import Polymind.Jobs.Equiv.Evolution
import Polymind.Jobs.Equiv.States
import Polymind.Jobs.Equiv.Machine
import Polymind.Jobs.Equiv.Retries
import Polymind.Jobs.Equiv.Reuse
import Polymind.Jobs.Equiv.Generations
import Polymind.Jobs.Equiv.Retention
import Polymind.Jobs.Equiv.Wakeup
import Polymind.Jobs.Equiv.Fencing
import Polymind.Documents.Models
import Polymind.Documents.Equiv.Assumptions
import Polymind.Documents.Equiv.WriteOnce
import Polymind.Digestion.Models
import Polymind.Digestion.Sizing
import Polymind.Digestion.Planning
import Polymind.Digestion.Workflow
import Polymind.Digestion.Equiv.Structure
import Polymind.Digestion.Equiv.OneBlock
import Polymind.Digestion.Equiv.Evidence
import Polymind.Digestion.Equiv.Tree
import Polymind.Digestion.Equiv.Sizes
import Polymind.Digestion.Equiv.Citations
import Polymind.Digestion.Equiv.Lineage
import Polymind.Digestion.Equiv.Contradictions
import Polymind.Digestion.Equiv.Replay
import Polymind.Documents.Equiv.Idempotence
import Polymind.Llm.Equiv.Windows
import Polymind.Publication.Equiv.History
import Polymind.Governance.Equiv.Budgets
import Polymind.Governance.Equiv.States
import Polymind.Governance.Execution
import Polymind.Governance.Equiv.PaidOnce
import Polymind.Security.Authority
import Polymind.Security.Identity
import Polymind.Security.Equiv.Changes
import Polymind.Security.Equiv.Invariant
import Polymind.Security.Equiv.Tombstones
import Polymind.Security.Equiv.Freshness
import Polymind.Security.Equiv.Tenants
import Polymind.Security.Equiv.Isolation
import Polymind.Security.Equiv.Identity
import Polymind.Digestion.Equiv.Resolution
import Polymind.Publication.Retrieval
import Polymind.Publication.Analysis
import Polymind.Publication.Equiv.Containment
import Polymind.Llm.Streams
import Polymind.Llm.Equiv.Streams
import Polymind.Graph.Streaming
import Polymind.Graph.Equiv.Streaming
import Polymind.Publication.Loading
import Polymind.Publication.Equiv.SparseIsolation
import Polymind.Lib.Slices
import Polymind.Memory.MemoryStore
import Polymind.Memory.Equiv.MemoryStore
import Polymind.Publication.Encoding
import Polymind.Publication.Planning
import Polymind.Lib.Sorting
import Polymind.Lib.Lines
import Polymind.Lib.Datetime
import Polymind.Lib.Isoformat
import Polymind.Documents.Extraction
import Polymind.Publication.Equiv.Records
import Polymind.Publication.Equiv.Identity
import Polymind.Documents.Equiv.Extraction
import Polymind.Jobs.Equiv.Worker
import Polymind.Jobs.Stamps
import Polymind.Jobs.Equiv.Times
import Polymind.Jobs.Equiv.Stamps
import Polymind.Llm.Equiv.Generation
import Polymind.Governance.Equiv.Settlement
import Polymind.Llm.Generation
import Polymind.Governance.Generation
import Polymind.Lib.DecimalText
import Polymind.Governance.Money
import Polymind.Governance.Equiv.Money
import Polymind.Digestion.Equiv.Status
import Polymind.Lib.JsonSchema
import Polymind.Llm.AzureSchema
import Polymind.Llm.Equiv.AzureSchema
import Polymind.Llm.Equiv.Conversion
import Polymind.Digestion.Managed
import Polymind.Llm.Structured
import Polymind.Digestion.Equiv.Envelope
import Polymind.Digestion.Equiv.Rendering
import Polymind.Digestion.ManagedHandler
import Polymind.Digestion.Equiv.ManagedHandler
import Polymind.Lib.Processes
import Polymind.Publication.Service
import Polymind.Publication.Equiv.Service
import Polymind.Publication.Equiv.Resumption
