import TaskFlow.Main
import TaskFlow.Json.Choice
import TaskFlow.Proofs.Graph.Neighbours
import TaskFlow.Proofs.Definition.RoundTrip
import TaskFlow.Proofs.Graph.EdgeSet
import TaskFlow.Proofs.Graph.Restriction
import TaskFlow.Proofs.Command.Validation
import TaskFlow.Proofs.Json.Choice
import TaskFlow.Proofs.Json.Coherence
import TaskFlow.Proofs.Definition.Coherence
import TaskFlow.Proofs.Graph.Renaming
import TaskFlow.Proofs.Graph.Rejection
import TaskFlow.Proofs.TaskType.Modality
import TaskFlow.Proofs.TaskType.Boundary
import TaskFlow.Proofs.Graph.Cycle
import TaskFlow.Proofs.CommandLine.Environment
import TaskFlow.Proofs.Json.Reading
import TaskFlow.Proofs.Command.Output
import TaskFlow.Proofs.Graph.Extension
import TaskFlow.Proofs.Graph.Residue
import TaskFlow.Proofs.Graph.Walks
import TaskFlow.Proofs.Registry.Consistency
import TaskFlow.Proofs.Registry.FirstDefect
import TaskFlow.Proofs.Settings.DocsBase
import TaskFlow.Proofs.Form.HelpLink
import TaskFlow.Proofs.Form.Renderings
import TaskFlow.Proofs.Graph.Storage
import TaskFlow.Proofs.CommandLine.Placement
