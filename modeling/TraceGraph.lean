import TraceGraph.Main
import TraceGraph.Proofs.Record.Stream
import TraceGraph.Proofs.TraceFiles.Truncation
import TraceGraph.Proofs.TraceFiles.Interruption
import TraceGraph.Proofs.Checkpoint
import TraceGraph.Proofs.Disassembly.Callers
import TraceGraph.Proofs.Graph.Building
import TraceGraph.Proofs.Record.Binding
import TraceGraph.Proofs.Record.Deletion
import TraceGraph.Proofs.Record.Failing
import TraceGraph.Proofs.TraceFiles.Tidiness
import TraceGraph.Proofs.Graph.Repair
import TraceGraph.Proofs.Record.NormalForm
import TraceGraph.Proofs.Disassembly.Preservation
import TraceGraph.Proofs.Graph.Drawing
import TraceGraph.Proofs.Record.Flaws
import TraceGraph.Proofs.TraceFiles.Independence
import TraceGraph.Proofs.Record.Consumption
import TraceGraph.Proofs.Record.Calls
import TraceGraph.Proofs.Scan.Conservation
import TraceGraph.Proofs.Command.Run
