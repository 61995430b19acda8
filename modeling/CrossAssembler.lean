import CrossAssembler.Main
import CrossAssembler.Proofs.Assembly.Bounds
import CrossAssembler.Proofs.Assembly.Disassembly
import CrossAssembler.Proofs.Assembly.LabelResolution
import CrossAssembler.Proofs.Source.Position
import CrossAssembler.Proofs.Source.Recovery
import CrossAssembler.Proofs.Source.Extent
import CrossAssembler.Proofs.Statement.Spelling
import CrossAssembler.Proofs.Assembly.Bodies
import CrossAssembler.Proofs.Assembly.Faults
import CrossAssembler.Proofs.Assembly.Blame
import CrossAssembler.Proofs.Source.Padding
import CrossAssembler.Proofs.Alike
import CrossAssembler.Proofs.Assembly.Renumbering
import CrossAssembler.Proofs.Assembly.Significance
import CrossAssembler.Proofs.Assembly.Order
import CrossAssembler.Proofs.Image.Rendering
import CrossAssembler.Proofs.Assembly.WordBounds
import CrossAssembler.Proofs.Assembly.Renaming
import CrossAssembler.Proofs.Command.Frame
import CrossAssembler.Proofs.Layout.Disjointness
import CrossAssembler.Proofs.Image.Addressing
import CrossAssembler.Proofs.Assembly.Substitution
import CrossAssembler.Proofs.Section.Relocation
import CrossAssembler.Proofs.Assembly.Windows
import CrossAssembler.Proofs.Section.Capacity
import CrossAssembler.Proofs.Source.Joining
import CrossAssembler.Proofs.Assembly.OneLine
import CrossAssembler.Proofs.Image.BitStream
import CrossAssembler.Proofs.Image.Texts
import CrossAssembler.Proofs.Labels.History
import CrossAssembler.Proofs.Labels.Namespaces
import CrossAssembler.Proofs.Constants.Assignments
import CrossAssembler.Proofs.Literal.Grammar
import CrossAssembler.Proofs.Section.Tiling
import CrossAssembler.Proofs.Report.Dump
import CrossAssembler.Proofs.Source.Indexed
import CrossAssembler.Proofs.Source.Provenance
import CrossAssembler.Proofs.Source.Framing
