import SchemaDiagram.Main
import SchemaDiagram.Proofs.Command.Init
import SchemaDiagram.Proofs.Diagram
import SchemaDiagram.Proofs.Disk.Removal
import SchemaDiagram.Proofs.Report.WellFormed
import SchemaDiagram.Proofs.Schema.Ladder
import SchemaDiagram.Proofs.Source.Attribute
import SchemaDiagram.Proofs.Source.Definition
import SchemaDiagram.Proofs.Source.Scan
import SchemaDiagram.Proofs.Source.SeenOptions
import SchemaDiagram.Proofs.Source.Separation
import SchemaDiagram.Proofs.SourceFile.PassedOver
import SchemaDiagram.Proofs.Text.Comment
import SchemaDiagram.Proofs.Schema.Label
import SchemaDiagram.Proofs.Report.Repetition
import SchemaDiagram.Proofs.Schema.Renaming
import SchemaDiagram.Proofs.Source.ClassHeader
import SchemaDiagram.Proofs.Source.Receiver
import SchemaDiagram.Proofs.Source.TypeName
import SchemaDiagram.Proofs.SourceFile.Listing
import SchemaDiagram.Proofs.Settings
import SchemaDiagram.Proofs.Command.WorkingDirectory
import SchemaDiagram.Proofs.Command.View
import SchemaDiagram.Proofs.Source.Offset
import SchemaDiagram.Proofs.Text.LiteralWalk
