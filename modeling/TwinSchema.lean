import TwinSchema.Main
import TwinSchema.Node.Candidate
import TwinSchema.Node.Equality
import TwinSchema.Proofs.Document.RoundTrip
import TwinSchema.Proofs.Source.Balanced
import TwinSchema.Proofs.Source.Tame
import TwinSchema.Proofs.Document.Reading
import TwinSchema.Proofs.Node.Canonical
import TwinSchema.Proofs.Pipeline
import TwinSchema.Proofs.Source.Declarations
import TwinSchema.Proofs.Source.Descriptions
import TwinSchema.Proofs.Conversion.FromDocument
import TwinSchema.Proofs.Conversion.FromSource
import TwinSchema.Proofs.Source.Layout
import TwinSchema.Proofs.Source.Preface
import TwinSchema.Proofs.Document.Comments
import TwinSchema.Proofs.Relaxed.Worn
import TwinSchema.Proofs.Conversion.Detection
import TwinSchema.Proofs.Node.Obtained
import TwinSchema.Proofs.Relaxed.Padded
import TwinSchema.Proofs.Relaxed.PaddedRepair
import TwinSchema.Proofs.Relaxed.PaddedPass
import TwinSchema.Proofs.Relaxed.PaddedReading
import TwinSchema.Proofs.Source.Closed
import TwinSchema.Proofs.Fields
import TwinSchema.Proofs.Source.Entry
import TwinSchema.Proofs.Relaxed.Commented
import TwinSchema.Proofs.Source.Fallback
import TwinSchema.Proofs.Source.Links
import TwinSchema.Proofs.Source.Reindenting
import TwinSchema.Proofs.Relaxed.Lines
import TwinSchema.Proofs.Relaxed.Strings
import TwinSchema.Proofs.Source.Key
import TwinSchema.Proofs.Source.Lines
import TwinSchema.Proofs.Source.Reference
import TwinSchema.Proofs.Node.Walk
import TwinSchema.Proofs.Source.Vocabulary
import TwinSchema.Proofs.Relaxed.CommentFree
import TwinSchema.Proofs.Relaxed.Requoting
import TwinSchema.Proofs.Text.Position
