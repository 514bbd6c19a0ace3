import ConstraintFacets.Main
import ConstraintFacets.Json.RoundTrip
import ConstraintFacets.Proofs.Extraction.Collected
import ConstraintFacets.Proofs.SchemaType.Narrowing
import ConstraintFacets.Proofs.Fragment.Decoding
import ConstraintFacets.Proofs.Fragment.Flattening
import ConstraintFacets.Proofs.Snapshot.Annotations
import ConstraintFacets.Proofs.Snapshot.Definitions
import ConstraintFacets.Proofs.Definition.DocumentOrder
import ConstraintFacets.Proofs.ExplicitType.CacheRuns
import ConstraintFacets.Proofs.Definition.ClientViolations
import ConstraintFacets.Proofs.Extraction.Requirement
import ConstraintFacets.Proofs.Extraction.Suppression
import ConstraintFacets.Proofs.Extraction.IgnoredGroups
import ConstraintFacets.Proofs.Fragment.ProcessedTypes
import ConstraintFacets.Proofs.ExplicitType.PackageTypes
import ConstraintFacets.Proofs.ExplicitType.Precedence
import ConstraintFacets.Proofs.Extraction.Decisive
import ConstraintFacets.Proofs.Extraction.Horizon
import ConstraintFacets.Proofs.SchemaType.LegalSteps
import ConstraintFacets.Proofs.ExplicitType.Respelling
import ConstraintFacets.Proofs.ExplicitType.ArrayTypes
import ConstraintFacets.Proofs.Extraction.DecimalBounds
import ConstraintFacets.Proofs.Extraction.Descriptions
import ConstraintFacets.Proofs.CommandLine.OutputModes
import ConstraintFacets.Proofs.SchemaType.StandIns
import ConstraintFacets.Proofs.Snapshot.MemberOrder
import ConstraintFacets.Proofs.Snapshot.BuiltAnnotations
import ConstraintFacets.Proofs.Snapshot.HeldBack
import ConstraintFacets.Proofs.Snapshot.Reordering
import ConstraintFacets.Proofs.NCName.Production
import ConstraintFacets.Proofs.SchemaType.Counts
import ConstraintFacets.Proofs.SchemaType.ShownNames
import ConstraintFacets.Proofs.Settings.Adjustments
