import ResourceStubs.Main
import ResourceStubs.Proofs.Containment
import ResourceStubs.Proofs.Inlining
import ResourceStubs.Proofs.Json.RoundTrip
import ResourceStubs.Proofs.RouteVariables
import ResourceStubs.Proofs.TraitFaults
import ResourceStubs.Proofs.DryRun
import ResourceStubs.Proofs.Rearranging
import ResourceStubs.Proofs.Erasure
import ResourceStubs.Proofs.Yaml.Scalars
import ResourceStubs.Proofs.Yaml.Scanning
import ResourceStubs.Proofs.Yaml.Parsing
import ResourceStubs.Proofs.Yaml.Decoding
import ResourceStubs.Proofs.Yaml.JsonText
import ResourceStubs.Proofs.Parameters
import ResourceStubs.Proofs.Regeneration
import ResourceStubs.Proofs.TypeText
import ResourceStubs.Proofs.Json.Grammar
import ResourceStubs.Proofs.Json.Spelling
import ResourceStubs.Proofs.Json.Layout
import ResourceStubs.Proofs.Json.Edits
import ResourceStubs.Proofs.Json.Stability
import ResourceStubs.Proofs.Json.StableObjects
import ResourceStubs.Proofs.Json.StableRecords
import ResourceStubs.Proofs.Json.EditedUnits
import ResourceStubs.Proofs.PackageDirectories
import ResourceStubs.Proofs.SafeNames
import ResourceStubs.Proofs.AnnotationText
import ResourceStubs.Proofs.Json.Integers
import ResourceStubs.Proofs.DocComments
import ResourceStubs.Proofs.EventLog
