import SchemaScribe.Main
import SchemaScribe.Schema.Filter
import SchemaScribe.Settings.Declarations
import SchemaScribe.Proofs.ArgumentClasses
import SchemaScribe.Proofs.BuiltSchema
import SchemaScribe.Proofs.QuoteFree
import SchemaScribe.Proofs.Redescription
import SchemaScribe.Proofs.DescriptionSafety
import SchemaScribe.Proofs.EqualShapes
import SchemaScribe.Proofs.DefinitionsDeclared
import SchemaScribe.Proofs.ExtensionOrder
import SchemaScribe.Proofs.DeclaredMembers
import SchemaScribe.Proofs.NameIndependence
import SchemaScribe.Proofs.ScopeClashes
import SchemaScribe.Proofs.ObjectLookup
import SchemaScribe.Proofs.DefinitionOrder
import SchemaScribe.Proofs.Placement
import SchemaScribe.Proofs.Reading
import SchemaScribe.Proofs.CanonicalText
import SchemaScribe.Proofs.RoundTrip
import SchemaScribe.Proofs.DescriptionErasure
import SchemaScribe.Proofs.SingleDeclarations
import SchemaScribe.Proofs.ExactImports
import SchemaScribe.Proofs.TokenLayout
import SchemaScribe.Proofs.OpenEffect
import SchemaScribe.Proofs.Noninterference
import SchemaScribe.Proofs.Appending
import SchemaScribe.Proofs.FileChanges
import SchemaScribe.Proofs.Runs
import SchemaScribe.Proofs.RunEffects
import SchemaScribe.Proofs.ValidSettings
import SchemaScribe.Proofs.Layering
import SchemaScribe.Proofs.LiteralReading
import SchemaScribe.Proofs.VariantComparison
import SchemaScribe.Proofs.TypeReading
import SchemaScribe.Proofs.SettingsSteps
import SchemaScribe.Proofs.PackageNames
import SchemaScribe.Proofs.SchemaCollection
