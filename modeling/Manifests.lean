import Manifests.FileTree
import Manifests.Main
import Manifests.Source.TextStore
import Manifests.Proofs.Composition.Accounting
import Manifests.Proofs.Composition.FileNames
import Manifests.Proofs.Loading.LoadOrder
import Manifests.Proofs.Loading.Sandbox
import Manifests.Proofs.Composition.Registration
import Manifests.Proofs.Composition.Books
import Manifests.Proofs.Rendering.Entries
import Manifests.Proofs.Extraction.Fields
import Manifests.Proofs.Extraction.References
import Manifests.Proofs.Lists
import Manifests.Proofs.Rendering.Record
import Manifests.Proofs.Resolution
import Manifests.Proofs.Validation
import Manifests.Proofs.Composition.References
import Manifests.Proofs.Rendering.Rules
import Manifests.Proofs.Composition.Rules
import Manifests.Proofs.Composition.Titles
import Manifests.Proofs.Composition.Stages
import Manifests.Proofs.Composition.Appending
import Manifests.Proofs.Composition.Reordering
import Manifests.Proofs.Rendering.HttpRoutes
import Manifests.Proofs.Composition.Isolation
import Manifests.Proofs.Extraction.Acceptance
import Manifests.Proofs.Extraction.Nulls
import Manifests.Proofs.TextMap
import Manifests.Proofs.Shuffles
import Manifests.Proofs.Extraction.Steady
import Manifests.Proofs.Extraction.KeyOrder
import Manifests.Proofs.Composition.KeyOrder
import Manifests.Proofs.ByteOrder
import Manifests.Proofs.Rendering.Slots
import Manifests.Proofs.Rendering.Layout
import Manifests.Proofs.Rendering.Order
import Manifests.Proofs.Rendering.Injective
import Manifests.Proofs.Rendering.BuildConfigs
import Manifests.Proofs.Rendering.Numbers
import Manifests.Proofs.Composition.Origins
import Manifests.Proofs.Extraction.Sentinels
import Manifests.Proofs.Composition.Sentinels
import Manifests.Proofs.Composition.FilledNames
import Manifests.Proofs.Extraction.Metadata
import Manifests.Proofs.Composition.Namespaces
import Manifests.Proofs.Yaml.Document
import Manifests.Proofs.NumberTexts
import Manifests.Proofs.Loading.Runs
import Manifests.Proofs.Loading.Values
import Manifests.Proofs.Loading.Names
import Manifests.Proofs.CommandLine.Listing
import Manifests.Proofs.Resolution.Pointwise
import Manifests.Proofs.Validation.Paths
import Manifests.Proofs.Defaults
import Manifests.Proofs.Name.Form
import Manifests.Proofs.Name.Labels
import Manifests.Proofs.Extraction.Quotes
import Manifests.FileTree.OperatingSystem
import Manifests.Proofs.CommandLine.Effects
import Manifests.Proofs.Loading.Texts
import Manifests.Proofs.Extraction.Defects
import Manifests.Proofs.Loading.Shape
import Manifests.Proofs.Loading.Keys
import Manifests.Proofs.Loading.Walk
import Manifests.Proofs.Loading.Termination
import Manifests.Proofs.Loading.Provenance
import Manifests.Proofs.Composition.Subjects
import Manifests.Proofs.Json
import Manifests.Proofs.CommandLine.Complaints
