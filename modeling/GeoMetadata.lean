import GeoMetadata.Assignments
import GeoMetadata.CommandLine.Arguments
import GeoMetadata.CommandLine.Log
import GeoMetadata.CommandLine.Run
import GeoMetadata.Converter
import GeoMetadata.Converter.Session
import GeoMetadata.Document.Assembly
import GeoMetadata.Document.Node
import GeoMetadata.Failure
import GeoMetadata.Files.FilePath
import GeoMetadata.Files.FileTree
import GeoMetadata.Files.StructuredFile
import GeoMetadata.Geometry.Shape
import GeoMetadata.Geometry.WellKnownText
import GeoMetadata.Json.Reading
import GeoMetadata.Number.Binary64
import GeoMetadata.Number.DecimalText
import GeoMetadata.Number.Integer
import GeoMetadata.Number.Numeral
import GeoMetadata.Number.Rounding
import GeoMetadata.Number.Shortest
import GeoMetadata.OrderedMap
import GeoMetadata.Path.Reading
import GeoMetadata.Path.Segment
import GeoMetadata.Path.Template
import GeoMetadata.Profile.Conversion
import GeoMetadata.Profile.Derivation
import GeoMetadata.Profile.Layout
import GeoMetadata.Profile.RecordSections
import GeoMetadata.Profile.ResourceSections
import GeoMetadata.Profile.Section
import GeoMetadata.Profile.Vocabulary
import GeoMetadata.Record
import GeoMetadata.Record.Attribute
import GeoMetadata.Record.File
import GeoMetadata.Record.Loading
import GeoMetadata.Record.Validation
import GeoMetadata.Report
import GeoMetadata.Security.Classification
import GeoMetadata.Security.Mapping
import GeoMetadata.Settings
import GeoMetadata.Settings.File
import GeoMetadata.Text.Blank
import GeoMetadata.Text.Case
import GeoMetadata.Text.CaseTable
import GeoMetadata.Text.Digits
import GeoMetadata.Text.PrintTable
import GeoMetadata.Text.Quoted
import GeoMetadata.Text.Range
import GeoMetadata.Text.Search
import GeoMetadata.Text.Utf8
import GeoMetadata.Time.Calendar
import GeoMetadata.Time.Iso8601
import GeoMetadata.Time.Stamp
import GeoMetadata.Validation
import GeoMetadata.Value
import GeoMetadata.Value.Text
import GeoMetadata.Xml.Character
import GeoMetadata.Xml.Element
import GeoMetadata.Xml.Uri
import GeoMetadata.Xml.Writing
import GeoMetadata.Yaml.Cursor
import GeoMetadata.Yaml.Node
import GeoMetadata.Yaml.Scalar
import GeoMetadata.Yaml.Schema
import GeoMetadata.Yaml.Timestamp
import GeoMetadata.Yaml.Token
import GeoMetadata.Main
import GeoMetadata.Proofs.Document.Placement
import GeoMetadata.Proofs.Document.Contents
import GeoMetadata.Proofs.Document.Order
import GeoMetadata.Proofs.Outcome
import GeoMetadata.Proofs.Geometry.Shape
import GeoMetadata.Proofs.Number.DecimalText
import GeoMetadata.Proofs.Number.IntegerRange
import GeoMetadata.Proofs.Number.IntegerText
import GeoMetadata.Proofs.Path.Filling
import GeoMetadata.Proofs.Path.Template
import GeoMetadata.Proofs.Profile.Contributions
import GeoMetadata.Proofs.Profile.Convertible
import GeoMetadata.Proofs.Profile.Extent
import GeoMetadata.Proofs.Profile.Contract
import GeoMetadata.Proofs.Profile.Document
import GeoMetadata.Proofs.Profile.ElementOrder
import GeoMetadata.Proofs.Profile.Arrangement
import GeoMetadata.Proofs.Time.Calendar
import GeoMetadata.Proofs.Value.Writable
import GeoMetadata.Proofs.Xml.Building
import GeoMetadata.Proofs.CommandLine.Run
import GeoMetadata.Proofs.Document.Description
import GeoMetadata.Proofs.Document.Overwriting
import GeoMetadata.Proofs.Document.Numbering
import GeoMetadata.Proofs.Profile.Recovery
import GeoMetadata.Proofs.Profile.SiblingIndices
import GeoMetadata.Proofs.Path.Below
import GeoMetadata.Proofs.Profile.Dependence
import GeoMetadata.Proofs.Profile.Blocks
import GeoMetadata.Proofs.Profile.Confinement
import GeoMetadata.Proofs.Security.Mapping
import GeoMetadata.Proofs.Converter.Session
import GeoMetadata.Proofs.Xml.Sites
import GeoMetadata.Proofs.Xml.Resolution
import GeoMetadata.Proofs.Steps
import GeoMetadata.Proofs.Files.FileTree
import GeoMetadata.Proofs.CommandLine.Delivery
import GeoMetadata.Proofs.Json.Reading
import GeoMetadata.Proofs.Yaml.Schema
import GeoMetadata.Proofs.CommandLine.Loading
import GeoMetadata.Proofs.Profile.Nulls
import GeoMetadata.Proofs.Document.AttributeOrder
import GeoMetadata.Proofs.Profile.IdSupply
import GeoMetadata.Proofs.Profile.Ids
import GeoMetadata.Proofs.Security.Listing
import GeoMetadata.Proofs.Security.Survivors
import GeoMetadata.Proofs.Security.Classification
import GeoMetadata.Proofs.Path.Spelling
import GeoMetadata.Proofs.Path.Acceptance
import GeoMetadata.Proofs.Path.Rendering
import GeoMetadata.Proofs.Assignments.Occurrences
import GeoMetadata.Proofs.Assignments.History
import GeoMetadata.Proofs.OrderedMap
import GeoMetadata.Proofs.Text.Search
import GeoMetadata.Proofs.Text.Padded
import GeoMetadata.Proofs.Text.Case
import GeoMetadata.Proofs.Time.Instant
import GeoMetadata.Proofs.Time.Stamp
import GeoMetadata.Proofs.Profile.Dates
import GeoMetadata.Proofs.Profile.Values
import GeoMetadata.Proofs.Profile.Identifiers
import GeoMetadata.Proofs.Profile.Languages
import GeoMetadata.Proofs.Document.Siblings
import GeoMetadata.Proofs.Profile.Elements
import GeoMetadata.Proofs.Profile.TemporalElements
import GeoMetadata.Proofs.Profile.GeographicElements
import GeoMetadata.Proofs.Profile.UnreadableLocation
import GeoMetadata.Proofs.Profile.Citation
import GeoMetadata.Proofs.Profile.Passes
import GeoMetadata.Proofs.Document.Growth
import GeoMetadata.Proofs.Number.Order
import GeoMetadata.Proofs.Number.Canonical
import GeoMetadata.Proofs.Geometry.WellKnownText
import GeoMetadata.Proofs.Geometry.Bounds
import GeoMetadata.Proofs.Profile.VerticalExtent
import GeoMetadata.Proofs.Record.Loading
