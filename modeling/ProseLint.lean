import ProseLint.Address.Link
import ProseLint.Address.Parts
import ProseLint.Address.Percent
import ProseLint.Address.Punycode
import ProseLint.Boundary.EndRule
import ProseLint.Boundary.Extractor
import ProseLint.CommonMark.BlockLine
import ProseLint.CommonMark.BlockStart
import ProseLint.CommonMark.Character
import ProseLint.CommonMark.Definition
import ProseLint.CommonMark.Delimiter
import ProseLint.CommonMark.Destination
import ProseLint.CommonMark.Escape
import ProseLint.CommonMark.Html
import ProseLint.CommonMark.Inline
import ProseLint.CommonMark.Label
import ProseLint.CommonMark.Reader
import ProseLint.CommonMark.References
import ProseLint.CommonMark.Token
import ProseLint.Configuration.Basic
import ProseLint.Configuration.Entry
import ProseLint.Configuration.Loading
import ProseLint.Configuration.Problem
import ProseLint.Document.Builder
import ProseLint.Document.Position
import ProseLint.Document.Sentence
import ProseLint.Document.Stored
import ProseLint.Document.Suppression
import ProseLint.Document.Token
import ProseLint.Document.Tree
import ProseLint.Json.Basic
import ProseLint.Json.Printer
import ProseLint.Json.Reader
import ProseLint.Layout.Grouping
import ProseLint.Layout.Passage
import ProseLint.Main
import ProseLint.Markup.Classified
import ProseLint.Markup.File
import ProseLint.Markup.Format
import ProseLint.Markup.Markdown.Cursor
import ProseLint.Markup.Markdown.Inline
import ProseLint.Markup.Markdown.Reading
import ProseLint.Markup.Path
import ProseLint.Markup.Reading
import ProseLint.Markup.Rest.Body
import ProseLint.Markup.Rest.Inline
import ProseLint.Markup.Rest.Title
import ProseLint.Markup.Review
import ProseLint.Markup.Wiki
import ProseLint.Number.Binary64
import ProseLint.Number.Decimal
import ProseLint.Number.Numeral
import ProseLint.Number.Shortest
import ProseLint.Proofs.Boundary.Partition
import ProseLint.Proofs.Boundary.Ranges
import ProseLint.Proofs.Boundary.Runs
import ProseLint.Proofs.Boundary.Search
import ProseLint.Proofs.Boundary.Visible
import ProseLint.Proofs.Configuration.Entry
import ProseLint.Proofs.Configuration.Faults
import ProseLint.Proofs.Configuration.Loading
import ProseLint.Proofs.Configuration.Saving
import ProseLint.Proofs.Document.Building
import ProseLint.Proofs.Document.Contents
import ProseLint.Proofs.Document.ElementPlaces
import ProseLint.Proofs.Document.JoinedHeaders
import ProseLint.Proofs.Document.ListBlocks
import ProseLint.Proofs.Document.Nesting
import ProseLint.Proofs.Document.Relabeling
import ProseLint.Proofs.Document.Stored
import ProseLint.Proofs.Json.Fields
import ProseLint.Proofs.Json.RoundTrip
import ProseLint.Proofs.Layout.Conservation
import ProseLint.Proofs.Layout.Groups
import ProseLint.Proofs.Layout.Headers
import ProseLint.Proofs.Layout.InlineRanges
import ProseLint.Proofs.Layout.Links
import ProseLint.Proofs.Layout.Lowering
import ProseLint.Proofs.Layout.Order
import ProseLint.Proofs.Layout.Paragraphs
import ProseLint.Proofs.Layout.Passage
import ProseLint.Proofs.Layout.Sections
import ProseLint.Proofs.Layout.Units
import ProseLint.Proofs.List.Map
import ProseLint.Proofs.Markup.Advance
import ProseLint.Proofs.Markup.BlankLines
import ProseLint.Proofs.Markup.BlockBodies
import ProseLint.Proofs.Markup.BlockCommands
import ProseLint.Proofs.Markup.Blocks
import ProseLint.Proofs.Markup.Changes
import ProseLint.Proofs.Markup.CodeSpans
import ProseLint.Proofs.Markup.Commands
import ProseLint.Proofs.Markup.Comments
import ProseLint.Proofs.Markup.Documents
import ProseLint.Proofs.Markup.FirstSentences
import ProseLint.Proofs.Markup.Headings
import ProseLint.Proofs.Markup.InlineMarkup
import ProseLint.Proofs.Markup.Kinds
import ProseLint.Proofs.Markup.LineBreaks
import ProseLint.Proofs.Markup.LinkedText
import ProseLint.Proofs.Markup.Links
import ProseLint.Proofs.Markup.ListLevels
import ProseLint.Proofs.Markup.Lists
import ProseLint.Proofs.Markup.Looks
import ProseLint.Proofs.Markup.Origin
import ProseLint.Proofs.Markup.Places
import ProseLint.Proofs.Markup.Plain
import ProseLint.Proofs.Markup.PlainBlocks
import ProseLint.Proofs.Markup.Provenance
import ProseLint.Proofs.Markup.Separation
import ProseLint.Proofs.Markup.SingleLine
import ProseLint.Proofs.Markup.SparedEscapes
import ProseLint.Proofs.Markup.Spelling
import ProseLint.Proofs.Markup.Starts
import ProseLint.Proofs.Markup.Suppression
import ProseLint.Proofs.Markup.Titles
import ProseLint.Proofs.Markup.Walks
import ProseLint.Proofs.Number.Decimal
import ProseLint.Proofs.Number.Rounding
import ProseLint.Proofs.Report.Elements
import ProseLint.Proofs.Report.Grouping
import ProseLint.Proofs.Source.Blocks
import ProseLint.Proofs.Source.Doubled
import ProseLint.Proofs.Source.Edits
import ProseLint.Proofs.Source.Enclosures
import ProseLint.Proofs.Source.Escapes
import ProseLint.Proofs.Source.Lines
import ProseLint.Proofs.Source.Moving
import ProseLint.Proofs.Source.Origin
import ProseLint.Proofs.Symbol.Table
import ProseLint.Proofs.Text.Kinds
import ProseLint.Proofs.Text.Markup
import ProseLint.Proofs.Text.Pieces
import ProseLint.Proofs.Text.Tokens
import ProseLint.Proofs.Text.Utf8
import ProseLint.Proofs.Text.Visible
import ProseLint.Proofs.Validation.Batch
import ProseLint.Proofs.Validation.Dispatch
import ProseLint.Proofs.Validation.Expressions
import ProseLint.Proofs.Validation.FrequentStarts
import ProseLint.Proofs.Validation.Numbering
import ProseLint.Proofs.Validation.RepeatedWords
import ProseLint.Proofs.Validation.Spacing
import ProseLint.Proofs.Validation.Spans
import ProseLint.Proofs.Validation.StartCounts
import ProseLint.Report.Basic
import ProseLint.Report.Group
import ProseLint.Service.Arguments
import ProseLint.Service.CommandLine
import ProseLint.Service.Http
import ProseLint.Source.Enclosure
import ProseLint.Source.Erasure
import ProseLint.Source.Line
import ProseLint.Source.Reading
import ProseLint.Symbol.Table
import ProseLint.Text.Alphanumeric
import ProseLint.Text.Basic
import ProseLint.Text.Blank
import ProseLint.Text.CaseMap
import ProseLint.Text.Caseless
import ProseLint.Text.CharSet
import ProseLint.Text.Digit
import ProseLint.Text.Entity
import ProseLint.Text.Lowercase
import ProseLint.Text.Pattern
import ProseLint.Text.Printable
import ProseLint.Text.Punctuation
import ProseLint.Text.Quoted
import ProseLint.Text.Template
import ProseLint.Text.Utf8
import ProseLint.Validation.Linter
import ProseLint.Validation.Outcome
import ProseLint.Validation.Problem
import ProseLint.Validation.Registry
import ProseLint.Validation.Rule.Size
import ProseLint.Validation.Rule.Spacing
import ProseLint.Validation.Rule.Start
import ProseLint.Validation.Rule.Wording
import ProseLint.Validation.Setup
import ProseLint.Validation.Site
import ProseLint.Validation.Validator
