import Rendition.Callout.Annotate
import Rendition.Callout.Bundle
import Rendition.Cell.Parse
import Rendition.Codec.Block
import Rendition.Codec.Inline
import Rendition.Decimal.Binary64
import Rendition.Decimal.Shortest
import Rendition.Escape
import Rendition.Footnote.Resolve
import Rendition.Index.Catalog
import Rendition.Index.Collect
import Rendition.Json.Basic
import Rendition.Json.Nested
import Rendition.Json.Printer
import Rendition.Json.Reader
import Rendition.Markup.Backend
import Rendition.Markup.Command
import Rendition.Markup.Dialect
import Rendition.Markup.DocBook
import Rendition.Markup.Element
import Rendition.Markup.Html
import Rendition.Markup.Latex
import Rendition.Markup.Plain
import Rendition.Math.AsciiMath
import Rendition.Math.MathML
import Rendition.Math.Node
import Rendition.Math.Parse
import Rendition.Math.Symbol
import Rendition.Options.Basic
import Rendition.Options.Yaml
import Rendition.Renderer.Basic
import Rendition.Renderer.Blocks
import Rendition.Renderer.Root
import Rendition.Renderer.Template
import Rendition.Text.Alphabetic
import Rendition.Text.Blank
import Rendition.Text.Fields
import Rendition.Text.Natural
import Rendition.Text.Numeral
import Rendition.Text.Ranges
import Rendition.Text.Substitution
import Rendition.Tree.Block
import Rendition.Tree.Document
import Rendition.Tree.Inline
import Rendition.Tree.Meta
import Rendition.Tree.Passages
import Rendition.Tree.Span
import Rendition.Value.Basic
import Rendition.Value.Json
import Rendition.Yaml.Basic
import Rendition.Yaml.Document
import Rendition.Yaml.Layout
import Rendition.Yaml.Lexeme
import Rendition.Yaml.Place
import Rendition.Yaml.Scalar
import Rendition.Yaml.Token
import Rendition.Yaml.Tokenize
import Rendition.Proofs.Footnote.Mention
import Rendition.Proofs.Footnote.Rank
import Rendition.Proofs.Footnote.Ledger
import Rendition.Proofs.Footnote.Numbering
import Rendition.Proofs.Footnote.Remaining
import Rendition.Proofs.Footnote.Defining
import Rendition.Proofs.Footnote.Orphans
import Rendition.Proofs.Markup.Fragment
import Rendition.Proofs.Markup.Dialects
import Rendition.Proofs.Renderer.Markups
import Rendition.Proofs.Renderer.WellFormed
import Rendition.Proofs.Json.Lexeme
import Rendition.Proofs.Json.RoundTrip
import Rendition.Proofs.Codec.Inline
import Rendition.Proofs.Codec.Document
import Rendition.Proofs.Renderer.Mirror
import Rendition.Proofs.Callout.Cut
import Rendition.Proofs.Callout.Marks
import Rendition.Proofs.Renderer.Callouts
import Rendition.Proofs.Renderer.Pairs
import Rendition.Proofs.Renderer.Serials
import Rendition.Proofs.Index.Listed
import Rendition.Proofs.Index.Occurrence
import Rendition.Proofs.Footnote.Outline
import Rendition.Proofs.Renderer.Projection
import Rendition.Proofs.Tree.Relabel
import Rendition.Proofs.Footnote.Relabel
import Rendition.Proofs.Renderer.Labels
import Rendition.Proofs.Tree.Titles
import Rendition.Proofs.Footnote.Numbered
import Rendition.Proofs.Markup.Attributes
import Rendition.Proofs.Markup.Anchors
import Rendition.Proofs.Footnote.Holding
import Rendition.Proofs.Renderer.Anchors
import Rendition.Proofs.Text.Escape
import Rendition.Proofs.Math.Elements
import Rendition.Proofs.Math.Reading
import Rendition.Proofs.Math.Nesting
import Rendition.Proofs.Math.Context
import Rendition.Proofs.Math.Arguments
import Rendition.Proofs.Math.Calls
import Rendition.Proofs.Math.Machine
import Rendition.Proofs.Math.Run
import Rendition.Proofs.Math.Scripts
import Rendition.Proofs.Math.Depth
import Rendition.Proofs.Math.Leaves
import Rendition.Proofs.Math.Spacing
import Rendition.Proofs.Math.Arity
import Rendition.Proofs.Text.Balance
import Rendition.Proofs.Math.Extent
import Rendition.Proofs.Text.Blank
import Rendition.Proofs.Math.Recovery
import Rendition.Proofs.Cell.Source
import Rendition.Proofs.Cell.Formatted
import Rendition.Proofs.Cell.Canonical
import Rendition.Proofs.Markup.Visible
import Rendition.Proofs.Text.Token
import Rendition.Proofs.Latex.Argument
import Rendition.Proofs.Latex.Sealed
import Rendition.Proofs.Latex.Levels
import Rendition.Proofs.Markup.Reference
import Rendition.Proofs.Math.Matching
import Rendition.Proofs.Math.Shape
import Rendition.Proofs.Value.Payload
import Rendition.Proofs.Text.Items
import Rendition.Proofs.Markup.Chord
