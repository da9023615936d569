import TileGrammar.Codepoint.Allocator
import TileGrammar.Codepoint.Band
import TileGrammar.Command.Line
import TileGrammar.Command.Run
import TileGrammar.Compiler.Category
import TileGrammar.Compiler.Compiler
import TileGrammar.Compiler.Derivation
import TileGrammar.Decimal.Scaled
import TileGrammar.Decimal.Shortest
import TileGrammar.Digest.Base64
import TileGrammar.Digest.Sha256
import TileGrammar.Edge.Catalog
import TileGrammar.Edge.Code
import TileGrammar.Edge.Map
import TileGrammar.Edge.Signature
import TileGrammar.Error
import TileGrammar.FileTree
import TileGrammar.Glyph.Facet
import TileGrammar.Glyph.Glyph
import TileGrammar.Grammar.Dial
import TileGrammar.Grammar.Grammar
import TileGrammar.Grammar.Prompt
import TileGrammar.Grammar.Spec
import TileGrammar.Json.Basic
import TileGrammar.Json.Parser
import TileGrammar.Json.Printer
import TileGrammar.Json.Record
import TileGrammar.Main
import TileGrammar.Order.Dict
import TileGrammar.Pack.Pack
import TileGrammar.Palette.Color
import TileGrammar.Palette.Palette
import TileGrammar.Palette.Set
import TileGrammar.Picture.Canvas
import TileGrammar.Picture.Region
import TileGrammar.Proofs.Codepoint.Allocation
import TileGrammar.Proofs.Codepoint.Interchange
import TileGrammar.Proofs.Codepoint.Permanence
import TileGrammar.Proofs.Codepoint.Queue
import TileGrammar.Proofs.Codepoint.Spelling
import TileGrammar.Proofs.Command.Agreement
import TileGrammar.Proofs.Compiler.Accounting
import TileGrammar.Proofs.Compiler.BandLaw
import TileGrammar.Proofs.Compiler.Batch
import TileGrammar.Proofs.Compiler.EdgeListing
import TileGrammar.Proofs.Compiler.Export
import TileGrammar.Proofs.Compiler.FaultIsolation
import TileGrammar.Proofs.Compiler.Footprint
import TileGrammar.Proofs.Compiler.GlyphLookup
import TileGrammar.Proofs.Compiler.InPlace
import TileGrammar.Proofs.Compiler.Interchange
import TileGrammar.Proofs.Compiler.Recompilation
import TileGrammar.Proofs.Compiler.Registry
import TileGrammar.Proofs.Compiler.Relisting
import TileGrammar.Proofs.Compiler.Session
import TileGrammar.Proofs.Digest.Collision
import TileGrammar.Proofs.Edge.Adjacency
import TileGrammar.Proofs.Edge.MapCheck
import TileGrammar.Proofs.Edge.Repair
import TileGrammar.Proofs.Edge.Scan
import TileGrammar.Proofs.Edge.SignatureIndex
import TileGrammar.Proofs.Edge.Spelling
import TileGrammar.Proofs.Edge.Turning
import TileGrammar.Proofs.Glyph.Biome
import TileGrammar.Proofs.Glyph.Document
import TileGrammar.Proofs.Glyph.DottedId
import TileGrammar.Proofs.Glyph.Tags
import TileGrammar.Proofs.Grammar.Abridged
import TileGrammar.Proofs.Grammar.Checked
import TileGrammar.Proofs.Grammar.DialWords
import TileGrammar.Proofs.Grammar.Document
import TileGrammar.Proofs.Grammar.Family
import TileGrammar.Proofs.Grammar.Orbit
import TileGrammar.Proofs.Grammar.Plan
import TileGrammar.Proofs.Grammar.PromptReading
import TileGrammar.Proofs.Grammar.TileId
import TileGrammar.Proofs.Json.Abridged
import TileGrammar.Proofs.Json.Alike
import TileGrammar.Proofs.Json.Canonical
import TileGrammar.Proofs.Json.Compact
import TileGrammar.Proofs.Json.Layout
import TileGrammar.Proofs.Json.Merging
import TileGrammar.Proofs.Json.NormalForm
import TileGrammar.Proofs.Json.Numerals
import TileGrammar.Proofs.Json.OrderFree
import TileGrammar.Proofs.Json.Overriding
import TileGrammar.Proofs.Json.Records
import TileGrammar.Proofs.Json.Strings
import TileGrammar.Proofs.Order.Distinct
import TileGrammar.Proofs.Order.Overlay
import TileGrammar.Proofs.Order.Traversal
import TileGrammar.Proofs.Pack.Abridged
import TileGrammar.Proofs.Pack.Directory
import TileGrammar.Proofs.Pack.EngineGate
import TileGrammar.Proofs.Palette.Channels
import TileGrammar.Proofs.Palette.Spelling
import TileGrammar.Proofs.Picture.Asking
import TileGrammar.Proofs.Picture.Bytes
import TileGrammar.Proofs.Picture.Drawing
import TileGrammar.Proofs.Picture.Motion
import TileGrammar.Proofs.Picture.Pixels
import TileGrammar.Proofs.Text.Bytes
import TileGrammar.Proofs.Text.Digits
import TileGrammar.Proofs.Text.Hexadecimal
import TileGrammar.Proofs.Text.Parts
import TileGrammar.Proofs.Validation.Blemishes
import TileGrammar.Proofs.Validation.Comparison
import TileGrammar.Proofs.Validation.Contract
import TileGrammar.Proofs.Validation.ForeignColors
import TileGrammar.Proofs.Validation.Lighting
import TileGrammar.Proofs.Validation.Loosening
import TileGrammar.Proofs.Validation.PackedBytes
import TileGrammar.Proofs.Validation.Reach
import TileGrammar.Proofs.Validation.Rules
import TileGrammar.Proofs.Validation.Sketch
import TileGrammar.Proofs.Validation.Symmetry
import TileGrammar.Proofs.Validation.Verdicts
import TileGrammar.Proofs.Version.Precedence
import TileGrammar.Proofs.Version.Spelling
import TileGrammar.Settings
import TileGrammar.Text.Basic
import TileGrammar.Text.Case
import TileGrammar.Text.CaseTable
import TileGrammar.Text.Quoted
import TileGrammar.Validation.Judgement
import TileGrammar.Validation.Rule
import TileGrammar.Validation.Verdict
import TileGrammar.Validation.Violation
import TileGrammar.Version
