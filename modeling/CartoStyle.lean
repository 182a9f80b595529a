import CartoStyle.CommandLine
import CartoStyle.Main
import CartoStyle.Proofs.Decimal.Shortest
import CartoStyle.Proofs.Decimal.Literal
import CartoStyle.Proofs.Filter.Grammar
import CartoStyle.Proofs.Filter.Parse
import CartoStyle.Proofs.Filter.Expressible
import CartoStyle.Proofs.Filter.Comparisons
import CartoStyle.Proofs.Filter.Lexing
import CartoStyle.Proofs.Filter.RoundTrip
import CartoStyle.Proofs.Xml.Content
import CartoStyle.Proofs.Dictionary
import CartoStyle.Proofs.Xml.Expansion
import CartoStyle.Proofs.Xml.RoundTrip
import CartoStyle.Proofs.Stylesheet.AttrField
import CartoStyle.Proofs.Stylesheet.NumberRow
import CartoStyle.Proofs.Stylesheet.NumberList
import CartoStyle.Proofs.Stylesheet.Carriage
import CartoStyle.Proofs.Stylesheet.Table
import CartoStyle.Proofs.Stylesheet.Glyph
import CartoStyle.Proofs.Stylesheet.Written
import CartoStyle.Proofs.Stylesheet.Returned
import CartoStyle.Proofs.Stylesheet.Symbolizers
import CartoStyle.Proofs.Filter.Settled
import CartoStyle.Proofs.Stylesheet.Fixed
import CartoStyle.Proofs.Stylesheet.Arrival
import CartoStyle.Proofs.Stylesheet.Rule
import CartoStyle.Proofs.Stylesheet.Style
import CartoStyle.Proofs.Stylesheet.Texts
import CartoStyle.Proofs.Stylesheet.Document
import CartoStyle.Proofs.Stylesheet.Lossless
import CartoStyle.Proofs.Binary64.Rounding
import CartoStyle.Proofs.Json.Literal
import CartoStyle.Proofs.Json.Kept
import CartoStyle.Proofs.Stylesheet.Canonical
import CartoStyle.Proofs.Conversion
import CartoStyle.Proofs.Filter.Json
import CartoStyle.Proofs.Json.Readable
import CartoStyle.Proofs.Style.Numbers
import CartoStyle.Proofs.Style.Reread
import CartoStyle.Proofs.Stylesheet.WriteFault
import CartoStyle.Proofs.Stylesheet.ReadFault
import CartoStyle.Proofs.Xml.Normalized
import CartoStyle.Proofs.Filter.Misfit
import CartoStyle.Proofs.Stylesheet.Rewritten
import CartoStyle.Proofs.Stylesheet.EmptyDashes
import CartoStyle.Proofs.Stylesheet.Alike
import CartoStyle.Proofs.Stylesheet.Plain
import CartoStyle.Proofs.Json.Parts
import CartoStyle.Proofs.Filter.Levels
import CartoStyle.Proofs.Filter.Cut
import CartoStyle.Proofs.Filter.PatternMatch
import CartoStyle.Proofs.Stylesheet.Foreign
import CartoStyle.Proofs.Stylesheet.Overlaid
import CartoStyle.Proofs.Stylesheet.Appended
import CartoStyle.Proofs.Stylesheet.Ignored
import CartoStyle.Proofs.Stylesheet.Hidden
import CartoStyle.Proofs.Decimal.Numeral
import CartoStyle.Proofs.Filter.Spelling
import CartoStyle.Proofs.Filter.Word
import CartoStyle.Proofs.Filter.Layout
import CartoStyle.Proofs.Filter.Tiling
import CartoStyle.Proofs.Filter.Arrays
import CartoStyle.Proofs.FileSystem
