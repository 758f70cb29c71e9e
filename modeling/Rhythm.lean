import Rhythm.Text.Blank
import Rhythm.Text.Letter
import Rhythm.Text.Numeral
import Rhythm.Random.Stream
import Rhythm.Random.Sample
import Rhythm.Random.Normal
import Rhythm.Random.Sampler
import Rhythm.Pattern
import Rhythm.Pattern.Codec
import Rhythm.Generator.Euclidean
import Rhythm.Generator.Indispensability
import Rhythm.Generator.Polygon
import Rhythm.Generator.Random
import Rhythm.Generator.Morse
import Rhythm.Generator.Preset
import Rhythm.Accent
import Rhythm.Circle
import Rhythm.Quantization
import Rhythm.Notation.Lexer
import Rhythm.Notation.Expr
import Rhythm.Notation.Printer
import Rhythm.Notation.Cursor
import Rhythm.Notation.Parser
import Rhythm.Notation.Primary
import Rhythm.Notation.Scenes
import Rhythm.Notation.Highlight
import Rhythm.Evolution
import Rhythm.Notation.Eval
import Rhythm.Performance
import Rhythm.Store
import Rhythm.Settings
import Rhythm.Session
import Rhythm.Settings.Json
import Rhythm.Settings.Toml
import Rhythm.Console.Style
import Rhythm.Console.Report
import Rhythm.Console.Registry
import Rhythm.Console.Help
import Rhythm.Console.Command
import Rhythm.Console.Shell
import Rhythm.Console.Arguments
import Rhythm.Console.CommandLine
import Rhythm.Main
import Rhythm.Proofs.Pattern.Cyclic
import Rhythm.Proofs.Pattern.Checked
import Rhythm.Proofs.Pattern.Onsets
import Rhythm.Proofs.Pattern.Combination
import Rhythm.Proofs.Generator.Evenness
import Rhythm.Proofs.Generator.Counts
import Rhythm.Proofs.Generator.Ranking
import Rhythm.Proofs.Generator.Checked
import Rhythm.Proofs.Random.Sample
import Rhythm.Proofs.Generator.Random
import Rhythm.Proofs.Generator.Delivery
import Rhythm.Proofs.Pattern.Numerals
import Rhythm.Proofs.Pattern.Decoding
import Rhythm.Proofs.Notation.Numerals
import Rhythm.Proofs.Store.Lookup
import Rhythm.Proofs.Store.Bound
import Rhythm.Proofs.Store.Victim
import Rhythm.Proofs.Store.Recency
import Rhythm.Proofs.Store.Eviction
import Rhythm.Proofs.Store.Alike
import Rhythm.Proofs.Notation.Shape
import Rhythm.Proofs.Notation.Course
import Rhythm.Proofs.Notation.Draws
import Rhythm.Proofs.Notation.Grammar
import Rhythm.Proofs.Notation.Passage
import Rhythm.Proofs.Notation.Primaries
import Rhythm.Proofs.Notation.Chains
import Rhythm.Proofs.Notation.Acceptance
import Rhythm.Proofs.Notation.Shifting
import Rhythm.Proofs.Notation.Extent
import Rhythm.Proofs.Notation.Segments
import Rhythm.Proofs.Notation.SceneLists
import Rhythm.Proofs.Notation.Places
import Rhythm.Proofs.Notation.Cutting
import Rhythm.Proofs.Notation.Checked
import Rhythm.Proofs.Notation.Demands
import Rhythm.Proofs.Notation.Rereading
import Rhythm.Proofs.Notation.Absorption
import Rhythm.Proofs.Notation.CallTexts
import Rhythm.Proofs.Text.LetterCase
import Rhythm.Proofs.Notation.Spelling
import Rhythm.Proofs.Notation.Layout
import Rhythm.Proofs.Notation.LetterCase
import Rhythm.Proofs.Notation.Likeness
import Rhythm.Proofs.Notation.LikeReadings
import Rhythm.Proofs.Notation.Capitals
import Rhythm.Proofs.Notation.Spacing
import Rhythm.Proofs.Notation.Blame
import Rhythm.Proofs.Notation.SpansInText
import Rhythm.Proofs.Notation.Highlighting
import Rhythm.Proofs.Performance.Turn
import Rhythm.Proofs.Performance.Round
import Rhythm.Proofs.Performance.Alike
import Rhythm.Proofs.Evolution.Transformation
import Rhythm.Proofs.Evolution.Lengthening
import Rhythm.Proofs.Evolution.Offset
import Rhythm.Proofs.Accent
import Rhythm.Proofs.Circle
import Rhythm.Proofs.Quantization
import Rhythm.Proofs.Refinement
import Rhythm.Proofs.Session.Calls
import Rhythm.Proofs.Session.Separation
import Rhythm.Proofs.Session.Turns
import Rhythm.Proofs.Session.Failure
import Rhythm.Proofs.Session.Summary
import Rhythm.Proofs.Session.Degrading
import Rhythm.Proofs.Session.Seeds
import Rhythm.Proofs.Session.Transformations
import Rhythm.Proofs.Session.Standing
import Rhythm.Proofs.Console.Registry
import Rhythm.Proofs.Console.Calls
import Rhythm.Proofs.Console.Standing
import Rhythm.Proofs.Session.Slots
import Rhythm.Proofs.Settings.Json
