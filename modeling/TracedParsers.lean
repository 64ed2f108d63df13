import TracedParsers.Formats.DigitList
import TracedParsers.Formats.Nesting
import TracedParsers.Formats.Nesting.Tree
import TracedParsers.Grammar.Calls
import TracedParsers.Grammar.Consuming
import TracedParsers.Token.Spanned
import TracedParsers.Proofs.Remainder
import TracedParsers.Proofs.Simulation
import TracedParsers.Proofs.Matching
import TracedParsers.Proofs.Span
import TracedParsers.Proofs.Decimal
import TracedParsers.Proofs.Adequacy
import TracedParsers.Proofs.Offsets
import TracedParsers.Proofs.Extension
import TracedParsers.Proofs.Conservation
import TracedParsers.Grammar.Errors
import TracedParsers.Parser.Errors
import TracedParsers.Proofs.Errors
import TracedParsers.Proofs.Representation
import TracedParsers.Grammar.Media
import TracedParsers.Proofs.Suffixes
import TracedParsers.Grammar.Nodes
import TracedParsers.Proofs.Origins
import TracedParsers.Parser.Values
import TracedParsers.Grammar.Shape
import TracedParsers.Proofs.Recognition
import TracedParsers.Proofs.Termination
import TracedParsers.Grammar.Characters
import TracedParsers.Proofs.Characters
import TracedParsers.Proofs.Unsigned
import TracedParsers.Proofs.Nesting
import TracedParsers.Proofs.Repetition
import TracedParsers.Parser.Bracketing
import TracedParsers.Proofs.Sequences
import TracedParsers.Proofs.Alternatives
import TracedParsers.Proofs.Literals
import TracedParsers.Proofs.Keywords
import TracedParsers.Parser.Pipeline
import TracedParsers.Proofs.Pipelines
import TracedParsers.Proofs.DigitLists
import TracedParsers.Proofs.Messages
