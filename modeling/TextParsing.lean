import TextParsing.Grammar.FormLaws
import TextParsing.Proofs.Chains
import TextParsing.Proofs.Commitment
import TextParsing.Proofs.Erasure
import TextParsing.Proofs.Extent
import TextParsing.Proofs.Logging
import TextParsing.Proofs.Lossless
import TextParsing.Proofs.Provenance
import TextParsing.Proofs.Shift
import TextParsing.Proofs.Storing
import TextParsing.Grammar.Substitution
import TextParsing.Proofs.Unfolding
import TextParsing.Proofs.WholeText
import TextParsing.Proofs.Termination
import TextParsing.Proofs.Depth
import TextParsing.Proofs.Untagging
import TextParsing.Proofs.Sequencing
import TextParsing.Proofs.Moving
import TextParsing.Proofs.Repeating
import TextParsing.Proofs.Lines
import TextParsing.Proofs.Rendering
import TextParsing.Proofs.Calls
import TextParsing.Proofs.Counting
import TextParsing.Proofs.Alternation
import TextParsing.Proofs.Placement
import TextParsing.Proofs.Numerals
import TextParsing.Proofs.Joining
import TextParsing.Proofs.Layering
import TextParsing.Proofs.Bracketing
import TextParsing.Proofs.Spelling
import TextParsing.Proofs.Scanning
import TextParsing.Proofs.Tiling
