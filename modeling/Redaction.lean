import Redaction.Main
import Redaction.Proofs.Scrubbing.Coverage
import Redaction.Proofs.Scrubbing.Reordering
import Redaction.Proofs.Json.Outline
import Redaction.Proofs.Scrubbing.Frame
import Redaction.Proofs.Scrubbing.Secrecy
import Redaction.Proofs.Scrubbing.Accounting
import Redaction.Proofs.Text.Cutting
import Redaction.Proofs.Text.Form
import Redaction.Proofs.Mask.Strings
import Redaction.Proofs.Mask.Entries
import Redaction.Proofs.Rules.Compile
import Redaction.Proofs.Scrubbing.Repetition
import Redaction.Proofs.Json.Printing
import Redaction.Proofs.Mask.Commuting
import Redaction.Proofs.Rules.Validation
import Redaction.Proofs.Rules.Combining
import Redaction.Proofs.Rules.Names
import Redaction.Proofs.Scrubbing.Merging
import Redaction.Proofs.Scrubbing.Document
import Redaction.Proofs.Cli.Scrub
import Redaction.Proofs.Cli.Names
import Redaction.Proofs.Cli.Rules
import Redaction.Proofs.Rules.Json
import Redaction.Proofs.Mask.Writing
import Redaction.Proofs.Rules.Problems
import Redaction.Proofs.Json.Likeness
import Redaction.Proofs.Mask.Likeness
import Redaction.Proofs.Scrubbing.Disclosure
import Redaction.Proofs.Mask.Secrecy
import Redaction.Proofs.Rules.Paths
import Redaction.Proofs.Cli.Silence
import Redaction.Proofs.Path.Stack
