import Braceline.Main
import Braceline.Proofs.Content
import Braceline.Proofs.SameSkeleton
import Braceline.Proofs.Rescan
import Braceline.Proofs.Step
import Braceline.Proofs.Verdict
import Braceline.Proofs.Footing
import Braceline.Proofs.Sequence
import Braceline.Proofs.Nested
import Braceline.Proofs.Matching
import Braceline.Proofs.WrittenOut
import Braceline.Proofs.StatementText
import Braceline.Proofs.Indentation
import Braceline.Proofs.Unparse
import Braceline.Proofs.Rendered
import Braceline.Proofs.Apart
import Braceline.Proofs.Carried
import Braceline.Proofs.Reported
import Braceline.Proofs.Loading
import Braceline.Proofs.Expression
import Braceline.Proofs.Prefixes
import Braceline.Proofs.Continuation
import Braceline.Proofs.Restart
import Braceline.Proofs.Returns
import Braceline.Proofs.Operations
import Braceline.Proofs.Origins
import Braceline.Proofs.Header
import Braceline.Proofs.Quoting
import Braceline.Proofs.CommandLine
import Braceline.Proofs.Lexemes
import Braceline.Proofs.Entries
