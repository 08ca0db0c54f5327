import Scriptlet.Error.Report
import Scriptlet.Proofs.Grammar.FirstError
import Scriptlet.Proofs.Grammar.Overtaken
import Scriptlet.Proofs.Grammar.Reuse
import Scriptlet.Proofs.Tree.Yield
import Scriptlet.Proofs.Tree.View
import Scriptlet.Tree.Json
import Scriptlet.Proofs.Grammar.Log
import Scriptlet.Proofs.Grammar.Hint
import Scriptlet.Proofs.Grammar.Parallel
import Scriptlet.Proofs.Token.FreeCursor
import Scriptlet.Proofs.Token.Join
import Scriptlet.Proofs.Grammar.Sequence
import Scriptlet.Proofs.Grammar.Layout
import Scriptlet.Proofs.Grammar.Aftermath
import Scriptlet.Proofs.Token.LongestMatch
import Scriptlet.Proofs.Grammar.AssignmentChain
import Scriptlet.Proofs.Binary64.Rounding
import Scriptlet.Proofs.Grammar.Numeral
import Scriptlet.Proofs.Error.Caret
import Scriptlet.Proofs.Grammar.Recursion
import Scriptlet.Proofs.Grammar.Halting
