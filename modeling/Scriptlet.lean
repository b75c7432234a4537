import Scriptlet.Main
import Scriptlet.Proofs.Grammar.Asking
import Scriptlet.Proofs.Grammar.Chain
import Scriptlet.Proofs.Grammar.Ending
import Scriptlet.Proofs.Grammar.Joining
import Scriptlet.Proofs.Grammar.Nearest
import Scriptlet.Proofs.Grammar.Spacing
import Scriptlet.Proofs.Heap.Threshold
import Scriptlet.Proofs.Numeral.Acceptance
import Scriptlet.Proofs.Printing.Roundtrip
import Scriptlet.Proofs.Run.Compound
import Scriptlet.Proofs.Run.Lexical
import Scriptlet.Proofs.Run.Numbers
import Scriptlet.Proofs.Run.Pieces
import Scriptlet.Proofs.Run.Targets
import Scriptlet.Proofs.Run.Unwritten
import Scriptlet.Proofs.Scope.Rebinding
import Scriptlet.Proofs.Text.Carets
import Scriptlet.Proofs.Value.Display
import Scriptlet.Proofs.Value.Insertions
import Scriptlet.Proofs.Value.Key
