import Winnow.Css.Lexer

/-!
# Reading style sheets

Brackets are matched first: a block that is still open at the end is closed
there, and a closing bracket without an opening one is a flaw. Declarations and
rules are then read off the list of nodes at the top, each in one pass with the
piece that is still open as its state.
-/

namespace Winnow.Css

/-! ## Brackets -/

/-- What an open bracket belongs to. -/
inductive Opener where
  | block (bracket : Bracket)
  | call (name : List Char)
  deriving DecidableEq, Repr

namespace Opener

/-- The bracket that closes it. -/
def bracket : Opener → Bracket
  | block bracket => bracket
  | call _ => .round

/-- The node with the given content. -/
def close (opener : Opener) (content : List Node) : Node :=
  match opener with
  | block bracket => .block bracket content
  | call name => .function name content

end Opener

/-- Open brackets, the innermost first, each with the nodes before it, the latest first. -/
abbrev Nest := List (Opener × List Node)

/-- Close everything that is open. -/
def closeAll (nodes : List Node) : Nest → List Node
  | [] => nodes.reverse
  | (opener, before) :: outer => closeAll (opener.close nodes.reverse :: before) outer

/-- Match the brackets of lexemes. `nodes` holds what stands in the innermost
open bracket, the latest first. -/
def nest (nodes : List Node) (outer : Nest) : List Lexeme → List Node
  | [] => closeAll nodes outer
  | .token token :: rest => nest (.token token :: nodes) outer rest
  | .call name :: rest => nest [] ((.call name, nodes) :: outer) rest
  | .opening bracket :: rest => nest [] ((.block bracket, nodes) :: outer) rest
  | .closing bracket :: rest =>
    match outer with
    | (opener, before) :: outer =>
      if opener.bracket = bracket then
        nest (opener.close nodes.reverse :: before) outer rest
      else nest (.token (.flaw (.unmatched bracket)) :: nodes) ((opener, before) :: outer) rest
    | [] => nest (.token (.flaw (.unmatched bracket)) :: nodes) [] rest

/-- The nodes of a text. -/
def components (keepComments : Bool) (css : List Char) : Except Fault (List Node) := do
  return nest [] [] (← lex keepComments css)

/-! ## Declarations -/

/-- A place in the value of a declaration. -/
inductive ValuePlace where
  | value
  /-- After an exclamation mark. -/
  | bang
  /-- After the word that may follow it. -/
  | important
  deriving DecidableEq, Repr

/-- The value of a declaration of which a part has been read. -/
structure ValueDraft where
  /-- The nodes read, the latest first. -/
  nodes : List Node := []
  /-- The nodes before the latest exclamation mark, the latest first. -/
  beforeBang : List Node := []
  place : ValuePlace := .value
  /-- Has anything but white space been read? -/
  filled : Bool := false
  /-- Has a curly block been read after something else? -/
  mixed : Bool := false

/-- The word after the exclamation mark. -/
def importantName : List Char := "important".toList

namespace ValueDraft

/-- The draft with a further node. -/
def add (draft : ValueDraft) (node : Node) : ValueDraft :=
  let nodes := node :: draft.nodes
  let plain : ValueDraft := { draft with nodes := nodes, place := .value, filled := true }
  match node with
  | .token (.sign text) =>
    if text == ['!'] && draft.place = .value then
      { draft with nodes := nodes, place := .bang, beforeBang := draft.nodes }
    else plain
  | .token (.ident name) =>
    if draft.place = .bang && Node.lowerName name == importantName then
      { draft with nodes := nodes, place := .important }
    else plain
  | .token (.whitespace _) => { draft with nodes := nodes }
  | .token (.comment _) => { draft with nodes := nodes }
  | .block .curly _ => { plain with mixed := draft.mixed || draft.filled }
  | _ => plain

end ValueDraft

/-- A place that is no declaration and no rule. -/
def invalid : Node := .token (.flaw .invalid)

/-- The declaration that starts with a node. -/
def declarationOf (first : Node) (rest : List Node) : Node :=
  match first, rest.dropWhile Node.isBlank with
  | .token (.ident name), colon :: value =>
    if colon.isSign [':'] then
      let draft := value.foldl ValueDraft.add {}
      if draft.mixed then invalid
      else if draft.place = .important then .declaration name draft.beforeBang.reverse true
      else .declaration name draft.nodes.reverse false
    else invalid
  | _, _ => invalid

/-- What is being read in a list of declarations. -/
inductive OpenItem where
  | nothing
  /-- An at-rule with the nodes after its keyword, the latest first. -/
  | atRule (name : List Char) (subject : List Node)
  /-- A declaration with the nodes after its first, the latest first. -/
  | declaration (first : Node) (rest : List Node)

/-- Read a list of declarations and at-rules. -/
def declarationsFrom : OpenItem → List Node → List Node
  | .nothing, [] => []
  | .atRule name subject, [] => [.atRule name subject.reverse none]
  | .declaration first rest, [] => [declarationOf first rest.reverse]
  | .nothing, node :: nodes =>
    if node.isBlank then node :: declarationsFrom .nothing nodes
    else match node with
      | .token (.atKeyword name) => declarationsFrom (.atRule name []) nodes
      | node =>
        if node.isSign [';'] then declarationsFrom .nothing nodes
        else declarationsFrom (.declaration node []) nodes
  | .atRule name subject, node :: nodes =>
    match node with
    | .block .curly content =>
      .atRule name subject.reverse (some content) :: declarationsFrom .nothing nodes
    | node =>
      if node.isSign [';'] then
        .atRule name subject.reverse none :: declarationsFrom .nothing nodes
      else declarationsFrom (.atRule name (node :: subject)) nodes
  | .declaration first rest, node :: nodes =>
    if node.isSign [';'] then declarationOf first rest.reverse :: declarationsFrom .nothing nodes
    else declarationsFrom (.declaration first (node :: rest)) nodes

/-- Read nodes as a list of declarations and at-rules. -/
def declarations (nodes : List Node) : List Node := declarationsFrom .nothing nodes

/-! ## Rules -/

/-- What is being read in a style sheet. -/
inductive OpenRule where
  | nothing
  /-- An at-rule with the nodes after its keyword, the latest first. -/
  | atRule (name : List Char) (subject : List Node)
  /-- A rule with its selectors, the latest first. -/
  | rule (selectors : List Node)

/-- Read rules. The marks of comments around a sheet are passed over. -/
def rulesFrom : OpenRule → List Node → List Node
  | .nothing, [] => []
  | .atRule name subject, [] => [.atRule name subject.reverse none]
  | .rule _, [] => [invalid]
  | .nothing, node :: nodes =>
    if node.isBlank then node :: rulesFrom .nothing nodes
    else match node with
      | .token (.atKeyword name) => rulesFrom (.atRule name []) nodes
      | .block .curly content => .rule [] content :: rulesFrom .nothing nodes
      | node =>
        if node.isSign "<!--".toList || node.isSign "-->".toList then rulesFrom .nothing nodes
        else rulesFrom (.rule [node]) nodes
  | .atRule name subject, node :: nodes =>
    match node with
    | .block .curly content =>
      .atRule name subject.reverse (some content) :: rulesFrom .nothing nodes
    | node =>
      if node.isSign [';'] then .atRule name subject.reverse none :: rulesFrom .nothing nodes
      else rulesFrom (.atRule name (node :: subject)) nodes
  | .rule selectors, node :: nodes =>
    match node with
    | .block .curly content => .rule selectors.reverse content :: rulesFrom .nothing nodes
    | node => rulesFrom (.rule (node :: selectors)) nodes

/-- Read nodes as the rules of a style sheet. -/
def rules (nodes : List Node) : List Node := rulesFrom .nothing nodes

/-- Read a style sheet. -/
def parseSheet (keepComments : Bool) (css : List Char) : Except Fault (List Node) := do
  return rules (← components keepComments css)

/-- Read a list of declarations. -/
def parseDeclarations (keepComments : Bool) (css : List Char) : Except Fault (List Node) := do
  return declarations (← components keepComments css)

end Winnow.Css
