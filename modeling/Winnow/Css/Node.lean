/-!
# Style sheet nodes

A style sheet is read into a forest: tokens, blocks and functions with content,
and on top of them declarations and rules. What cannot be read is a node of its
own, so that reading never fails. Searches through a forest come twice: with a
stack of nodes still to visit, and by recursion over the forest.
-/

namespace Winnow.Css

/-- The three kinds of brackets. -/
inductive Bracket where
  | round
  | square
  | curly
  deriving DecidableEq, Repr

namespace Bracket

/-- The opening character. -/
def opening : Bracket → Char
  | round => '('
  | square => '['
  | curly => '\x7b'

/-- The closing character. -/
def closing : Bracket → Char
  | round => ')'
  | square => ']'
  | curly => '\x7d'

end Bracket

/-- What is wrong at a place that cannot be read. -/
inductive Flaw where
  /-- A line ends inside a string. -/
  | badString
  | badUrl
  /-- A closing bracket without its opening one. -/
  | unmatched (bracket : Bracket)
  | endInString
  | endInUrl
  /-- Something that is no declaration and no rule. -/
  | invalid
  deriving DecidableEq, Repr

/-- A piece of a style sheet without inner structure. -/
inductive Token where
  | whitespace (text : List Char)
  | comment (text : List Char)
  /-- Punctuation. -/
  | sign (text : List Char)
  | ident (name : List Char)
  | atKeyword (name : List Char)
  /-- A name after a number sign; it may also be one that an identifier cannot be. -/
  | hash (name : List Char) (isIdent : Bool)
  /-- A string; at the end of the input its closing quote may be missing. -/
  | quoted (text : List Char) (closed : Bool)
  /-- An address without quotes. -/
  | url (text : List Char) (closed : Bool)
  /-- A range of code points. -/
  | codePoints (first last : Nat)
  /-- A number as it is written. -/
  | number (written : List Char)
  | percentage (written : List Char)
  | dimension (written unit : List Char)
  | flaw (flaw : Flaw)
  deriving DecidableEq, Repr

/-- A node of a style sheet. -/
inductive Node where
  | token (token : Token)
  | block (bracket : Bracket) (content : List Node)
  | function (name : List Char) (arguments : List Node)
  | declaration (name : List Char) (value : List Node) (important : Bool)
  | rule (selectors content : List Node)
  /-- An at-rule, which has a block or ends with a semicolon. -/
  | atRule (name : List Char) (subject : List Node) (content : Option (List Node))
  deriving Repr

namespace Node

/-- White space. -/
def isWhitespace : Node → Bool
  | token (.whitespace _) => true
  | _ => false

/-- White space and comments. -/
def isBlank : Node → Bool
  | token (.whitespace _) => true
  | token (.comment _) => true
  | _ => false

/-- Is the node this punctuation? -/
def isSign (text : List Char) : Node → Bool
  | token (.sign written) => written == text
  | _ => false

/-- Is the node a place that cannot be read? -/
def isFlaw : Node → Bool
  | token (.flaw _) => true
  | _ => false

/-- The name of a function that takes an address. -/
def urlName : List Char := ['u', 'r', 'l']

/-- The form of a letter that names are compared in. -/
def lowerLetter (c : Char) : Char :=
  if 'A' ≤ c ∧ c ≤ 'Z' then Char.ofNat (c.toNat + 0x20) else c

/-- A name with the letters A to Z in lower case. -/
def lowerName (name : List Char) : List Char := name.map lowerLetter

/-- Does the node itself name an address? -/
def isUrl : Node → Bool
  | token (.url ..) => true
  | function name _ => lowerName name == urlName
  | _ => false

/-- The nodes directly inside a node. -/
def inner : Node → List Node
  | token _ => []
  | block _ content => content
  | function _ arguments => arguments
  | declaration _ value _ => value
  | rule selectors content => selectors ++ content
  | atRule _ subject content => subject ++ content.getD []

/-! ## Visiting every node -/

mutual

/-- The number of nodes at and below a node. -/
def size : Node → Nat
  | token _ => 1
  | block _ content => sizeAll content + 1
  | function _ arguments => sizeAll arguments + 1
  | declaration _ value _ => sizeAll value + 1
  | rule selectors content => sizeAll selectors + sizeAll content + 1
  | atRule _ subject none => sizeAll subject + 1
  | atRule _ subject (some content) => sizeAll subject + sizeAll content + 1

/-- The number of nodes of a forest. -/
def sizeAll : List Node → Nat
  | [] => 0
  | node :: rest => size node + sizeAll rest

end

theorem sizeAll_append (front back : List Node) :
    sizeAll (front ++ back) = sizeAll front + sizeAll back := by
  induction front with
  | nil => simp [sizeAll]
  | cons node rest ih => simp only [List.cons_append, sizeAll, ih]; omega

theorem sizeAll_inner (node : Node) : sizeAll node.inner + 1 = size node := by
  cases node with
  | atRule name subject content =>
    cases content <;> simp [inner, size, sizeAll_append]
  | _ => simp [inner, size, sizeAll, sizeAll_append]

theorem sizeAll_reverse (nodes : List Node) : sizeAll nodes.reverse = sizeAll nodes := by
  induction nodes with
  | nil => rfl
  | cons node rest ih =>
    simp only [List.reverse_cons, sizeAll_append, sizeAll, ih]
    omega

/-- The nodes met when those still to visit are kept on a stack: the top is met next, and what is
directly inside it is put on the stack in order, so that the last of it is on top. -/
def walkStack : List Node → List Node
  | [] => []
  | node :: pending => node :: walkStack (node.inner.reverse ++ pending)
termination_by pending => sizeAll pending
decreasing_by
  have := sizeAll_inner node
  simp only [sizeAll_append, sizeAll_reverse, sizeAll]
  omega

/-- The nodes of a forest, met from its end. -/
def walk (nodes : List Node) : List Node := walkStack nodes.reverse

/-- Does an address occur at any depth? -/
def containsUrl (nodes : List Node) : Bool := (walk nodes).any isUrl

/-- Does a place that cannot be read occur at any depth? -/
def containsFlaw (nodes : List Node) : Bool := (walk nodes).any isFlaw

mutual

/-- Does a node with the property occur at or below a node? -/
def holdsAt (p : Node → Bool) : Node → Bool
  | token t => p (token t)
  | block bracket content => p (block bracket content) || holdsIn p content
  | function name arguments => p (function name arguments) || holdsIn p arguments
  | declaration name value important =>
    p (declaration name value important) || holdsIn p value
  | rule selectors content =>
    p (rule selectors content) || holdsIn p selectors || holdsIn p content
  | atRule name subject none => p (atRule name subject none) || holdsIn p subject
  | atRule name subject (some content) =>
    p (atRule name subject (some content)) || holdsIn p subject || holdsIn p content

/-- Does a node with the property occur in a forest? -/
def holdsIn (p : Node → Bool) : List Node → Bool
  | [] => false
  | node :: rest => holdsAt p node || holdsIn p rest

end

end Node

end Winnow.Css
