import Winnow.Css.Name

/-!
# Writing style sheets

Nodes are written one after the other. Where two of them would run together,
an empty comment keeps them apart.
-/

namespace Winnow.Css

/-- The part that a node plays for what may stand next to it. -/
inductive Shape where
  | ident
  | atKeyword
  | hash
  | dimension
  | number
  | percentage
  | codePoints
  | function
  | url
  | round
  | sign (text : List Char)
  | other
  deriving DecidableEq, Repr

/-- The part that a node plays for its neighbours. -/
def Node.shape : Node → Shape
  | .token (.ident _) => .ident
  | .token (.atKeyword _) => .atKeyword
  | .token (.hash ..) => .hash
  | .token (.dimension ..) => .dimension
  | .token (.number _) => .number
  | .token (.percentage _) => .percentage
  | .token (.codePoints ..) => .codePoints
  | .token (.url ..) => .url
  | .token (.sign text) => .sign text
  | .token _ => .other
  | .function .. => .function
  | .block .round _ => .round
  | _ => .other

namespace Shape

/-- Names and what ends in one. -/
def endsInName : Shape → Bool
  | ident => true
  | atKeyword => true
  | hash => true
  | dimension => true
  | _ => false

/-- Names and what starts with one. -/
def startsWithName : Shape → Bool
  | ident => true
  | function => true
  | url => true
  | _ => false

/-- What starts with a digit. -/
def startsWithDigit : Shape → Bool
  | number => true
  | percentage => true
  | dimension => true
  | _ => false

/-- Is this a piece of punctuation among the given characters? -/
def isSignIn (chars : List Char) : Shape → Bool
  | sign [c] => chars.contains c
  | _ => false

/-- Would the two run together? -/
def clashes (left right : Shape) : Bool :=
  ((left.endsInName || left.isSignIn ['#', '-'] || left = .number) &&
      (right.startsWithName || right.startsWithDigit || right = .codePoints)) ||
    (left.endsInName && (right.isSignIn ['-'] || right = .sign "-->".toList)) ||
    (left.isSignIn ['@'] &&
      (right.startsWithName || right = .codePoints || right.isSignIn ['-'])) ||
    ((left = .codePoints || left.isSignIn ['.', '+']) && right.startsWithDigit) ||
    (left = .codePoints && (right = .ident || right = .function || right.isSignIn ['?'])) ||
    (left.isSignIn ['$', '*', '^', '~', '|'] && right.isSignIn ['=']) ||
    (left = .ident && right = .round) ||
    (left.isSignIn ['|'] && right.isSignIn ['|']) ||
    (left.isSignIn ['/'] && right.isSignIn ['*'])

end Shape

/-- Is this white space that starts with a line feed? -/
def Node.startsLine : Node → Bool
  | .token (.whitespace ('\n' :: _)) => true
  | _ => false

/-- What is written between two nodes. -/
def separator (before : Option Shape) (node : Node) : List Char :=
  match before with
  | none => []
  | some shape =>
    if shape.clashes node.shape then "/**/".toList
    else if shape = .sign ['\\'] && !node.startsLine then ['\n']
    else []

/-- A unit. One that would read as a power of ten is escaped. -/
def writeUnit : List Char → List Char
  | 'e' :: cs => writeExponentLike 'e' cs
  | 'E' :: cs => writeExponentLike 'E' cs
  | unit => writeIdent unit
where
  /-- A unit that starts with the letter of a power of ten. -/
  writeExponentLike (letter : Char) : List Char → List Char
    | [] => "\\65 ".toList
    | '-' :: cs => "\\65 ".toList ++ writeName ('-' :: cs)
    | cs => writeIdent (letter :: cs)

/-- A place that could not be read. -/
def Flaw.write : Flaw → List Char
  | badString => "\"[bad string]\n".toList
  | badUrl => "url([bad url])".toList
  | unmatched bracket => [bracket.closing]
  | _ => []

/-- A token. -/
def Token.write : Token → List Char
  | whitespace text => text
  | comment text => "/*".toList ++ text ++ "*/".toList
  | sign text => text
  | ident name => writeIdent name
  | atKeyword name => '@' :: writeIdent name
  | hash name isIdent => '#' :: if isIdent then writeIdent name else writeName name
  | quoted text closed => '"' :: writeQuoted text ++ if closed then ['"'] else []
  | url text closed => "url(".toList ++ writeUrl text ++ if closed then [')'] else []
  | codePoints first last =>
    "U+".toList ++ Text.hexText first ++
      if first = last then [] else '-' :: Text.hexText last
  | number written => written
  | percentage written => written ++ ['%']
  | dimension written unit => written ++ writeUnit unit
  | .flaw f => f.write

mutual

/-- Does the input end in a string at the end of a function? -/
def Node.endsInString : Node → Bool
  | .function _ arguments => listEndsInString arguments
  | _ => false

/-- Does the input end in a string at the end of a list of arguments? -/
def listEndsInString : List Node → Bool
  | [] => false
  | [.token (.flaw .endInString)] => true
  | [node] => node.endsInString
  | _ :: rest => listEndsInString rest

end

mutual

/-- A node. -/
def Node.write : Node → List Char
  | .token token => token.write
  | .block bracket content => bracket.opening :: writeFrom none content ++ [bracket.closing]
  | .function name arguments =>
    writeIdent name ++ '(' :: writeFrom none arguments ++
      if listEndsInString arguments then [] else [')']
  | .declaration name value important =>
    writeIdent name ++ ':' :: writeFrom none value ++
      if important then "!important".toList else []
  | .rule selectors content =>
    writeFrom none selectors ++ '\x7b' :: writeFrom none content ++ ['\x7d']
  | .atRule name subject none => '@' :: writeIdent name ++ writeFrom none subject ++ [';']
  | .atRule name subject (some content) =>
    '@' :: writeIdent name ++ writeFrom none subject ++ '\x7b' :: writeFrom none content ++
      ['\x7d']

/-- Nodes that follow one of the given shape. A declaration ends with a semicolon. -/
def writeFrom (before : Option Shape) : List Node → List Char
  | [] => []
  | node :: rest =>
    separator before node ++ node.write ++
      (match node with
        | .declaration .. => [';']
        | _ => []) ++
      writeFrom (some node.shape) rest

end

/-- A list of nodes. -/
def write (nodes : List Node) : List Char := writeFrom none nodes

end Winnow.Css
