import Winnow.Css.Name
import Winnow.Fault

/-!
# Cutting a style sheet into tokens

The characters of a style sheet are cut into tokens and brackets. Every
character belongs to one of them. A function name takes its opening bracket
with it, and an address without quotes is one token.
-/

namespace Winnow.Css

/-- A token or a bracket. -/
inductive Lexeme where
  | token (token : Token)
  /-- A function name with its bracket. -/
  | call (name : List Char)
  | opening (bracket : Bracket)
  | closing (bracket : Bracket)
  deriving DecidableEq, Repr

/-- Line ends become line feeds, and the null character is replaced. -/
def prepare : List Char → List Char
  | [] => []
  | '\r' :: '\n' :: cs => '\n' :: prepare cs
  | c :: cs =>
    (if c = '\r' || c.toNat = 0x0c then '\n' else if c.toNat = 0 then replacement else c) ::
      prepare cs

/-! ## Numbers -/

/-- Digits after a point, with the point. -/
def readFraction : List Char → List Char × List Char
  | '.' :: cs =>
    let digits := cs.takeWhile Text.isAsciiDigit
    if digits.isEmpty then ([], '.' :: cs)
    else ('.' :: digits, cs.dropWhile Text.isAsciiDigit)
  | cs => ([], cs)

/-- A sign, if there is one. -/
def readSign : List Char → List Char × List Char
  | c :: cs => if c = '+' || c = '-' then ([c], cs) else ([], c :: cs)
  | [] => ([], [])

/-- A power of ten, with its letter. -/
def readPower : List Char → List Char × List Char
  | c :: cs =>
    if c = 'e' || c = 'E' then
      let (sign, after) := readSign cs
      let digits := after.takeWhile Text.isAsciiDigit
      if digits.isEmpty then ([], c :: cs)
      else (c :: sign ++ digits, after.dropWhile Text.isAsciiDigit)
    else ([], c :: cs)
  | [] => ([], [])

/-- A number as written and what follows it; `whole` tells whether it has neither
a fraction nor a power, and `digits` how many digits come first. -/
structure Numeral where
  written : List Char
  whole : Bool
  digits : Nat
  rest : List Char

/-- Read a number if one starts here. -/
def readNumeral? (cs : List Char) : Option Numeral :=
  let (sign, after) := readSign cs
  let digits := after.takeWhile Text.isAsciiDigit
  let (fraction, after) := readFraction (after.dropWhile Text.isAsciiDigit)
  if digits.isEmpty && fraction.isEmpty then none
  else
    let (power, rest) := readPower after
    some {
      written := sign ++ digits ++ fraction ++ power
      whole := fraction.isEmpty && power.isEmpty
      digits := digits.length
      rest := rest }

/-- Read the unit after a number. -/
def readUnit (written cs : List Char) : Token × List Char :=
  if startsName cs then
    let (unit, rest) := readName 0 cs
    (.dimension written unit, rest)
  else match cs with
    | '%' :: rest => (.percentage written, rest)
    | rest => (.number written, rest)

/-- Read up to six hexadecimal digits. -/
def readHex (cs : List Char) : List Char × List Char :=
  let digits := (cs.take 6).takeWhile Text.isHexDigit
  (digits, cs.drop digits.length)

/-- The number that hexadecimal digits stand for. -/
def hexNumber (digits : List Char) : Nat := Text.ofDigits 16 (digits.filterMap Text.hexDigit?)

/-- Read a range of code points after its letter and its sign. -/
def readCodePoints (cs : List Char) : Token × List Char :=
  let (digits, rest) := readHex cs
  let marks := ((cs.take 6).drop digits.length).takeWhile (· = '?')
  if !marks.isEmpty then
    (.codePoints (hexNumber (digits ++ marks.map fun _ => '0'))
        (hexNumber (digits ++ marks.map fun _ => 'F')),
      rest.drop marks.length)
  else
    let single := (Token.codePoints (hexNumber digits) (hexNumber digits), rest)
    match rest with
    | '-' :: c :: _ =>
      if Text.isHexDigit c then
        let (last, rest) := readHex (rest.drop 1)
        (.codePoints (hexNumber digits) (hexNumber last), rest)
      else single
    | _ => single

/-! ## Strings and addresses -/

/-- How a string or an address ends. -/
inductive Ending where
  | closed
  | endOfInput
  | broken
  deriving DecidableEq, Repr

/-- Read a string after its quote. The first `taken` characters belong to what
has been read already. -/
def readString (quote : Char) (taken : Nat) : List Char → List Char × Ending × List Char
  | [] => ([], .endOfInput, [])
  | c :: cs =>
    match taken with
    | taken + 1 => readString quote taken cs
    | 0 =>
      if c = quote then ([], .closed, cs)
      else if c = '\n' then ([], .broken, c :: cs)
      else if c = '\\' then
        if cs.isEmpty then ([], .endOfInput, [])
        else if isEscape cs then
          let (d, length) := readEscape cs
          let (text, ending, rest) := readString quote length cs
          (d :: text, ending, rest)
        else readString quote 1 cs
      else
        let (text, ending, rest) := readString quote 0 cs
        (c :: text, ending, rest)

/-- The tokens of a string. -/
def stringTokens (text : List Char) : Ending → List Token
  | .closed => [.quoted text true]
  | .endOfInput => [.quoted text false, .flaw .endInString]
  | .broken => [.flaw .badString]

/-- Characters that no address without quotes may hold. -/
def breaksUrl (c : Char) : Bool :=
  let n := c.toNat
  c = '"' || c = '\'' || c = '(' || n ≤ 8 || n = 0x0b || (0x0e ≤ n && n ≤ 0x1f) || n = 0x7f

/-- Skip what is left of an address that cannot be read. -/
def skipUrl (afterBackslash : Bool) : List Char → List Char
  | [] => []
  | c :: cs =>
    if c = ')' then if afterBackslash then skipUrl false cs else cs
    else skipUrl (c = '\\') cs

/-- Read the end of an address after white space in it. -/
def closeUrl (cs : List Char) : Ending × List Char :=
  match cs.dropWhile isSpace with
  | [] => (.endOfInput, [])
  | ')' :: rest => (.closed, rest)
  | rest => (.broken, skipUrl false rest)

/-- Read an address without quotes. The first `taken` characters belong to what
has been read already. -/
def readUrl (taken : Nat) : List Char → List Char × Ending × List Char
  | [] => ([], .endOfInput, [])
  | c :: cs =>
    match taken with
    | taken + 1 => readUrl taken cs
    | 0 =>
      if c = ')' then ([], .closed, cs)
      else if isSpace c then ([], closeUrl cs)
      else if c = '\\' && isEscape cs then
        let (d, length) := readEscape cs
        let (text, ending, rest) := readUrl length cs
        (d :: text, ending, rest)
      else if breaksUrl c then ([], .broken, skipUrl false cs)
      else
        let (text, ending, rest) := readUrl 0 cs
        (c :: text, ending, rest)

/-- The tokens of an address. -/
def urlTokens (text : List Char) : Ending → List Token
  | .closed => [.url text true]
  | .endOfInput => [.url text false, .flaw .endInUrl]
  | .broken => [.flaw .badUrl]

/-! ## All tokens -/

/-- Does a quote follow the blanks after the bracket of an address? -/
def quoteFollows (cs : List Char) : Bool :=
  match cs.dropWhile isSpace with
  | c :: _ => c = '"' || c = '\''
  | [] => false

/-- Read an identifier, a function name with its bracket, or an address. -/
def readWord (cs : List Char) : List Lexeme × List Char :=
  let (name, rest) := readName 0 cs
  match rest with
  | '(' :: after =>
    if Node.lowerName name == Node.urlName && !quoteFollows after then
      let (text, ending, rest) := readUrl 0 (after.dropWhile isSpace)
      ((urlTokens text ending).map .token, rest)
    else ([.call name], after)
  | rest => ([.token (.ident name)], rest)

/-- The characters up to the end of a comment, and those after it. -/
def readComment : List Char → List Char × List Char
  | [] => ([], [])
  | '*' :: '/' :: cs => ([], cs)
  | c :: cs =>
    let (text, rest) := readComment cs
    (c :: text, rest)

/-- Punctuation that joins with an equals sign. -/
def joinsEquals (c : Char) : Bool := c = '~' || c = '|' || c = '^' || c = '$' || c = '*'

/-- Does a range of code points start here? -/
def startsCodePoints : List Char → Bool
  | c :: '+' :: d :: _ => (c = 'u' || c = 'U') && (Text.isHexDigit d || d = '?')
  | _ => false

/-- Read punctuation and brackets. -/
def readSignLexeme (c : Char) (cs : List Char) : Lexeme × List Char :=
  match c, cs with
  | '\x7b', cs => (.opening .curly, cs)
  | '[', cs => (.opening .square, cs)
  | '(', cs => (.opening .round, cs)
  | '\x7d', cs => (.closing .curly, cs)
  | ']', cs => (.closing .square, cs)
  | ')', cs => (.closing .round, cs)
  | '<', '!' :: '-' :: '-' :: cs => (.token (.sign "<!--".toList), cs)
  | '|', '|' :: cs => (.token (.sign "||".toList), cs)
  | c, '=' :: cs =>
    if joinsEquals c then (.token (.sign [c, '=']), cs) else (.token (.sign [c]), '=' :: cs)
  | c, cs => (.token (.sign [c]), cs)

/-- Read a name after a number sign. -/
def readHash (cs : List Char) : Token × List Char :=
  let starts := match cs with
    | '\\' :: after => isEscape after
    | c :: _ => isNameChar c
    | [] => false
  if starts then
    let (name, rest) := readName 0 cs
    (.hash name (startsName cs), rest)
  else (.sign ['#'], cs)

/-- Read a keyword after an at sign. -/
def readAtKeyword (cs : List Char) : Token × List Char :=
  if startsName cs then
    let (name, rest) := readName 0 cs
    (.atKeyword name, rest)
  else (.sign ['@'], cs)

/-- Read what starts with a character that starts neither a name nor a number. -/
def readOther (keepComments : Bool) (c : Char) (cs : List Char) : List Lexeme × List Char :=
  if c = '@' then
    let (token, rest) := readAtKeyword cs
    ([.token token], rest)
  else if c = '#' then
    let (token, rest) := readHash cs
    ([.token token], rest)
  else if c = '"' || c = '\'' then
    let (text, ending, rest) := readString c 0 cs
    ((stringTokens text ending).map .token, rest)
  else match c, cs with
    | '/', '*' :: after =>
      let (text, rest) := readComment after
      (if keepComments then [.token (.comment text)] else [], rest)
    | c, cs =>
      let (lexeme, rest) := readSignLexeme c cs
      ([lexeme], rest)

/-- Read one token, or the few that belong together. -/
def readLexemes (keepComments : Bool) (c : Char) (cs : List Char) :
    Except Fault (List Lexeme × List Char) :=
  if isSpace c then
    .ok ([.token (.whitespace (c :: cs.takeWhile isSpace))], cs.dropWhile isSpace)
  else if startsCodePoints (c :: cs) then
    let (token, rest) := readCodePoints (cs.drop 1)
    .ok ([.token token], rest)
  else if "-->".toList.isPrefixOf (c :: cs) then
    .ok ([.token (.sign "-->".toList)], cs.drop 2)
  else if startsName (c :: cs) then .ok (readWord (c :: cs))
  else match readNumeral? (c :: cs) with
    | some numeral =>
      if numeral.whole && Text.maxDecimalDigits < numeral.digits then .error .numeralTooLong
      else
        let (token, rest) := readUnit numeral.written numeral.rest
        .ok ([.token token], rest)
    | none => .ok (readOther keepComments c cs)

/-- Cut characters into lexemes, at most `fuel` times. -/
def lexIn (keepComments : Bool) : Nat → List Char → Except Fault (List Lexeme)
  | 0, _ => .ok []
  | _, [] => .ok []
  | fuel + 1, c :: cs => do
    let (lexemes, rest) ← readLexemes keepComments c cs
    let more ← lexIn keepComments fuel rest
    return lexemes ++ more

/-- Cut a style sheet into lexemes. Every step takes at least one character. -/
def lex (keepComments : Bool) (css : List Char) : Except Fault (List Lexeme) :=
  lexIn keepComments css.length (prepare css)

end Winnow.Css
