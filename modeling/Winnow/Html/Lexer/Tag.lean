import Winnow.Html.Token
import Winnow.Text.Lowercase

/-!
# Reading a tag

A tag is read character by character. The draft holds what has been read of it:
names in lower case, values with their references resolved, the problems met on
the way, and the place in the tag. Character lists are built in reverse.
-/

namespace Winnow.Html

/-- A place in a tag. -/
inductive TagPlace where
  | tagName
  | beforeName
  | name
  | afterName
  | beforeValue
  | quoted (quote : Char)
  | unquoted
  | afterValue
  | solidus
  deriving DecidableEq, Repr

/-- A tag of which a part has been read. -/
structure TagDraft where
  place : TagPlace := .tagName
  /-- The name of the tag, reversed. -/
  name : List Char := []
  /-- Names and values, both reversed, the latest attribute first. -/
  attributes : List (List Char × List Char) := []
  selfClosing : Bool := false
  /-- The problems met, the latest first. -/
  problems : List Problem := []
  deriving Repr

namespace TagDraft

/-- Note a problem. -/
def note (draft : TagDraft) (problem : Problem) : TagDraft :=
  { draft with problems := problem :: draft.problems }

/-- Go on to another place. -/
def goto (draft : TagDraft) (place : TagPlace) : TagDraft := { draft with place := place }

/-- Start an attribute whose name begins with a character. -/
def startAttribute (draft : TagDraft) (c : Char) : TagDraft :=
  { draft with
    place := .name
    attributes := ([Text.asciiLowerChar c], []) :: draft.attributes }

/-- Add a character to the name of the latest attribute. -/
def addToName (draft : TagDraft) (c : Char) : TagDraft :=
  match draft.attributes with
  | (name, value) :: rest =>
    { draft with attributes := (Text.asciiLowerChar c :: name, value) :: rest }
  | [] => draft

/-- Add text to the value of the latest attribute. -/
def addToValue (draft : TagDraft) (text : List Char) : TagDraft :=
  match draft.attributes with
  | (name, value) :: rest => { draft with attributes := (name, text.reverse ++ value) :: rest }
  | [] => draft

/-- Leave the name of an attribute, noting a name that was there before. -/
def leaveName (draft : TagDraft) : TagDraft :=
  match draft.attributes with
  | (name, _) :: rest =>
    if rest.any (·.1 == name) then draft.note .repeatedAttribute else draft
  | [] => draft

/-- The attributes in source order. -/
def attributeList (draft : TagDraft) : List (String × String) :=
  draft.attributes.reverse.map fun entry =>
    (String.ofList entry.1.reverse, String.ofList entry.2.reverse)

/-- The name of the tag. -/
def tagNameText (draft : TagDraft) : String := String.ofList draft.name.reverse

/-- The problems in source order. -/
def problemTokens (draft : TagDraft) : List Token := draft.problems.reverse.map .problem

/-- The tokens of a finished tag. -/
def tokens (isEnd : Bool) (draft : TagDraft) : List Token :=
  if isEnd then
    let extra := (if draft.attributes.isEmpty then [] else [Token.problem .other]) ++
      (if draft.selfClosing then [Token.problem .other] else [])
    draft.problemTokens ++ extra ++ [.endTag draft.tagNameText]
  else
    draft.problemTokens ++ [.startTag {
      name := draft.tagNameText
      attributes := Assoc.ofPairsFirst draft.attributeList
      selfClosing := draft.selfClosing }]

/-- The tokens of a tag that the input ends in: only the problems are left. -/
def cutOff (draft : TagDraft) : List Token :=
  let draft := match draft.place with
    | .tagName => draft.note .endInTagName
    | .name => (draft.note .endInAttribute).leaveName
    | .afterName => draft.note .endInAttribute
    | .unquoted => draft.note .endInAttribute
    | _ => draft.note .other
  draft.problemTokens

/-- What a character does to a draft: it is taken with some of the characters
after it, or it ends the tag. -/
inductive Step where
  | go (draft : TagDraft) (also : Nat)
  | finish (draft : TagDraft)

/-- A character where the name of an attribute may start. -/
def stepBeforeName (draft : TagDraft) (c : Char) : Step :=
  if isSpace c then .go (draft.goto .beforeName) 0
  else if c = '>' then .finish draft
  else if c = '/' then .go (draft.goto .solidus) 0
  else if c = '\'' || c = '"' || c = '=' || c = '<' then
    .go ((draft.note .quoteInAttributeName).startAttribute c) 0
  else if c = nullChar then .go ((draft.note .other).startAttribute replacement) 0
  else .go (draft.startAttribute c) 0

/-- A reference in a value that `closing` would end. -/
def stepReference (expand : Bool) (draft : TagDraft) (closing : Char) (rest : List Char) :
    Except Fault Step :=
  if expand then do
    let (text, taken) ← Entity.read true (some closing) rest
    return .go (draft.addToValue text) taken
  else return .go (draft.addToValue ['&']) 0

/-- A character of a value without quotes. -/
def stepUnquoted (expand : Bool) (draft : TagDraft) (c : Char) (rest : List Char) :
    Except Fault Step :=
  let draft := draft.goto .unquoted
  if isSpace c then .ok (.go (draft.goto .beforeName) 0)
  else if c = '&' then stepReference expand draft '>' rest
  else if c = '>' then .ok (.finish draft)
  else if c = '"' || c = '\'' || c = '=' || c = '<' || c = '\x60' then
    .ok (.go ((draft.note .other).addToValue [c]) 0)
  else if c = nullChar then .ok (.go ((draft.note .other).addToValue [replacement]) 0)
  else .ok (.go (draft.addToValue [c]) 0)

/-- What the next character does, given the characters after it. `expand` tells
whether references are resolved. -/
def step (expand : Bool) (draft : TagDraft) (c : Char) (rest : List Char) :
    Except Fault Step :=
  match draft.place with
  | .tagName =>
    if isSpace c then .ok (.go (draft.goto .beforeName) 0)
    else if c = '>' then .ok (.finish draft)
    else if c = '/' then .ok (.go (draft.goto .solidus) 0)
    else if c = nullChar then
      .ok (.go { draft.note .other with name := replacement :: draft.name } 0)
    else .ok (.go { draft with name := Text.asciiLowerChar c :: draft.name } 0)
  | .beforeName => .ok (stepBeforeName draft c)
  | .name =>
    if c = '=' then .ok (.go (draft.leaveName.goto .beforeValue) 0)
    else if c = '>' then .ok (.finish draft.leaveName)
    else if isSpace c then .ok (.go (draft.leaveName.goto .afterName) 0)
    else if c = '/' then .ok (.go (draft.leaveName.goto .solidus) 0)
    else if c = nullChar then .ok (.go ((draft.note .other).addToName replacement) 0)
    else if c = '\'' || c = '"' || c = '<' then
      .ok (.go ((draft.note .quoteInAttributeName).addToName c) 0)
    else .ok (.go (draft.addToName c) 0)
  | .afterName =>
    if isSpace c then .ok (.go draft 0)
    else if c = '=' then .ok (.go (draft.goto .beforeValue) 0)
    else if c = '>' then .ok (.finish draft)
    else if c = '/' then .ok (.go (draft.goto .solidus) 0)
    else if c = nullChar then .ok (.go ((draft.note .other).startAttribute replacement) 0)
    else if c = '\'' || c = '"' || c = '<' then
      .ok (.go ((draft.note .other).startAttribute c) 0)
    else .ok (.go (draft.startAttribute c) 0)
  | .beforeValue =>
    if isSpace c then .ok (.go draft 0)
    else if c = '"' || c = '\'' then .ok (.go (draft.goto (.quoted c)) 0)
    else if c = '>' then .ok (.finish (draft.note .other))
    else if c = '=' || c = '<' || c = '\x60' then
      .ok (.go (((draft.note .other).goto .unquoted).addToValue [c]) 0)
    else stepUnquoted expand draft c rest
  | .quoted quote =>
    if c = quote then .ok (.go (draft.goto .afterValue) 0)
    else if c = '&' then stepReference expand draft quote rest
    else if c = nullChar then .ok (.go ((draft.note .other).addToValue [replacement]) 0)
    else .ok (.go (draft.addToValue [c]) 0)
  | .unquoted => stepUnquoted expand draft c rest
  | .afterValue =>
    if isSpace c then .ok (.go (draft.goto .beforeName) 0)
    else if c = '>' then .ok (.finish draft)
    else if c = '/' then .ok (.go (draft.goto .solidus) 0)
    else .ok (stepBeforeName (draft.note .other) c)
  | .solidus =>
    if c = '>' then .ok (.finish { draft with selfClosing := true })
    else .ok (stepBeforeName (draft.note .other) c)

/-- Read on to the end of the tag. The first `taken` characters belong to what
has been read already. Gives the tokens and the input after the tag. -/
def run (expand isEnd : Bool) (draft : TagDraft) (taken : Nat) :
    List Char → Except Fault (List Token × List Char)
  | [] => .ok (draft.cutOff, [])
  | c :: cs =>
    match taken with
    | taken + 1 => run expand isEnd draft taken cs
    | 0 =>
      match step expand draft c cs with
      | .error fault => .error fault
      | .ok (.finish draft) => .ok (draft.tokens isEnd, cs)
      | .ok (.go draft also) => run expand isEnd draft also cs

end TagDraft

end Winnow.Html
