import Winnow.Html.Token
import Winnow.Text.Lowercase

/-!
# Reading comments and declarations

Comments, the text between square brackets in foreign content, and document
type declarations. Each reader takes the input after the opening and gives what
it has read with the input that follows.
-/

namespace Winnow.Html

/-! ## Comments -/

/-- A place in a comment: dashes seen at its start or since its last ordinary character. -/
inductive CommentPlace where
  | start
  | startDash
  | body
  | endDash
  | endDashes
  | bang
  deriving DecidableEq, Repr

/-- The text that a comment gains when a character that ends nothing follows the
given place, in reverse. -/
def CommentPlace.pending : CommentPlace → List Char
  | start => []
  | startDash => ['-']
  | body => []
  | endDash => ['-']
  | endDashes => ['-', '-']
  | bang => ['!', '-', '-']

/-- Read a comment to its end. `data` is what has been read, in reverse. -/
def readComment (place : CommentPlace) (data : List Char) : List Char → List Char × List Char
  | [] => (data.reverse, [])
  | c :: cs =>
    let plain := replaceNull c :: (place.pending ++ data)
    match place with
    | .start =>
      if c = '-' then readComment .startDash data cs
      else if c = nullChar then readComment .start plain cs
      else if c = '>' then (data.reverse, cs)
      else readComment .body plain cs
    | .startDash =>
      if c = '-' then readComment .endDashes data cs
      else if c = nullChar then readComment .startDash plain cs
      else if c = '>' then (data.reverse, cs)
      else readComment .body plain cs
    | .body => if c = '-' then readComment .endDash data cs else readComment .body plain cs
    | .endDash =>
      if c = '-' then readComment .endDashes data cs else readComment .body plain cs
    | .endDashes =>
      if c = '>' then (data.reverse, cs)
      else if c = '!' then readComment .bang data cs
      else if c = '-' then readComment .endDashes ('-' :: data) cs
      else readComment .body plain cs
    | .bang =>
      if c = '>' then (data.reverse, cs)
      else if c = '-' then readComment .endDash ('!' :: '-' :: '-' :: data) cs
      else readComment .body plain cs

/-- Read what is no proper declaration: everything up to the next closing bracket. -/
def readBogusComment (cs : List Char) : List Char × List Char :=
  ((cs.takeWhile (· != '>')).map replaceNull, (cs.dropWhile (· != '>')).drop 1)

/-- Read the text of a bracketed section up to its end. -/
def readSection : List Char → List Char × List Char
  | [] => ([], [])
  | ']' :: ']' :: '>' :: cs => ([], cs)
  | c :: cs =>
    let (text, rest) := readSection cs
    (replaceNull c :: text, rest)

/-! ## Document type declarations -/

/-- A place in a document type declaration. -/
inductive DoctypePlace where
  | start
  | beforeName
  | name
  | afterName
  | afterPublicKeyword
  | beforePublicId
  | publicId (quote : Char)
  | afterPublicId
  | betweenIds
  | afterSystemKeyword
  | beforeSystemId
  | systemId (quote : Char)
  | afterSystemId
  | bogus
  deriving DecidableEq, Repr

/-- A declaration of which a part has been read, with its texts reversed. -/
structure DoctypeDraft where
  place : DoctypePlace := .start
  name : List Char := []
  publicId : Option (List Char) := none
  systemId : Option (List Char) := none
  correct : Bool := true
  deriving Repr

namespace DoctypeDraft

/-- The declaration that has been read. -/
def finish (draft : DoctypeDraft) : Doctype where
  name := Text.asciiLower (String.ofList draft.name.reverse)
  publicId := draft.publicId.map fun text => String.ofList text.reverse
  systemId := draft.systemId.map fun text => String.ofList text.reverse
  correct := draft.correct

/-- The declaration with a mark that it is badly formed. -/
def spoiled (draft : DoctypeDraft) : DoctypeDraft := { draft with correct := false }

/-- Go on to another place. -/
def goto (draft : DoctypeDraft) (place : DoctypePlace) : DoctypeDraft :=
  { draft with place := place }

/-- Do the characters of a keyword follow, in either case? -/
def keywordFollows (keyword text : List Char) : Bool :=
  (text.take keyword.length).map Text.asciiLowerChar == keyword

/-- Where an identifier in quotes is expected. -/
def beforeId (draft : DoctypeDraft) (c : Char) (isPublic : Bool) : DoctypeDraft × Bool :=
  if isSpace c then
    (draft.goto (if isPublic then .beforePublicId else .beforeSystemId), false)
  else if c = '"' || c = '\'' then
    if isPublic then ({ draft with place := .publicId c, publicId := some [] }, false)
    else ({ draft with place := .systemId c, systemId := some [] }, false)
  else if c = '>' then (draft.spoiled, true)
  else (draft.spoiled.goto .bogus, false)

/-- Where the name of the document type may start. -/
def beforeName (draft : DoctypeDraft) (c : Char) : DoctypeDraft × Bool :=
  if isSpace c then (draft.goto .beforeName, false)
  else if c = '>' then (draft.spoiled, true)
  else ({ draft with place := .name, name := [replaceNull c] }, false)

/-- What the next character does, given the characters after it: the new draft,
how many of the characters after it are taken, and whether the declaration ends. -/
def step (draft : DoctypeDraft) (c : Char) (rest : List Char) : DoctypeDraft × Nat × Bool :=
  let on (result : DoctypeDraft × Bool) : DoctypeDraft × Nat × Bool := (result.1, 0, result.2)
  match draft.place with
  | .start => if isSpace c then (draft.goto .beforeName, 0, false) else on (draft.beforeName c)
  | .beforeName => on (draft.beforeName c)
  | .name =>
    if isSpace c then (draft.goto .afterName, 0, false)
    else if c = '>' then (draft, 0, true)
    else ({ draft with name := replaceNull c :: draft.name }, 0, false)
  | .afterName =>
    if isSpace c then (draft, 0, false)
    else if c = '>' then (draft, 0, true)
    else if keywordFollows "public".toList (c :: rest) then
      (draft.goto .afterPublicKeyword, 5, false)
    else if keywordFollows "system".toList (c :: rest) then
      (draft.goto .afterSystemKeyword, 5, false)
    else (draft.spoiled.goto .bogus, 0, false)
  | .afterPublicKeyword => on (draft.beforeId c true)
  | .beforePublicId => on (draft.beforeId c true)
  | .publicId quote =>
    if c = quote then (draft.goto .afterPublicId, 0, false)
    else if c = '>' then (draft.spoiled, 0, true)
    else
      let text := replaceNull c :: draft.publicId.getD []
      ({ draft with publicId := some text }, 0, false)
  | .afterPublicId =>
    if isSpace c then (draft.goto .betweenIds, 0, false)
    else if c = '>' then (draft, 0, true)
    else on (draft.beforeId c false)
  | .betweenIds =>
    if isSpace c then (draft, 0, false)
    else if c = '>' then (draft, 0, true)
    else on (draft.beforeId c false)
  | .afterSystemKeyword => on (draft.beforeId c false)
  | .beforeSystemId => on (draft.beforeId c false)
  | .systemId quote =>
    if c = quote then (draft.goto .afterSystemId, 0, false)
    else if c = '>' then (draft.spoiled, 0, true)
    else
      let text := replaceNull c :: draft.systemId.getD []
      ({ draft with systemId := some text }, 0, false)
  | .afterSystemId =>
    if isSpace c then (draft, 0, false)
    else if c = '>' then (draft, 0, true)
    else (draft.goto .bogus, 0, false)
  | .bogus => if c = '>' then (draft, 0, true) else (draft, 0, false)

/-- Read a declaration to its end. -/
def run (draft : DoctypeDraft) (taken : Nat) : List Char → Doctype × List Char
  | [] => (if draft.place = .bogus then draft.finish else draft.spoiled.finish, [])
  | c :: cs =>
    match taken with
    | taken + 1 => run draft taken cs
    | 0 =>
      match step draft c cs with
      | (draft, _, true) => (draft.finish, cs)
      | (draft, also, false) => run draft also cs

end DoctypeDraft

end Winnow.Html
