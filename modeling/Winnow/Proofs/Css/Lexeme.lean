import Winnow.Css.Printer
import Winnow.Proofs.Css.Number
import Winnow.Proofs.Css.Token

/-!
# Lexemes that are read back

A lexeme is plain if it can be written without an escape in a name. What may follow it so that it
is read back as it is depends on its kind; `Lexeme.Ends` says what, and `readLexemes_write` is the
reading.
-/

namespace Winnow.Css

/-! ## Signs -/

/-- The mark that ends a comment around a sheet. -/
def arrow : List Char := "-->".toList

/-- A character that may be punctuation by itself. -/
def isSignChar (c : Char) : Bool :=
  !isNameStart c && !Text.isAsciiDigit c && !Text.isBlank c && c.toNat ≠ 0 &&
    !(c = '"' || c = '\'' || c = '\\' || c = '\x7b' || c = '\x7d' || c = '[' || c = ']' ||
      c = '(' || c = ')')

/-- Punctuation of several characters. -/
def joinedSigns : List (List Char) := [
  arrow, ['<', '!', '-', '-'], ['|', '|'], ['~', '='], ['|', '='], ['^', '='],
  ['$', '='], ['*', '=']]

/-- Punctuation that a text without escapes may hold. -/
inductive IsSign : List Char → Prop
  | single {c : Char} (hc : isSignChar c = true) : IsSign [c]
  | joined {text : List Char} (hmem : text ∈ joinedSigns) : IsSign text

theorem isSignChar_head_of_joined :
    ∀ text ∈ joinedSigns, (text.head?.any fun c => isSignChar c) = true := by
  decide

theorem IsSign.isSignChar_head {c : Char} {text : List Char} (hsign : IsSign (c :: text)) :
    isSignChar c = true := by
  cases hsign with
  | single hc => exact hc
  | joined hmem => simpa using isSignChar_head_of_joined _ hmem

theorem IsSign.exists_cons {text : List Char} (hsign : IsSign text) :
    ∃ c cs, text = c :: cs := by
  cases hsign with
  | single => exact ⟨_, _, rfl⟩
  | joined hmem =>
      refine List.exists_cons_of_ne_nil ?_
      rintro rfl
      exact absurd hmem (by decide)

theorem IsSign.tail_of_hyphen {text : List Char} (hsign : IsSign ('-' :: text)) :
    text = [] ∨ '-' :: text = arrow := by
  cases hsign with
  | single => exact .inl rfl
  | joined hmem => exact .inr (by simpa [joinedSigns] using hmem)

/-- Most punctuation does not join with what follows. -/
theorem IsSign.eq_nil {c : Char} {text : List Char} (hsign : IsSign (c :: text))
    (hc : (joinedSigns.filter fun joined => joined.head? = some c) = []) : text = [] := by
  cases hsign with
  | single => rfl
  | joined hmem =>
      have hjoined : c :: text ∈ joinedSigns.filter fun joined => joined.head? = some c :=
        List.mem_filter.mpr ⟨hmem, by simp⟩
      rw [hc] at hjoined
      cases hjoined

theorem ne_of_isSignChar {c d : Char} (hc : isSignChar c = true) (hd : isSignChar d = false) :
    c ≠ d := by
  rintro rfl
  rw [hc] at hd
  cases hd

/-! ## Plain lexemes -/

/-- A unit after it has been written and read back: a letter that could be taken for a power of
ten is written with an escape, which always stands for the small letter. -/
def recasedUnit : List Char → List Char
  | ['E'] => ['e']
  | 'E' :: '-' :: cs => 'e' :: '-' :: cs
  | unit => unit

/-- A token after it has been written and read back. -/
def Token.recased : Token → Token
  | .dimension written unit => .dimension written (recasedUnit unit)
  | token => token

namespace Lexeme

/-- A lexeme after it has been written and read back. -/
def recased : Lexeme → Lexeme
  | token t => token t.recased
  | lexeme => lexeme

/-- Does the lexeme stand for an address? -/
def isAddress : Lexeme → Bool
  | token (.url ..) => true
  | call name => Node.lowerName name == Node.urlName
  | _ => false

/-- Is the lexeme a place that cannot be read? -/
def isFlaw : Lexeme → Bool
  | token (.flaw _) => true
  | _ => false

/-- A lexeme as it is written. -/
def write : Lexeme → List Char
  | token t => t.write
  | call name => writeIdent name ++ ['(']
  | opening bracket => [bracket.opening]
  | closing bracket => [bracket.closing]

/-- A number that is not too long to be read. -/
structure IsNumeral (written : List Char) (parts : Parts) : Prop where
  valid : parts.Valid
  written_eq : written = parts.written
  short : parts.whole = true → parts.digits.length ≤ Text.maxDecimalDigits

/-- A unit after a number, which does not go on with the number. -/
structure IsUnit (parts : Parts) (unit : List Char) : Prop extends IsIdent unit where
  apart : parts.power = [] → ∀ c d cs, unit = c :: d :: cs → c = 'e' ∨ c = 'E' →
    Text.isAsciiDigit d = false

/-- A lexeme that is written without an escape in a name. -/
inductive Plain : Lexeme → Prop
  | whitespace {text : List Char} (hne : text ≠ []) (htext : ∀ c ∈ text, isSpace c = true) :
    Plain (token (.whitespace text))
  | sign {text : List Char} (htext : IsSign text) : Plain (token (.sign text))
  | ident {name : List Char} (hname : IsIdent name) : Plain (token (.ident name))
  | atKeyword {name : List Char} (hname : IsIdent name) : Plain (token (.atKeyword name))
  | hash {name : List Char} (hname : IsName name) : Plain (token (.hash name (startsName name)))
  | quoted {text : List Char} (htext : IsLine text) : Plain (token (.quoted text true))
  | codePoints {first last : Nat} (hfirst : first < codePointBound) (hlast : last < codePointBound) :
    Plain (token (.codePoints first last))
  | number {written : List Char} {parts : Parts} (hnumber : IsNumeral written parts) :
    Plain (token (.number written))
  | percentage {written : List Char} {parts : Parts} (hnumber : IsNumeral written parts) :
    Plain (token (.percentage written))
  | dimension {written unit : List Char} {parts : Parts} (hnumber : IsNumeral written parts)
    (hunit : IsUnit parts unit) : Plain (token (.dimension written unit))
  | call {name : List Char} (hname : IsIdent name)
    (hurl : (Node.lowerName name == Node.urlName) = false) : Plain (call name)
  | opening (bracket : Bracket) : Plain (opening bracket)
  | closing (bracket : Bracket) : Plain (closing bracket)

/-- What may follow punctuation of one character. -/
structure EndsSign (c : Char) (rest : List Char) : Prop where
  numeral : readNumeral? (c :: rest) = none
  name : startsName (c :: rest) = false
  arrow : arrow.isPrefixOf (c :: rest) = false
  keyword : c = '@' → startsName rest = false
  hash : c = '#' → Stops continuesName rest
  comment : c = '/' → Stops (· = '*') rest
  opening : c = '<' → ¬ ['!', '-', '-'] <+: rest
  double : c = '|' → Stops (· = '|') rest
  equals : joinsEquals c = true → Stops (· = '=') rest

/-- What may follow a number without percent sign and unit. -/
structure EndsNumber (rest : List Char) : Prop where
  digits : Stops Text.isAsciiDigit rest
  fraction : readFraction rest = ([], rest)
  name : startsName rest = false
  percent : Stops (· = '%') rest

/-- What may follow a lexeme. -/
def Ends : Lexeme → List Char → Prop
  | token (.whitespace _), rest => Stops isSpace rest
  | token (.sign [c]), rest => EndsSign c rest
  | token (.ident name), rest =>
    Stops continuesName rest ∧ Stops (· = '(') rest ∧
      startsCodePoints (name ++ rest) = false ∧ arrow.isPrefixOf (name ++ rest) = false
  | token (.atKeyword _), rest => Stops continuesName rest
  | token (.hash _ _), rest => Stops continuesName rest
  | token (.codePoints first last), rest => EndsRange first last rest
  | token (.number _), rest => EndsNumber rest
  | token (.dimension _ _), rest => Stops continuesName rest
  | _, _ => True

end Lexeme

/-! ## Reading by the first character -/

theorem isSpace_iff {c : Char} : isSpace c = true ↔ c = ' ' ∨ c = '\n' ∨ c = '\t' := by
  simp [isSpace, or_assoc]

theorem not_isSpace_of_isNameChar {c : Char} (hc : isNameChar c = true) : isSpace c = false := by
  rw [Bool.eq_false_iff]
  intro hspace
  rcases isSpace_iff.mp hspace with rfl | rfl | rfl
  all_goals exact absurd hc (by decide)

theorem startsCodePoints_of_ne {c : Char} {cs : List Char} (hlower : c ≠ 'u') (hupper : c ≠ 'U') :
    startsCodePoints (c :: cs) = false := by
  unfold startsCodePoints
  split
  next heq =>
    obtain ⟨rfl, -⟩ := List.cons.inj heq
    simp [hlower, hupper]
  next => rfl

theorem startsCodePoints_of_second {c d : Char} {cs : List Char} (hplus : d ≠ '+') :
    startsCodePoints (c :: d :: cs) = false := by
  unfold startsCodePoints
  split
  next heq => exact absurd (List.cons.inj (List.cons.inj heq).2).1 hplus
  next => rfl

theorem arrow_of_ne {c : Char} {cs : List Char} (hc : c ≠ '-') :
    arrow.isPrefixOf (c :: cs) = false := by
  simp [arrow, List.isPrefixOf, Ne.symm hc]

theorem startsName_of_not {c : Char} {cs : List Char} (hstart : isNameStart c = false)
    (hhyphen : c ≠ '-') (hescape : c ≠ '\\') : startsName (c :: cs) = false := by
  unfold startsName
  split
  next heq => exact absurd (List.cons.inj heq).1 hhyphen
  next heq => exact absurd (List.cons.inj heq).1 hhyphen
  next heq => exact absurd (List.cons.inj heq).1 hescape
  next heq =>
    obtain ⟨rfl, -⟩ := List.cons.inj heq
    exact hstart
  next heq => cases heq

theorem readNumeral?_of_not {c : Char} {cs : List Char} (hdigit : Text.isAsciiDigit c = false)
    (hplus : c ≠ '+') (hminus : c ≠ '-') (hpoint : c ≠ '.') : readNumeral? (c :: cs) = none := by
  have hsign : readSign (c :: cs) = ([], c :: cs) := by simp [readSign, hplus, hminus]
  have hstops : Stops Text.isAsciiDigit (c :: cs) := stops_cons.mpr hdigit
  simp [readNumeral?, hsign, hstops.takeWhile_eq_nil, hstops.dropWhile_eq_self,
    readFraction_of_ne hpoint]

section Branches

variable {c : Char} {cs : List Char} (hspace : isSpace c = false)
  (hpoints : startsCodePoints (c :: cs) = false) (harrow : arrow.isPrefixOf (c :: cs) = false)
include hspace hpoints harrow

theorem readLexemes_of_rest : readLexemes false c cs =
    if startsName (c :: cs) then .ok (readWord (c :: cs))
    else match readNumeral? (c :: cs) with
      | some numeral =>
        if numeral.whole && Text.maxDecimalDigits < numeral.digits then .error .numeralTooLong
        else .ok ([.token (readUnit numeral.written numeral.rest).1],
          (readUnit numeral.written numeral.rest).2)
      | none => .ok (readOther false c cs) := by
  unfold readLexemes
  rw [if_neg (Bool.eq_false_iff.mp hspace), if_neg (Bool.eq_false_iff.mp hpoints)]
  exact if_neg (Bool.eq_false_iff.mp harrow)

theorem readLexemes_of_startsName (hname : startsName (c :: cs) = true) :
    readLexemes false c cs = .ok (readWord (c :: cs)) := by
  rw [readLexemes_of_rest hspace hpoints harrow, if_pos hname]

theorem readLexemes_of_numeral (hname : startsName (c :: cs) = false) {numeral : Numeral}
    (hread : readNumeral? (c :: cs) = some numeral)
    (hshort : numeral.whole = true → numeral.digits ≤ Text.maxDecimalDigits) :
    readLexemes false c cs = .ok ([.token (readUnit numeral.written numeral.rest).1],
      (readUnit numeral.written numeral.rest).2) := by
  have hlimit : ¬ (numeral.whole && decide (Text.maxDecimalDigits < numeral.digits)) = true := by
    intro hlong
    rw [Bool.and_eq_true, decide_eq_true_eq] at hlong
    exact absurd (hshort hlong.1) (Nat.not_le.mpr hlong.2)
  rw [readLexemes_of_rest hspace hpoints harrow, if_neg (Bool.eq_false_iff.mp hname), hread]
  exact if_neg hlimit

theorem readLexemes_of_other (hname : startsName (c :: cs) = false)
    (hread : readNumeral? (c :: cs) = none) :
    readLexemes false c cs = .ok (readOther false c cs) := by
  rw [readLexemes_of_rest hspace hpoints harrow, if_neg (Bool.eq_false_iff.mp hname), hread]

end Branches

/-- A character that starts no lexeme but punctuation, strings and brackets. -/
theorem readLexemes_of_mark {c : Char} {cs : List Char} (hspace : isSpace c = false)
    (hstart : isNameStart c = false) (hdigit : Text.isAsciiDigit c = false)
    (hplus : c ≠ '+') (hminus : c ≠ '-') (hpoint : c ≠ '.') (hescape : c ≠ '\\') :
    readLexemes false c cs = .ok (readOther false c cs) := by
  have hlower : c ≠ 'u' := by
    rintro rfl
    exact absurd hstart (by decide)
  have hupper : c ≠ 'U' := by
    rintro rfl
    exact absurd hstart (by decide)
  exact readLexemes_of_other hspace (startsCodePoints_of_ne hlower hupper) (arrow_of_ne hminus)
    (startsName_of_not hstart hminus hescape) (readNumeral?_of_not hdigit hplus hminus hpoint)

/-! ## Reading what was written -/

namespace Lexeme

/-- What is read of a text: one lexeme, and the given rest. -/
def ReadsAs (text : List Char) (lexeme : Lexeme) (rest : List Char) : Prop :=
  ∃ c cs, text = c :: cs ∧ readLexemes false c cs = .ok ([lexeme], rest)

theorem readsAs_whitespace {text rest : List Char} (hne : text ≠ [])
    (htext : ∀ c ∈ text, isSpace c = true) (hends : Stops isSpace rest) :
    ReadsAs (text ++ rest) (token (.whitespace text)) rest := by
  obtain ⟨c, cs, rfl⟩ := List.exists_cons_of_ne_nil hne
  obtain ⟨hc, hcs⟩ := List.forall_mem_cons.mp htext
  refine ⟨c, cs ++ rest, rfl, ?_⟩
  simp [readLexemes, hc, takeWhile_run hcs hends, dropWhile_run hcs hends]

theorem readWord_ident {name rest : List Char} (hname : IsIdent name)
    (hrest : Stops continuesName rest) (hbracket : Stops (· = '(') rest) :
    readWord (name ++ rest) = ([token (.ident name)], rest) := by
  unfold readWord
  rw [hname.readName_append hrest]
  dsimp only
  split
  next => exact absurd hbracket (by simp [stops_cons])
  next => rfl

theorem readsAs_ident {name rest : List Char} (hname : IsIdent name)
    (hends : (token (.ident name)).Ends rest) :
    ReadsAs (name ++ rest) (token (.ident name)) rest := by
  obtain ⟨hrest, hbracket, hpoints, harrow⟩ := hends
  obtain ⟨c, cs, hcons⟩ := List.exists_cons_of_ne_nil hname.ne_nil
  have hspace : isSpace c = false := not_isSpace_of_isNameChar (hname.char c (by simp [hcons]))
  have hstarts := hname.startsName_append hrest
  have hword := readWord_ident hname hrest hbracket
  rw [hcons, List.cons_append] at hpoints harrow hstarts hword
  refine ⟨c, cs ++ rest, by rw [hcons, List.cons_append], ?_⟩
  rw [readLexemes_of_startsName hspace hpoints harrow hstarts, hword, ← hcons]

theorem stops_bracket (rest : List Char) : Stops continuesName ('(' :: rest) :=
  stops_cons.mpr (by decide)

theorem readsAs_call {name : List Char} (hname : IsIdent name)
    (hurl : (Node.lowerName name == Node.urlName) = false) (rest : List Char) :
    ReadsAs (name ++ '(' :: rest) (call name) rest := by
  have hstarts := hname.startsName_append (stops_bracket rest)
  have hword : readWord (name ++ '(' :: rest) = ([call name], rest) := by
    unfold readWord
    rw [hname.readName_append (stops_bracket rest)]
    simp [hurl]
  obtain ⟨c, cs, hcons, hstart⟩ := hname.exists_cons
  have hspace : isSpace c = false := not_isSpace_of_isNameChar (hname.char c (by simp [hcons]))
  have hcs : ∀ d ∈ cs, isNameChar d = true := fun d hmem => hname.char d (by simp [hcons, hmem])
  have hpoints : startsCodePoints (c :: (cs ++ '(' :: rest)) = false := by
    cases cs with
    | nil => exact startsCodePoints_of_second (by decide)
    | cons d ds =>
        exact startsCodePoints_of_second (ne_of_isNameChar (hcs d (by simp)) (by decide))
  have harrow : arrow.isPrefixOf (c :: (cs ++ '(' :: rest)) = false := by
    cases cs with
    | nil => simp [arrow, List.isPrefixOf]
    | cons d ds =>
        cases ds with
        | nil => simp [arrow, List.isPrefixOf]
        | cons e es =>
            have he : '>' ≠ e := (ne_of_isNameChar (hcs e (by simp)) (by decide)).symm
            simp [arrow, List.isPrefixOf, he]
  rw [hcons, List.cons_append] at hstarts hword
  refine ⟨c, cs ++ '(' :: rest, by rw [hcons, List.cons_append], ?_⟩
  rw [readLexemes_of_startsName hspace hpoints harrow hstarts, hword, ← hcons]

theorem readsAs_atKeyword {name rest : List Char} (hname : IsIdent name)
    (hends : Stops continuesName rest) :
    ReadsAs ('@' :: (name ++ rest)) (token (.atKeyword name)) rest := by
  refine ⟨'@', name ++ rest, rfl, ?_⟩
  rw [readLexemes_of_mark (by decide) (by decide) (by decide) (by decide) (by decide) (by decide)
    (by decide)]
  simp [readOther, readAtKeyword, hname.startsName_append hends, hname.readName_append hends]

theorem readHash_append {name rest : List Char} (hname : IsName name)
    (hends : Stops continuesName rest) :
    readHash (name ++ rest) = (.hash name (startsName name), rest) := by
  have hstarts := startsName_append hname.ne_nil hname.char hends
  have hread := readName_run hname.char hends
  obtain ⟨c, cs, rfl⟩ := List.exists_cons_of_ne_nil hname.ne_nil
  have hc := hname.char c List.mem_cons_self
  have hne : c ≠ '\\' := ne_of_isNameChar hc (by decide)
  unfold readHash
  rw [hstarts, hread]
  simp [hc]

theorem write_hash {name : List Char} (hname : IsName name) :
    (token (.hash name (startsName name))).write = '#' :: name := by
  rw [write, Token.write]
  by_cases hstarts : startsName name = true
  · rw [if_pos hstarts, IsIdent.write_eq ⟨hname, hstarts⟩]
  · rw [if_neg hstarts, writeName_eq hname.char]

theorem readsAs_hash {name rest : List Char} (hname : IsName name)
    (hends : Stops continuesName rest) :
    ReadsAs ('#' :: (name ++ rest)) (token (.hash name (startsName name))) rest := by
  refine ⟨'#', name ++ rest, rfl, ?_⟩
  rw [readLexemes_of_mark (by decide) (by decide) (by decide) (by decide) (by decide) (by decide)
    (by decide)]
  simp [readOther, readHash_append hname hends]

theorem readsAs_quoted {text : List Char} (htext : IsLine text) (rest : List Char) :
    ReadsAs ('"' :: (writeQuoted text ++ '"' :: rest)) (token (.quoted text true)) rest := by
  refine ⟨'"', writeQuoted text ++ '"' :: rest, rfl, ?_⟩
  rw [readLexemes_of_mark (by decide) (by decide) (by decide) (by decide) (by decide) (by decide)
    (by decide)]
  simp [readOther, readString_append htext, stringTokens]

theorem readsAs_codePoints {first last : Nat} {rest : List Char} (hfirst : first < codePointBound)
    (hlast : last < codePointBound) (hends : EndsRange first last rest) :
    ReadsAs ('U' :: '+' :: (Text.hexText first ++ (rangeEnd first last ++ rest)))
      (token (.codePoints first last)) rest := by
  have hread := readCodePoints_append hfirst hlast hends
  obtain ⟨d, ds, hcons⟩ := List.exists_cons_of_ne_nil (hexText_ne_nil first)
  have hd := isHexDigit_of_mem_hexText first d (by simp [hcons])
  rw [hcons, List.cons_append] at hread ⊢
  refine ⟨'U', _, rfl, ?_⟩
  have hpoints : startsCodePoints ('U' :: '+' :: d :: (ds ++ (rangeEnd first last ++ rest))) =
      true := by simp [startsCodePoints, hd]
  have hspace : isSpace 'U' = false := by decide
  simp [readLexemes, hspace, hpoints, hread]

end Lexeme

end Winnow.Css
