import Winnow.Proofs.Css.Spelling
import Winnow.Proofs.Fault

/-!
# Lexemes of a text without escapes

A text without escapes and comments is cut into plain lexemes, and none of them runs into the
next: where two could be joined, the reader has joined them.
-/

namespace Winnow.Css

/-- A prepared text without escapes and comments whose blanks are all white space of a sheet. -/
structure Smooth (cs : List Char) : Prop where
  escape : '\\' ∉ cs
  comment : ¬ ['/', '*'] <:+: cs
  blank : ∀ c ∈ cs, Text.isBlank c = true → isSpace c = true
  null : ∀ c ∈ cs, c.toNat ≠ 0

theorem Smooth.of_suffix {cs rest : List Char} (hsmooth : Smooth cs) (hrest : rest <:+ cs) :
    Smooth rest where
  escape hmem := hsmooth.escape (hrest.subset hmem)
  comment hwithin := hsmooth.comment (hwithin.trans hrest.isInfix)
  blank c hmem := hsmooth.blank c (hrest.subset hmem)
  null c hmem := hsmooth.null c (hrest.subset hmem)

theorem Smooth.settled {cs : List Char} (hsmooth : Smooth cs) {c : Char} (hmem : c ∈ cs) :
    IsSettled c := by
  refine ⟨?_, ?_, hsmooth.null c hmem⟩
  · rintro rfl
    exact absurd (hsmooth.blank _ hmem (by decide)) (by decide)
  · intro hfeed
    have hspace := hsmooth.blank c hmem (by simp [Text.isBlank, hfeed])
    rcases isSpace_iff.mp hspace with rfl | rfl | rfl
    all_goals exact absurd hfeed (by decide)

namespace Lexeme

/-- What a lexeme leaves unread. -/
def Leaves : Lexeme → List Char → Prop
  | token (.whitespace _), rest => Stops isSpace rest
  | token (.sign [c]), rest => EndsSign c rest
  | token (.ident name), rest =>
    startsCodePoints (name ++ rest) = false ∧ arrow.isPrefixOf (name ++ rest) = false
  | token (.number _), rest => startsName rest = false ∧ Stops (· = '%') rest
  | _, _ => True

/-- A lexeme that was read from the front of a text. -/
structure Reading (cs : List Char) (lexeme : Lexeme) (rest : List Char) : Prop where
  suffix : rest <:+ cs.tail
  leaves : lexeme.Leaves rest
  plain : lexeme.isAddress = false → lexeme.Plain
  written : ∀ text, lexeme = token (.sign text) ∨ lexeme = token (.whitespace text) →
    cs = text ++ rest
  head : ∀ d, lexeme.write.head? = some d → Text.isHexDigit d = true ∨ d = '?' → cs.head? = some d
  hyphens : ['-', '-'] <+: lexeme.write → ['-', '-'] <+: cs

theorem exists_write_eq_cons {lexeme : Lexeme} (hplain : lexeme.isAddress = false → lexeme.Plain) :
    ∃ d ds, lexeme.write = d :: ds := by
  by_cases haddress : lexeme.isAddress = false
  · obtain ⟨d, ds, hcons, -⟩ := (hplain haddress).exists_leads (.whole lexeme [])
    exact ⟨d, ds, hcons⟩
  · refine List.exists_cons_of_ne_nil ?_
    unfold isAddress at haddress
    split at haddress
    · simp [write, Token.write]
    · simp [write]
    · exact absurd rfl haddress

/-- A lexeme that is written as it was read. -/
theorem Reading.of_write {cs rest : List Char} {lexeme : Lexeme} (hwrite : lexeme.write ++ rest = cs)
    (hleaves : lexeme.Leaves rest) (hplain : lexeme.isAddress = false → lexeme.Plain) :
    Reading cs lexeme rest where
  suffix := by
    obtain ⟨d, ds, hcons⟩ := exists_write_eq_cons hplain
    rw [← hwrite, hcons]
    exact List.suffix_append ds rest
  leaves := hleaves
  plain := hplain
  written text heq := by
    rcases heq with rfl | rfl
    · exact hwrite.symm
    · exact hwrite.symm
  head d hhead _ := by
    obtain ⟨ds, hds⟩ := List.head?_eq_some_iff.mp hhead
    rw [← hwrite, hds]
    rfl
  hyphens hstarts := hstarts.trans ⟨rest, hwrite⟩

/-- A lexeme that is written with a first character of its own. -/
theorem Reading.of_head {cs rest : List Char} {lexeme : Lexeme} {d : Char}
    (hsuffix : rest <:+ cs.tail) (hhead : lexeme.write.head? = some d) 
    (hd : Text.isHexDigit d = false ∧ d ≠ '?' ∧ d ≠ '-')
    (hleaves : lexeme.Leaves rest) (hplain : lexeme.isAddress = false → lexeme.Plain)
    (hwritten : ∀ text, lexeme ≠ token (.sign text) ∧ lexeme ≠ token (.whitespace text)) :
    Reading cs lexeme rest where
  suffix := hsuffix
  leaves := hleaves
  plain := hplain
  written text heq := heq.elim (fun h => absurd h (hwritten text).1)
    (fun h => absurd h (hwritten text).2)
  head e he hdigit := by
    rw [hhead] at he
    obtain rfl := Option.some.inj he
    rcases hdigit with hdigit | rfl
    · exact absurd hdigit (by simp [hd.1])
    · exact absurd rfl hd.2.1
  hyphens hstarts := by
    obtain ⟨more, hmore⟩ := hstarts
    rw [← hmore] at hhead
    exact absurd (Option.some.inj hhead).symm hd.2.2

/-! ## White space, ranges and names -/

section Step

variable {c : Char} {cs : List Char}

theorem reading_whitespace (hspace : isSpace c = true) :
    Reading (c :: cs) (token (.whitespace (c :: cs.takeWhile isSpace))) (cs.dropWhile isSpace) := by
  refine .of_write ?_ (stops_dropWhile isSpace cs) fun _ => .whitespace (by simp) ?_
  · simp [write, Token.write]
  · exact List.forall_mem_cons.mpr ⟨hspace, fun d hmem => List.mem_takeWhile_imp hmem⟩

theorem reading_codePoints {t : Token} {rest : List Char}
    (hread : readCodePoints (cs.drop 1) = (t, rest)) : Reading (c :: cs) (token t) rest := by
  obtain ⟨hsuffix, first, last, rfl, hfirst, hlast⟩ := exists_of_readCodePoints hread
  have hhead : (token (.codePoints first last)).write.head? = some 'U' := rfl
  exact .of_head (hsuffix.trans (List.drop_suffix 1 cs)) hhead (by decide) trivial
    (fun _ => .codePoints hfirst hlast) (by simp)

end Step

section Names

variable {cs : List Char} (hsmooth : Smooth cs)
include hsmooth

theorem not_blank_of_isNameChar {c : Char} (hmem : c ∈ cs) (hc : isNameChar c = true) :
    Text.isBlank c = false := by
  rw [Bool.eq_false_iff]
  intro hblank
  have hspace := hsmooth.blank c hmem hblank
  rw [not_isSpace_of_isNameChar hc] at hspace
  cases hspace

theorem isName_takeWhile (hne : cs.takeWhile isNameChar ≠ []) : IsName (cs.takeWhile isNameChar) where
  ne_nil := hne
  char _ hmem := List.mem_takeWhile_imp hmem
  not_blank _ hmem := not_blank_of_isNameChar hsmooth
    ((List.takeWhile_sublist _).subset hmem) (List.mem_takeWhile_imp hmem)

theorem stops_dropName : Stops continuesName (cs.dropWhile isNameChar) := by
  intro c hmem
  have hnot := stops_dropWhile isNameChar cs c hmem
  have hescape : c ≠ '\\' := by
    rintro rfl
    exact hsmooth.escape ((List.dropWhile_sublist _).subset (List.mem_of_mem_head? hmem))
  simp [continuesName, hnot, hescape]

/-- Where a name starts, there is an identifier. -/
theorem isIdent_takeWhile (hstarts : startsName cs = true) :
    IsIdent (cs.takeWhile isNameChar) := by
  have hne : cs.takeWhile isNameChar ≠ [] := by
    cases cs with
    | nil => cases hstarts
    | cons c cs =>
        have hescape : c ≠ '\\' := fun h => hsmooth.escape (by simp [h])
        have hc : isNameChar c = true := by
          by_cases hhyphen : c = '-'
          · subst hhyphen
            decide
          · have hstart : isNameStart c = true := by simpa [startsName, hhyphen, hescape] using hstarts
            exact isNameChar_of_isNameStart hstart
        simp [hc]
  have hname := isName_takeWhile hsmooth hne
  have happend := startsName_append hname.ne_nil hname.char (stops_dropName hsmooth)
  rw [List.takeWhile_append_dropWhile, hstarts] at happend
  exact ⟨hname, happend.symm⟩

end Names

/-! ## Addresses -/

theorem suffix_of_closeUrl {cs rest : List Char} (hread : closeUrl cs = (.closed, rest)) :
    rest <:+ cs := by
  have hdrop := List.dropWhile_suffix (l := cs) isSpace
  unfold closeUrl at hread
  split at hread
  next => cases hread
  next after heq =>
    obtain ⟨-, rfl⟩ := Prod.mk.inj hread
    rw [heq] at hdrop
    exact (List.suffix_cons _ _).trans hdrop
  next => cases hread

theorem suffix_of_readUrl {taken : Nat} {cs text rest : List Char}
    (hread : readUrl taken cs = (text, .closed, rest)) : rest <:+ cs := by
  induction cs generalizing taken text with
  | nil => cases hread
  | cons c cs ih =>
      have hcons := List.suffix_cons c cs
      cases taken with
      | succ taken => exact (ih hread).trans hcons
      | zero =>
          rw [readUrl] at hread
          split at hread
          next =>
            obtain ⟨-, hrest⟩ := Prod.mk.inj hread
            obtain ⟨-, rfl⟩ := Prod.mk.inj hrest
            exact hcons
          next =>
            split at hread
            next =>
              obtain ⟨-, hrest⟩ := Prod.mk.inj hread
              exact (suffix_of_closeUrl hrest).trans hcons
            next =>
              split at hread
              next =>
                obtain ⟨-, hrest⟩ := Prod.mk.inj hread
                exact (ih (Prod.ext rfl hrest)).trans hcons
              next =>
                split at hread
                next => cases hread
                next =>
                  obtain ⟨-, hrest⟩ := Prod.mk.inj hread
                  exact (ih (Prod.ext rfl hrest)).trans hcons

theorem reading_url {cs after text rest : List Char} {ending : Ending}
    (hafter : after <:+ cs.tail)
    (hread : readUrl 0 (after.dropWhile isSpace) = (text, ending, rest))
    (hflaw : ∀ x ∈ (urlTokens text ending).map token, x.isFlaw = false) :
    ∃ lexeme, (urlTokens text ending).map token = [lexeme] ∧ Reading cs lexeme rest := by
  cases ending with
  | closed =>
      have hhead : (token (.url text true)).write.head? = some 'u' := rfl
      have hsuffix := (suffix_of_readUrl hread).trans (List.dropWhile_suffix _)
      exact ⟨_, rfl, .of_head (hsuffix.trans hafter) hhead (by decide) trivial
        (fun h => by cases h) (by simp)⟩
  | endOfInput => exact absurd (hflaw (token (.flaw .endInUrl)) (by simp [urlTokens])) (by decide)
  | broken => exact absurd (hflaw (token (.flaw .badUrl)) (by simp [urlTokens])) (by decide)

theorem reading_word {cs : List Char} (hsmooth : Smooth cs) (hstarts : startsName cs = true)
    (hpoints : startsCodePoints cs = false) (harrow : arrow.isPrefixOf cs = false)
    {lexemes : List Lexeme} {rest : List Char} (hread : readWord cs = (lexemes, rest))
    (hflaw : ∀ x ∈ lexemes, x.isFlaw = false) :
    ∃ lexeme, lexemes = [lexeme] ∧ Reading cs lexeme rest := by
  have hname := isIdent_takeWhile hsmooth hstarts
  have hstops := stops_dropName hsmooth
  have hcut := List.takeWhile_append_dropWhile (p := isNameChar) (l := cs)
  unfold readWord at hread
  rw [readName_eq hsmooth.escape] at hread
  generalize cs.takeWhile isNameChar = name at hname hcut hread
  generalize cs.dropWhile isNameChar = after at hstops hcut hread
  dsimp only at hread
  split at hread
  next after =>
    split at hread
    next =>
      obtain ⟨rfl, rfl⟩ := Prod.mk.inj hread
      have hafter : after <:+ cs.tail := by
        obtain ⟨d, ds, rfl⟩ := List.exists_cons_of_ne_nil hname.ne_nil
        rw [← hcut]
        exact (List.suffix_cons '(' after).trans (List.suffix_append ds _)
      exact reading_url hafter rfl hflaw
    next =>
      obtain ⟨rfl, rfl⟩ := Prod.mk.inj hread
      refine ⟨_, rfl, .of_write ?_ trivial fun haddress => .call hname haddress⟩
      rw [write, hname.write_eq, ← hcut]
      simp
  next hbracket =>
    obtain ⟨rfl, rfl⟩ := Prod.mk.inj hread
    refine ⟨_, rfl, .of_write ?_ ?_ fun _ => .ident hname⟩
    · rw [write, Token.write, hname.write_eq, hcut]
    · rw [← hcut] at hpoints harrow
      exact ⟨hpoints, harrow⟩

/-! ## Numbers -/

theorem isUnit_takeWhile {rest : List Char} {parts : Parts} (hsmooth : Smooth rest)
    (hstarts : startsName rest = true)
    (hpower : parts.power = [] → readPower rest = ([], rest)) :
    IsUnit parts (rest.takeWhile isNameChar) := by
  refine ⟨isIdent_takeWhile hsmooth hstarts, fun hnone c d ds hunit hletter => ?_⟩
  rw [Bool.eq_false_iff]
  intro hdigit
  have hcut := List.takeWhile_append_dropWhile (p := isNameChar) (l := rest)
  rw [hunit] at hcut
  have hread := hpower hnone
  have hplus := isAsciiDigit_ne hdigit (d := '+') (by decide)
  have hminus := isAsciiDigit_ne hdigit (d := '-') (by decide)
  rw [← hcut] at hread
  rcases hletter with rfl | rfl
  · simp [readPower, readSign, hplus, hminus, hdigit] at hread
  · simp [readPower, readSign, hplus, hminus, hdigit] at hread

theorem reading_dimension {written rest : List Char} {parts : Parts}
    (hnumber : IsNumeral written parts) (hunit : IsUnit parts (rest.takeWhile isNameChar)) :
    Reading (written ++ rest) (token (.dimension written (rest.takeWhile isNameChar)))
      (rest.dropWhile isNameChar) := by
  obtain ⟨c, cs, hwritten, -⟩ := hnumber.exists_lead []
  rw [List.append_nil] at hwritten
  refine ⟨?_, trivial, fun _ => .dimension hnumber hunit, by simp, ?_, ?_⟩
  · rw [hwritten]
    exact (List.dropWhile_suffix _).trans (List.suffix_append cs rest)
  · intro d hhead _
    rw [write, Token.write, hwritten] at hhead
    rw [hwritten]
    exact hhead
  · intro hhyphens
    have hstarts := hnumber.valid.startsNumber (writeUnit (rest.takeWhile isNameChar))
    rw [← hnumber.written_eq] at hstarts
    exact absurd hhyphens hstarts.not_hyphens

theorem reading_numeral {cs : List Char} (hsmooth : Smooth cs) {numeral : Numeral}
    (hread : readNumeral? cs = some numeral)
    (hshort : numeral.whole = true → numeral.digits ≤ Text.maxDecimalDigits) {t : Token}
    {rest : List Char} (hunit : readUnit numeral.written numeral.rest = (t, rest)) :
    Reading cs (token t) rest := by
  obtain ⟨parts, hvalid, rfl, hwritten, hwhole, hdigits, hpower⟩ := exists_parts hread
  have hnumber : IsNumeral numeral.written parts :=
    ⟨hvalid, hwritten, fun h => hdigits ▸ hshort (hwhole.trans h)⟩
  rw [← hwritten]
  have hrest : Smooth numeral.rest := hsmooth.of_suffix (List.suffix_append _ _)
  unfold readUnit at hunit
  split at hunit
  next hstarts =>
    rw [readName_eq hrest.escape] at hunit
    obtain ⟨rfl, rfl⟩ := Prod.mk.inj hunit
    exact reading_dimension hnumber (isUnit_takeWhile hrest hstarts hpower)
  next hstarts =>
    split at hunit
    next after heq =>
      obtain ⟨rfl, rfl⟩ := Prod.mk.inj hunit
      refine .of_write ?_ trivial fun _ => .percentage hnumber
      simp [write, Token.write, heq]
    next hpercent =>
      obtain ⟨rfl, rfl⟩ := Prod.mk.inj hunit
      exact .of_write rfl ⟨Bool.eq_false_iff.mpr hstarts, stops_char hpercent⟩
        fun _ => .number hnumber

/-! ## Punctuation, strings and brackets -/

section Other

variable {c : Char} {cs : List Char} (hsmooth : Smooth (c :: cs)) (hspace : isSpace c = false)
  (harrow : arrow.isPrefixOf (c :: cs) = false) (hname : startsName (c :: cs) = false)
  (hnumeral : readNumeral? (c :: cs) = none)
include hsmooth hspace harrow hname hnumeral

omit harrow in
theorem isSignChar_of_read (hquote : c ≠ '"' ∧ c ≠ '\'')
    (hbracket : c ∉ ['\x7b', '\x7d', '[', ']', '(', ')']) : isSignChar c = true := by
  have hescape : c ≠ '\\' := fun h => hsmooth.escape (by simp [h])
  have hstart : isNameStart c = false := by
    rw [Bool.eq_false_iff]
    intro hstart
    have hhyphen : c ≠ '-' := by
      rintro rfl
      exact absurd hstart (by decide)
    simp [startsName, hhyphen, hstart] at hname
  have hdigit : Text.isAsciiDigit c = false := by
    rw [Bool.eq_false_iff]
    intro hdigit
    have hplus := isAsciiDigit_ne hdigit (d := '+') (by decide)
    have hminus := isAsciiDigit_ne hdigit (d := '-') (by decide)
    simp [readNumeral?, readSign, hplus, hminus, hdigit] at hnumeral
  have hblank : Text.isBlank c = false := by
    rw [Bool.eq_false_iff]
    intro hblank
    rw [hsmooth.blank c List.mem_cons_self hblank] at hspace
    cases hspace
  have hnull := hsmooth.null c List.mem_cons_self
  simp only [List.mem_cons, List.not_mem_nil, or_false, not_or] at hbracket
  simp [isSignChar, hstart, hdigit, hblank, hnull, hquote, hescape, hbracket]

theorem reading_single (hquote : c ≠ '"' ∧ c ≠ '\'')
    (hbracket : c ∉ ['\x7b', '\x7d', '[', ']', '(', ')'])
    (hkeyword : c = '@' → startsName cs = false) (hhash : c = '#' → Stops continuesName cs)
    (hopening : c = '<' → ¬ ['!', '-', '-'] <+: cs) (hdouble : c = '|' → Stops (· = '|') cs)
    (hequals : joinsEquals c = true → Stops (· = '=') cs) :
    Reading (c :: cs) (token (.sign [c])) cs := by
  refine .of_write rfl ⟨hnumeral, hname, harrow, hkeyword, hhash, ?_, hopening, hdouble, hequals⟩
    fun _ => .sign (.single (isSignChar_of_read hsmooth hspace hname hnumeral hquote hbracket))
  rintro rfl
  refine stops_char ?_
  rintro ds rfl
  exact hsmooth.comment ⟨[], ds, rfl⟩

theorem reading_signLexeme (hquote : c ≠ '"' ∧ c ≠ '\'') (hat : c ≠ '@') (hhash : c ≠ '#')
    {lexeme : Lexeme} {rest : List Char} (hread : readSignLexeme c cs = (lexeme, rest)) :
    Reading (c :: cs) lexeme rest := by
  have hsingle := reading_single hsmooth hspace harrow hname hnumeral hquote
  unfold readSignLexeme at hread
  split at hread
  next =>
    obtain ⟨rfl, rfl⟩ := Prod.mk.inj hread
    exact .of_write rfl trivial fun _ => .opening .curly
  next =>
    obtain ⟨rfl, rfl⟩ := Prod.mk.inj hread
    exact .of_write rfl trivial fun _ => .opening .square
  next =>
    obtain ⟨rfl, rfl⟩ := Prod.mk.inj hread
    exact .of_write rfl trivial fun _ => .opening .round
  next =>
    obtain ⟨rfl, rfl⟩ := Prod.mk.inj hread
    exact .of_write rfl trivial fun _ => .closing .curly
  next =>
    obtain ⟨rfl, rfl⟩ := Prod.mk.inj hread
    exact .of_write rfl trivial fun _ => .closing .square
  next =>
    obtain ⟨rfl, rfl⟩ := Prod.mk.inj hread
    exact .of_write rfl trivial fun _ => .closing .round
  next =>
    obtain ⟨rfl, rfl⟩ := Prod.mk.inj hread
    exact .of_write rfl trivial fun _ => .sign (.joined (by decide))
  next =>
    obtain ⟨rfl, rfl⟩ := Prod.mk.inj hread
    exact .of_write rfl trivial fun _ => .sign (.joined (by decide))
  next d after hcurly hsquare hround hcurly' hsquare' hround' =>
    split at hread
    next hjoins =>
      obtain ⟨rfl, rfl⟩ := Prod.mk.inj hread
      refine .of_write rfl trivial fun _ => .sign (.joined ?_)
      simp only [joinsEquals, Bool.or_eq_true, decide_eq_true_eq] at hjoins
      rcases hjoins with (((rfl | rfl) | rfl) | rfl) | rfl
      all_goals decide
    next hjoins =>
      obtain ⟨rfl, rfl⟩ := Prod.mk.inj hread
      refine hsingle ?_ (fun h => absurd h hat) (fun h => absurd h hhash) ?_ ?_
        (fun h => absurd h hjoins)
      · simpa using ⟨hcurly, hcurly', hsquare, hsquare', hround, hround'⟩
      · rintro - ⟨more, heq⟩
        cases heq
      · exact fun _ => stops_cons.mpr (by decide)
  next d ds hcurly hsquare hround hcurly' hsquare' hround' hequals hmark hbars =>
    obtain ⟨rfl, rfl⟩ := Prod.mk.inj hread
    refine hsingle ?_ (fun h => absurd h hat) (fun h => absurd h hhash) ?_ ?_ ?_
    · simpa using ⟨hcurly, hcurly', hsquare, hsquare', hround, hround'⟩
    · rintro hc ⟨more, rfl⟩
      exact hmark more hc rfl
    · exact fun hc => stops_char fun ds hds => hbars ds hc hds
    · exact fun _ => stops_char hequals

omit hspace harrow hname hnumeral in
theorem reading_string {text rest : List Char} {ending : Ending}
    (hread : readString c 0 cs = (text, ending, rest))
    (hflaw : ∀ x ∈ (stringTokens text ending).map token, x.isFlaw = false) :
    ∃ lexeme, (stringTokens text ending).map token = [lexeme] ∧ Reading (c :: cs) lexeme rest := by
  have hescape : '\\' ∉ cs := fun hmem => hsmooth.escape (List.mem_cons_of_mem c hmem)
  obtain ⟨hsuffix, hchars⟩ := of_readString hescape hread
  cases ending with
  | closed =>
      have hhead : (token (.quoted text true)).write.head? = some '"' := rfl
      refine ⟨_, rfl, .of_head hsuffix hhead (by decide) trivial
        (fun _ => .quoted fun d hmem => ?_) (by simp)⟩
      obtain ⟨hd, hline⟩ := hchars d hmem
      refine ⟨?_, hline, hsmooth.settled (List.mem_cons_of_mem c hd)⟩
      rintro rfl
      exact hescape hd
  | endOfInput =>
      exact absurd (hflaw (token (.flaw .endInString)) (by simp [stringTokens])) (by decide)
  | broken => exact absurd (hflaw (token (.flaw .badString)) (by simp [stringTokens])) (by decide)

theorem reading_at (hat : c = '@') {t : Token} {rest : List Char}
    (hread : readAtKeyword cs = (t, rest)) : Reading (c :: cs) (token t) rest := by
  have hrest : Smooth cs := hsmooth.of_suffix (List.suffix_cons c cs)
  subst hat
  unfold readAtKeyword at hread
  split at hread
  next hstarts =>
    have hident := isIdent_takeWhile hrest hstarts
    rw [readName_eq hrest.escape] at hread
    obtain ⟨rfl, rfl⟩ := Prod.mk.inj hread
    refine .of_write ?_ trivial fun _ => .atKeyword hident
    rw [write, Token.write, hident.write_eq]
    simp
  next hstarts =>
    obtain ⟨rfl, rfl⟩ := Prod.mk.inj hread
    exact reading_single hsmooth hspace harrow hname hnumeral (by decide) (by decide)
      (fun _ => Bool.eq_false_iff.mpr hstarts) (fun h => absurd h (by decide))
      (fun h => absurd h (by decide)) (fun h => absurd h (by decide))
      (fun h => absurd h (by decide))

theorem reading_hash (hhash : c = '#') {t : Token} {rest : List Char}
    (hread : readHash cs = (t, rest)) : Reading (c :: cs) (token t) rest := by
  have hrest : Smooth cs := hsmooth.of_suffix (List.suffix_cons c cs)
  subst hhash
  by_cases hstarts : ∃ d ds, cs = d :: ds ∧ isNameChar d = true
  · obtain ⟨d, ds, rfl, hd⟩ := hstarts
    have hescape : d ≠ '\\' := ne_of_isNameChar hd (by decide)
    have hfront := isName_takeWhile hrest (by simp [hd])
    have happend := startsName_append hfront.ne_nil hfront.char (stops_dropName hrest)
    rw [List.takeWhile_append_dropWhile] at happend
    have heq : readHash (d :: ds) = (.hash ((d :: ds).takeWhile isNameChar)
        (startsName ((d :: ds).takeWhile isNameChar)), (d :: ds).dropWhile isNameChar) := by
      rw [← happend]
      unfold readHash
      rw [readName_eq hrest.escape]
      simp only [hd, if_true]
    rw [heq] at hread
    obtain ⟨rfl, rfl⟩ := Prod.mk.inj hread
    refine .of_write ?_ trivial fun _ => .hash hfront
    rw [write_hash hfront]
    simp
  · have hstops : Stops continuesName cs := by
      cases cs with
      | nil => exact stops_nil _
      | cons d ds =>
          have hd : isNameChar d = false := Bool.eq_false_iff.mpr fun h => hstarts ⟨d, ds, rfl, h⟩
          have hescape : d ≠ '\\' := fun h => hrest.escape (by simp [h])
          exact stops_cons.mpr (by simp [continuesName, hd, hescape])
    rw [readHash_of_stops hstops] at hread
    obtain ⟨rfl, rfl⟩ := Prod.mk.inj hread
    exact reading_single hsmooth hspace harrow hname hnumeral (by decide) (by decide)
      (fun h => absurd h (by decide)) (fun _ => hstops) (fun h => absurd h (by decide))
      (fun h => absurd h (by decide)) (fun h => absurd h (by decide))

theorem reading_other {lexemes : List Lexeme} {rest : List Char}
    (hread : readOther false c cs = (lexemes, rest)) (hflaw : ∀ x ∈ lexemes, x.isFlaw = false) :
    ∃ lexeme, lexemes = [lexeme] ∧ Reading (c :: cs) lexeme rest := by
  unfold readOther at hread
  split at hread
  next hat =>
    obtain ⟨rfl, rfl⟩ := Prod.mk.inj hread
    exact ⟨_, rfl, reading_at hsmooth hspace harrow hname hnumeral hat rfl⟩
  next hat =>
    split at hread
    next hhash =>
      obtain ⟨rfl, rfl⟩ := Prod.mk.inj hread
      exact ⟨_, rfl, reading_hash hsmooth hspace harrow hname hnumeral hhash rfl⟩
    next hhash =>
      split at hread
      next hquote =>
        obtain ⟨rfl, rfl⟩ := Prod.mk.inj hread
        exact reading_string hsmooth rfl hflaw
      next hquote =>
        split at hread
        next after => exact absurd ⟨[], after, rfl⟩ hsmooth.comment
        next =>
          obtain ⟨rfl, rfl⟩ := Prod.mk.inj hread
          rw [Bool.or_eq_true, decide_eq_true_eq, decide_eq_true_eq, not_or] at hquote
          exact ⟨_, rfl,
            reading_signLexeme hsmooth hspace harrow hname hnumeral hquote hat hhash rfl⟩

end Other

/-! ## A step and a run of the reader -/

/-- One step over a text without escapes reads one lexeme. -/
theorem exists_reading {c : Char} {cs : List Char} (hsmooth : Smooth (c :: cs))
    {lexemes : List Lexeme} {rest : List Char}
    (hread : readLexemes false c cs = .ok (lexemes, rest))
    (hflaw : ∀ x ∈ lexemes, x.isFlaw = false) :
    ∃ lexeme, lexemes = [lexeme] ∧ Reading (c :: cs) lexeme rest := by
  unfold readLexemes at hread
  split at hread
  next hspace =>
    cases hread
    exact ⟨_, rfl, reading_whitespace hspace⟩
  next hspace =>
    split at hread
    next =>
      cases hread
      exact ⟨_, rfl, reading_codePoints rfl⟩
    next hpoints =>
      split at hread
      next harrow =>
        cases hread
        obtain ⟨more, hmore⟩ := List.isPrefixOf_iff_prefix.mp harrow
        have hdrop : cs.drop 2 = more := by
          rw [← (List.cons.inj hmore).2]
          rfl
        refine ⟨_, rfl, .of_write ?_ trivial fun _ => .sign (.joined (by decide))⟩
        rw [hdrop, ← hmore]
        rfl
      next harrow =>
        have hspace := Bool.eq_false_iff.mpr hspace
        have hpoints := Bool.eq_false_iff.mpr hpoints
        have harrow : arrow.isPrefixOf (c :: cs) = false := Bool.eq_false_iff.mpr harrow
        split at hread
        next hname =>
          exact reading_word hsmooth hname hpoints harrow (Except.ok.inj hread) hflaw
        next hname =>
          split at hread
          next numeral hnumeral =>
            split at hread
            next => cases hread
            next hlimit =>
              cases hread
              refine ⟨_, rfl, reading_numeral hsmooth hnumeral ?_ rfl⟩
              intro hwhole
              simpa [hwhole] using hlimit
          next hnumeral =>
            exact reading_other hsmooth hspace harrow (Bool.eq_false_iff.mpr hname) hnumeral
              (Except.ok.inj hread) hflaw

/-- A text that is read lexeme by lexeme. -/
inductive Reads : List Char → List Lexeme → Prop
  | nil : Reads [] []
  | step {cs rest : List Char} {lexeme : Lexeme} {lexemes : List Lexeme}
    (hreading : Reading cs lexeme rest) (hrest : Reads rest lexemes) : Reads cs (lexeme :: lexemes)

theorem reads_of_lexIn {fuel : Nat} {cs : List Char} {lexemes : List Lexeme}
    (hlex : lexIn false fuel cs = .ok lexemes) (hfuel : cs.length ≤ fuel) (hsmooth : Smooth cs)
    (hflaw : ∀ x ∈ lexemes, x.isFlaw = false) : Reads cs lexemes := by
  induction fuel generalizing cs lexemes with
  | zero =>
      obtain rfl := List.eq_nil_of_length_eq_zero (Nat.le_zero.mp hfuel)
      cases hlex
      exact .nil
  | succ fuel ih =>
      cases cs with
      | nil =>
          cases hlex
          exact .nil
      | cons c cs =>
          rw [lexIn] at hlex
          obtain ⟨⟨front, rest⟩, hread, hlex⟩ := Fault.exists_of_bind_eq_ok hlex
          obtain ⟨more, hmore, hlex⟩ := Fault.exists_of_bind_eq_ok hlex
          cases hlex
          obtain ⟨lexeme, rfl, hreading⟩ := exists_reading hsmooth hread
            fun x hmem => hflaw x (List.mem_append_left _ hmem)
          have hlength := hreading.suffix.length_le
          rw [List.length_cons] at hfuel
          refine .step hreading (ih hmore (hlength.trans (Nat.le_of_succ_le_succ hfuel)) ?_ ?_)
          · exact hsmooth.of_suffix (hreading.suffix.trans (List.suffix_cons c cs))
          · exact fun x hmem => hflaw x (List.mem_append_right _ hmem)

/-! ## No lexeme runs into the next -/

theorem Reads.not_runsInto {cs rest : List Char} {lexeme : Lexeme} {lexemes : List Lexeme}
    (hrest : Reads rest lexemes) (hreading : Reading cs lexeme rest) :
    ¬ lexeme.RunsInto lexemes := by
  have hleaves := hreading.leaves
  intro hruns
  cases hruns with
  | @blanks _ second =>
      cases hrest with
      | step hnext =>
          cases hnext.plain rfl with
          | whitespace hne htext =>
              obtain ⟨c, cs, rfl⟩ := List.exists_cons_of_ne_nil hne
              rw [hnext.written _ (.inr rfl)] at hleaves
              exact absurd (stops_cons.mp hleaves) (by simp [htext c List.mem_cons_self])
  | percent =>
      cases hrest with
      | step hnext =>
          rw [hnext.written _ (.inl rfl)] at hleaves
          exact absurd (stops_cons.mp hleaves.2) (by decide)
  | numberArrow =>
      cases hrest with
      | step hnext =>
          rw [hnext.written _ (.inl rfl)] at hleaves
          exact absurd hleaves.1 (by simp [arrow, startsName])
  | hyphens hc =>
      cases hrest with
      | step hnext =>
          rw [hnext.written _ (.inl rfl)] at hleaves
          rcases hc with rfl | rfl
          · exact absurd (stops_cons.mp (hleaves.hash rfl)) (by decide)
          · exact absurd hleaves.name (by simp [startsName])
  | signArrow hc =>
      cases hrest with
      | step hnext =>
          rw [hnext.written _ (.inl rfl)] at hleaves
          rcases hc with rfl | rfl | rfl
          · exact absurd (stops_cons.mp (hleaves.hash rfl)) (by decide)
          · exact absurd hleaves.name (by simp [arrow, startsName])
          · exact absurd (hleaves.keyword rfl) (by simp [arrow, startsName])
  | bars =>
      cases hrest with
      | step hnext =>
          rw [hnext.written _ (.inl rfl)] at hleaves
          exact absurd (stops_cons.mp (hleaves.double rfl)) (by decide)
  | comment =>
      cases hrest with
      | step hnext =>
          rw [hnext.written _ (.inl rfl)] at hleaves
          exact absurd (stops_cons.mp (hleaves.comment rfl)) (by decide)
  | mark hhyphens =>
      cases hrest with
      | step hnext hmore =>
          rw [hnext.written _ (.inl rfl)] at hleaves
          cases hmore with
          | step hlast =>
              obtain ⟨tail, rfl⟩ := hlast.hyphens hhyphens
              exact hleaves.opening rfl ⟨tail, rfl⟩
  | codePoints hc hhead hd =>
      cases hrest with
      | step hnext hmore =>
          rw [hnext.written _ (.inl rfl)] at hleaves
          cases hmore with
          | step hlast =>
              obtain ⟨tail, rfl⟩ := List.head?_eq_some_iff.mp (hlast.head _ hhead hd)
              have hpoints := hleaves.1
              simp only [List.cons_append, List.nil_append, startsCodePoints] at hpoints
              rcases hc with rfl | rfl
              · rcases hd with hd | rfl
                · simp [hd] at hpoints
                · simp at hpoints
              · rcases hd with hd | rfl
                · simp [hd] at hpoints
                · simp at hpoints
  | identArrow =>
      cases hrest with
      | step hnext =>
          rw [hnext.written _ (.inl rfl)] at hleaves
          exact absurd hleaves.2 (by simp [arrow, List.isPrefixOf])

/-- Lexemes read from a text without escapes: plain unless they are addresses, and none of them
runs into the next. -/
def Fair : List Lexeme → Prop
  | [] => True
  | lexeme :: rest =>
    (lexeme.isAddress = false → lexeme.Plain) ∧ ¬ lexeme.RunsInto rest ∧ Fair rest

theorem Reads.fair {cs : List Char} {lexemes : List Lexeme} (hreads : Reads cs lexemes) :
    Fair lexemes := by
  induction hreads with
  | nil => trivial
  | step hreading hrest ih => exact ⟨hreading.plain, hrest.not_runsInto hreading, ih⟩

end Lexeme

end Winnow.Css
