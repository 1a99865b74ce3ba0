import Winnow.Proofs.Css.Lexeme

/-!
# Every plain lexeme is read back

Numbers and punctuation look further ahead than names do: a number may go on with a fraction, a
power or a unit, and punctuation may join with what follows. `Lexeme.readsAs_write` puts the kinds
of lexemes together.
-/

namespace Winnow.Css

/-! ## Numbers -/

/-- A digit or the point before a fraction. -/
def startsCount (c : Char) : Bool := Text.isAsciiDigit c || c = '.'

theorem ne_of_startsCount {c d : Char} (hc : startsCount c = true) (hd : startsCount d = false) :
    c ≠ d := by
  rintro rfl
  rw [hc] at hd
  cases hd

theorem not_isNameStart_of_isAsciiDigit {c : Char} (hc : Text.isAsciiDigit c = true) :
    isNameStart c = false := by
  have hle : ∀ {a b : Char}, a ≤ b → a.toNat ≤ b.toNat := fun h => h
  rw [Bool.eq_false_iff]
  intro hstart
  simp only [Text.isAsciiDigit, Text.asciiDigit?] at hc
  split at hc
  next h =>
    have hlower := hle h.1
    have hupper := hle h.2
    simp only [isNameStart, Text.isAsciiLetter, Bool.or_eq_true, Bool.and_eq_true,
      decide_eq_true_eq] at hstart
    simp only [Char.reduceToNat] at hlower hupper
    rcases hstart with ((⟨hl, -⟩ | ⟨hl, -⟩) | rfl) | hbig
    · have := hle hl
      simp only [Char.reduceToNat] at this
      omega
    · have := hle hl
      simp only [Char.reduceToNat] at this
      omega
    · exact absurd hupper (by decide)
    · omega
  next => cases hc

theorem not_isNameStart_of_startsCount {c : Char} (hc : startsCount c = true) :
    isNameStart c = false := by
  rw [startsCount, Bool.or_eq_true, decide_eq_true_eq] at hc
  rcases hc with hdigit | rfl
  · exact not_isNameStart_of_isAsciiDigit hdigit
  · decide

theorem not_isSpace_of_startsCount {c : Char} (hc : startsCount c = true) : isSpace c = false := by
  rw [Bool.eq_false_iff]
  intro hspace
  rcases isSpace_iff.mp hspace with rfl | rfl | rfl
  all_goals exact absurd hc (by decide)

/-- How a number starts: with a digit or a point, after a sign if there is one. -/
def StartsNumber (cs : List Char) : Prop :=
  (∃ d ds, cs = d :: ds ∧ startsCount d = true) ∨
    ∃ c d ds, cs = c :: d :: ds ∧ (c = '+' ∨ c = '-') ∧ startsCount d = true

theorem Parts.Valid.startsNumber {parts : Parts} (hvalid : parts.Valid) (rest : List Char) :
    StartsNumber (parts.written ++ rest) := by
  have hbody : ∃ d ds, parts.digits ++ (parts.fraction ++ (parts.power ++ rest)) = d :: ds ∧
      startsCount d = true := by
    by_cases hdigits : parts.digits = []
    · rcases hvalid.fraction with hnone | ⟨ds, hfraction, -⟩
      · exact absurd hnone (hvalid.filled.resolve_left (fun h => h hdigits))
      · exact ⟨'.', _, by rw [hdigits, hfraction]; rfl, by decide⟩
    · obtain ⟨d, ds, hcons⟩ := List.exists_cons_of_ne_nil hdigits
      have hd := hvalid.digits d (by simp [hcons])
      exact ⟨d, _, by rw [hcons]; rfl, by simp [startsCount, hd]⟩
  obtain ⟨d, ds, hcons, hd⟩ := hbody
  unfold StartsNumber Parts.written
  simp only [List.append_assoc, hcons]
  rcases hvalid.sign with hsign | hsign | hsign
  · exact .inl ⟨d, ds, by simp [hsign], hd⟩
  · exact .inr ⟨'+', d, ds, by simp [hsign], .inl rfl, hd⟩
  · exact .inr ⟨'-', d, ds, by simp [hsign], .inr rfl, hd⟩

/-- What starts like a number starts like nothing else. -/
theorem StartsNumber.exists_cons {text : List Char} (hstarts : StartsNumber text) :
    ∃ c cs, text = c :: cs ∧ isSpace c = false ∧ startsCodePoints (c :: cs) = false ∧
      arrow.isPrefixOf (c :: cs) = false ∧ startsName (c :: cs) = false := by
  rcases hstarts with ⟨d, ds, rfl, hd⟩ | ⟨c, d, ds, rfl, hc, hd⟩
  · have hstart := not_isNameStart_of_startsCount hd
    have hlower := ne_of_startsCount hd (d := 'u') (by decide)
    have hupper := ne_of_startsCount hd (d := 'U') (by decide)
    have hhyphen := ne_of_startsCount hd (d := '-') (by decide)
    have hescape := ne_of_startsCount hd (d := '\\') (by decide)
    exact ⟨d, ds, rfl, not_isSpace_of_startsCount hd, startsCodePoints_of_ne hlower hupper,
      arrow_of_ne hhyphen, startsName_of_not hstart hhyphen hescape⟩
  · have hstart := not_isNameStart_of_startsCount hd
    have hhyphen := ne_of_startsCount hd (d := '-') (by decide)
    have hescape := ne_of_startsCount hd (d := '\\') (by decide)
    have harrow : arrow.isPrefixOf (c :: d :: ds) = false := by
      simp [arrow, List.isPrefixOf, Ne.symm hhyphen]
    rcases hc with rfl | rfl
    · exact ⟨'+', d :: ds, rfl, by decide, startsCodePoints_of_ne (by decide) (by decide), harrow,
        startsName_of_not (by decide) (by decide) (by decide)⟩
    · refine ⟨'-', d :: ds, rfl, by decide, startsCodePoints_of_ne (by decide) (by decide),
        harrow, ?_⟩
      simp [startsName, hstart, hhyphen]

theorem StartsNumber.not_hyphens {cs : List Char} (hstarts : StartsNumber cs) :
    ¬ ['-', '-'] <+: cs := by
  rintro ⟨more, rfl⟩
  rcases hstarts with ⟨d, ds, heq, hd⟩ | ⟨c, d, ds, heq, -, hd⟩
  · obtain rfl := (List.cons.inj heq).1
    exact absurd hd (by decide)
  · obtain rfl := (List.cons.inj (List.cons.inj heq).2).1
    exact absurd hd (by decide)

namespace Lexeme

/-- A number is read together with what follows it directly. -/
theorem IsNumeral.readsAs {written rest unread : List Char} {parts : Parts} {token : Token}
    (hnumber : IsNumeral written parts) (hends : parts.Ends rest)
    (hunit : readUnit written rest = (token, unread)) :
    ReadsAs (written ++ rest) (.token token) unread := by
  obtain ⟨c, cs, hcons, hspace, hpoints, harrow, hname⟩ :=
    (hnumber.valid.startsNumber rest).exists_cons
  have hread := hnumber.valid.readNumeral_append hends
  rw [← hnumber.written_eq] at hread hcons
  refine ⟨c, cs, hcons, ?_⟩
  rw [hcons] at hread
  rw [readLexemes_of_numeral hspace hpoints harrow hname hread hnumber.short]
  simp only [hunit]

theorem stops_power {rest : List Char} (hname : startsName rest = false) :
    readPower rest = ([], rest) := by
  cases rest with
  | nil => rfl
  | cons c cs =>
      refine readPower_of_ne ?_ ?_
      all_goals
        rintro rfl
        exact absurd hname (by simp [startsName, isNameStart, Text.isAsciiLetter])

theorem readsAs_number {written rest : List Char} {parts : Parts}
    (hnumber : IsNumeral written parts) (hends : EndsNumber rest) :
    ReadsAs (written ++ rest) (token (.number written)) rest := by
  refine hnumber.readsAs ⟨hends.digits, fun _ => hends.fraction,
    fun _ => stops_power hends.name⟩ ?_
  unfold readUnit
  rw [if_neg (Bool.eq_false_iff.mp hends.name)]
  split
  next => exact absurd hends.percent (by simp [stops_cons])
  next => rfl

theorem readsAs_percentage {written : List Char} {parts : Parts}
    (hnumber : IsNumeral written parts) (rest : List Char) :
    ReadsAs (written ++ '%' :: rest) (token (.percentage written)) rest := by
  have hname : startsName ('%' :: rest) = false :=
    startsName_of_not (by decide) (by decide) (by decide)
  refine hnumber.readsAs ⟨stops_cons.mpr (by decide), fun _ => readFraction_of_ne (by decide),
    fun _ => stops_power hname⟩ ?_
  simp [readUnit, hname]

/-! ### Units -/

/-- The first letter of a power of ten as an escape. -/
def escapedLetter : List Char := "\\65".toList

theorem readName_escapedLetter_blank (cs : List Char) :
    readName 0 (escapedLetter ++ ' ' :: cs) = ('e' :: (readName 0 cs).1, (readName 0 cs).2) := by
  have hescape : readEscape ('6' :: '5' :: ' ' :: cs) = ('e', 3) := by
    simp [readEscape, Text.isHexDigit, Text.hexDigit?, List.takeWhile, isSpace, Text.ofDigits,
      charOfNumber]
  have hchar : isNameChar '\\' = false := by decide
  simp [escapedLetter, readName, hchar, isEscape, hescape]

theorem readName_escapedLetter {cs : List Char} (hdigit : Stops Text.isHexDigit cs)
    (hspace : Stops isSpace cs) :
    readName 0 (escapedLetter ++ cs) = ('e' :: (readName 0 cs).1, (readName 0 cs).2) := by
  have hletter : ∀ c ∈ ['6', '5'], Text.isHexDigit c = true := by
    simp [Text.isHexDigit, Text.hexDigit?]
  have htake : (('6' :: '5' :: cs).take 6).takeWhile Text.isHexDigit = ['6', '5'] :=
    takeWhile_run hletter (hdigit.take 4)
  have hescape : readEscape ('6' :: '5' :: cs) = ('e', 2) := by
    unfold readEscape
    rw [htake]
    cases cs with
    | nil => rfl
    | cons c cs =>
        have hblank := stops_cons.mp hspace
        simp [hblank, Text.hexDigit?, Text.ofDigits, charOfNumber]
  have hchar : isNameChar '\\' = false := by decide
  simp [escapedLetter, readName, hchar, isEscape, hescape]

theorem startsName_escapedLetter (cs : List Char) : startsName (escapedLetter ++ cs) = true := by
  simp [escapedLetter, startsName, isEscape]

/-- A unit that is written with an escape, because its first letter could be taken for a power. -/
def isEscaped : List Char → Bool
  | [c] => c = 'e' || c = 'E'
  | c :: '-' :: _ => c = 'e' || c = 'E'
  | _ => false

theorem cases_of_isEscaped {unit : List Char} (hescaped : isEscaped unit = true) :
    ∃ c, (c = 'e' ∨ c = 'E') ∧ (unit = [c] ∨ ∃ cs, unit = c :: '-' :: cs) := by
  unfold isEscaped at hescaped
  split at hescaped
  next c => exact ⟨c, by simpa using hescaped, .inl rfl⟩
  next c cs => exact ⟨c, by simpa using hescaped, .inr ⟨cs, rfl⟩⟩
  next => cases hescaped

theorem exists_of_isEscaped {unit : List Char} (hescaped : isEscaped unit = true) :
    ∃ c cs, unit = c :: cs ∧ writeUnit unit = escapedLetter ++ ' ' :: writeName cs ∧
      recasedUnit unit = 'e' :: cs := by
  obtain ⟨c, hc, rfl | ⟨cs, rfl⟩⟩ := cases_of_isEscaped hescaped
  · rcases hc with rfl | rfl
    · exact ⟨'e', [], rfl, rfl, rfl⟩
    · exact ⟨'E', [], rfl, rfl, rfl⟩
  · rcases hc with rfl | rfl
    · exact ⟨'e', '-' :: cs, rfl, rfl, rfl⟩
    · exact ⟨'E', '-' :: cs, rfl, rfl, rfl⟩

theorem recasedUnit_eq {unit : List Char} (hescaped : isEscaped unit = false) :
    recasedUnit unit = unit := by
  unfold recasedUnit
  split
  next => cases hescaped
  next => cases hescaped
  next => rfl

theorem IsUnit.write_eq {parts : Parts} {unit : List Char} (hunit : IsUnit parts unit)
    (hescaped : isEscaped unit = false) : writeUnit unit = unit := by
  unfold writeUnit
  split
  next cs =>
    unfold writeUnit.writeExponentLike
    split
    next => cases hescaped
    next => cases hescaped
    next => exact hunit.toIsIdent.write_eq
  next cs =>
    unfold writeUnit.writeExponentLike
    split
    next => cases hescaped
    next => cases hescaped
    next => exact hunit.toIsIdent.write_eq
  next => exact hunit.toIsIdent.write_eq

/-- What a unit that is written as it is lets a number end at. -/
theorem IsUnit.ends {parts : Parts} {unit rest : List Char} (hunit : IsUnit parts unit)
    (hescaped : isEscaped unit = false) : parts.Ends (unit ++ rest) := by
  obtain ⟨c, cs, rfl, hstart⟩ := hunit.toIsIdent.exists_cons
  have hdigit : Text.isAsciiDigit c = false := by
    rw [Bool.eq_false_iff]
    intro hdigit
    have hnot := not_isNameStart_of_isAsciiDigit hdigit
    rcases hstart with hc | ⟨rfl, -⟩
    · rw [hnot] at hc
      cases hc
    · exact absurd hdigit (by decide)
  have hpoint : c ≠ '.' := ne_of_isNameChar (hunit.char c List.mem_cons_self) (by decide)
  refine ⟨stops_cons.mpr hdigit, fun _ => readFraction_of_ne hpoint, fun hpower => ?_⟩
  by_cases hletter : c = 'e' ∨ c = 'E'
  · cases cs with
    | nil =>
        rcases hletter with rfl | rfl
        · cases hescaped
        · cases hescaped
    | cons d ds =>
        have hafter := hunit.apart hpower c d ds rfl hletter
        have hplus : d ≠ '+' := ne_of_isNameChar (hunit.char d (by simp)) (by decide)
        have hminus : d ≠ '-' := by
          rintro rfl
          rcases hletter with rfl | rfl
          · cases hescaped
          · cases hescaped
        simp [readPower, readSign, hplus, hminus, hafter]
  · rw [not_or] at hletter
    exact readPower_of_ne hletter.1 hletter.2

theorem ends_escapedLetter (parts : Parts) (cs : List Char) :
    parts.Ends (escapedLetter ++ cs) :=
  ⟨stops_cons.mpr (by decide), fun _ => readFraction_of_ne (by decide),
    fun _ => readPower_of_ne (by decide) (by decide)⟩

theorem readUnit_of_readName {written cs name rest : List Char} (hstarts : startsName cs = true)
    (hread : readName 0 cs = (name, rest)) :
    readUnit written cs = (.dimension written name, rest) := by
  unfold readUnit
  rw [if_pos hstarts, hread]

theorem readsAs_dimension {written unit rest : List Char} {parts : Parts}
    (hnumber : IsNumeral written parts) (hunit : IsUnit parts unit)
    (hends : Stops continuesName rest) :
    ReadsAs (written ++ (writeUnit unit ++ rest)) (token (.dimension written (recasedUnit unit)))
      rest := by
  by_cases hescaped : isEscaped unit = true
  · obtain ⟨d, cs, rfl, hwrite, hrecased⟩ := exists_of_isEscaped hescaped
    have hcs : ∀ c ∈ cs, isNameChar c = true := fun c h => hunit.char c (List.mem_cons_of_mem d h)
    rw [hwrite, hrecased, writeName_eq hcs, List.append_assoc, List.cons_append]
    refine hnumber.readsAs (ends_escapedLetter parts _) ?_
    refine readUnit_of_readName (startsName_escapedLetter _) ?_
    rw [readName_escapedLetter_blank, readName_run hcs hends]
  · rw [Bool.not_eq_true] at hescaped
    rw [hunit.write_eq hescaped, recasedUnit_eq hescaped]
    exact hnumber.readsAs (hunit.ends hescaped)
      (readUnit_of_readName (hunit.startsName_append hends) (hunit.readName_append hends))

/-- The blank after an escape may go if what follows does not belong to the escape. -/
theorem readsAs_dimension_cut {written rest : List Char} {parts : Parts}
    (hnumber : IsNumeral written parts) (hends : Stops continuesName rest)
    (hdigit : Stops Text.isHexDigit rest) (hspace : Stops isSpace rest) :
    ReadsAs (written ++ (escapedLetter ++ rest)) (token (.dimension written ['e'])) rest := by
  refine hnumber.readsAs (ends_escapedLetter parts _) ?_
  refine readUnit_of_readName (startsName_escapedLetter _) ?_
  have hread : readName 0 rest = ([], rest) := readName_run (by simp : ∀ c ∈ [], _) hends
  rw [readName_escapedLetter hdigit hspace, hread]

/-! ## Punctuation -/

theorem not_isSpace_of_isSignChar {c : Char} (hc : isSignChar c = true) : isSpace c = false := by
  rw [Bool.eq_false_iff]
  intro hspace
  rcases isSpace_iff.mp hspace with rfl | rfl | rfl
  all_goals exact absurd hc (by decide)

theorem readSignLexeme_of_ends {c : Char} {rest : List Char} (hc : isSignChar c = true)
    (hends : EndsSign c rest) : readSignLexeme c rest = (token (.sign [c]), rest) := by
  unfold readSignLexeme
  split
  next => exact absurd hc (by decide)
  next => exact absurd hc (by decide)
  next => exact absurd hc (by decide)
  next => exact absurd hc (by decide)
  next => exact absurd hc (by decide)
  next => exact absurd hc (by decide)
  next => exact absurd ⟨_, rfl⟩ (hends.opening rfl)
  next => exact absurd (hends.double rfl) (by simp [stops_cons])
  next =>
    rw [if_neg]
    intro hjoins
    exact absurd (hends.equals hjoins) (by simp [stops_cons])
  next => rfl

theorem readHash_of_stops {rest : List Char} (hstops : Stops continuesName rest) :
    readHash rest = (.sign ['#'], rest) := by
  cases rest with
  | nil => rfl
  | cons d ds =>
      have hd := stops_cons.mp hstops
      rw [continuesName, Bool.or_eq_false_iff, decide_eq_false_iff_not] at hd
      simp [readHash, hd.1, hd.2]

theorem readOther_of_ends {c : Char} {rest : List Char} (hc : isSignChar c = true)
    (hends : EndsSign c rest) : readOther false c rest = ([token (.sign [c])], rest) := by
  have hdouble : c ≠ '"' := ne_of_isSignChar hc (by decide)
  have hsingle : c ≠ '\'' := ne_of_isSignChar hc (by decide)
  unfold readOther
  by_cases hat : c = '@'
  · subst hat
    simp [readAtKeyword, hends.keyword rfl]
  · by_cases hhash : c = '#'
    · subst hhash
      have hread := readHash_of_stops (hends.hash rfl)
      simp [hread]
    · rw [if_neg hat, if_neg hhash, if_neg (by simp [hdouble, hsingle])]
      split
      next => exact absurd (hends.comment rfl) (by simp [stops_cons])
      next => rw [readSignLexeme_of_ends hc hends]

theorem readsAs_sign {c : Char} {rest : List Char} (hc : isSignChar c = true)
    (hends : EndsSign c rest) : ReadsAs (c :: rest) (token (.sign [c])) rest := by
  refine ⟨c, rest, rfl, ?_⟩
  have hlower : c ≠ 'u' := ne_of_isSignChar hc (by decide)
  have hupper : c ≠ 'U' := ne_of_isSignChar hc (by decide)
  rw [readLexemes_of_other (not_isSpace_of_isSignChar hc) (startsCodePoints_of_ne hlower hupper)
    hends.arrow hends.name hends.numeral, readOther_of_ends hc hends]

/-- Punctuation of several characters is read whatever follows it. -/
theorem readsAs_joined {text : List Char} (hmem : text ∈ joinedSigns) (rest : List Char) :
    ReadsAs (text ++ rest) (token (.sign text)) rest := by
  simp only [joinedSigns, List.mem_cons, List.not_mem_nil, or_false] at hmem
  obtain rfl | hmem := hmem
  · refine ⟨'-', '-' :: '>' :: rest, rfl, ?_⟩
    have hspace : isSpace '-' = false := by decide
    have hpoints : startsCodePoints ('-' :: '-' :: '>' :: rest) = false :=
      startsCodePoints_of_ne (by decide) (by decide)
    simp [readLexemes, hspace, hpoints, List.isPrefixOf, arrow]
  · obtain rfl | rfl | rfl | rfl | rfl | rfl | rfl := hmem
    all_goals
      refine ⟨_, _, rfl, ?_⟩
      rw [readLexemes_of_mark (by decide) (by decide) (by decide) (by decide) (by decide)
        (by decide) (by decide)]
      simp [readOther, readSignLexeme, joinsEquals]

theorem readsAs_bracket {c : Char} {lexeme : Lexeme} (rest : List Char)
    (hc : c = '(' ∨ c = '[' ∨ c = '\x7b' ∨ c = ')' ∨ c = ']' ∨ c = '\x7d')
    (hread : readSignLexeme c rest = (lexeme, rest)) : ReadsAs (c :: rest) lexeme rest := by
  refine ⟨c, rest, rfl, ?_⟩
  rcases hc with rfl | rfl | rfl | rfl | rfl | rfl
  all_goals
    rw [readLexemes_of_mark (by decide) (by decide) (by decide) (by decide) (by decide)
      (by decide) (by decide)]
    simp [readOther, hread]

theorem readsAs_opening (bracket : Bracket) (rest : List Char) :
    ReadsAs (bracket.opening :: rest) (opening bracket) rest := by
  cases bracket
  all_goals exact readsAs_bracket rest (by decide) rfl

theorem readsAs_closing (bracket : Bracket) (rest : List Char) :
    ReadsAs (bracket.closing :: rest) (closing bracket) rest := by
  cases bracket
  all_goals exact readsAs_bracket rest (by decide) rfl

/-! ## All lexemes -/

/-- A plain lexeme is read back if what follows lets it end. -/
theorem Plain.readsAs {lexeme : Lexeme} (hplain : lexeme.Plain) {rest : List Char}
    (hends : lexeme.Ends rest) : ReadsAs (lexeme.write ++ rest) lexeme.recased rest := by
  cases hplain with
  | whitespace hne htext => exact readsAs_whitespace hne htext hends
  | sign htext =>
      cases htext with
      | single hc => exact readsAs_sign hc hends
      | joined hmem => exact readsAs_joined hmem rest
  | ident hname =>
      rw [write, Token.write, hname.write_eq]
      exact readsAs_ident hname hends
  | atKeyword hname =>
      rw [write, Token.write, hname.write_eq]
      exact readsAs_atKeyword hname hends
  | hash hname =>
      rw [write_hash hname]
      exact readsAs_hash hname hends
  | quoted htext =>
      simpa [write, Token.write, recased, Token.recased] using readsAs_quoted htext rest
  | codePoints hfirst hlast =>
      simpa [write, Token.write, rangeEnd, recased, Token.recased] using
        readsAs_codePoints hfirst hlast hends
  | number hnumber => exact readsAs_number hnumber hends
  | percentage hnumber =>
      simpa [write, Token.write, recased, Token.recased] using readsAs_percentage hnumber rest
  | dimension hnumber hunit =>
      simpa [write, Token.write, recased, Token.recased] using readsAs_dimension hnumber hunit hends
  | call hname hurl =>
      rw [write, hname.write_eq]
      simpa [recased] using readsAs_call hname hurl rest
  | opening bracket => exact readsAs_opening bracket rest
  | closing bracket => exact readsAs_closing bracket rest

end Lexeme

end Winnow.Css
