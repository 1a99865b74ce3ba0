import Winnow.Proofs.Css.Spelled
import Winnow.Proofs.Text.Strip

/-!
# The characters of plain lexemes

Only white space, strings and units with an escape are written with blanks. So preparing a text of
plain lexemes leaves it as it is, and what trimming can take from a lexeme that is not white space
is the blank after an escape.
-/

namespace Winnow.Css

/-! ## Characters that trimming and preparing leave alone -/

/-- A character that is neither blank nor null. -/
def IsClean (c : Char) : Prop := Text.isBlank c = false ∧ c.toNat ≠ 0

theorem IsClean.settled {c : Char} (hclean : IsClean c) : IsSettled c := by
  refine ⟨?_, ?_, hclean.2⟩
  · rintro rfl
    exact absurd hclean.1 (by decide)
  · intro hfeed
    exact absurd hclean.1 (by simp [Text.isBlank, hfeed])

theorem isClean_of_range {c : Char} (hlow : 0x21 ≤ c.toNat) (hhigh : c.toNat ≤ 0x7e) :
    IsClean c := by
  refine ⟨?_, by omega⟩
  simp only [Text.isBlank, Bool.or_eq_false_iff, Bool.and_eq_false_iff, decide_eq_false_iff_not,
    beq_eq_false_iff_ne]
  omega

/-- A printed character of ASCII. -/
def isGraphic (c : Char) : Bool := 0x21 ≤ c.toNat && c.toNat ≤ 0x7e

theorem clean_of_all {text : List Char} (htext : text.all isGraphic = true) :
    ∀ c ∈ text, IsClean c := by
  intro c hmem
  have hrange := List.all_eq_true.mp htext c hmem
  rw [isGraphic, Bool.and_eq_true, decide_eq_true_eq, decide_eq_true_eq] at hrange
  exact isClean_of_range hrange.1 hrange.2

theorem isClean_of_between {a b c : Char} (ha : 0x21 ≤ a.toNat) (hb : b.toNat ≤ 0x7e)
    (hc : a ≤ c ∧ c ≤ b) : IsClean c := by
  have hlow : a.toNat ≤ c.toNat := hc.1
  have hhigh : c.toNat ≤ b.toNat := hc.2
  exact isClean_of_range (by omega) (by omega)

theorem isClean_of_isAsciiDigit {c : Char} (hc : Text.isAsciiDigit c = true) : IsClean c := by
  simp only [Text.isAsciiDigit, Text.asciiDigit?] at hc
  split at hc
  next h => exact isClean_of_between (by decide) (by decide) h
  next => cases hc

theorem isClean_of_isHexDigit {c : Char} (hc : Text.isHexDigit c = true) : IsClean c := by
  simp only [Text.isHexDigit, Text.hexDigit?] at hc
  split at hc
  next h => exact isClean_of_between (by decide) (by decide) h
  next =>
    split at hc
    next h => exact isClean_of_between (by decide) (by decide) h
    next =>
      split at hc
      next h => exact isClean_of_between (by decide) (by decide) h
      next => cases hc

theorem toNat_ne_zero_of_isNameChar {c : Char} (hc : isNameChar c = true) : c.toNat ≠ 0 := by
  intro hzero
  obtain rfl : c = Char.ofNat 0 := by rw [← hzero, Char.ofNat_toNat]
  exact absurd hc (by decide)

theorem IsName.clean {name : List Char} (hname : IsName name) : ∀ c ∈ name, IsClean c :=
  fun c hmem => ⟨hname.not_blank c hmem, toNat_ne_zero_of_isNameChar (hname.char c hmem)⟩

theorem IsSignPart.clean {sign : List Char} (hsign : IsSignPart sign) : ∀ c ∈ sign, IsClean c := by
  rcases hsign with rfl | rfl | rfl
  all_goals exact clean_of_all (by decide)

theorem IsDigits.clean {digits : List Char} (hdigits : IsDigits digits) :
    ∀ c ∈ digits, IsClean c :=
  fun c hmem => isClean_of_isAsciiDigit (hdigits c hmem)

theorem Parts.Valid.clean {parts : Parts} (hvalid : parts.Valid) :
    ∀ c ∈ parts.written, IsClean c := by
  intro c hmem
  simp only [written, List.mem_append] at hmem
  rcases hmem with hsign | hdigits | hfraction | hpower
  · exact hvalid.sign.clean c hsign
  · exact hvalid.digits.clean c hdigits
  · rcases hvalid.fraction with hnone | ⟨ds, heq, -, hds⟩
    · rw [hnone] at hfraction
      cases hfraction
    · rw [heq] at hfraction
      rcases List.mem_cons.mp hfraction with rfl | hmem
      · exact isClean_of_range (by decide) (by decide)
      · exact hds.clean c hmem
  · rcases hvalid.power with hnone | ⟨d, sign, ds, heq, hd, hsign, -, hds⟩
    · rw [hnone] at hpower
      cases hpower
    · rw [heq] at hpower
      rcases List.mem_cons.mp hpower with rfl | hmem
      · rcases hd with rfl | rfl
        · exact isClean_of_range (by decide) (by decide)
        · exact isClean_of_range (by decide) (by decide)
      · rcases List.mem_append.mp hmem with hmem | hmem
        · exact hsign.clean c hmem
        · exact hds.clean c hmem

theorem IsSign.clean {text : List Char} (hsign : IsSign text) : ∀ c ∈ text, IsClean c := by
  cases hsign with
  | single hc =>
      intro d hmem
      simp only [isSignChar, Bool.and_eq_true, Bool.not_eq_true', decide_eq_true_eq] at hc
      rw [List.mem_singleton.mp hmem]
      exact ⟨hc.1.1.2, hc.1.2⟩
  | joined hmem =>
      have hall : ∀ text ∈ joinedSigns, text.all isGraphic = true := by decide
      exact clean_of_all (hall text hmem)

theorem clean_append {front back : List Char} (hfront : ∀ c ∈ front, IsClean c)
    (hback : ∀ c ∈ back, IsClean c) : ∀ c ∈ front ++ back, IsClean c :=
  fun c hmem => (List.mem_append.mp hmem).elim (hfront c) (hback c)

theorem isSettled_of_isSpace {c : Char} (hc : isSpace c = true) : IsSettled c := by
  rcases isSpace_iff.mp hc with rfl | rfl | rfl
  all_goals exact ⟨by decide, by decide, by decide⟩

theorem isBlank_of_isSpace {c : Char} (hc : isSpace c = true) : Text.isBlank c = true := by
  rcases isSpace_iff.mp hc with rfl | rfl | rfl
  all_goals decide

/-! ## What a lexeme is written with -/

namespace Lexeme

/-- The kinds of texts that lexemes are written as. Only white space, strings and units with an
escape have other characters than clean ones. -/
inductive WrittenAs : Lexeme → Prop
  | clean {lexeme : Lexeme} (hclean : ∀ c ∈ lexeme.write, IsClean c) : WrittenAs lexeme
  | whitespace {text : List Char} (htext : ∀ c ∈ text, isSpace c = true) :
    WrittenAs (token (.whitespace text))
  | quoted {text : List Char} (htext : IsLine text) : WrittenAs (token (.quoted text true))
  | letter {written : List Char} {c : Char} (hne : written ≠ [])
    (hwritten : ∀ d ∈ written, IsClean d) (hc : c = 'e' ∨ c = 'E') :
    WrittenAs (token (.dimension written [c]))
  | escaped {written cs : List Char} {c : Char} (hne : written ≠ [])
    (hwritten : ∀ d ∈ written, IsClean d) (hc : c = 'e' ∨ c = 'E') (hname : IsName ('-' :: cs)) :
    WrittenAs (token (.dimension written (c :: '-' :: cs)))

theorem IsNumeral.clean {written : List Char} {parts : Parts} (hnumber : IsNumeral written parts) :
    ∀ c ∈ written, IsClean c := by
  rw [hnumber.written_eq]
  exact hnumber.valid.clean

theorem writtenAs_dimension {written unit : List Char} {parts : Parts}
    (hnumber : IsNumeral written parts) (hunit : IsUnit parts unit) :
    (token (.dimension written unit)).WrittenAs := by
  have hne : written ≠ [] := by
    obtain ⟨c, cs, hcons, -⟩ := hnumber.exists_lead []
    rw [List.append_nil] at hcons
    rw [hcons]
    exact List.cons_ne_nil c cs
  by_cases hescaped : isEscaped unit = true
  · obtain ⟨c, hc, rfl | ⟨cs, rfl⟩⟩ := cases_of_isEscaped hescaped
    · exact .letter hne hnumber.clean hc
    · exact .escaped hne hnumber.clean hc ⟨by simp,
        fun d hmem => hunit.char d (List.mem_cons_of_mem c hmem),
        fun d hmem => hunit.not_blank d (List.mem_cons_of_mem c hmem)⟩
  · refine .clean ?_
    rw [write, Token.write, hunit.write_eq (Bool.eq_false_iff.mpr hescaped)]
    exact clean_append hnumber.clean hunit.clean

theorem Plain.writtenAs {lexeme : Lexeme} (hplain : lexeme.Plain) : lexeme.WrittenAs := by
  cases hplain with
  | whitespace hne htext => exact .whitespace htext
  | sign htext => exact .clean htext.clean
  | ident hname =>
      refine .clean ?_
      rw [write, Token.write, hname.write_eq]
      exact hname.clean
  | atKeyword hname =>
      refine .clean ?_
      rw [write, Token.write, hname.write_eq]
      exact List.forall_mem_cons.mpr ⟨isClean_of_range (by decide) (by decide), hname.clean⟩
  | hash hname =>
      refine .clean ?_
      rw [write_hash hname]
      exact List.forall_mem_cons.mpr ⟨isClean_of_range (by decide) (by decide), hname.clean⟩
  | quoted htext => exact .quoted htext
  | codePoints =>
      have hhex : ∀ n, ∀ c ∈ Text.hexText n, IsClean c := fun n c hmem =>
        isClean_of_isHexDigit (isHexDigit_of_mem_hexText n c hmem)
      refine .clean (clean_append (clean_append (clean_of_all (by decide)) (hhex _)) ?_)
      split
      · simp
      · exact List.forall_mem_cons.mpr ⟨isClean_of_range (by decide) (by decide), hhex _⟩
  | number hnumber => exact .clean hnumber.clean
  | percentage hnumber => exact .clean (clean_append hnumber.clean (clean_of_all (by decide)))
  | dimension hnumber hunit => exact writtenAs_dimension hnumber hunit
  | call hname hurl =>
      refine .clean ?_
      rw [write, hname.write_eq]
      exact clean_append hname.clean (clean_of_all (by decide))
  | opening bracket => exact .clean (clean_of_all (by cases bracket <;> decide))
  | closing bracket => exact .clean (clean_of_all (by cases bracket <;> decide))

theorem write_letter {written : List Char} {c : Char} (hc : c = 'e' ∨ c = 'E') :
    (token (.dimension written [c])).write = (written ++ escapedLetter) ++ [' '] := by
  rcases hc with rfl | rfl
  all_goals simp [write, Token.write, writeUnit, writeUnit.writeExponentLike, escapedLetter]

theorem write_escaped {written cs : List Char} {c : Char} (hc : c = 'e' ∨ c = 'E')
    (hname : IsName ('-' :: cs)) : (token (.dimension written (c :: '-' :: cs))).write =
      (written ++ (escapedLetter ++ [' '])) ++ ('-' :: cs) := by
  rcases hc with rfl | rfl
  all_goals
    simp [write, Token.write, writeUnit, writeUnit.writeExponentLike, escapedLetter,
      writeName_eq hname.char]

theorem clean_escapedLetter : ∀ c ∈ escapedLetter, IsClean c := clean_of_all (by decide)

/-! ## Prepared texts -/

theorem settled_writeQuoted {text : List Char} (htext : IsLine text) :
    ∀ c ∈ writeQuoted text, IsSettled c := by
  intro c hmem
  obtain ⟨d, hd, hc⟩ := List.mem_flatMap.mp hmem
  obtain ⟨-, hline, hsettled⟩ := htext d hd
  unfold writeQuotedChar at hc
  split at hc
  next =>
    rcases List.mem_cons.mp hc with rfl | hc
    · exact (isClean_of_range (by decide) (by decide)).settled
    · rwa [List.mem_singleton.mp hc]
  next =>
    have hnone : lineEscape? d = none := by simp [lineEscape?, hline, hsettled.1, hsettled.2.1]
    rw [hnone] at hc
    rwa [List.mem_singleton.mp hc]

theorem WrittenAs.settled {lexeme : Lexeme} (hwritten : lexeme.WrittenAs) :
    ∀ c ∈ lexeme.write, IsSettled c := by
  have hblank : ∀ c ∈ [' '], IsSettled c := fun c hmem => by
    rw [List.mem_singleton.mp hmem]
    exact isSettled_of_isSpace (by decide)
  cases hwritten with
  | clean hclean => exact fun c hmem => (hclean c hmem).settled
  | whitespace htext => exact fun c hmem => isSettled_of_isSpace (htext c hmem)
  | quoted htext =>
      intro c hmem
      have hquote : IsSettled '"' := (isClean_of_range (by decide) (by decide)).settled
      simp only [write, Token.write, List.cons_append, if_true, List.mem_cons, List.mem_append,
        List.not_mem_nil, or_false] at hmem
      rcases hmem with rfl | hmem | rfl
      · exact hquote
      · exact settled_writeQuoted htext c hmem
      · exact hquote
  | letter hne hwritten hc =>
      rw [write_letter hc]
      intro c hmem
      rcases List.mem_append.mp hmem with hmem | hmem
      · exact (clean_append hwritten clean_escapedLetter c hmem).settled
      · exact hblank c hmem
  | escaped hne hwritten hc hname =>
      rw [write_escaped hc hname]
      intro c hmem
      simp only [List.mem_append] at hmem
      rcases hmem with (hmem | hmem | hmem) | hmem
      · exact (hwritten c hmem).settled
      · exact (clean_escapedLetter c hmem).settled
      · exact hblank c hmem
      · exact (hname.clean c hmem).settled

/-! ## The end of a lexeme -/

/-- Is the lexeme white space? -/
def isWhitespace : Lexeme → Bool
  | token (.whitespace _) => true
  | _ => false

/-- A lexeme without the blank that may go at its end. -/
structure TrimsTo (lexeme : Lexeme) (text : List Char) : Prop where
  ne_nil : text ≠ []
  trimmed : Text.dropEndWhile Text.isBlank lexeme.write = text
  textOf : ∀ rest, Stops Text.isHexDigit rest → Stops isSpace rest → TextOf lexeme text rest

theorem dropEndWhile_of_clean {text : List Char} (hclean : ∀ c ∈ text, IsClean c) :
    Text.dropEndWhile Text.isBlank text = text := by
  refine List.rdropWhile_eq_self_iff.mpr fun hne => ?_
  rw [(hclean _ (List.getLast_mem hne)).1]
  decide

theorem Plain.exists_trimsTo {lexeme : Lexeme} (hplain : lexeme.Plain)
    (hwhitespace : lexeme.isWhitespace = false) : ∃ text, lexeme.TrimsTo text := by
  obtain ⟨c, cs, hcons, -⟩ := hplain.exists_leads (.whole lexeme [])
  have hne : lexeme.write ≠ [] := by
    rw [hcons]
    exact List.cons_ne_nil c cs
  cases hplain.writtenAs with
  | clean hclean => exact ⟨_, hne, dropEndWhile_of_clean hclean, fun rest _ _ => .whole _ rest⟩
  | whitespace => cases hwhitespace
  | @quoted text =>
      have htrimmed : Text.dropEndWhile Text.isBlank (('"' :: writeQuoted text) ++ ['"']) =
          ('"' :: writeQuoted text) ++ ['"'] := Text.dropEndWhile_concat (by decide)
      exact ⟨_, hne, htrimmed, fun rest _ _ => .whole _ rest⟩
  | @letter written c _ hwritten hc =>
      refine ⟨written ++ escapedLetter, by simp [escapedLetter], ?_, fun rest hdigit hspace =>
        .cut hc hdigit hspace⟩
      rw [write_letter hc, Text.dropEndWhile_append_of_pos (List.forall_mem_singleton.mpr (by decide)),
        dropEndWhile_of_clean (clean_append hwritten clean_escapedLetter)]
  | escaped _ hwritten hc hname =>
      refine ⟨_, hne, ?_, fun rest _ _ => .whole _ rest⟩
      rw [write_escaped hc hname,
        Text.dropEndWhile_append (by simp [dropEndWhile_of_clean hname.clean]),
        dropEndWhile_of_clean hname.clean]

theorem head_of_clean {text : List Char} (hclean : ∀ c ∈ text, IsClean c) :
    ∀ c ∈ text.head?, Text.isBlank c = false :=
  fun c hmem => (hclean c (List.mem_of_mem_head? hmem)).1

/-- Only white space starts with a blank. -/
theorem WrittenAs.not_blank_head {lexeme : Lexeme} (hwritten : lexeme.WrittenAs)
    (hwhitespace : lexeme.isWhitespace = false) :
    ∀ c ∈ lexeme.write.head?, Text.isBlank c = false := by
  cases hwritten with
  | clean hclean => exact head_of_clean hclean
  | whitespace => cases hwhitespace
  | quoted htext =>
      rintro c hmem
      obtain rfl := Option.some.inj hmem
      decide
  | letter hne hwritten hc =>
      rw [write_letter hc, List.append_assoc, List.head?_append_of_ne_nil _ hne]
      exact head_of_clean hwritten
  | escaped hne hwritten hc hname =>
      rw [write_escaped hc hname, List.append_assoc, List.head?_append_of_ne_nil _ hne]
      exact head_of_clean hwritten

end Lexeme

end Winnow.Css
