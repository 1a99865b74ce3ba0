import Winnow.Proofs.Css.Neighbours

/-!
# A spelling is read back

Of lexemes that are plain and of which none runs into the next, every spelling is cut into the
same lexemes again, but for letters of units that an escape has made small.
-/

namespace Winnow.Css

namespace Lexeme

/-- Plain lexemes of which none runs into those after it. -/
def Natural : List Lexeme → Prop
  | [] => True
  | lexeme :: rest => lexeme.Plain ∧ ¬ lexeme.RunsInto rest ∧ Natural rest

theorem Natural.plain {lexemes : List Lexeme} (hnatural : Natural lexemes) :
    ∀ x ∈ lexemes, x.Plain := by
  induction lexemes with
  | nil => simp
  | cons lexeme rest ih =>
      exact List.forall_mem_cons.mpr ⟨hnatural.1, ih hnatural.2.2⟩

/-! ## Names in what follows -/

theorem startsName_of_stops {cs : List Char} (hstops : Stops continuesName cs) :
    startsName cs = false := by
  cases cs with
  | nil => rfl
  | cons c cs =>
      have hc := stops_cons.mp hstops
      simp only [continuesName, isNameChar, Bool.or_eq_false_iff, decide_eq_false_iff_not] at hc
      exact startsName_of_not hc.1.1.1 hc.1.2 hc.2

theorem startsName_hyphen {cs : List Char} (hstops : Stops continuesName cs) :
    startsName ('-' :: cs) = false := by
  cases cs with
  | nil => decide
  | cons c cs =>
      have hc := stops_cons.mp hstops
      simp only [continuesName, isNameChar, Bool.or_eq_false_iff, decide_eq_false_iff_not] at hc
      simp [startsName, hc]

theorem arrow_hyphen {cs : List Char} (hstops : Stops continuesName cs) :
    arrow.isPrefixOf ('-' :: cs) = false := by
  cases cs with
  | nil => decide
  | cons c cs =>
      have hc : '-' ≠ c := by
        rintro rfl
        exact absurd (stops_cons.mp hstops) (by decide)
      simp [arrow, List.isPrefixOf, hc]

theorem isNameChar_of_isHexDigit {c : Char} (hc : Text.isHexDigit c = true) :
    isNameChar c = true := by
  simp only [Text.isHexDigit, Text.hexDigit?] at hc
  simp only [isNameChar, isNameStart, Text.isAsciiLetter, Text.isAsciiDigit, Text.asciiDigit?]
  split at hc
  next h => simp [h]
  next =>
    split at hc
    next h =>
      have hle : c ≤ 'z' := Char.le_trans h.2 (by decide)
      simp [h.1, hle]
    next =>
      split at hc
      next h =>
        have hle : c ≤ 'Z' := Char.le_trans h.2 (by decide)
        simp [h.1, hle]
      next => cases hc

theorem isNameChar_of_isAsciiDigit {c : Char} (hc : Text.isAsciiDigit c = true) :
    isNameChar c = true := by
  simp [isNameChar, hc]

theorem stops_digit_of_name {cs : List Char} (hstops : Stops continuesName cs) :
    Stops Text.isAsciiDigit cs :=
  hstops.mono fun c hc => by simp [continuesName, isNameChar_of_isAsciiDigit hc]

theorem readNumeral?_sign {c : Char} {cs : List Char} (hc : c = '+' ∨ c = '-')
    (hdigit : Stops Text.isAsciiDigit cs) (hfraction : readFraction cs = ([], cs)) :
    readNumeral? (c :: cs) = none := by
  have hsign : readSign (c :: cs) = ([c], cs) := by
    rcases hc with rfl | rfl <;> rfl
  simp [readNumeral?, hsign, hdigit.takeWhile_eq_nil, hdigit.dropWhile_eq_self, hfraction]

theorem readNumeral?_point {cs : List Char} (hdigit : Stops Text.isAsciiDigit cs) :
    readNumeral? ('.' :: cs) = none := by
  have hpoint : Stops Text.isAsciiDigit ('.' :: cs) := stops_cons.mpr (by decide)
  have hfraction : readFraction ('.' :: cs) = ([], '.' :: cs) := by
    simp [readFraction, hdigit.takeWhile_eq_nil]
  have hsign : readSign ('.' :: cs) = ([], '.' :: cs) := rfl
  simp [readNumeral?, hsign, hpoint.takeWhile_eq_nil, hpoint.dropWhile_eq_self, hfraction]

/-! ## Every kind of lexeme ends -/

theorem Plain.startsNumber {lexeme : Lexeme} (hplain : lexeme.Plain)
    (hdigit : lexeme.shape.startsWithDigit = true) {text rest : List Char}
    (htext : TextOf lexeme text rest) (more : List Char) : StartsNumber (text ++ more) := by
  have hstarts : ∀ {written parts}, IsNumeral written parts → ∀ cs, StartsNumber (written ++ cs) :=
    fun hnumber cs => hnumber.written_eq ▸ hnumber.valid.startsNumber cs
  cases htext with
  | cut =>
      cases hplain with
      | dimension hnumber => exact List.append_assoc .. ▸ hstarts hnumber _
  | whole =>
      cases hplain with
      | number hnumber => exact hstarts hnumber more
      | percentage hnumber => exact List.append_assoc .. ▸ hstarts hnumber _
      | dimension hnumber => exact List.append_assoc .. ▸ hstarts hnumber _
      | opening bracket => cases bracket <;> cases hdigit
      | _ => cases hdigit

section Following

variable {lexemes : List Lexeme} {text : List Char} (hspells : Spells lexemes text)
  (hnatural : Natural lexemes)
include hspells hnatural

theorem ends_whitespace {blanks : List Char}
    (hnot : ¬ RunsInto (token (.whitespace blanks)) lexemes) :
    Stops isSpace (gap (token (.whitespace blanks)) lexemes ++ text) := by
  refine hspells.stops_gap hnatural.plain (by decide) fun next rest c heq _ hleads => ?_
  cases hleads with
  | name hshape hc =>
      rcases hc with hc | rfl
      · exact not_isSpace_of_isNameChar (isNameChar_of_isNameStart hc)
      · decide
  | digit hshape hc =>
      rcases hc with hc | rfl | rfl
      · exact not_isSpace_of_startsCount hc
      · decide
      · decide
  | codePoints => decide
  | sign hsign => exact not_isSpace_of_isSignChar hsign.isSignChar_head
  | blank hc =>
      rw [heq] at hnot
      exact absurd .blanks hnot
  | round => decide
  | mark hshape hc => exact forall_marks (p := fun c => isSpace c = false) (by decide) hc

/-- A number may be followed by a hyphen, but not by a name that starts with one. -/
theorem startsName_gap {lexeme : Lexeme}
    (hstarts : ∀ next, lexeme.shape.clashes next = false →
      next.startsWithName = false ∧ next.startsWithDigit = false ∧ next ≠ .codePoints)
    (harrow : ∀ rest, lexemes ≠ token (.sign arrow) :: rest) :
    startsName (gap lexeme lexemes ++ text) = false := by
  by_cases hfirst : ∃ next rest, lexemes = next :: rest ∧
      lexeme.shape.clashes next.shape = false ∧ ∃ signs, next = token (.sign ('-' :: signs))
  · obtain ⟨next, rest, rfl, hclash, signs, hnext⟩ := hfirst
    rw [gap_of_not_clashes hclash, List.nil_append]
    subst hnext
    cases hspells with
    | cons htext hrest =>
        cases htext
        cases hnatural.1 with
        | sign hsigns =>
            rcases hsigns.tail_of_hyphen with rfl | htail
            · exact startsName_hyphen
                (stops_name_of_sign hrest hnatural.2.2.plain (.inr rfl) hnatural.2.1)
            · rw [htail] at harrow
              exact absurd rfl (harrow rest)
  · refine startsName_of_stops (stops_name_of_apart hspells hnatural.plain ?_)
    intro next rest heq hclash
    obtain ⟨hname, hdigit, hpoints⟩ := hstarts _ hclash
    refine ⟨hname, hdigit, hpoints, ?_⟩
    rintro signs rfl
    exact hfirst ⟨_, rest, heq, hclash, signs, rfl⟩

theorem ends_number {written : List Char}
    (hnot : ¬ RunsInto (token (.number written)) lexemes) :
    EndsNumber (gap (token (.number written)) lexemes ++ text) := by
  have hstarts : ∀ next, (token (.number written)).shape.clashes next = false →
      next.startsWithName = false ∧ next.startsWithDigit = false ∧ next ≠ .codePoints :=
    fun next hclash => Shape.not_starts_of_clashes rfl hclash
  have hdigit := fun next hclash => (hstarts next hclash).2.1
  refine ⟨stops_digit hspells hnatural.plain hdigit, readFraction_gap hspells hnatural.plain hdigit,
    startsName_gap hspells hnatural hstarts ?_, stops_sign hspells hnatural.plain (by decide) ?_⟩
  · rintro rest rfl
    exact hnot .numberArrow
  · rintro signs rest hsigns rfl
    obtain rfl := hsigns.eq_nil (by decide)
    exact absurd .percent hnot

/-! ### Punctuation -/

theorem startsName_gap_at (hnot : ¬ RunsInto (token (.sign ['@'])) lexemes) :
    startsName (gap (token (.sign ['@'])) lexemes ++ text) = false := by
  by_cases hnumber : ∃ next rest, lexemes = next :: rest ∧
      (token (.sign ['@'])).shape.clashes next.shape = false ∧ next.shape.startsWithDigit = true
  · obtain ⟨next, rest, rfl, hclash, hdigit⟩ := hnumber
    rw [gap_of_not_clashes hclash, List.nil_append]
    cases hspells with
    | cons htext hrest =>
        obtain ⟨c, cs, hcons, -, -, -, hname⟩ :=
          (hnatural.1.startsNumber hdigit htext _).exists_cons
        rw [hcons, hname]
  · refine startsName_of_stops (stops_name_of_apart hspells hnatural.plain ?_)
    intro next rest heq hclash
    obtain ⟨hname, hpoints, hhyphen⟩ := Shape.not_name_of_clashes_at hclash
    refine ⟨hname, ?_, hpoints, ?_⟩
    · rw [Bool.eq_false_iff]
      exact fun hdigit => hnumber ⟨next, rest, heq, hclash, hdigit⟩
    · rintro signs rfl
      subst heq
      cases hnatural.1 with
      | sign hsigns =>
          rcases hsigns.tail_of_hyphen with rfl | htail
          · cases hhyphen
          · rw [htail] at hnot
            exact hnot (.signArrow (.inr (.inr rfl)))

omit hspells hnatural in
theorem hyphens_of_isIdent {name rest more : List Char} (hname : IsIdent name)
    (hcons : name ++ rest = '-' :: '-' :: more) : ['-', '-'] <+: name := by
  obtain ⟨c, cs, rfl, hc⟩ := hname.exists_cons
  obtain ⟨rfl, hcs⟩ := List.cons.inj hcons
  rcases hc with hc | ⟨-, d, ds, rfl, -⟩
  · exact absurd hc (by decide)
  · obtain ⟨rfl, -⟩ := List.cons.inj hcs
    exact ⟨ds, rfl⟩

omit hspells hnatural in
/-- Two hyphens at the start come from one lexeme. -/
theorem hyphens_isPrefix {next : Lexeme} {others : List Lexeme} {written tail more : List Char}
    (hnatural : Natural (next :: others)) (htext : TextOf next written (gap next others ++ tail))
    (hothers : Spells others tail)
    (hcons : written ++ (gap next others ++ tail) = '-' :: '-' :: more) :
    ['-', '-'] <+: next.write := by
  obtain ⟨c, cs, hwritten, hleads⟩ := hnatural.1.exists_leads htext
  obtain rfl : c = '-' := by
    rw [hwritten] at hcons
    exact (List.cons.inj hcons).1
  cases hleads with
  | name hshape =>
      cases hnatural.1 with
      | ident hname =>
          rw [htext.eq_write rfl] at hcons
          rw [write, Token.write, hname.write_eq] at hcons ⊢
          exact hyphens_of_isIdent hname hcons
      | call hname hurl =>
          rw [htext.eq_write rfl, write, hname.write_eq, List.append_assoc] at hcons
          rw [write, hname.write_eq]
          exact (hyphens_of_isIdent hname hcons).trans (List.prefix_append _ _)
      | opening bracket => cases bracket <;> cases hshape
      | _ => cases hshape
  | digit hshape =>
      have hstarts := hnatural.1.startsNumber hshape htext (gap next others ++ tail)
      exact absurd ⟨more, hcons.symm⟩ hstarts.not_hyphens
  | sign hsigns =>
      rcases hsigns.tail_of_hyphen with rfl | htail
      · have hstops := stops_name_of_sign hothers hnatural.2.2.plain (.inr rfl) hnatural.2.1
        rw [htext.eq_write rfl] at hcons
        rw [show gap (token (.sign ['-'])) others ++ tail = '-' :: more from
          (List.cons.inj hcons).2] at hstops
        exact absurd (stops_cons.mp hstops) (by decide)
      · rw [write, Token.write, htail]
        exact ⟨['>'], rfl⟩
  | blank hspace => exact absurd hspace (by decide)
  | mark hshape hmem => exact absurd hmem (by decide)

theorem not_mark_gap (hnot : ¬ RunsInto (token (.sign ['<'])) lexemes) :
    ¬ ['!', '-', '-'] <+: gap (token (.sign ['<'])) lexemes ++ text := by
  rintro ⟨more, hcons⟩
  obtain ⟨signs, rest, tail, rfl, hsigns, -, hrest, htail⟩ := exists_sign_of_gap hspells
    hnatural.plain hcons.symm (by decide) (by decide) (by decide) (fun h => absurd h (by decide))
    (fun h => absurd h (by decide))
  obtain rfl := hsigns.eq_nil (by decide)
  cases hrest with
  | nil => cases htail
  | cons htext hothers =>
      rw [List.nil_append, gap_bang] at htail
      exact hnot (.mark (hyphens_isPrefix hnatural.2.2 htext hothers htail.symm))

theorem ends_sign {c : Char} (hc : isSignChar c = true)
    (hnot : ¬ RunsInto (token (.sign [c])) lexemes) :
    EndsSign c (gap (token (.sign [c])) lexemes ++ text) := by
  have hparts := hc
  simp only [isSignChar, Bool.and_eq_true, Bool.not_eq_true'] at hparts
  have hescape : c ≠ '\\' := ne_of_isSignChar hc (by decide)
  have hname : c = '#' ∨ c = '-' → Stops continuesName (gap (token (.sign [c])) lexemes ++ text) :=
    fun h => stops_name_of_sign hspells hnatural.plain h hnot
  have hdigit : c = '.' ∨ c = '+' → ∀ next, (token (.sign [c])).shape.clashes next = false →
      next.startsWithDigit = false := by
    rintro h next hclash
    refine Shape.not_digit_of_clashes ?_ hclash
    rcases h with rfl | rfl <;> decide
  refine ⟨?_, ?_, ?_, ?_, fun h => hname (.inl h), ?_, ?_, ?_, ?_⟩
  · by_cases hplus : c = '+'
    · exact readNumeral?_sign (.inl hplus)
        (stops_digit hspells hnatural.plain (hdigit (.inr hplus)))
        (readFraction_gap hspells hnatural.plain (hdigit (.inr hplus)))
    by_cases hhyphen : c = '-'
    · refine readNumeral?_sign (.inr hhyphen) (stops_digit_of_name (hname (.inr hhyphen))) ?_
      refine readFraction_gap hspells hnatural.plain fun next hclash => ?_
      exact (Shape.not_starts_of_clashes (by subst hhyphen; decide) hclash).2.1
    by_cases hpoint : c = '.'
    · subst hpoint
      exact readNumeral?_point (stops_digit hspells hnatural.plain (hdigit (.inl rfl)))
    exact readNumeral?_of_not hparts.1.1.1.2 hplus hhyphen hpoint
  · by_cases hhyphen : c = '-'
    · subst hhyphen
      exact startsName_hyphen (hname (.inr rfl))
    · exact startsName_of_not hparts.1.1.1.1 hhyphen hescape
  · by_cases hhyphen : c = '-'
    · subst hhyphen
      exact arrow_hyphen (hname (.inr rfl))
    · exact arrow_of_ne hhyphen
  · rintro rfl
    exact startsName_gap_at hspells hnatural hnot
  · rintro rfl
    refine stops_sign hspells hnatural.plain (by decide) ?_
    rintro signs rest hsigns rfl
    cases hsigns with
    | single => rfl
    | joined hmem =>
        obtain rfl : signs = ['='] := by simpa [joinedSigns, arrow] using hmem
        exact absurd .comment hnot
  · rintro rfl
    exact not_mark_gap hspells hnatural hnot
  · rintro rfl
    refine stops_sign hspells hnatural.plain (by decide) ?_
    rintro signs rest hsigns rfl
    cases hsigns with
    | single => rfl
    | joined hmem =>
        obtain ⟨d, rfl⟩ : ∃ d, signs = [d] := by
          have hsecond : signs = ['|'] ∨ signs = ['='] := by simpa [joinedSigns, arrow] using hmem
          rcases hsecond with rfl | rfl
          · exact ⟨_, rfl⟩
          · exact ⟨_, rfl⟩
        exact absurd .bars hnot
  · intro hjoins
    refine stops_sign hspells hnatural.plain (by decide) ?_
    rintro signs rest hsigns rfl
    obtain rfl := hsigns.eq_nil (by decide)
    simp only [joinsEquals, Bool.or_eq_true, decide_eq_true_eq] at hjoins
    rcases hjoins with (((rfl | rfl) | rfl) | rfl) | rfl
    all_goals rfl

/-! ### Identifiers and ranges -/

theorem stops_round {name : List Char} :
    Stops (· = '(') (gap (token (.ident name)) lexemes ++ text) := by
  refine hspells.stops_gap hnatural.plain (by decide) fun next rest c heq hclash hleads => ?_
  rw [decide_eq_false_iff_not]
  rintro rfl
  cases hleads with
  | name hshape hc => exact absurd hc (by decide)
  | digit hshape hc => exact absurd hc (by decide)
  | sign hsigns => exact absurd hsigns.isSignChar_head (by decide)
  | blank hspace => exact absurd hspace (by decide)
  | round => exact absurd hclash (by simp [shape, Node.shape, Shape.clashes])
  | mark hshape hmem => exact absurd hmem (by decide)

omit hspells hnatural in
theorem exists_next_of_plus {rest : List Lexeme} {tail more : List Char} {d : Char}
    (hrest : Spells rest tail) (hplain : ∀ x ∈ rest, x.Plain)
    (hcons : gap (token (.sign ['+'])) rest ++ tail = d :: more)
    (hd : Text.isHexDigit d = true ∨ d = '?') :
    ∃ next others, rest = next :: others ∧ next.write.head? = some d := by
  cases hrest with
  | nil => cases hcons
  | @cons next others written tail htext hothers =>
      by_cases hclash : (token (.sign ['+'])).shape.clashes next.shape = true
      · rw [gap_of_clashes hclash] at hcons
        obtain rfl := (List.cons.inj hcons).1
        exact absurd hd (by decide)
      have hclash := Bool.eq_false_iff.mpr hclash
      rw [gap_of_not_clashes hclash, List.nil_append] at hcons
      obtain ⟨c, cs, hwritten, -⟩ := (hplain next List.mem_cons_self).exists_leads htext
      rw [hwritten] at hcons
      obtain rfl := (List.cons.inj hcons).1
      refine ⟨next, others, rfl, ?_⟩
      rw [← htext.eq_write (Shape.not_digit_of_clashes (by decide) hclash), hwritten, List.head?_cons]

theorem startsCodePoints_gap {name : List Char} (hname : IsIdent name)
    (hnot : ¬ RunsInto (token (.ident name)) lexemes) :
    startsCodePoints (name ++ (gap (token (.ident name)) lexemes ++ text)) = false := by
  obtain ⟨c, cs, rfl⟩ := List.exists_cons_of_ne_nil hname.ne_nil
  cases cs with
  | cons d ds =>
      exact startsCodePoints_of_second (ne_of_isNameChar (hname.char d (by simp)) (by decide))
  | nil =>
      rw [Bool.eq_false_iff]
      intro hpoints
      unfold startsCodePoints at hpoints
      split at hpoints
      next e d more heq =>
        obtain ⟨rfl, hcons⟩ := List.cons.inj heq
        simp only [Bool.and_eq_true, Bool.or_eq_true, decide_eq_true_eq] at hpoints
        obtain ⟨signs, rest, tail, rfl, hsigns, -, hrest, hmore⟩ := exists_sign_of_gap hspells
          hnatural.plain hcons (by decide) (by decide) (by decide) (fun h => absurd h (by decide))
          (fun _ next hclash => (Shape.not_starts_of_clashes rfl hclash).2.1)
        obtain rfl := hsigns.eq_nil (by decide)
        obtain ⟨next, others, rfl, hhead⟩ := exists_next_of_plus hrest hnatural.2.2.plain hmore.symm
          hpoints.2
        exact hnot (.codePoints hpoints.1 hhead hpoints.2)
      next => cases hpoints

theorem arrow_gap {name : List Char} (hname : IsIdent name)
    (hnot : ¬ RunsInto (token (.ident name)) lexemes) :
    arrow.isPrefixOf (name ++ (gap (token (.ident name)) lexemes ++ text)) = false := by
  have hstops : name = ['-', '-'] →
      Stops (· = '>') (gap (token (.ident name)) lexemes ++ text) := by
    rintro rfl
    refine stops_sign hspells hnatural.plain (by decide) ?_
    rintro signs rest hsigns rfl
    obtain rfl := hsigns.eq_nil (by decide)
    exact absurd .identArrow hnot
  generalize gap (token (.ident name)) lexemes ++ text = cs at hstops
  obtain ⟨c, ds, rfl, hc | ⟨rfl, d, es, rfl, hd⟩⟩ := hname.exists_cons
  · refine arrow_of_ne ?_
    rintro rfl
    exact absurd hc (by decide)
  · by_cases hhyphen : d = '-'
    · subst hhyphen
      cases es with
      | nil =>
          cases cs with
          | nil => rfl
          | cons e es =>
              have he := stops_cons.mp (hstops rfl)
              rw [decide_eq_false_iff_not] at he
              simp [arrow, List.isPrefixOf, Ne.symm he]
      | cons e es =>
          have he : e ≠ '>' := ne_of_isNameChar (hname.char e (by simp)) (by decide)
          simp [arrow, List.isPrefixOf, Ne.symm he]
    · simp [arrow, List.isPrefixOf, Ne.symm hhyphen]

theorem ends_codePoints {first last : Nat} :
    EndsRange first last (gap (token (.codePoints first last)) lexemes ++ text) := by
  have hclashes : ∀ next ∈ lexemes, (token (.codePoints first last)).shape.clashes next.shape =
      false → next.shape.startsWithName = false ∧ next.shape.startsWithDigit = false := by
    intro next hmem hclash
    obtain ⟨hdigit, hident, hfunction⟩ := Shape.not_of_clashes_codePoints hclash
    exact ⟨Shape.not_startsWithName hident hfunction (hnatural.plain next hmem).shape_ne_url, hdigit⟩
  refine ⟨?_, ?_, ?_⟩
  · refine hspells.stops_gap hnatural.plain (by decide) fun next rest c heq hclash hleads => ?_
    obtain ⟨hname, hdigit⟩ := hclashes next (by simp [heq]) hclash
    rw [Bool.eq_false_iff]
    intro hhex
    have hchar := isNameChar_of_isHexDigit hhex
    cases hleads with
    | name hshape => exact absurd hshape (by simp [hname])
    | digit hshape => exact absurd hshape (by simp [hdigit])
    | codePoints => exact absurd hhex (by decide)
    | sign hsigns =>
        have hne : c ≠ '-' := by
          rintro rfl
          exact absurd hhex (by decide)
        have hnot := not_isNameChar_of_isSignChar hsigns.isSignChar_head hne
        rw [continuesName, hchar] at hnot
        cases hnot
    | blank hspace => exact absurd hspace (by simp [not_isSpace_of_isNameChar hchar])
    | round => exact absurd hhex (by decide)
    | mark hshape hmem =>
        have hnot := forall_marks (p := fun c => Text.isHexDigit c = false) (by decide) hmem
        exact absurd hhex (by simp [hnot])
  · refine stops_sign hspells hnatural.plain (by decide) ?_
    rintro signs rest hsigns rfl
    obtain rfl := hsigns.eq_nil (by decide)
    rfl
  · intro hsingle c cs hcons
    obtain ⟨signs, rest, tail, rfl, hsigns, -, hrest, hmore⟩ := exists_sign_of_gap hspells
      hnatural.plain hcons (by decide) (by decide) (by decide)
      (fun _ next hmem h => (hclashes next hmem h).1)
      (fun _ next h => (Shape.not_of_clashes_codePoints h).1)
    rcases hsigns.tail_of_hyphen with rfl | htail
    · have hstops := stops_name_of_sign hrest hnatural.2.2.plain (.inr rfl) hnatural.2.1
      rw [List.nil_append] at hmore
      rw [← hmore] at hstops
      exact stops_cons.mp (hstops.mono fun d hd => by
        simp [continuesName, isNameChar_of_isHexDigit hd])
    · obtain rfl := (List.cons.inj htail).2
      obtain rfl := (List.cons.inj hmore).1
      decide

/-- What is written after a lexeme lets it end. -/
theorem ends_gap {lexeme : Lexeme} (hplain : lexeme.Plain) (hnot : ¬ lexeme.RunsInto lexemes) :
    lexeme.Ends (gap lexeme lexemes ++ text) := by
  cases hplain with
  | whitespace => exact ends_whitespace hspells hnatural hnot
  | sign htext =>
      cases htext with
      | single hc => exact ends_sign hspells hnatural hc hnot
      | joined hmem =>
          simp only [joinedSigns, arrow, List.mem_cons, List.not_mem_nil, or_false] at hmem
          rcases hmem with rfl | rfl | rfl | rfl | rfl | rfl | rfl | rfl
          all_goals trivial
  | ident hname =>
      exact ⟨stops_name_of_endsInName hspells hnatural.plain rfl, stops_round hspells hnatural,
        startsCodePoints_gap hspells hnatural hname hnot, arrow_gap hspells hnatural hname hnot⟩
  | atKeyword => exact stops_name_of_endsInName hspells hnatural.plain rfl
  | hash => exact stops_name_of_endsInName hspells hnatural.plain rfl
  | codePoints => exact ends_codePoints hspells hnatural
  | number => exact ends_number hspells hnatural hnot
  | dimension => exact stops_name_of_endsInName hspells hnatural.plain rfl
  | quoted => trivial
  | percentage => trivial
  | call => trivial
  | opening => trivial
  | closing => trivial

end Following

/-! ## The whole text -/

theorem TextOf.readsAs {lexeme : Lexeme} (hplain : lexeme.Plain) {text rest : List Char}
    (htext : TextOf lexeme text rest) (hends : lexeme.Ends rest) :
    ReadsAs (text ++ rest) lexeme.recased rest := by
  cases htext with
  | whole => exact hplain.readsAs hends
  | cut hc hdigit hspace =>
      cases hplain with
      | dimension hnumber hunit =>
          rw [List.append_assoc]
          have hread := readsAs_dimension_cut hnumber hends hdigit hspace
          rcases hc with rfl | rfl
          · exact hread
          · exact hread

end Lexeme

/-- The lexemes that a text is cut into. -/
inductive Cuts : List Char → List Lexeme → Prop
  | nil : Cuts [] []
  | step {c : Char} {cs rest : List Char} {lexemes more : List Lexeme}
    (hread : readLexemes false c cs = .ok (lexemes, rest)) (hlength : rest.length ≤ cs.length)
    (hrest : Cuts rest more) : Cuts (c :: cs) (lexemes ++ more)

theorem Cuts.lexIn_eq {text : List Char} {lexemes : List Lexeme} (hcuts : Cuts text lexemes)
    {fuel : Nat} (hfuel : text.length ≤ fuel) : lexIn false fuel text = .ok lexemes := by
  induction hcuts generalizing fuel with
  | nil => cases fuel <;> rfl
  | @step c cs rest lexemes more hread hlength hrest ih =>
      cases fuel with
      | zero => cases hfuel
      | succ fuel =>
          rw [List.length_cons] at hfuel
          have hmore := ih (hlength.trans (Nat.le_of_succ_le_succ hfuel))
          rw [lexIn, hread]
          change (lexIn false fuel rest >>= fun more => pure (lexemes ++ more)) = _
          rw [hmore]
          rfl

/-- An empty comment between lexemes leaves nothing. -/
theorem Cuts.comment {text : List Char} {lexemes : List Lexeme} (hcuts : Cuts text lexemes) :
    Cuts ("/**/".toList ++ text) lexemes := by
  have hread : readLexemes false '/' ('*' :: '*' :: '/' :: text) = .ok ([], text) := by
    rw [readLexemes_of_mark (by decide) (by decide) (by decide) (by decide) (by decide)
      (by decide) (by decide)]
    simp [readOther, readComment]
  exact .step hread (by simp; omega) hcuts

/-- A spelling is cut into the lexemes it spells. -/
theorem Lexeme.Spells.cuts {lexemes : List Lexeme} {text : List Char}
    (hspells : Spells lexemes text) (hnatural : Natural lexemes) :
    Cuts text (lexemes.map recased) := by
  induction hspells with
  | nil => exact .nil
  | @cons lexeme lexemes written rest htext hrest ih =>
      obtain ⟨hplain, hnot, hothers⟩ := hnatural
      obtain ⟨c, cs, hcons, hread⟩ := htext.readsAs hplain (ends_gap hrest hothers hplain hnot)
      have hgap : Cuts (gap lexeme lexemes ++ rest) (lexemes.map recased) := by
        rcases gap_cases lexeme lexemes with hnone | hcomment
        · rw [hnone]
          exact ih hothers
        · rw [hcomment]
          exact (ih hothers).comment
      rw [hcons]
      refine .step hread ?_ hgap
      obtain ⟨d, ds, rfl, -⟩ := hplain.exists_leads htext
      rw [← (List.cons.inj hcons).2]
      simp

end Winnow.Css
