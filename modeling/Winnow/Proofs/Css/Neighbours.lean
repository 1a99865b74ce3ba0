import Mathlib.Data.List.Basic
import Winnow.Proofs.Css.ReadBack

/-!
# Lexemes next to each other

Between two lexemes that would run together the writer puts an empty comment. It overlooks a few
pairs, which `RunsInto` lists; none of them occurs in a text without comments, because the reader
would have joined the two. Lexemes that are written one after the other, and of which none runs
into the next, are read back one by one.
-/

namespace Winnow.Css

namespace Lexeme

/-- The part that a lexeme plays for its neighbours. -/
def shape : Lexeme → Shape
  | token t => (Node.token t).shape
  | call _ => .function
  | opening .round => .round
  | _ => .other

/-- What is written between a lexeme and those after it. -/
def gap (lexeme : Lexeme) : List Lexeme → List Char
  | [] => []
  | next :: _ => if lexeme.shape.clashes next.shape then "/**/".toList else []

/-- A lexeme and what follows it that would be read as something else although nothing is
written between them. -/
inductive RunsInto : Lexeme → List Lexeme → Prop
  | blanks {first second : List Char} {rest : List Lexeme} :
    RunsInto (token (.whitespace first)) (token (.whitespace second) :: rest)
  | percent {written : List Char} {rest : List Lexeme} :
    RunsInto (token (.number written)) (token (.sign ['%']) :: rest)
  | numberArrow {written : List Char} {rest : List Lexeme} :
    RunsInto (token (.number written)) (token (.sign arrow) :: rest)
  | hyphens {c : Char} {rest : List Lexeme} (hc : c = '#' ∨ c = '-') :
    RunsInto (token (.sign [c])) (token (.sign ['-']) :: rest)
  | signArrow {c : Char} {rest : List Lexeme} (hc : c = '#' ∨ c = '-' ∨ c = '@') :
    RunsInto (token (.sign [c])) (token (.sign arrow) :: rest)
  | bars {c : Char} {rest : List Lexeme} :
    RunsInto (token (.sign ['|'])) (token (.sign ['|', c]) :: rest)
  | comment {rest : List Lexeme} :
    RunsInto (token (.sign ['/'])) (token (.sign ['*', '=']) :: rest)
  | mark {next : Lexeme} {rest : List Lexeme} (hnext : ['-', '-'] <+: next.write) :
    RunsInto (token (.sign ['<'])) (token (.sign ['!']) :: next :: rest)
  | codePoints {c d : Char} {next : Lexeme} {rest : List Lexeme} (hc : c = 'u' ∨ c = 'U')
    (hnext : next.write.head? = some d) (hd : Text.isHexDigit d = true ∨ d = '?') :
    RunsInto (token (.ident [c])) (token (.sign ['+']) :: next :: rest)
  | identArrow {rest : List Lexeme} :
    RunsInto (token (.ident ['-', '-'])) (token (.sign ['>']) :: rest)

/-- The texts of a lexeme before the given rest: the blank after an escape may be missing where
the rest does not go on with the escape. -/
inductive TextOf : Lexeme → List Char → List Char → Prop
  | whole (lexeme : Lexeme) (rest : List Char) : TextOf lexeme lexeme.write rest
  | cut {written rest : List Char} {c : Char} (hc : c = 'e' ∨ c = 'E')
    (hdigit : Stops Text.isHexDigit rest) (hspace : Stops isSpace rest) :
    TextOf (token (.dimension written [c])) (written ++ escapedLetter) rest

/-- A text that lexemes are written as. -/
inductive Spells : List Lexeme → List Char → Prop
  | nil : Spells [] []
  | cons {lexeme : Lexeme} {lexemes : List Lexeme} {text rest : List Char}
    (htext : TextOf lexeme text (gap lexeme lexemes ++ rest)) (hrest : Spells lexemes rest) :
    Spells (lexeme :: lexemes) (text ++ (gap lexeme lexemes ++ rest))

/-- Characters that tell the lexeme they start. -/
def marks : List Char := ['@', '#', '"', ')', '[', ']', '\x7b', '\x7d']

/-- The characters that a plain lexeme may start with. -/
inductive Leads : Lexeme → Char → Prop
  | name {lexeme : Lexeme} {c : Char} (hshape : lexeme.shape.startsWithName = true)
    (hc : isNameStart c = true ∨ c = '-') : Leads lexeme c
  | digit {lexeme : Lexeme} {c : Char} (hshape : lexeme.shape.startsWithDigit = true)
    (hc : startsCount c = true ∨ c = '+' ∨ c = '-') : Leads lexeme c
  | codePoints {lexeme : Lexeme} (hshape : lexeme.shape = .codePoints) : Leads lexeme 'U'
  | sign {c : Char} {text : List Char} (hsign : IsSign (c :: text)) :
    Leads (token (.sign (c :: text))) c
  | blank {text : List Char} {c : Char} (hc : isSpace c = true) : Leads (token (.whitespace text)) c
  | round : Leads (opening .round) '('
  | mark {lexeme : Lexeme} {c : Char} (hshape : lexeme.shape ≠ .round)
    (hc : c ∈ marks) : Leads lexeme c

end Lexeme

namespace Lexeme

theorem gap_of_clashes {lexeme next : Lexeme} (hclash : lexeme.shape.clashes next.shape = true)
    (rest : List Lexeme) : gap lexeme (next :: rest) = "/**/".toList :=
  if_pos hclash

theorem gap_of_not_clashes {lexeme next : Lexeme}
    (hclash : lexeme.shape.clashes next.shape = false) (rest : List Lexeme) :
    gap lexeme (next :: rest) = [] :=
  if_neg (Bool.eq_false_iff.mp hclash)

theorem gap_bang (rest : List Lexeme) : gap (token (.sign ['!'])) rest = [] := by
  cases rest with
  | nil => rfl
  | cons next rest => simp [gap, shape, Node.shape, Shape.clashes, Shape.endsInName, Shape.isSignIn]

theorem gap_cases (lexeme : Lexeme) (rest : List Lexeme) :
    gap lexeme rest = [] ∨ gap lexeme rest = "/**/".toList := by
  cases rest with
  | nil => exact .inl rfl
  | cons next rest =>
      by_cases hclash : lexeme.shape.clashes next.shape = true
      · exact .inr (gap_of_clashes hclash rest)
      · exact .inl (gap_of_not_clashes (Bool.eq_false_iff.mpr hclash) rest)

theorem Plain.shape_ne_url {lexeme : Lexeme} (hplain : lexeme.Plain) : lexeme.shape ≠ .url := by
  cases hplain with
  | opening bracket => cases bracket <;> simp [shape]
  | _ => simp [shape, Node.shape]

/-! ## First characters -/

theorem exists_lead_of_isIdent {name : List Char} (hname : IsIdent name) (rest : List Char) :
    ∃ c cs, name ++ rest = c :: cs ∧ (isNameStart c = true ∨ c = '-') := by
  obtain ⟨c, cs, rfl, hc | ⟨hc, -⟩⟩ := hname.exists_cons
  · exact ⟨c, _, rfl, .inl hc⟩
  · exact ⟨c, _, rfl, .inr hc⟩

theorem IsNumeral.exists_lead {written : List Char} {parts : Parts}
    (hnumber : IsNumeral written parts) (rest : List Char) :
    ∃ c cs, written ++ rest = c :: cs ∧ (startsCount c = true ∨ c = '+' ∨ c = '-') := by
  rw [hnumber.written_eq]
  rcases hnumber.valid.startsNumber rest with ⟨d, ds, hcons, hd⟩ | ⟨c, d, ds, hcons, hc, -⟩
  · exact ⟨d, ds, hcons, .inl hd⟩
  · exact ⟨c, d :: ds, hcons, .inr hc⟩

theorem Plain.exists_leads {lexeme : Lexeme} (hplain : lexeme.Plain) {text rest : List Char}
    (htext : TextOf lexeme text rest) : ∃ c cs, text = c :: cs ∧ lexeme.Leads c := by
  cases htext with
  | cut hc hdigit hspace =>
      cases hplain with
      | dimension hnumber hunit =>
          obtain ⟨c, cs, hcons, hlead⟩ := hnumber.exists_lead escapedLetter
          exact ⟨c, cs, hcons, .digit rfl hlead⟩
  | whole =>
      cases hplain with
      | whitespace hne htext =>
          obtain ⟨c, cs, rfl⟩ := List.exists_cons_of_ne_nil hne
          exact ⟨c, cs, rfl, .blank (htext c List.mem_cons_self)⟩
      | sign htext =>
          obtain ⟨c, cs, rfl⟩ := htext.exists_cons
          exact ⟨c, cs, rfl, .sign htext⟩
      | ident hname =>
          obtain ⟨c, cs, hcons, hlead⟩ := exists_lead_of_isIdent hname []
          rw [List.append_nil] at hcons
          exact ⟨c, cs, by rw [write, Token.write, hname.write_eq, hcons], .name rfl hlead⟩
      | call hname hurl =>
          obtain ⟨c, cs, hcons, hlead⟩ := exists_lead_of_isIdent hname ['(']
          exact ⟨c, cs, by rw [write, hname.write_eq, hcons], .name rfl hlead⟩
      | atKeyword hname => exact ⟨'@', _, rfl, .mark (by simp [shape, Node.shape]) (by decide)⟩
      | hash hname => exact ⟨'#', _, rfl, .mark (by simp [shape, Node.shape]) (by decide)⟩
      | quoted htext => exact ⟨'"', _, rfl, .mark (by simp [shape, Node.shape]) (by decide)⟩
      | codePoints hfirst hlast => exact ⟨'U', _, rfl, .codePoints rfl⟩
      | number hnumber =>
          obtain ⟨c, cs, hcons, hlead⟩ := hnumber.exists_lead []
          rw [List.append_nil] at hcons
          exact ⟨c, cs, hcons, .digit rfl hlead⟩
      | percentage hnumber =>
          obtain ⟨c, cs, hcons, hlead⟩ := hnumber.exists_lead ['%']
          exact ⟨c, cs, hcons, .digit rfl hlead⟩
      | @dimension written unit parts hnumber hunit =>
          obtain ⟨c, cs, hcons, hlead⟩ := hnumber.exists_lead (writeUnit unit)
          exact ⟨c, cs, hcons, .digit rfl hlead⟩
      | opening bracket =>
          cases bracket with
          | round => exact ⟨'(', [], rfl, .round⟩
          | square => exact ⟨'[', [], rfl, .mark (by simp [shape]) (by decide)⟩
          | curly => exact ⟨'\x7b', [], rfl, .mark (by simp [shape]) (by decide)⟩
      | closing bracket =>
          cases bracket with
          | round => exact ⟨')', [], rfl, .mark (by simp [shape]) (by decide)⟩
          | square => exact ⟨']', [], rfl, .mark (by simp [shape]) (by decide)⟩
          | curly => exact ⟨'\x7d', [], rfl, .mark (by simp [shape]) (by decide)⟩

/-- Only a number with a unit has more than one text. -/
theorem TextOf.eq_write {lexeme : Lexeme} {text rest : List Char}
    (htext : TextOf lexeme text rest) (hdigit : lexeme.shape.startsWithDigit = false) :
    text = lexeme.write := by
  cases htext with
  | whole => rfl
  | cut => cases hdigit

/-! ## Who may follow whom -/

theorem not_isNameChar_of_isSignChar {c : Char} (hc : isSignChar c = true) (hne : c ≠ '-') :
    continuesName c = false := by
  have hescape : c ≠ '\\' := ne_of_isSignChar hc (by decide)
  simp only [isSignChar, Bool.and_eq_true, Bool.not_eq_true'] at hc
  simp [continuesName, isNameChar, hc, hne, hescape]

theorem forall_marks {p : Char → Prop} (hp : marks.Forall p) {c : Char} (hc : c ∈ marks) : p c :=
  List.forall_iff_forall_mem.mp hp c hc

/-- A lexeme that does not go on with a name before it. -/
structure Apart (lexeme : Lexeme) : Prop where
  name : lexeme.shape.startsWithName = false
  digit : lexeme.shape.startsWithDigit = false
  codePoints : lexeme.shape ≠ .codePoints
  hyphen : ∀ text, lexeme ≠ token (.sign ('-' :: text))

theorem Leads.continuesName_eq {lexeme : Lexeme} {c : Char} (hleads : lexeme.Leads c)
    (hapart : lexeme.Apart) : continuesName c = false := by
  cases hleads with
  | name hshape => exact absurd hshape (by simp [hapart.name])
  | digit hshape => exact absurd hshape (by simp [hapart.digit])
  | codePoints hshape => exact absurd hshape hapart.codePoints
  | sign hsign =>
      refine not_isNameChar_of_isSignChar hsign.isSignChar_head ?_
      rintro rfl
      exact hapart.hyphen _ rfl
  | blank hc =>
      rcases isSpace_iff.mp hc with rfl | rfl | rfl
      all_goals decide
  | round => decide
  | mark hshape hc =>
      exact forall_marks (p := fun c => continuesName c = false) (by decide) hc

/-- A lexeme that starts with punctuation is punctuation, unless the character has a part in
names and numbers. -/
theorem Leads.exists_sign {lexeme : Lexeme} {c : Char} (hleads : lexeme.Leads c)
    (hc : isSignChar c = true) (hmark : c ∉ marks)
    (hname : c = '-' → lexeme.shape.startsWithName = false)
    (hdigit : c = '+' ∨ c = '-' ∨ c = '.' → lexeme.shape.startsWithDigit = false) :
    ∃ text, lexeme = token (.sign (c :: text)) ∧ IsSign (c :: text) := by
  have hparts := hc
  simp only [isSignChar, Bool.and_eq_true, Bool.not_eq_true'] at hparts
  cases hleads with
  | name hshape hlead =>
      rcases hlead with hlead | rfl
      · exact absurd hlead (by simp [hparts])
      · exact absurd hshape (by simp [hname rfl])
  | digit hshape hlead =>
      rw [startsCount, Bool.or_eq_true, decide_eq_true_eq] at hlead
      rcases hlead with (hlead | rfl) | rfl | rfl
      · exact absurd hlead (by simp [hparts])
      · exact absurd hshape (by simp [hdigit])
      · exact absurd hshape (by simp [hdigit])
      · exact absurd hshape (by simp [hdigit])
  | codePoints => exact absurd hc (by decide)
  | sign hsign => exact ⟨_, rfl, hsign⟩
  | blank hspace => exact absurd hspace (by simp [not_isSpace_of_isSignChar hc])
  | round => exact absurd hc (by decide)
  | mark hshape hmem => exact absurd hmem hmark

/-- What a text of lexemes starts with. -/
theorem Spells.stops {lexemes : List Lexeme} {text : List Char} (hspells : Spells lexemes text)
    (hplain : ∀ x ∈ lexemes, x.Plain) {p : Char → Bool}
    (hnext : ∀ next rest c, lexemes = next :: rest → next.Leads c → p c = false) :
    Stops p text := by
  cases hspells with
  | nil => exact stops_nil p
  | cons htext hrest =>
      obtain ⟨c, cs, rfl, hleads⟩ := (hplain _ List.mem_cons_self).exists_leads htext
      exact stops_cons.mpr (hnext _ _ c rfl hleads)

/-- What may follow a lexeme starts with a slash or with a lexeme that needs no gap. -/
theorem Spells.stops_gap {lexeme : Lexeme} {lexemes : List Lexeme} {text : List Char}
    (hspells : Spells lexemes text) (hplain : ∀ x ∈ lexemes, x.Plain) {p : Char → Bool}
    (hslash : p '/' = false) (hnext : ∀ next rest c, lexemes = next :: rest →
      lexeme.shape.clashes next.shape = false → next.Leads c → p c = false) :
    Stops p (gap lexeme lexemes ++ text) := by
  cases lexemes with
  | nil => exact hspells.stops hplain (by simp)
  | cons next rest =>
      by_cases hclash : lexeme.shape.clashes next.shape = true
      · rw [gap_of_clashes hclash]
        exact stops_cons.mpr hslash
      · rw [gap_of_not_clashes (Bool.eq_false_iff.mpr hclash), List.nil_append]
        refine hspells.stops hplain fun other others c heq => ?_
        obtain ⟨rfl, rfl⟩ := List.cons.inj heq
        exact hnext next rest c rfl (Bool.eq_false_iff.mpr hclash)

/-! ## Where names end -/

end Lexeme

namespace Shape

theorem not_starts_of_clashes {left right : Shape}
    (hleft : (left.endsInName || left.isSignIn ['#', '-'] || left = .number) = true)
    (hclash : left.clashes right = false) :
    right.startsWithName = false ∧ right.startsWithDigit = false ∧ right ≠ .codePoints := by
  simp only [clashes, hleft, Bool.true_and, Bool.or_eq_false_iff, decide_eq_false_iff_not] at hclash
  exact ⟨hclash.1.1.1.1.1.1.1.1.1.1, hclash.1.1.1.1.1.1.1.1.1.2, hclash.1.1.1.1.1.1.1.1.2⟩

theorem not_hyphen_of_clashes {left right : Shape} (hleft : left.endsInName = true)
    (hclash : left.clashes right = false) :
    right.isSignIn ['-'] = false ∧ right ≠ .sign arrow := by
  simp only [clashes, hleft, Bool.true_and, Bool.or_eq_false_iff, decide_eq_false_iff_not] at hclash
  exact hclash.1.1.1.1.1.1.1.2

theorem not_digit_of_clashes {left right : Shape}
    (hleft : (left = .codePoints || left.isSignIn ['.', '+']) = true)
    (hclash : left.clashes right = false) : right.startsWithDigit = false := by
  simp only [clashes, hleft, Bool.true_and, Bool.or_eq_false_iff] at hclash
  exact hclash.1.1.1.1.1.2

theorem not_startsWithName {shape : Shape} (hident : shape ≠ .ident) (hfunction : shape ≠ .function)
    (hurl : shape ≠ .url) : shape.startsWithName = false := by
  cases shape with
  | ident => exact absurd rfl hident
  | function => exact absurd rfl hfunction
  | url => exact absurd rfl hurl
  | _ => rfl

theorem not_of_clashes_codePoints {right : Shape} (hclash : codePoints.clashes right = false) :
    right.startsWithDigit = false ∧ right ≠ .ident ∧ right ≠ .function := by
  simp [clashes, endsInName, isSignIn] at hclash
  exact ⟨hclash.1, hclash.2.1.1, hclash.2.1.2⟩

theorem not_name_of_clashes_at {right : Shape} (hclash : (sign ['@']).clashes right = false) :
    right.startsWithName = false ∧ right ≠ .codePoints ∧ right.isSignIn ['-'] = false := by
  simpa [clashes, endsInName, isSignIn, and_assoc] using hclash

end Shape

namespace Lexeme

section Following

variable {lexemes : List Lexeme} {text : List Char} (hspells : Spells lexemes text)
  (hplain : ∀ x ∈ lexemes, x.Plain)
include hspells hplain

theorem stops_name_of_apart {lexeme : Lexeme} (hapart : ∀ next rest, lexemes = next :: rest →
    lexeme.shape.clashes next.shape = false → next.Apart) :
    Stops continuesName (gap lexeme lexemes ++ text) :=
  hspells.stops_gap hplain (by decide) fun next rest c heq hclash hleads =>
    hleads.continuesName_eq (hapart next rest heq hclash)

theorem stops_name_of_endsInName {lexeme : Lexeme} (hends : lexeme.shape.endsInName = true) :
    Stops continuesName (gap lexeme lexemes ++ text) := by
  refine stops_name_of_apart hspells hplain fun next rest heq hclash => ?_
  obtain ⟨hname, hdigit, hpoints⟩ := Shape.not_starts_of_clashes (by simp [hends]) hclash
  obtain ⟨hhyphen, harrow⟩ := Shape.not_hyphen_of_clashes hends hclash
  refine ⟨hname, hdigit, hpoints, ?_⟩
  rintro cs rfl
  subst heq
  cases hplain _ List.mem_cons_self with
  | sign hsign =>
      rcases hsign.tail_of_hyphen with rfl | hcs
      · cases hhyphen
      · exact harrow (congrArg Shape.sign hcs)

theorem stops_name_of_sign {c : Char} (hc : c = '#' ∨ c = '-')
    (hnot : ¬ RunsInto (token (.sign [c])) lexemes) :
    Stops continuesName (gap (token (.sign [c])) lexemes ++ text) := by
  refine stops_name_of_apart hspells hplain fun next rest heq hclash => ?_
  have hleft : (token (.sign [c])).shape.isSignIn ['#', '-'] = true := by
    rcases hc with rfl | rfl <;> rfl
  obtain ⟨hname, hdigit, hpoints⟩ := Shape.not_starts_of_clashes (by simp [hleft]) hclash
  refine ⟨hname, hdigit, hpoints, ?_⟩
  rintro cs rfl
  subst heq
  cases hplain _ List.mem_cons_self with
  | sign hsign =>
      rcases hsign.tail_of_hyphen with rfl | hcs
      · exact hnot (.hyphens hc)
      · rw [hcs] at hnot
        exact hnot (.signArrow (hc.imp_right .inl))

/-! ## What punctuation follows -/

/-- What starts with punctuation after a lexeme is punctuation that needs no gap. -/
theorem exists_sign_of_gap {lexeme : Lexeme} {c : Char} {cs : List Char}
    (hcons : gap lexeme lexemes ++ text = c :: cs) (hsign : isSignChar c = true)
    (hmark : c ∉ marks) (hslash : c ≠ '/')
    (hname : c = '-' → ∀ next ∈ lexemes, lexeme.shape.clashes next.shape = false →
      next.shape.startsWithName = false)
    (hdigit : c = '+' ∨ c = '-' ∨ c = '.' → ∀ next, lexeme.shape.clashes next = false →
      next.startsWithDigit = false) :
    ∃ signs rest tail, lexemes = token (.sign (c :: signs)) :: rest ∧ IsSign (c :: signs) ∧
      lexeme.shape.clashes (.sign (c :: signs)) = false ∧ Spells rest tail ∧
      cs = signs ++ (gap (token (.sign (c :: signs))) rest ++ tail) := by
  cases hspells with
  | nil => cases hcons
  | @cons next rest written tail htext hrest =>
      by_cases hclash : lexeme.shape.clashes next.shape = true
      · rw [gap_of_clashes hclash] at hcons
        exact absurd (List.cons.inj hcons).1.symm hslash
      have hclash := Bool.eq_false_iff.mpr hclash
      rw [gap_of_not_clashes hclash, List.nil_append] at hcons
      obtain ⟨d, ds, rfl, hleads⟩ := (hplain _ List.mem_cons_self).exists_leads htext
      obtain ⟨rfl, hcs⟩ := List.cons.inj hcons
      obtain ⟨signs, rfl, hsigns⟩ := hleads.exists_sign hsign hmark
        (fun h => hname h _ List.mem_cons_self hclash) (fun h => hdigit h _ hclash)
      cases htext
      exact ⟨ds, rest, tail, rfl, hsigns, hclash, hrest, hcs.symm⟩

/-- Signs that have no part in names and numbers. -/
def pureSigns : List Char := ['%', '*', '|', '=', '!', '>', '?']

theorem stops_sign {lexeme : Lexeme} {d : Char} (hd : d ∈ pureSigns)
    (hnot : ∀ signs rest, IsSign (d :: signs) → lexemes = token (.sign (d :: signs)) :: rest →
      lexeme.shape.clashes (.sign (d :: signs)) = true) :
    Stops (· = d) (gap lexeme lexemes ++ text) := by
  have hpure : pureSigns.Forall fun d => isSignChar d = true ∧ d ∉ marks ∧ d ≠ '-' ∧ d ≠ '+' ∧
      d ≠ '.' ∧ d ≠ '/' := by decide
  obtain ⟨hsign, hmark, hhyphen, hplus, hpoint, hslash⟩ :=
    List.forall_iff_forall_mem.mp hpure d hd
  intro c hmem
  rw [decide_eq_false_iff_not]
  rintro rfl
  obtain ⟨cs, hcons⟩ := List.head?_eq_some_iff.mp (Option.mem_def.mp hmem)
  obtain ⟨signs, rest, tail, heq, hsigns, hclash, -⟩ := exists_sign_of_gap hspells hplain hcons
    hsign hmark hslash (fun h => absurd h hhyphen) (by simp [hhyphen, hplus, hpoint])
  exact absurd ((hnot signs rest hsigns heq).symm.trans hclash) (by decide)

/-- Neither digits nor a fraction follow where a number would run into the lexeme. -/
theorem stops_digit {lexeme : Lexeme} (hdigit : ∀ next, lexeme.shape.clashes next = false →
    next.startsWithDigit = false) : Stops Text.isAsciiDigit (gap lexeme lexemes ++ text) := by
  refine hspells.stops_gap hplain (by decide) fun next rest c heq hclash hleads => ?_
  have hnot := hdigit _ hclash
  cases hleads with
  | name hshape hc =>
      rcases hc with hc | rfl
      · rw [Bool.eq_false_iff]
        intro hdigit
        rw [not_isNameStart_of_isAsciiDigit hdigit] at hc
        cases hc
      · decide
  | digit hshape => exact absurd hshape (by simp [hnot])
  | codePoints => decide
  | sign hsign =>
      have hc := hsign.isSignChar_head
      simp only [isSignChar, Bool.and_eq_true, Bool.not_eq_true'] at hc
      exact hc.1.1.1.2
  | blank hc =>
      rcases isSpace_iff.mp hc with rfl | rfl | rfl
      all_goals decide
  | round => decide
  | mark hshape hc =>
      exact forall_marks (p := fun c => Text.isAsciiDigit c = false) (by decide) hc

/-- A point after a lexeme is punctuation, which has no digits after it. -/
theorem readFraction_gap {lexeme : Lexeme} (hdigit : ∀ next, lexeme.shape.clashes next = false →
    next.startsWithDigit = false) :
    readFraction (gap lexeme lexemes ++ text) = ([], gap lexeme lexemes ++ text) := by
  generalize hcons : gap lexeme lexemes ++ text = cs
  cases cs with
  | nil => rfl
  | cons c cs =>
      by_cases hpoint : c = '.'
      · subst hpoint
        obtain ⟨signs, rest, tail, rfl, hsigns, -, hrest, rfl⟩ := exists_sign_of_gap hspells hplain
          hcons (by decide) (by decide) (by decide) (fun h => absurd h (by decide))
          (fun _ => hdigit)
        obtain rfl := hsigns.eq_nil (by decide)
        have hstops : Stops Text.isAsciiDigit (gap (token (.sign ['.'])) rest ++ tail) :=
          stops_digit hrest (fun x hmem => hplain x (List.mem_cons_of_mem _ hmem))
            fun next => Shape.not_digit_of_clashes (by decide)
        rw [List.nil_append]
        simp [readFraction, hstops.takeWhile_eq_nil]
      · exact readFraction_of_ne hpoint

end Following

end Lexeme

end Winnow.Css
