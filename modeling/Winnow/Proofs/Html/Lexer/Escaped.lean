import Winnow.Document.Markup
import Winnow.Proofs.Html.Lexer.Segment
import Winnow.Proofs.Text.Lines

/-!
# Nothing breaks out of escaped markup

Text in which the special characters are written as references is read as that text and as
nothing else, and a start tag with values written so is read as one start tag with those values.
The references in question are names that no other name goes on, so they are read in full
whatever follows them.
-/

namespace Winnow.Html

/-! ## References that are read in full -/

namespace Entity

/-- The rests of the names that go on with all characters of a text. -/
def advanceAll (cs : List Char) (names : List (List Char × String)) :
    List (List Char × String) :=
  cs.foldl (fun names c => advance c names) names

theorem advanceAll_nil (cs : List Char) : advanceAll cs [] = [] := by
  induction cs with
  | nil => rfl
  | cons c cs ih => exact ih

/-- A name that no other name goes on is followed to its end and no further. -/
theorem follow_of_advanceAll {cs : List Char} {names : List (List Char × String)}
    {meaning : String} (hne : cs ≠ []) (hend : advanceAll cs names = [([], meaning)])
    (read : Nat) (whole : Option (Nat × String)) (rest : List Char) :
    follow read whole names (cs ++ rest) =
      ⟨read + cs.length, some (read + cs.length, meaning)⟩ := by
  induction cs generalizing names read whole with
  | nil => exact absurd rfl hne
  | cons c cs ih =>
      have hnext : advanceAll cs (advance c names) = [([], meaning)] := hend
      have hsome : (advance c names).isEmpty ≠ true := by
        intro hempty
        rw [List.isEmpty_iff.mp hempty, advanceAll_nil] at hnext
        cases hnext
      rw [List.cons_append, follow_cons, if_neg hsome]
      cases cs with
      | nil =>
          rw [show advance c names = [([], meaning)] from hnext]
          cases rest with
          | nil => rfl
          | cons d ds => rfl
      | cons d ds =>
          rw [ih (by simp) hnext, List.length_cons (a := c), Nat.add_assoc, Nat.add_comm 1]

/-- The references that markup is written with, and the characters they stand for. -/
inductive Written : List Char → Char → Prop
  | ampersand : Written ['a', 'm', 'p', ';'] '&'
  | blank : Written ['n', 'b', 's', 'p', ';'] '\u00a0'
  | opening : Written ['l', 't', ';'] '<'
  | closing : Written ['g', 't', ';'] '>'
  | quote : Written ['q', 'u', 'o', 't', ';'] '"'

variable {name : List Char} {c : Char}

theorem Written.exists_advanceAll (hwritten : Written name c) :
    ∃ first others meaning, name = first :: others ∧ Text.isAsciiLetter first = true ∧
      isSpace first = false ∧ name[name.length - 1]? = some ';' ∧ meaning.toList = [c] ∧
      advanceAll name ((entitiesFrom first).map fun entry => (entry.1.toList, entry.2)) =
        [([], meaning)] := by
  cases hwritten with
  | ampersand => exact ⟨'a', _, "&", rfl, rfl, rfl, rfl, rfl, by decide +kernel⟩
  | blank => exact ⟨'n', _, "\u00a0", rfl, rfl, rfl, rfl, rfl, by decide +kernel⟩
  | opening => exact ⟨'l', _, "<", rfl, rfl, rfl, rfl, rfl, by decide +kernel⟩
  | closing => exact ⟨'g', _, ">", rfl, rfl, rfl, rfl, rfl, by decide +kernel⟩
  | quote => exact ⟨'q', _, "\"", rfl, rfl, rfl, rfl, rfl, by decide +kernel⟩

/-- A name with its semicolon that is found whole is read as what it stands for. -/
theorem readName_of_whole {meaning : String} {rest : List Char}
    (hreach : reach (name ++ rest) = ⟨name.length, some (name.length, meaning)⟩)
    (hlast : name[name.length - 1]? = some ';') (inAttribute : Bool) :
    readName inAttribute (name ++ rest) = (meaning.toList, name.length) := by
  have hlookup : (name ++ rest)[name.length - 1]? = some ';' := by
    rw [List.getElem?_append_left, hlast]
    exact (List.getElem?_eq_some_iff.mp hlast).1
  unfold readName
  rw [hreach]
  dsimp only
  rw [hlookup, List.take_left', List.drop_length, List.append_nil]
  · simp
  · rfl

/-- A reference that markup is written with is read as its character, whatever follows. -/
theorem Written.read_append (hwritten : Written name c) (inAttribute : Bool)
    {closing : Option Char} (hclosing : ∀ d ∈ closing, Text.isAsciiLetter d = false)
    (rest : List Char) :
    read inAttribute closing (name ++ rest) = .ok ([c], name.length) := by
  obtain ⟨first, others, meaning, heq, hletter, hspace, hlast, hmeaning, hend⟩ :=
    hwritten.exists_advanceAll
  have hreach : reach (name ++ rest) = ⟨name.length, some (name.length, meaning)⟩ := by
    have hfollow := follow_of_advanceAll (by simp [heq]) hend 0 none rest
    rw [Nat.zero_add] at hfollow
    rw [← hfollow, heq]
    rfl
  have hread := readName_of_whole hreach hlast inAttribute
  have hne := fun d => Lexer.ne_of_isAsciiLetter (d := d) hletter
  have hopen : ¬ (isSpace first || first = '<' || first = '&' || closing = some first) = true := by
    have hclose : closing ≠ some first := by
      intro hsome
      rw [hclosing first hsome] at hletter
      cases hletter
    simp [hspace, hne '<' (by decide), hne '&' (by decide), hclose]
  rw [heq, List.cons_append, read_of_ne_hash inAttribute closing (hne '#' (by decide)),
    if_neg hopen, ← List.cons_append, ← heq, hread, hmeaning]

end Entity

/-! ## Escaped characters -/

/-- In text a character is written as it is, or as the reference that stands for it. -/
theorem escapeTextChar_cases (c : Char) :
    (Markup.escapeTextChar c = [c] ∧ c ≠ '&' ∧ c ≠ '<') ∨
      ∃ name, Entity.Written name c ∧ Markup.escapeTextChar c = '&' :: name := by
  unfold Markup.escapeTextChar
  split
  next heq => exact Or.inr ⟨_, heq ▸ .ampersand, rfl⟩
  next hand =>
    split
    next heq =>
      obtain rfl : c = '\u00a0' := Char.toNat_inj.mp heq
      exact Or.inr ⟨_, .blank, rfl⟩
    next =>
      split
      next heq => exact Or.inr ⟨_, heq ▸ .opening, rfl⟩
      next hopen =>
        split
        next heq => exact Or.inr ⟨_, heq ▸ .closing, rfl⟩
        next => exact Or.inl ⟨rfl, hand, hopen⟩

/-- In a value a character is written as it is, or as the reference that stands for it. -/
theorem escapeValueChar_cases (c : Char) :
    (Markup.escapeValueChar c = [c] ∧ c ≠ '&' ∧ c ≠ '"') ∨
      ∃ name, Entity.Written name c ∧ Markup.escapeValueChar c = '&' :: name := by
  unfold Markup.escapeValueChar
  split
  next heq => exact Or.inr ⟨_, heq ▸ .ampersand, rfl⟩
  next hand =>
    split
    next heq =>
      obtain rfl : c = '\u00a0' := Char.toNat_inj.mp heq
      exact Or.inr ⟨_, .blank, rfl⟩
    next =>
      split
      next heq => exact Or.inr ⟨_, heq ▸ .quote, rfl⟩
      next hquote => exact Or.inl ⟨rfl, hand, hquote⟩

/-! ## Tags with escaped values -/

/-- An attribute with its value escaped, and with the blank before it. -/
def escapedField (field : List Char × List Char) : List Char :=
  ' ' :: (field.1 ++ '=' :: '"' :: (field.2.flatMap Markup.escapeValueChar ++ ['"']))

theorem isLower_of_all {name : List Char}
    (hall : name.all (fun c => Text.asciiLowerChar c == c) = true) : IsLower name :=
  fun c hmem => beq_iff_eq.mp (List.all_eq_true.mp hall c hmem)

theorem isTagName_of_all {first : Char} {others : List Char}
    (hfirst : Text.isAsciiLetter first = true) (hothers : others.all isNameChar = true) :
    IsTagName (first :: others) :=
  ⟨first, others, rfl, hfirst, List.all_eq_true.mp hothers⟩

theorem isFieldName_of_all {first : Char} {others : List Char} (hfirst : isNameChar first = true)
    (hothers : others.all (fun c => isNameChar c && c != '=') = true) :
    IsFieldName (first :: others) :=
  ⟨first, others, rfl, hfirst, fun c hmem => by simpa using List.all_eq_true.mp hothers c hmem⟩

theorem lowered_eq_self {name : List Char} (hlower : IsLower name) : lowered name = name := by
  unfold lowered
  rw [List.map_congr_left hlower, List.map_id']

namespace TagDraft

variable {isEnd : Bool} {back : List Char}

/-- Characters that belong to what has been read already are passed over. -/
theorem run_skip (expand isEnd : Bool) (draft : TagDraft) (front back : List Char) :
    run expand isEnd draft front.length (front ++ back) = run expand isEnd draft 0 back := by
  induction front with
  | nil => rfl
  | cons c cs ih => exact ih

/-- An escaped value is read as the value, and ends at its quote. -/
theorem run_escapedValue (draft : TagDraft) {name value text : List Char}
    {others : List (List Char × List Char)} (hnull : nullChar ∉ text)
    (hplace : draft.place = .quoted '"')
    (hattributes : draft.attributes = (name, value) :: others) :
    run true isEnd draft 0 (text.flatMap Markup.escapeValueChar ++ '"' :: back) =
      run true isEnd { draft with
        place := .afterValue
        attributes := (name, text.reverse ++ value) :: others } 0 back := by
  induction text generalizing draft value with
  | nil =>
      have hstep : step true draft '"' back = .ok (.go (draft.goto .afterValue) 0) := by
        unfold step
        rw [hplace]
        exact if_pos rfl
      rw [List.flatMap_nil, List.nil_append, run_of_go hstep, List.reverse_nil, List.nil_append,
        ← hattributes]
      rfl
  | cons c cs ih =>
      have hc : c ≠ nullChar := fun heq => hnull (heq ▸ List.mem_cons_self)
      have hcs : nullChar ∉ cs := fun hmem => hnull (List.mem_cons_of_mem _ hmem)
      rw [List.flatMap_cons, List.append_assoc, List.reverse_cons, List.append_assoc]
      rcases escapeValueChar_cases c with ⟨hplain, hand, hquote⟩ | ⟨written, hwritten, hescaped⟩
      · have hstep : step true draft c (cs.flatMap Markup.escapeValueChar ++ '"' :: back) =
            .ok (.go { draft with attributes := (name, c :: value) :: others } 0) := by
          obtain ⟨place, tagName, attributes, selfClosing, problems⟩ := draft
          obtain rfl : place = .quoted '"' := hplace
          obtain rfl : attributes = (name, value) :: others := hattributes
          unfold step
          dsimp only
          rw [if_neg hquote, if_neg hand, if_neg hc]
          rfl
        rw [hplain, List.singleton_append, run_of_go hstep]
        exact ih _ hcs hplace rfl
      · have hletter : ∀ d ∈ some '"', Text.isAsciiLetter d = false := by
          intro d hd
          cases hd
          rfl
        have hstep := step_quoted_reference
          (written ++ (cs.flatMap Markup.escapeValueChar ++ '"' :: back)) hplace hattributes
          (by decide)
        rw [hwritten.read_append true hletter] at hstep
        rw [hescaped, List.cons_append, run_of_go hstep, run_skip]
        exact ih _ hcs hplace rfl

/-- An attribute with an escaped value is read as its name and its value. -/
theorem run_escapedField (draft : TagDraft) {field : List Char × List Char}
    (hname : IsFieldName field.1)
    (hlower : IsLower field.1) (hnull : nullChar ∉ field.2)
    (hplace : draft.place = .tagName ∨ draft.place = .afterValue) :
    ∃ problems, run true isEnd draft 0 (escapedField field ++ back) =
      run true isEnd { draft with
        place := .afterValue
        attributes := (field.1.reverse, field.2.reverse) :: draft.attributes
        problems := problems } 0 back := by
  have hready : Ready draft.place ∧ draft.place ≠ .name := by
    rcases hplace with heq | heq
    · rw [heq]
      exact ⟨.tagName, by decide⟩
    · rw [heq]
      exact ⟨.afterValue, by decide⟩
  obtain ⟨problems, hnamed⟩ := run_fieldName hready.1 hname fun heq => absurd heq hready.2
  obtain ⟨noted, hopen⟩ := run_equals { draft with
    place := .name
    attributes := (field.1.reverse, []) :: draft.attributes
    problems := problems } rfl (Or.inl rfl)
  refine ⟨noted, ?_⟩
  rw [lowered_eq_self hlower] at hnamed
  simp only [escapedField, List.cons_append, List.append_assoc, List.nil_append]
  rw [hnamed, hopen, run_escapedValue _ hnull rfl rfl, List.append_nil]

/-- Attributes with escaped values are read to the end of the tag. -/
theorem run_escapedFields (draft : TagDraft) {fields : List (List Char × List Char)}
    (hfields : ∀ field ∈ fields, IsFieldName field.1 ∧ IsLower field.1 ∧ nullChar ∉ field.2)
    (hplace : draft.place = .tagName ∨ draft.place = .afterValue) :
    ∃ place problems,
      run true isEnd draft 0 (fields.flatMap escapedField ++ '>' :: back) =
        .ok (tokens isEnd { draft with
          place := place
          attributes := reversed fields ++ draft.attributes
          problems := problems }, back) := by
  induction fields generalizing draft with
  | nil =>
      have hready : Ready draft.place := by
        rcases hplace with heq | heq
        · exact heq ▸ .tagName
        · exact heq ▸ .afterValue
      obtain ⟨problems, hclose⟩ := run_close hready
      exact ⟨draft.place, problems, hclose⟩
  | cons field fields ih =>
      obtain ⟨hname, hlower, hnull⟩ := hfields field List.mem_cons_self
      obtain ⟨noted, hfield⟩ := run_escapedField draft hname hlower hnull hplace
      obtain ⟨place, problems, hrest⟩ := ih { draft with
        place := .afterValue
        attributes := (field.1.reverse, field.2.reverse) :: draft.attributes
        problems := noted } (fun other hmem => hfields other (List.mem_cons_of_mem _ hmem))
        (Or.inr rfl)
      refine ⟨place, problems, ?_⟩
      rw [List.flatMap_cons, List.append_assoc, hfield, hrest, reversed, reversed, List.map_cons,
        List.reverse_cons, List.append_assoc]
      rfl

/-- A start tag with escaped values is read as its name and its attributes in their order. Only
problems stand before it. -/
theorem exists_run_escapedTag {first : Char} {others : List Char}
    (hothers : ∀ d ∈ others, isNameChar d = true) (hlower : IsLower (first :: others))
    {fields : List (List Char × List Char)}
    (hfields : ∀ field ∈ fields, IsFieldName field.1 ∧ IsLower field.1 ∧ nullChar ∉ field.2) :
    ∃ problems : List Problem, run true false { name := [Text.asciiLowerChar first] } 0
        (others ++ (fields.flatMap escapedField ++ '>' :: back)) =
      .ok (problems.map .problem ++ [.startTag {
        name := String.ofList (first :: others)
        attributes := Assoc.ofPairsFirst (texts fields) }], back) := by
  rw [run_tagName rfl hothers]
  obtain ⟨place, problems, hrun⟩ := run_escapedFields
    { name := (lowered others).reverse ++ [Text.asciiLowerChar first] } hfields (Or.inl rfl)
  have hname : (lowered others).reverse ++ [Text.asciiLowerChar first] =
      (first :: others).reverse := by
    have hsame := lowered_eq_self hlower
    rw [lowered, List.map_cons] at hsame
    rw [← List.reverse_cons, lowered, hsame]
  refine ⟨problems.reverse, ?_⟩
  rw [hrun, hname]
  simp [tokens, problemTokens, tagNameText, attributeList, reversed, texts, Function.comp_def]

end TagDraft

/-! ## Whole inputs -/

namespace Lexer

/-- The tokens of all that a lexer has to read when nothing changes its content model, in at
most `fuel` units, and what is then left unread. -/
def readAll (foreign : Bool) : Nat → Lexer → Except Fault (List Token × List Char)
  | 0, lexer => .ok ([], lexer.input)
  | fuel + 1, lexer =>
    if lexer.input.isEmpty then .ok ([], [])
    else do
      let (front, next) ← lexer.step foreign
      let (back, left) ← readAll foreign fuel next
      return (front ++ back, left)

theorem readAll_of_input_eq_nil {lexer : Lexer} (hinput : lexer.input = []) (foreign : Bool)
    (fuel : Nat) : lexer.readAll foreign fuel = .ok ([], []) := by
  cases fuel with
  | zero => rw [readAll, hinput]
  | succ fuel =>
      rw [readAll, hinput]
      rfl

theorem readAll_succ {lexer next : Lexer} {front back : List Token} {left : List Char}
    {foreign : Bool} {fuel : Nat} (hinput : lexer.input ≠ [])
    (hstep : lexer.step foreign = .ok (front, next))
    (hrest : next.readAll foreign fuel = .ok (back, left)) :
    lexer.readAll foreign (fuel + 1) = .ok (front ++ back, left) := by
  rw [readAll, if_neg (by simpa using hinput), hstep]
  simp only [Fault.ok_bind, hrest]
  rfl

end Lexer

/-- The tokens of a text as ordinary content, and what is left unread. -/
def tokenize (foreign : Bool) (text : String) : Except Fault (List Token × List Char) :=
  (Lexer.ofString text true).readAll foreign (Lexer.ofString text true).input.length

/-- Tokens of text and of white space only, with the characters that they stand for. -/
inductive Spells : List Token → List Char → Prop
  | nil : Spells [] []
  | text {tokens : List Token} {cs : List Char} (data : String) (hrest : Spells tokens cs) :
      Spells (.text data :: tokens) (data.toList ++ cs)
  | space {tokens : List Token} {cs : List Char} (data : String) (hrest : Spells tokens cs) :
      Spells (.space data :: tokens) (data.toList ++ cs)

theorem Spells.cons_of_eq {tokens : List Token} {front cs : List Char} {token : Token}
    (hspells : Spells tokens cs)
    (htoken : token = .text (String.ofList front) ∨ token = .space (String.ofList front)) :
    Spells (token :: tokens) (front ++ cs) := by
  have hfront : front = (String.ofList front).toList := String.toList_ofList.symm
  rcases htoken with rfl | rfl
  · rw [hfront, String.ofList_toList]
    exact .text _ hspells
  · rw [hfront, String.ofList_toList]
    exact .space _ hspells

/-! ## Escaped text -/

/-- Characters of text with the special ones written as references. -/
def escaped (cs : List Char) : List Char := cs.flatMap Markup.escapeTextChar

theorem escaped_cons (c : Char) (cs : List Char) :
    escaped (c :: cs) = Markup.escapeTextChar c ++ escaped cs := List.flatMap_cons

theorem escaped_append (front back : List Char) :
    escaped (front ++ back) = escaped front ++ escaped back := List.flatMap_append

theorem length_le_length_escaped (cs : List Char) : cs.length ≤ (escaped cs).length := by
  induction cs with
  | nil => exact Nat.le_refl _
  | cons c cs ih =>
      have hone : 1 ≤ (Markup.escapeTextChar c).length := by
        rcases escapeTextChar_cases c with ⟨hplain, -⟩ | ⟨name, -, hescaped⟩
        · rw [hplain, List.length_singleton]
        · rw [hescaped, List.length_cons]
          exact Nat.le_add_left _ _
      rw [escaped_cons, List.length_append, List.length_cons]
      omega

/-- A stretch of escaped text up to an ampersand or to its end at the latest is a stretch of the
text. -/
theorem exists_takeWhile_escaped (p : Char → Bool) (hstop : p '&' = false) (cs : List Char)
    {tail : List Char} (htail : ∀ d ∈ tail.head?, p d = false) :
    ∃ front back, cs = front ++ back ∧ (escaped cs ++ tail).takeWhile p = front ∧
      (escaped cs ++ tail).dropWhile p = escaped back ++ tail := by
  induction cs with
  | nil =>
      refine ⟨[], [], rfl, ?_⟩
      cases tail with
      | nil => exact ⟨rfl, rfl⟩
      | cons d ds =>
          have hd : p d = false := htail d rfl
          exact ⟨List.takeWhile_cons_of_neg (by simp [hd]),
            List.dropWhile_cons_of_neg (by simp [hd])⟩
  | cons c cs ih =>
      rw [escaped_cons, List.append_assoc]
      rcases escapeTextChar_cases c with ⟨hplain, -⟩ | ⟨name, -, hescaped⟩
      · rw [hplain, List.singleton_append, List.takeWhile_cons, List.dropWhile_cons]
        split
        next =>
          obtain ⟨front, back, rfl, htake, hdrop⟩ := ih
          exact ⟨c :: front, back, rfl, by rw [htake], hdrop⟩
        next =>
          refine ⟨[], c :: cs, rfl, rfl, ?_⟩
          rw [escaped_cons, hplain]
          rfl
      · rw [hescaped, List.cons_append, List.takeWhile_cons_of_neg (by simp [hstop]),
          List.dropWhile_cons_of_neg (by simp [hstop])]
        refine ⟨[], c :: cs, rfl, rfl, ?_⟩
        rw [escaped_cons, hescaped, List.append_assoc]
        rfl

namespace Lexer

/-- One unit of escaped text before the end of the input or an opening bracket is one token of
the text that it stands for, the same for every lexer. -/
theorem exists_step_escaped_append {c : Char} (cs : List Char) {tail : List Char}
    (hnull : c ≠ nullChar) (htail : ∀ d ∈ tail.head?, d = '<') :
    ∃ token front back, cs = front ++ back ∧
      (token = .text (String.ofList (c :: front)) ∨
        token = .space (String.ofList (c :: front))) ∧
      ∀ (lexer : Lexer) (foreign : Bool), lexer.model = .markup → lexer.expand = true →
        lexer.input = escaped (c :: cs) ++ tail →
          lexer.step foreign = .ok ([token], lexer.rest (escaped back ++ tail)) := by
  rcases escapeTextChar_cases c with ⟨hplain, hand, hopen⟩ | ⟨name, hwritten, hescaped⟩
  · have hstep : ∀ (lexer : Lexer) (foreign : Bool), lexer.model = .markup →
        lexer.input = escaped (c :: cs) ++ tail → lexer.step foreign =
          .ok (lexer.readText (fun d => d = '&' || d = '<' || d = nullChar) c
            (escaped cs ++ tail)) := by
      intro lexer foreign hmodel hinput
      rw [escaped_cons, List.append_assoc, hplain, List.singleton_append] at hinput
      rw [step, hinput, hmodel]
      dsimp only
      rw [if_neg hand, if_neg hopen, if_neg hnull]
    cases hspace : isSpace c with
    | true =>
        obtain ⟨front, back, hsplit, htake, hdrop⟩ :=
          exists_takeWhile_escaped isSpace (by decide) cs fun d hd => by rw [htail d hd]; decide
        refine ⟨_, front, back, hsplit, Or.inr rfl, fun lexer foreign hmodel _ hinput => ?_⟩
        rw [hstep lexer foreign hmodel hinput, readText, if_pos hspace, htake, hdrop]
    | false =>
        obtain ⟨front, back, hsplit, htake, hdrop⟩ := exists_takeWhile_escaped
          (fun d => !(d = '&' || d = '<' || d = nullChar)) (by decide) cs
          fun d hd => by rw [htail d hd]; decide
        refine ⟨_, front, back, hsplit, Or.inl rfl, fun lexer foreign hmodel _ hinput => ?_⟩
        rw [hstep lexer foreign hmodel hinput, readText, if_neg (by simp [hspace]), htake, hdrop]
        rfl
  · refine ⟨.ofReference [c], [], cs, rfl, ?_, fun lexer foreign hmodel hexpand hinput => ?_⟩
    · unfold Token.ofReference
      dsimp only
      split
      · exact Or.inr rfl
      · exact Or.inl rfl
    · rw [escaped_cons, List.append_assoc, hescaped, List.cons_append] at hinput
      rw [step, hinput, hmodel]
      dsimp only
      rw [if_pos rfl, readReference, if_pos hexpand, hwritten.read_append false (by simp),
        Fault.ok_bind]
      dsimp only
      rw [List.drop_left]
      rfl

/-- One unit of escaped text is one token of the text that it stands for. -/
theorem exists_step_escaped {lexer : Lexer} (hmodel : lexer.model = .markup)
    (hexpand : lexer.expand = true) {c : Char} {cs : List Char} (hnull : c ≠ nullChar)
    (hinput : lexer.input = escaped (c :: cs)) (foreign : Bool) :
    ∃ token front back, cs = front ++ back ∧
      lexer.step foreign = .ok ([token], lexer.rest (escaped back)) ∧
      (token = .text (String.ofList (c :: front)) ∨
        token = .space (String.ofList (c :: front))) := by
  have hend : ∀ d ∈ ([] : List Char).head?, d = '<' := by simp
  obtain ⟨token, front, back, hsplit, htoken, hstep⟩ := exists_step_escaped_append cs hnull hend
  simp only [List.append_nil] at hstep
  exact ⟨token, front, back, hsplit, hstep lexer foreign hmodel hexpand hinput, htoken⟩

/-- Escaped text is read to its end as tokens of the text. -/
theorem exists_readAll_escaped {lexer : Lexer} (hmodel : lexer.model = .markup)
    (hexpand : lexer.expand = true) {cs : List Char} (hnull : nullChar ∉ cs)
    (hinput : lexer.input = escaped cs) (foreign : Bool) {fuel : Nat}
    (hfuel : cs.length ≤ fuel) :
    ∃ tokens, lexer.readAll foreign fuel = .ok (tokens, []) ∧ Spells tokens cs := by
  induction fuel generalizing lexer cs with
  | zero =>
      obtain rfl : cs = [] := List.length_eq_zero_iff.mp (Nat.le_zero.mp hfuel)
      exact ⟨[], readAll_of_input_eq_nil hinput foreign 0, .nil⟩
  | succ fuel ih =>
      cases cs with
      | nil => exact ⟨[], readAll_of_input_eq_nil hinput foreign _, .nil⟩
      | cons c cs =>
          have hc : c ≠ nullChar := fun heq => hnull (heq ▸ List.mem_cons_self)
          obtain ⟨token, front, back, rfl, hstep, htoken⟩ :=
            exists_step_escaped hmodel hexpand hc hinput foreign
          have hback : nullChar ∉ back := fun hmem =>
            hnull (List.mem_cons_of_mem _ (List.mem_append_right _ hmem))
          have hlength : back.length ≤ fuel := by
            rw [List.length_cons, List.length_append] at hfuel
            omega
          obtain ⟨tokens, hrest, hspells⟩ :=
            ih (show (lexer.rest (escaped back)).model = .markup from hmodel) hexpand hback rfl
              hlength
          have hne : lexer.input ≠ [] := by
            intro hempty
            have hle := length_le_length_escaped (c :: (front ++ back))
            rw [← hinput, hempty] at hle
            exact absurd hle (by simp)
          refine ⟨[token] ++ tokens, readAll_succ hne hstep hrest, ?_⟩
          rw [← List.cons_append]
          exact hspells.cons_of_eq htoken

/-- A start tag with escaped values is read as one start tag, and nothing is left. -/
theorem exists_readAll_escapedTag {lexer : Lexer} (hmodel : lexer.model = .markup)
    (hexpand : lexer.expand = true) {name : List Char} (hname : IsTagName name)
    (hlower : IsLower name) {fields : List (List Char × List Char)}
    (hfields : ∀ field ∈ fields, IsFieldName field.1 ∧ IsLower field.1 ∧ nullChar ∉ field.2)
    (hinput : lexer.input = '<' :: (name ++ (fields.flatMap escapedField ++ ['>'])))
    (foreign : Bool) (fuel : Nat) :
    ∃ problems : List Problem, lexer.readAll foreign (fuel + 1) =
      .ok (problems.map .problem ++ [.startTag {
        name := String.ofList name
        attributes := Assoc.ofPairsFirst (TagDraft.texts fields) }], []) := by
  obtain ⟨first, others, rfl, hletter, hothers⟩ := hname
  obtain ⟨problems, hrun⟩ := TagDraft.exists_run_escapedTag hothers hlower hfields
  refine ⟨problems, ?_⟩
  have hne : lexer.input ≠ [] := by simp [hinput]
  have hstep : ∃ next, next.input = [] ∧ lexer.step foreign =
      .ok (problems.map .problem ++ [.startTag {
        name := String.ofList (first :: others)
        attributes := Assoc.ofPairsFirst (TagDraft.texts fields) }], next) := by
    unfold step
    rw [hinput, hmodel]
    dsimp only
    rw [if_neg (by decide), if_pos rfl, List.cons_append, readMarkup_start hletter, readTag,
      hexpand, hrun, Fault.ok_bind]
    refine ⟨_, ?_, rfl⟩
    obtain ⟨lastStart, hnoted⟩ := noteStart_eq _ _
    rw [hnoted]
  obtain ⟨next, hnext, hstep⟩ := hstep
  have hread := readAll_succ hne hstep (readAll_of_input_eq_nil hnext foreign fuel)
  rwa [List.append_nil] at hread

end Lexer

/-! ## What is written is what is read -/

theorem Entity.Written.not_mem_return {name : List Char} {c : Char}
    (hwritten : Entity.Written name c) : '\r' ∉ '&' :: name := by
  cases hwritten <;> decide

theorem not_mem_flatMap_return {escape : Char → List Char} {cs : List Char} (hcs : '\r' ∉ cs)
    (hescape : ∀ c, escape c = [c] ∨ ∃ name, Entity.Written name c ∧ escape c = '&' :: name) :
    '\r' ∉ cs.flatMap escape := by
  intro hmem
  obtain ⟨c, hc, hin⟩ := List.mem_flatMap.mp hmem
  rcases hescape c with hplain | ⟨name, hwritten, hescaped⟩
  · rw [hplain] at hin
    exact hcs (List.mem_singleton.mp hin ▸ hc)
  · rw [hescaped] at hin
    exact hwritten.not_mem_return hin

theorem not_mem_return_of_isNameChar {cs : List Char} (hcs : ∀ c ∈ cs, isNameChar c = true) :
    '\r' ∉ cs := by
  intro hmem
  exact absurd (hcs _ hmem) (by decide)

theorem toList_escapeText (text : String) :
    (Markup.escapeText text).toList = escaped text.toList := String.toList_ofList

/-- The names and values of attributes as they are written. -/
def writtenFields (attributes : Attributes) : List (List Char × List Char) :=
  attributes.map fun entry => (entry.1.toList, (entry.2.getD "").toList)

theorem toList_startTag (name : String) (attributes : Attributes) :
    (Markup.startTag name attributes).toList =
      '<' :: (name.toList ++ ((writtenFields attributes).flatMap escapedField ++ ['>'])) := by
  have hentry : ∀ entry : String × Option String, (Markup.attributeText entry.1 entry.2).toList =
      escapedField (entry.1.toList, (entry.2.getD "").toList) := by
    intro entry
    simp [Markup.attributeText, Markup.escapeValue, escapedField]
  simp [Markup.startTag, writtenFields, List.flatMap_map, hentry]

/-- A written start tag has no line ends that reading would unify. -/
theorem not_mem_startTag {name : String} {attributes : Attributes} (hname : IsTagName name.toList)
    (hentries : ∀ entry ∈ attributes, IsFieldName entry.1.toList ∧
      '\r' ∉ (entry.2.getD "").toList) :
    '\r' ∉ (Markup.startTag name attributes).toList := by
  have htag : '\r' ∉ name.toList := by
    obtain ⟨first, others, heq, hletter, hothers⟩ := hname
    rw [heq]
    exact List.not_mem_cons_of_ne_of_not_mem
      (Lexer.ne_of_isAsciiLetter hletter (by decide)).symm (not_mem_return_of_isNameChar hothers)
  have hfields : '\r' ∉ (writtenFields attributes).flatMap escapedField := by
    intro hmem
    obtain ⟨field, hfield, hin⟩ := List.mem_flatMap.mp hmem
    obtain ⟨entry, hentry, rfl⟩ := List.mem_map.mp hfield
    obtain ⟨⟨first, others, heq, hfirst, hothers⟩, hvalue⟩ := hentries entry hentry
    have hescaped := not_mem_flatMap_return hvalue fun c =>
      (escapeValueChar_cases c).imp_left And.left
    have hnamed : '\r' ∉ entry.1.toList := by
      refine not_mem_return_of_isNameChar fun c hc => ?_
      rw [heq] at hc
      rcases List.mem_cons.mp hc with rfl | hc
      · exact hfirst
      · exact (hothers c hc).1
    simp [escapedField, hnamed, hescaped] at hin
  rw [toList_startTag]
  simp [htag, hfields]

/-- Text written with references is read as that text and nothing else, and a start tag written
with references in its values as that tag. The names are those that reading any text can give,
in which quotes and opening brackets count as problems; characters that reading would replace are
left out. -/
theorem tokenize_escaped (foreign : Bool) :
    (∀ text : String, nullChar ∉ text.toList → '\r' ∉ text.toList →
      ∃ tokens, tokenize foreign (Markup.escapeText text) = .ok (tokens, []) ∧
        Spells tokens text.toList) ∧
    ∀ (name : String) (attributes : Attributes), Source.lexed.tag name →
      (∀ entry ∈ attributes, Source.lexed.pair entry.1 (entry.2.getD "") ∧
        nullChar ∉ (entry.2.getD "").toList ∧ '\r' ∉ (entry.2.getD "").toList) →
      attributes.names.Nodup →
      ∃ problems : List Problem, tokenize foreign (Markup.startTag name attributes) =
        .ok (problems.map .problem ++ [.startTag {
          name := name
          attributes := attributes.map fun entry => (entry.1, entry.2.getD "") }], []) := by
  refine ⟨fun text hnull hreturn => ?_, fun name attributes hname hentries hnodup => ?_⟩
  · have hplain : '\r' ∉ escaped text.toList :=
      not_mem_flatMap_return hreturn fun c => (escapeTextChar_cases c).imp_left And.left
    have hinput : (Lexer.ofString (Markup.escapeText text) true).input = escaped text.toList := by
      unfold Lexer.ofString
      dsimp only
      rw [toList_escapeText, Text.unifyLineEnds_of_not_mem hplain]
    unfold tokenize
    rw [hinput]
    exact Lexer.exists_readAll_escaped rfl rfl hnull hinput foreign (length_le_length_escaped _)
  · have hplain := not_mem_startTag hname.1 fun entry hentry =>
      ⟨(hentries entry hentry).1.1, (hentries entry hentry).2.2⟩
    have hinput : (Lexer.ofString (Markup.startTag name attributes) true).input =
        '<' :: (name.toList ++ ((writtenFields attributes).flatMap escapedField ++ ['>'])) := by
      unfold Lexer.ofString
      dsimp only
      rw [Text.unifyLineEnds_of_not_mem hplain, toList_startTag]
    have hfields : ∀ field ∈ writtenFields attributes,
        IsFieldName field.1 ∧ IsLower field.1 ∧ nullChar ∉ field.2 := by
      intro field hmem
      obtain ⟨entry, hentry, rfl⟩ := List.mem_map.mp hmem
      obtain ⟨hpair, hnull, -⟩ := hentries entry hentry
      exact ⟨hpair.1, hpair.2, hnull⟩
    have htexts : TagDraft.texts (writtenFields attributes) =
        attributes.map fun entry => (entry.1, entry.2.getD "") := by
      simp [TagDraft.texts, writtenFields]
    have hdistinct : Assoc.ofPairsFirst (attributes.map fun entry => (entry.1, entry.2.getD "")) =
        attributes.map fun entry => (entry.1, entry.2.getD "") := by
      refine Assoc.ofPairsFirst_of_nodup ?_
      rw [Assoc.names, List.map_map]
      exact hnodup
    obtain ⟨problems, hread⟩ := Lexer.exists_readAll_escapedTag rfl rfl hname.1 hname.2 hfields
      hinput foreign (name.toList ++ ((writtenFields attributes).flatMap escapedField ++
        ['>'])).length
    refine ⟨problems, ?_⟩
    unfold tokenize
    rw [hinput, List.length_cons, hread, htexts, hdistinct, String.ofList_toList]

/-- A text that looks like markup and like references, and a tag with names and a value that
look like the end of what they stand in. -/
theorem tokenize_escaped_lookalikes :
    (∃ tokens, tokenize false (Markup.escapeText "<p> &lt;\u00a0") = .ok (tokens, []) ∧
      Spells tokens "<p> &lt;\u00a0".toList) ∧
    ∃ problems : List Problem,
      tokenize false (Markup.startTag "p" [("=a\"<", some "\"><&quot;"), ("b", none)]) =
        .ok (problems.map .problem ++ [.startTag {
          name := "p"
          attributes := [("=a\"<", "\"><&quot;"), ("b", "")] }], []) := by
  have hquoted : Source.lexed.pair "=a\"<" "\"><&quot;" := by
    refine ⟨⟨'=', ['a', '"', '<'], rfl, rfl, ?_⟩, ?_⟩
    · simp [isNameChar, isSpace, nullChar]
    · exact isLower_of_all rfl
  have hplain : Source.lexed.pair "b" "" := ⟨⟨'b', [], rfl, rfl, by simp⟩, isLower_of_all rfl⟩
  have hname : Source.lexed.tag "p" := ⟨⟨'p', [], rfl, rfl, by simp⟩, isLower_of_all rfl⟩
  refine ⟨(tokenize_escaped false).1 _ (by decide) (by decide),
    (tokenize_escaped false).2 "p" _ hname ?_ (by simp [Assoc.names])⟩
  intro entry hentry
  rcases List.mem_cons.mp hentry with rfl | hlast
  · exact ⟨hquoted, by decide, by decide⟩
  · obtain rfl := List.mem_singleton.mp hlast
    exact ⟨hplain, by decide, by decide⟩

/-!
## Values between quotes

A value is read as it stands while references are left alone. Otherwise one that is written
character by character, each as it is or as the reference that stands for it, is read as the
value itself.
-/

/-- A way to write characters: as they are, or as the references that stand for them. -/
def IsSpelling (spell : Char → List Char) : Prop :=
  ∀ c, (spell c = [c] ∧ c ≠ '&') ∨ ∃ name, Entity.Written name c ∧ spell c = '&' :: name

theorem isSpelling_escapeValueChar : IsSpelling Markup.escapeValueChar := by
  intro c
  rcases escapeValueChar_cases c with ⟨hplain, hand, -⟩ | hnamed
  · exact Or.inl ⟨hplain, hand⟩
  · exact Or.inr hnamed

theorem Entity.Written.ne_null {name : List Char} {c : Char} (hwritten : Entity.Written name c) :
    c ≠ nullChar := by
  cases hwritten <;> decide

/-- Where references are left alone a value is read as it stands. -/
theorem readValue_false (quote : Char) (text : List Char) :
    readValue false quote 0 text = .ok (text.map replaceNull) := by
  induction text with
  | nil => rfl
  | cons c cs ih =>
      rw [readValue, if_neg (by simp), ih]
      rfl

/-- Characters that belong to what has been read already are passed over. -/
theorem readValue_skip (expand : Bool) (quote : Char) (front back : List Char) :
    readValue expand quote front.length (front ++ back) = readValue expand quote 0 back := by
  induction front with
  | nil => rfl
  | cons c front ih => exact ih

/-- A value that is written character by character is read as the value. -/
theorem readValue_spelled {spell : Char → List Char} (hspelling : IsSpelling spell) {quote : Char}
    (hquote : Text.isAsciiLetter quote = false) (cs : List Char) :
    readValue true quote 0 (cs.flatMap spell) = .ok (cs.map replaceNull) := by
  have hclosing : ∀ d ∈ some quote, Text.isAsciiLetter d = false := by
    intro d hd
    cases hd
    exact hquote
  induction cs with
  | nil => rfl
  | cons c cs ih =>
      rw [List.flatMap_cons, List.map_cons]
      rcases hspelling c with ⟨hplain, hand⟩ | ⟨name, hwritten, hnamed⟩
      · rw [hplain, List.singleton_append, readValue, if_neg (by simp [hand]), ih]
        rfl
      · have hread := hwritten.read_append true hclosing (cs.flatMap spell ++ [quote])
        rw [← List.append_assoc] at hread
        have hsame : replaceNull c = c := if_neg hwritten.ne_null
        rw [hnamed, List.cons_append, readValue, if_pos (by simp), hread, Fault.ok_bind]
        dsimp only
        rw [readValue_skip, ih, hsame]
        rfl

end Winnow.Html
