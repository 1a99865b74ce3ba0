import Winnow.Proofs.Html.Entity
import Winnow.Proofs.Html.Lexer.Name

/-!
# Reading a written tag

A tag that is written with well-formed names, and with values between quotes that they do not
hold, is read as what was written.
-/

namespace Winnow.Html

/-- An attribute as it is written, with its value between quotes if it has one. -/
structure Field where
  name : List Char
  value : Option (Char × List Char) := none

/-- What a value between quotes is read as. The first `taken` characters belong to what has
been read already. -/
def readValue (expand : Bool) (quote : Char) : Nat → List Char → Except Fault (List Char)
  | _, [] => .ok []
  | taken + 1, _ :: cs => readValue expand quote taken cs
  | 0, c :: cs =>
    if c = '&' && expand then do
      let (text, taken) ← Entity.read true (some quote) (cs ++ [quote])
      return text ++ (← readValue expand quote taken cs)
    else return replaceNull c :: (← readValue expand quote 0 cs)

namespace Field

/-- The text of an attribute, with the blank before it. -/
def chars (field : Field) : List Char :=
  ' ' :: field.name ++ match field.value with
    | some (quote, text) => '=' :: quote :: text ++ [quote]
    | none => []

/-- An attribute that is read as it is written. -/
structure Sound (field : Field) : Prop where
  name : IsFieldName field.name
  head : field.name.head? ≠ some '='
  value : ∀ quote text, field.value = some (quote, text) →
    (quote = '"' ∨ quote = '\'') ∧ quote ∉ text

/-- What the value of an attribute is read as. -/
def reads (expand : Bool) (field : Field) : Except Fault (List Char) :=
  match field.value with
  | some (quote, text) => readValue expand quote 0 text
  | none => .ok []

end Field

/-- The lower-case form of a name. -/
def lowered (name : List Char) : List Char := name.map Text.asciiLowerChar

namespace TagDraft

variable {expand isEnd : Bool} {draft next : TagDraft} {c : Char} {cs back : List Char}
  {result : List Token × List Char}

theorem run_of_go {also : Nat} (hstep : step expand draft c cs = .ok (.go next also)) :
    run expand isEnd draft 0 (c :: cs) = run expand isEnd next also cs := by
  rw [run, hstep]

theorem run_of_finish (hstep : step expand draft c cs = .ok (.finish next)) :
    run expand isEnd draft 0 (c :: cs) = .ok (next.tokens isEnd, cs) := by
  rw [run, hstep]

/-! ## Values -/

/-- A character of a quoted value that is no reference. -/
theorem step_quoted_plain {quote : Char} (cs : List Char) (hplace : draft.place = .quoted quote)
    {name value : List Char} {others : List (List Char × List Char)}
    (hattributes : draft.attributes = (name, value) :: others) (hquote : c ≠ quote)
    (hplain : ¬ (c = '&' ∧ expand = true)) :
    ∃ problems, step expand draft c cs = .ok (.go { draft with
      attributes := (name, replaceNull c :: value) :: others
      problems := problems } 0) := by
  obtain ⟨place, tagName, attributes, selfClosing, problems⟩ := draft
  obtain rfl : place = .quoted quote := hplace
  obtain rfl : attributes = (name, value) :: others := hattributes
  unfold step
  dsimp only
  rw [if_neg hquote]
  by_cases hand : c = '&'
  · subst hand
    obtain rfl : expand = false := by simpa using hplain
    exact ⟨problems, rfl⟩
  · rw [if_neg hand]
    unfold replaceNull
    split
    · exact ⟨_, rfl⟩
    · exact ⟨problems, rfl⟩

/-- A reference in a quoted value. -/
theorem step_quoted_reference {quote : Char} (cs : List Char)
    (hplace : draft.place = .quoted quote) {name value : List Char}
    {others : List (List Char × List Char)}
    (hattributes : draft.attributes = (name, value) :: others) (hquote : quote ≠ '&') :
    step true draft '&' cs = do
      let (text, taken) ← Entity.read true (some quote) cs
      return .go { draft with attributes := (name, text.reverse ++ value) :: others } taken := by
  obtain ⟨place, tagName, attributes, selfClosing, problems⟩ := draft
  obtain rfl : place = .quoted quote := hplace
  obtain rfl : attributes = (name, value) :: others := hattributes
  unfold step
  dsimp only
  rw [if_neg hquote.symm, if_pos rfl]
  rfl

/-- A quoted value is read up to its quote. -/
theorem run_quoted {quote : Char} (hplace : draft.place = .quoted quote)
    (hdelimiter : isDelimiter quote = true) {name value : List Char}
    {others : List (List Char × List Char)}
    (hattributes : draft.attributes = (name, value) :: others) {text : List Char}
    (hquote : quote ∉ text) {taken : Nat} (htaken : taken ≤ text.length)
    (hok : run expand isEnd draft taken (text ++ quote :: back) = .ok result) :
    ∃ read problems, readValue expand quote taken text = .ok read ∧
      run expand isEnd { draft with
        place := .afterValue
        attributes := (name, read.reverse ++ value) :: others
        problems := problems } 0 back = .ok result := by
  induction text generalizing draft value taken with
  | nil =>
      obtain rfl : taken = 0 := Nat.le_zero.mp htaken
      have hstep : step expand draft quote back = .ok (.go (draft.goto .afterValue) 0) := by
        unfold step
        rw [hplace]
        exact if_pos rfl
      rw [List.nil_append, run_of_go hstep] at hok
      refine ⟨[], draft.problems, rfl, ?_⟩
      rw [List.reverse_nil, List.nil_append, ← hattributes]
      exact hok
  | cons c cs ih =>
      have hc : c ≠ quote := fun h => hquote (h ▸ List.mem_cons_self)
      have hcs : quote ∉ cs := fun h => hquote (List.mem_cons_of_mem _ h)
      cases taken with
      | succ taken =>
          exact ih hplace hattributes hcs (Nat.le_of_succ_le_succ htaken) hok
      | zero =>
          rw [List.cons_append] at hok
          unfold readValue
          by_cases hreference : c = '&' ∧ expand = true
          · obtain ⟨rfl, rfl⟩ := hreference
            have hstops := Entity.stops hdelimiter true (some quote) cs back
            have hstep := step_quoted_reference (cs ++ quote :: back) hplace hattributes hc.symm
            rw [hstops.same] at hstep
            rw [if_pos (by decide)]
            cases hread : Entity.read true (some quote) (cs ++ [quote]) with
            | error fault =>
                rw [hread] at hstep
                rw [run, hstep] at hok
                cases hok
            | ok read =>
                rw [hread] at hstep
                rw [run_of_go hstep] at hok
                have hle := hstops.le (hstops.same.trans hread)
                have hplaced : TagDraft.place { draft with
                    attributes := (name, read.1.reverse ++ value) :: others } = .quoted quote :=
                  hplace
                obtain ⟨rest, problems, hrest, hrun⟩ := ih hplaced rfl hcs hle hok
                refine ⟨read.1 ++ rest, problems, ?_, ?_⟩
                · change (readValue true quote read.2 cs >>= fun rest => .ok (read.1 ++ rest)) = _
                  rw [hrest]
                  rfl
                · rw [List.reverse_append, List.append_assoc]
                  exact hrun
          · obtain ⟨problems, hstep⟩ :=
              step_quoted_plain (cs ++ quote :: back) hplace hattributes hc hreference
            rw [run_of_go hstep] at hok
            have hplaced : TagDraft.place { draft with
                attributes := (name, replaceNull c :: value) :: others
                problems := problems } = .quoted quote := hplace
            obtain ⟨rest, problems, hrest, hrun⟩ := ih hplaced rfl hcs (Nat.zero_le _) hok
            rw [if_neg (by simpa using hreference)]
            refine ⟨replaceNull c :: rest, problems, ?_, ?_⟩
            · rw [hrest]
              rfl
            · rw [List.reverse_cons, List.append_assoc]
              exact hrun

/-! ## Names -/

/-- A place from which the next attribute or the end of the tag follows. -/
inductive Ready : TagPlace → Prop
  | tagName : Ready .tagName
  | name : Ready .name
  | afterValue : Ready .afterValue

theorem leaveName_eq (draft : TagDraft) :
    ∃ problems, draft.leaveName = { draft with problems := problems } := by
  unfold leaveName
  split
  · split
    · exact ⟨_, rfl⟩
    · exact ⟨draft.problems, rfl⟩
  · exact ⟨draft.problems, rfl⟩

theorem run_blank (expand isEnd : Bool) (cs : List Char) (hready : Ready draft.place) :
    ∃ place problems, (place = .beforeName ∨ place = .afterName) ∧
      (draft.place ≠ .name → place = .beforeName) ∧
      run expand isEnd draft 0 (' ' :: cs) =
        run expand isEnd { draft with place := place, problems := problems } 0 cs := by
  obtain ⟨place, tagName, attributes, selfClosing, problems⟩ := draft
  obtain ⟨noted, hleave⟩ := leaveName_eq ⟨place, tagName, attributes, selfClosing, problems⟩
  cases hready with
  | tagName => exact ⟨.beforeName, problems, Or.inl rfl, fun _ => rfl, rfl⟩
  | name =>
      refine ⟨.afterName, noted, Or.inr rfl, fun hne => absurd rfl hne, ?_⟩
      have hstep : step expand ⟨.name, tagName, attributes, selfClosing, problems⟩ ' ' cs =
          .ok (.go (TagDraft.goto (leaveName ⟨.name, tagName, attributes, selfClosing, problems⟩)
            .afterName) 0) := rfl
      rw [run_of_go hstep, hleave]
      rfl
  | afterValue => exact ⟨.beforeName, problems, Or.inl rfl, fun _ => rfl, rfl⟩

theorem ne_of_isNameChar (hc : isNameChar c = true) :
    isSpace c = false ∧ c ≠ '/' ∧ c ≠ '>' ∧ c ≠ nullChar := by
  simpa [isNameChar, and_assoc] using hc

/-- The first character of the name of an attribute. It is an equals sign only where no value
can follow. -/
theorem run_first (draft : TagDraft)
    (hplace : draft.place = .beforeName ∨ draft.place = .afterName ∧ c ≠ '=')
    (hc : isNameChar c = true) :
    ∃ problems, run expand isEnd draft 0 (c :: cs) = run expand isEnd { draft with
      place := .name
      attributes := ([Text.asciiLowerChar c], []) :: draft.attributes
      problems := problems } 0 cs := by
  obtain ⟨hspace, hslash, hclose, hnull⟩ := ne_of_isNameChar hc
  obtain ⟨place, tagName, attributes, selfClosing, problems⟩ := draft
  have hstep : ∃ problems', step expand ⟨place, tagName, attributes, selfClosing, problems⟩ c cs =
      .ok (.go ⟨.name, tagName, ([Text.asciiLowerChar c], []) :: attributes, selfClosing,
        problems'⟩ 0) := by
    rcases hplace with rfl | ⟨rfl, hequals⟩
    · simp only [step, stepBeforeName, hspace, hslash, hclose, hnull, if_false,
        Bool.false_eq_true]
      split
      · exact ⟨_, rfl⟩
      · exact ⟨_, rfl⟩
    · simp only [step, hspace, hslash, hclose, hnull, hequals, if_false, Bool.false_eq_true]
      split
      · exact ⟨_, rfl⟩
      · exact ⟨_, rfl⟩
  obtain ⟨noted, hstep⟩ := hstep
  exact ⟨noted, run_of_go hstep⟩

/-- The other characters of the name of an attribute. -/
theorem run_rest (draft : TagDraft) {name value : List Char}
    {others : List (List Char × List Char)} (hplace : draft.place = .name)
    (hattributes : draft.attributes = (name, value) :: others)
    {ds : List Char} (hds : ∀ d ∈ ds, isNameChar d = true ∧ d ≠ '=') :
    ∃ problems, run expand isEnd draft 0 (ds ++ cs) = run expand isEnd { draft with
      attributes := ((lowered ds).reverse ++ name, value) :: others
      problems := problems } 0 cs := by
  induction ds generalizing draft name with
  | nil =>
      refine ⟨draft.problems, ?_⟩
      rw [lowered, List.map_nil, List.reverse_nil, List.nil_append, List.nil_append, ← hattributes]
  | cons d ds ih =>
      obtain ⟨hd, hequals⟩ := hds d List.mem_cons_self
      obtain ⟨hspace, hslash, hclose, hnull⟩ := ne_of_isNameChar hd
      obtain ⟨place, tagName, attributes, selfClosing, problems⟩ := draft
      obtain rfl : place = .name := hplace
      obtain rfl : attributes = (name, value) :: others := hattributes
      have hstep : ∃ noted, step expand ⟨.name, tagName, (name, value) :: others, selfClosing,
          problems⟩ d (ds ++ cs) = .ok (.go ⟨.name, tagName,
            (Text.asciiLowerChar d :: name, value) :: others, selfClosing, noted⟩ 0) := by
        simp only [step, hspace, hslash, hclose, hnull, hequals, if_false, Bool.false_eq_true]
        split
        · exact ⟨_, rfl⟩
        · exact ⟨_, rfl⟩
      obtain ⟨noted, hstep⟩ := hstep
      have hrest := fun d hmem => hds d (List.mem_cons_of_mem _ hmem)
      obtain ⟨final, hrun⟩ := ih ⟨.name, tagName, (Text.asciiLowerChar d :: name, value) :: others,
        selfClosing, noted⟩ rfl rfl hrest
      refine ⟨final, ?_⟩
      rw [List.cons_append, run_of_go hstep, lowered, List.map_cons, List.reverse_cons,
        List.append_assoc]
      exact hrun

/-- The name of an attribute, with the blank before it. After an attribute without a value an
equals sign would start its value and not a name. -/
theorem run_fieldName (hready : Ready draft.place) {name : List Char} (hname : IsFieldName name)
    (hhead : draft.place = .name → name.head? ≠ some '=') :
    ∃ problems, run expand isEnd draft 0 (' ' :: (name ++ cs)) = run expand isEnd { draft with
      place := .name
      attributes := ((lowered name).reverse, []) :: draft.attributes
      problems := problems } 0 cs := by
  obtain ⟨c, ds, rfl, hc, hds⟩ := hname
  obtain ⟨place, problems, hplace, hbefore, hblank⟩ :=
    run_blank expand isEnd (c :: ds ++ cs) hready
  have hstart : place = .beforeName ∨ place = .afterName ∧ c ≠ '=' := by
    rcases hplace with hstart | hafter
    · exact Or.inl hstart
    · by_cases hnamed : draft.place = .name
      · exact Or.inr ⟨hafter, fun heq => hhead hnamed (by rw [heq]; rfl)⟩
      · exact Or.inl (hbefore hnamed)
  obtain ⟨noted, hfirst⟩ := run_first { draft with place := place, problems := problems } hstart hc
  obtain ⟨final, hrest⟩ := run_rest { draft with
    place := .name
    attributes := ([Text.asciiLowerChar c], []) :: draft.attributes
    problems := noted } rfl rfl hds
  refine ⟨final, ?_⟩
  rw [hblank, List.cons_append, hfirst, hrest, lowered, lowered, List.map_cons, List.reverse_cons]

/-- An equals sign and the quote before a value. -/
theorem run_equals (draft : TagDraft) {quote : Char} (hplace : draft.place = .name)
    (hquote : quote = '"' ∨ quote = '\'') :
    ∃ problems, run expand isEnd draft 0 ('=' :: quote :: cs) = run expand isEnd { draft with
      place := .quoted quote
      problems := problems } 0 cs := by
  obtain ⟨place, tagName, attributes, selfClosing, problems⟩ := draft
  obtain rfl : place = .name := hplace
  obtain ⟨noted, hleave⟩ := leaveName_eq ⟨.name, tagName, attributes, selfClosing, problems⟩
  have hequals : step expand ⟨.name, tagName, attributes, selfClosing, problems⟩ '='
      (quote :: cs) = .ok (.go (TagDraft.goto (leaveName ⟨.name, tagName, attributes, selfClosing,
        problems⟩) .beforeValue) 0) := rfl
  have hopen : step expand ⟨.beforeValue, tagName, attributes, selfClosing, noted⟩ quote cs =
      .ok (.go ⟨.quoted quote, tagName, attributes, selfClosing, noted⟩ 0) := by
    rcases hquote with rfl | rfl
    · rfl
    · rfl
  refine ⟨noted, ?_⟩
  rw [run_of_go hequals, hleave]
  exact run_of_go hopen

/-- A written attribute. -/
theorem run_field {field : Field} (hfield : field.Sound) (hready : Ready draft.place)
    (hok : run expand isEnd draft 0 (field.chars ++ back) = .ok result) :
    ∃ read place problems, field.reads expand = .ok read ∧ Ready place ∧
      run expand isEnd { draft with
        place := place
        attributes := ((lowered field.name).reverse, read.reverse) :: draft.attributes
        problems := problems } 0 back = .ok result := by
  obtain ⟨hname, hhead, hvalue⟩ := hfield
  unfold Field.chars at hok
  simp only [List.cons_append, List.append_assoc] at hok
  obtain ⟨problems, hnamed⟩ := run_fieldName hready hname fun _ => hhead
  rw [hnamed] at hok
  unfold Field.reads
  cases hwritten : field.value with
  | none =>
      rw [hwritten] at hok
      exact ⟨[], .name, problems, rfl, .name, hok⟩
  | some value =>
      obtain ⟨quote, text⟩ := value
      obtain ⟨hquote, hnot⟩ := hvalue quote text hwritten
      rw [hwritten] at hok
      simp only [List.cons_append, List.append_assoc] at hok
      obtain ⟨problems, hopen⟩ := run_equals { draft with
        place := .name
        attributes := ((lowered field.name).reverse, []) :: draft.attributes
        problems := problems } rfl hquote
      rw [hopen] at hok
      have hdelimiter : isDelimiter quote = true := by
        rcases hquote with rfl | rfl
        · rfl
        · rfl
      obtain ⟨read, problems, hread, hok⟩ := run_quoted rfl hdelimiter rfl hnot (Nat.zero_le _) hok
      rw [List.append_nil] at hok
      exact ⟨read, .afterValue, problems, hread, .afterValue, hok⟩

/-! ## Whole tags -/

/-- The names and values that written attributes are read as. -/
def Reads (expand : Bool) (fields : List Field) (pairs : List (List Char × List Char)) : Prop :=
  List.Forall₂ (fun field pair => pair.1 = lowered field.name ∧ field.reads expand = .ok pair.2)
    fields pairs

/-- Names and values as a draft keeps them. -/
def reversed (pairs : List (List Char × List Char)) : List (List Char × List Char) :=
  (pairs.map fun pair => (pair.1.reverse, pair.2.reverse)).reverse

theorem run_fields {fields : List Field} (hfields : ∀ field ∈ fields, field.Sound)
    (hready : Ready draft.place)
    (hok : run expand isEnd draft 0 (fields.flatMap Field.chars ++ back) = .ok result) :
    ∃ pairs place problems, Reads expand fields pairs ∧ Ready place ∧
      run expand isEnd { draft with
        place := place
        attributes := reversed pairs ++ draft.attributes
        problems := problems } 0 back = .ok result := by
  induction fields generalizing draft with
  | nil => exact ⟨[], draft.place, draft.problems, .nil, hready, hok⟩
  | cons field fields ih =>
      rw [List.flatMap_cons, List.append_assoc] at hok
      obtain ⟨read, place, problems, hread, hplace, hok⟩ :=
        run_field (hfields field List.mem_cons_self) hready hok
      have hrest := fun other hmem => hfields other (List.mem_cons_of_mem _ hmem)
      have hnext : Ready (TagDraft.place { draft with
          place := place
          attributes := ((lowered field.name).reverse, read.reverse) :: draft.attributes
          problems := problems }) := hplace
      obtain ⟨pairs, place, problems, hpairs, hplace, hok⟩ := ih hrest hnext hok
      refine ⟨(lowered field.name, read) :: pairs, place, problems, .cons ⟨rfl, hread⟩ hpairs,
        hplace, ?_⟩
      rw [reversed, List.map_cons, List.reverse_cons, List.append_assoc]
      exact hok

/-- The closing bracket of a tag. -/
theorem run_close (hready : Ready draft.place) :
    ∃ problems, run expand isEnd draft 0 ('>' :: back) =
      .ok (tokens isEnd { draft with problems := problems }, back) := by
  obtain ⟨place, tagName, attributes, selfClosing, problems⟩ := draft
  obtain ⟨noted, hleave⟩ := leaveName_eq ⟨place, tagName, attributes, selfClosing, problems⟩
  cases hready with
  | tagName => exact ⟨problems, rfl⟩
  | name =>
      have hstep : step expand ⟨.name, tagName, attributes, selfClosing, problems⟩ '>' back =
          .ok (.finish (leaveName ⟨.name, tagName, attributes, selfClosing, problems⟩)) := rfl
      rw [run_of_finish hstep, hleave]
      exact ⟨noted, rfl⟩
  | afterValue => exact ⟨problems, rfl⟩

/-- The characters after the first one of the name of a tag. -/
theorem run_tagName (hplace : draft.place = .tagName) {ds : List Char}
    (hds : ∀ d ∈ ds, isNameChar d = true) :
    run expand isEnd draft 0 (ds ++ cs) =
      run expand isEnd { draft with name := (lowered ds).reverse ++ draft.name } 0 cs := by
  induction ds generalizing draft with
  | nil => rfl
  | cons d ds ih =>
      obtain ⟨hspace, hslash, hclose, hnull⟩ := ne_of_isNameChar (hds d List.mem_cons_self)
      obtain ⟨place, tagName, attributes, selfClosing, problems⟩ := draft
      obtain rfl : place = .tagName := hplace
      have hstep : step expand ⟨.tagName, tagName, attributes, selfClosing, problems⟩ d
          (ds ++ cs) = .ok (.go ⟨.tagName, Text.asciiLowerChar d :: tagName, attributes,
            selfClosing, problems⟩ 0) := by
        simp only [step, hspace, hslash, hclose, hnull, if_false, Bool.false_eq_true]
      have hrest := fun d hmem => hds d (List.mem_cons_of_mem _ hmem)
      rw [List.cons_append, run_of_go hstep, ih rfl hrest, lowered, lowered, List.map_cons,
        List.reverse_cons, List.append_assoc]
      rfl

/-- Names and values as texts. -/
def texts (pairs : List (List Char × List Char)) : List (String × String) :=
  pairs.map fun pair => (String.ofList pair.1, String.ofList pair.2)

/-- A written tag is read as its name and attributes. -/
theorem exists_of_run_tag {ds : List Char} (hds : ∀ d ∈ ds, isNameChar d = true)
    {fields : List Field} (hfields : ∀ field ∈ fields, field.Sound)
    (hok : run expand isEnd { name := [Text.asciiLowerChar c] } 0
      (ds ++ (fields.flatMap Field.chars ++ '>' :: back)) = .ok result) :
    ∃ final pairs, result = (tokens isEnd final, back) ∧ Reads expand fields pairs ∧
      final.tagNameText = String.ofList (lowered (c :: ds)) ∧
      final.attributeList = texts pairs := by
  rw [run_tagName rfl hds] at hok
  obtain ⟨pairs, place, problems, hpairs, hplace, hok⟩ := run_fields hfields .tagName hok
  have hready : Ready (TagDraft.place {
      place := place
      name := (lowered ds).reverse ++ [Text.asciiLowerChar c]
      attributes := reversed pairs ++ []
      problems := problems }) := hplace
  obtain ⟨problems, hclose⟩ := run_close hready
  rw [hclose] at hok
  refine ⟨_, pairs, (Except.ok.inj hok).symm, hpairs, ?_, ?_⟩
  · simp [tagNameText, lowered]
  · simp [attributeList, reversed, texts]

end TagDraft

end Winnow.Html
