import Winnow.Proofs.Html.Lexer.Read
import Winnow.Proofs.Text.Lines

/-!
# What is left to read

Whatever is read of an input, an end of it is left. The name of a start tag stands in the input
behind the bracket that opens the tag, in capitals or not.
-/

namespace Winnow.Html

/-! ## Ends of the input -/

theorem suffix_readComment (place : CommentPlace) (data input : List Char) :
    (readComment place data input).2 <:+ input := by
  induction input generalizing place data with
  | nil => exact List.suffix_rfl
  | cons c cs ih =>
      rw [CommentPlace.readComment_cons]
      split
      next => exact (ih _ _).trans (List.suffix_cons c cs)
      next => exact List.suffix_cons c cs

theorem suffix_readBogusComment (input : List Char) : (readBogusComment input).2 <:+ input :=
  (List.drop_suffix 1 _).trans (List.dropWhile_suffix _)

theorem suffix_readSection (input : List Char) : (readSection input).2 <:+ input := by
  induction input using readSection.induct with
  | case1 => exact List.suffix_rfl
  | case2 cs => exact ⟨[']', ']', '>'], rfl⟩
  | case3 c cs hother text rest hread ih =>
      rw [readSection]
      · exact ih.trans (List.suffix_cons c cs)
      · exact hother

theorem DoctypeDraft.suffix_run (draft : DoctypeDraft) (taken : Nat) (input : List Char) :
    (draft.run taken input).2 <:+ input := by
  induction input generalizing draft taken with
  | nil => exact List.suffix_rfl
  | cons c cs ih =>
      cases taken with
      | succ taken => exact (ih draft taken).trans (List.suffix_cons c cs)
      | zero =>
          rw [run]
          split
          next => exact List.suffix_cons c cs
          next => exact (ih _ _).trans (List.suffix_cons c cs)

theorem TagDraft.suffix_run {expand isEnd : Bool} {draft : TagDraft} {taken : Nat}
    {input rest : List Char} {tokens : List Token}
    (hok : run expand isEnd draft taken input = .ok (tokens, rest)) : rest <:+ input := by
  induction input generalizing draft taken with
  | nil =>
      cases hok
      exact List.suffix_rfl
  | cons c cs ih =>
      cases taken with
      | succ taken => exact (ih hok).trans (List.suffix_cons c cs)
      | zero =>
          rw [run] at hok
          split at hok
          next => cases hok
          next =>
            cases hok
            exact List.suffix_cons c _
          next => exact (ih hok).trans (List.suffix_cons c cs)

theorem suffix_splitScript (name : String) (place : ScriptPlace) (input : List Char) :
    (splitScript name place input).2 <:+ input := by
  induction input generalizing place with
  | nil => exact List.suffix_rfl
  | cons c cs ih =>
      rw [splitScript]
      split
      · exact List.suffix_rfl
      · exact (ih _).trans (List.suffix_cons c cs)

theorem suffix_of_endTagAhead? {name : String} {input rest : List Char}
    (hahead : endTagAhead? name input = some rest) : rest <:+ input := by
  unfold endTagAhead? at hahead
  split at hahead
  next cs =>
    dsimp only at hahead
    split at hahead
    next c others hrest =>
      split at hahead
      next =>
        cases hahead
        rw [← hrest]
        exact (List.dropWhile_suffix _).trans (List.suffix_cons '/' cs)
      next => cases hahead
    next => cases hahead
  next => cases hahead

/-! ## The name of a tag -/

namespace TagDraft

/-- The draft that a step leads to. -/
def Step.draft : Step → TagDraft
  | .go draft _ => draft
  | .finish draft => draft

section Changes

variable (draft : TagDraft) (problem : Problem) (place : TagPlace) (c : Char) (text : List Char)

@[simp] theorem name_note : (draft.note problem).name = draft.name := rfl

@[simp] theorem place_note : (draft.note problem).place = draft.place := rfl

@[simp] theorem name_goto : (draft.goto place).name = draft.name := rfl

@[simp] theorem place_goto : (draft.goto place).place = place := rfl

@[simp] theorem name_startAttribute : (draft.startAttribute c).name = draft.name := rfl

@[simp] theorem place_startAttribute : (draft.startAttribute c).place = .name := rfl

@[simp] theorem name_addToName : (draft.addToName c).name = draft.name := by
  unfold addToName
  split <;> rfl

@[simp] theorem place_addToName : (draft.addToName c).place = draft.place := by
  unfold addToName
  split <;> rfl

@[simp] theorem name_addToValue : (draft.addToValue text).name = draft.name := by
  unfold addToValue
  split <;> rfl

@[simp] theorem place_addToValue : (draft.addToValue text).place = draft.place := by
  unfold addToValue
  split <;> rfl

@[simp] theorem name_leaveName : draft.leaveName.name = draft.name := by
  unfold leaveName
  split
  · split <;> rfl
  · rfl

@[simp] theorem place_leaveName : draft.leaveName.place = draft.place := by
  unfold leaveName
  split
  · split <;> rfl
  · rfl

end Changes

/-- Is the name of the tag behind, and the same as in an earlier draft? -/
def Keeps (draft after : TagDraft) : Prop := after.name = draft.name ∧ after.place ≠ .tagName

section Keeps

variable {draft : TagDraft} (hplace : draft.place ≠ .tagName)
include hplace

theorem keeps_stepBeforeName (c : Char) : draft.Keeps (stepBeforeName draft c).draft := by
  unfold stepBeforeName
  split_ifs <;> simp [Keeps, Step.draft, hplace]

theorem keeps_of_stepReference {expand : Bool} {closing : Char} {rest : List Char} {result : Step}
    (hstep : stepReference expand draft closing rest = .ok result) : draft.Keeps result.draft := by
  unfold stepReference at hstep
  split at hstep
  next =>
    obtain ⟨read, -, hread⟩ := Fault.exists_of_bind_eq_ok hstep
    cases hread
    simp [Keeps, Step.draft, hplace]
  next =>
    cases hstep
    simp [Keeps, Step.draft, hplace]

omit hplace in
theorem keeps_of_stepUnquoted {expand : Bool} {c : Char} {rest : List Char} {result : Step}
    (hstep : stepUnquoted expand draft c rest = .ok result) : draft.Keeps result.draft := by
  have hunquoted : (draft.goto .unquoted).place ≠ .tagName := by simp
  unfold stepUnquoted at hstep
  dsimp only at hstep
  split at hstep
  next =>
    cases hstep
    simp [Keeps, Step.draft]
  next =>
    split at hstep
    next => exact keeps_of_stepReference hunquoted hstep
    next => split_ifs at hstep <;> cases hstep <;> simp [Keeps, Step.draft]

/-- Behind the name of a tag every character leaves it as it is. -/
theorem keeps_of_step {expand : Bool} {c : Char} {rest : List Char} {result : Step}
    (hstep : step expand draft c rest = .ok result) : draft.Keeps result.draft := by
  unfold step at hstep
  split at hstep
  next heq => exact absurd heq hplace
  next =>
    cases hstep
    exact keeps_stepBeforeName hplace c
  next heq =>
    split_ifs at hstep <;> cases hstep <;> simp [Keeps, Step.draft, heq]
  next heq =>
    split_ifs at hstep <;> cases hstep <;> simp [Keeps, Step.draft, heq]
  next heq =>
    split_ifs at hstep
    case neg => exact keeps_of_stepUnquoted hstep
    all_goals
      cases hstep
      simp [Keeps, Step.draft, heq]
  next heq =>
    split at hstep
    next =>
      cases hstep
      simp [Keeps, Step.draft]
    next =>
      split at hstep
      next => exact keeps_of_stepReference hplace hstep
      next => split_ifs at hstep <;> cases hstep <;> simp [Keeps, Step.draft, heq]
  next => exact keeps_of_stepUnquoted hstep
  next heq =>
    have hnoted : (draft.note .other).place ≠ .tagName := hplace
    split_ifs at hstep
    case neg =>
      cases hstep
      exact keeps_stepBeforeName hnoted c
    all_goals
      cases hstep
      simp [Keeps, Step.draft, heq]
  next heq =>
    have hnoted : (draft.note .other).place ≠ .tagName := hplace
    split_ifs at hstep
    case neg =>
      cases hstep
      exact keeps_stepBeforeName hnoted c
    all_goals
      cases hstep
      simp [Keeps, Step.draft, heq]

end Keeps

/-- How a character of the name of a tag is read. -/
def readNameChar (c : Char) : Char := Text.asciiLowerChar (replaceNull c)

section Run

variable {expand : Bool} {draft : TagDraft} {input rest : List Char} {tokens : List Token}
  {tag : Tag}

theorem name_of_mem_tokens (hmem : .startTag tag ∈ draft.tokens false) :
    tag.name.toList = draft.name.reverse := by
  rcases List.mem_append.mp hmem with hproblem | htag
  · obtain ⟨problem, -, heq⟩ := List.mem_map.mp hproblem
    cases heq
  · cases List.mem_singleton.mp htag
    exact String.toList_ofList

theorem not_mem_cutOff : .startTag tag ∉ draft.cutOff := by
  intro hmem
  obtain ⟨problem, -, heq⟩ := List.mem_map.mp hmem
  cases heq

/-- Behind its name a tag has the name that has been read. -/
theorem name_of_run {taken : Nat} (hplace : draft.place ≠ .tagName)
    (hok : run expand false draft taken input = .ok (tokens, rest))
    (hmem : .startTag tag ∈ tokens) : tag.name.toList = draft.name.reverse := by
  induction input generalizing draft taken with
  | nil =>
      cases hok
      exact absurd hmem not_mem_cutOff
  | cons c cs ih =>
      cases taken with
      | succ taken => exact ih hplace hok
      | zero =>
          rw [run] at hok
          split at hok
          next => cases hok
          next final hstep =>
            cases hok
            rw [← (keeps_of_step hplace hstep).1]
            exact name_of_mem_tokens hmem
          next onward also hstep =>
            obtain ⟨hname, honward⟩ := keeps_of_step hplace hstep
            rw [← hname]
            exact ih honward hok

/-- In its name a tag is read up to some place of the input. -/
theorem exists_name_of_run (hplace : draft.place = .tagName)
    (hok : run expand false draft 0 input = .ok (tokens, rest))
    (hmem : .startTag tag ∈ tokens) :
    ∃ name, name <+: input ∧
      tag.name.toList = draft.name.reverse ++ name.map readNameChar := by
  induction input generalizing draft with
  | nil =>
      cases hok
      exact absurd hmem not_mem_cutOff
  | cons c cs ih =>
      have hended : tag.name.toList = draft.name.reverse → ∃ name, name <+: c :: cs ∧
          tag.name.toList = draft.name.reverse ++ name.map readNameChar :=
        fun hname => ⟨[], List.nil_prefix, by rw [hname, List.map_nil, List.append_nil]⟩
      have hread : ∀ onward : TagDraft, onward.place = .tagName →
          onward.name = readNameChar c :: draft.name →
          run expand false onward 0 cs = .ok (tokens, rest) →
          ∃ name, name <+: c :: cs ∧
            tag.name.toList = draft.name.reverse ++ name.map readNameChar := by
        intro onward honward hname hrun
        obtain ⟨name, hbegins, htag⟩ := ih honward hrun
        refine ⟨c :: name, List.cons_prefix_cons.mpr ⟨rfl, hbegins⟩, ?_⟩
        rw [htag, hname]
        simp
      -- A blank, a slash or a bracket ends the name, and any other character continues it.
      unfold run step at hok
      rw [hplace] at hok
      dsimp only at hok
      split_ifs at hok with hspace hclose hslash hnull <;> dsimp only at hok
      · have hbehind : (draft.goto .beforeName).place ≠ .tagName := by simp
        have hname := name_of_run hbehind hok hmem
        exact hended hname
      · cases hok
        exact hended (name_of_mem_tokens hmem)
      · have hbehind : (draft.goto .solidus).place ≠ .tagName := by simp
        have hname := name_of_run hbehind hok hmem
        exact hended hname
      · refine hread _ ?_ ?_ hok
        · exact hplace
        · rw [readNameChar, replaceNull, if_pos hnull]
          rfl
      · refine hread _ ?_ ?_ hok
        · rfl
        · rw [readNameChar, replaceNull, if_neg hnull]

end Run

end TagDraft

/-! ## One step -/

namespace Lexer

variable {lexer next : Lexer} {tokens : List Token} {input : List Char} {foreign : Bool}

theorem input_noteStart (lexer : Lexer) (tokens : List Token) :
    (lexer.noteStart tokens).input = lexer.input := by
  unfold noteStart
  split
  · rfl
  · rfl

theorem suffix_of_readTag {isEnd : Bool} {draft : TagDraft}
    (hok : lexer.readTag isEnd draft input = .ok (tokens, next)) : next.input <:+ input := by
  obtain ⟨read, hrun, hresult⟩ := Fault.exists_of_bind_eq_ok hok
  cases hresult
  rw [input_noteStart]
  exact TagDraft.suffix_run hrun

theorem suffix_of_readDeclaration
    (hread : lexer.readDeclaration foreign input = (tokens, next)) : next.input <:+ input := by
  unfold readDeclaration at hread
  split at hread
  next cs =>
    cases hread
    exact (suffix_readComment .start [] cs).trans (List.suffix_append ['-', '-'] cs)
  next =>
    split at hread
    next =>
      cases hread
      exact (DoctypeDraft.suffix_run {} 0 _).trans (List.drop_suffix 7 _)
    next =>
      split at hread
      next =>
        cases hread
        exact (suffix_readSection _).trans (List.drop_suffix 7 _)
      next =>
        cases hread
        exact suffix_readBogusComment _

theorem suffix_of_readMarkup (hok : lexer.readMarkup foreign input = .ok (tokens, next)) :
    next.input <:+ input := by
  unfold readMarkup at hok
  split at hok
  next => exact (suffix_of_readDeclaration (Except.ok.inj hok)).trans (List.suffix_cons _ _)
  next c cs =>
    split at hok
    next => exact (suffix_of_readTag hok).trans (List.suffix_append ['/', c] cs)
    next =>
      split at hok
      next =>
        cases hok
        exact List.suffix_append ['/', c] cs
      next =>
        cases hok
        exact (suffix_readBogusComment _).trans (List.suffix_cons _ _)
  next =>
    cases hok
    exact List.nil_suffix
  next =>
    cases hok
    exact List.suffix_cons _ _
  next =>
    cases hok
    exact suffix_readBogusComment _
  next =>
    split at hok
    next => exact (suffix_of_readTag hok).trans (List.suffix_cons _ _)
    next =>
      cases hok
      exact List.suffix_rfl
  next =>
    cases hok
    exact List.suffix_rfl

theorem suffix_of_readReference (hok : lexer.readReference input = .ok (tokens, next)) :
    next.input <:+ input := by
  unfold readReference at hok
  split at hok
  next =>
    obtain ⟨read, -, hresult⟩ := Fault.exists_of_bind_eq_ok hok
    cases hresult
    exact List.drop_suffix _ _
  next =>
    cases hok
    exact List.suffix_rfl

theorem suffix_of_readText {ends : Char → Bool} {c : Char}
    (hread : lexer.readText ends c input = (tokens, next)) : next.input <:+ input := by
  unfold readText at hread
  split at hread
  next =>
    cases hread
    exact List.dropWhile_suffix _
  next =>
    cases hread
    exact List.dropWhile_suffix _

theorem suffix_of_readRawBracket (hok : lexer.readRawBracket input = .ok (tokens, next)) :
    next.input <:+ input := by
  unfold readRawBracket at hok
  split at hok
  next hahead => exact (suffix_of_readTag hok).trans (suffix_of_endTagAhead? hahead)
  next =>
    cases hok
    exact List.drop_suffix _ _

/-- A step leaves an end of the input. -/
theorem suffix_of_step (hok : lexer.step foreign = .ok (tokens, next)) :
    next.input <:+ lexer.input := by
  unfold step at hok
  split at hok
  next hinput =>
    cases hok
    exact List.suffix_rfl
  next c cs hinput =>
    have hlater : next.input <:+ cs → next.input <:+ lexer.input := fun hsuffix =>
      hinput ▸ hsuffix.trans (List.suffix_cons c cs)
    split at hok
    next =>
      split_ifs at hok
      · exact hlater (suffix_of_readReference hok)
      · exact hlater (suffix_of_readMarkup hok)
      · cases hok
        exact hlater List.suffix_rfl
      · exact hlater (suffix_of_readText (Except.ok.inj hok))
    next =>
      split_ifs at hok
      · exact hlater (suffix_of_readReference hok)
      · exact hlater (suffix_of_readRawBracket hok)
      · cases hok
        exact hlater List.suffix_rfl
      · exact hlater (suffix_of_readText (Except.ok.inj hok))
    next =>
      split_ifs at hok
      · exact hlater (suffix_of_readRawBracket hok)
      · cases hok
        exact hlater (List.dropWhile_suffix _)
    next =>
      dsimp only at hok
      split_ifs at hok
      · exact hlater (suffix_of_readRawBracket hok)
      · cases hok
        rw [hinput]
        exact suffix_splitScript _ _ _
    next =>
      cases hok
      exact List.nil_suffix

/-! ## Start tags -/

/-- A source without start tags. -/
def tagless : Source where
  tag _ := False
  pair _ _ := True
  comment _ := True

theorem not_mem_of_yields {tag : Tag}
    (hyields : ∀ token ∈ tokens, tagless.Yields False token) : .startTag tag ∉ tokens :=
  fun hmem => (hyields _ hmem).1.named

theorem not_mem_of_readDeclaration {tag : Tag}
    (hread : lexer.readDeclaration foreign input = (tokens, next)) : .startTag tag ∉ tokens := by
  unfold readDeclaration at hread
  dsimp only at hread
  split at hread
  next =>
    cases hread
    simp
  next =>
    split_ifs at hread
    · cases hread
      simp
    · cases hread
      simp
    · cases hread
      simp [textToken]
    · cases hread
      simp

theorem exists_name_of_readMarkup {tag : Tag}
    (hok : lexer.readMarkup foreign input = .ok (tokens, next)) (hmem : .startTag tag ∈ tokens) :
    ∃ name, name <+: input ∧ tag.name.toList = name.map TagDraft.readNameChar := by
  unfold readMarkup at hok
  split at hok
  next => exact absurd hmem (not_mem_of_readDeclaration (Except.ok.inj hok))
  next =>
    split_ifs at hok
    · exact absurd hmem (not_mem_of_yields (yields_of_readTag_end tagless hok))
    · cases hok
      simp at hmem
    · cases hok
      simp at hmem
  next =>
    cases hok
    simp at hmem
  next =>
    cases hok
    simp at hmem
  next =>
    cases hok
    simp at hmem
  next c cs _ _ _ _ _ =>
    split_ifs at hok with hletter
    · obtain ⟨read, hrun, hresult⟩ := Fault.exists_of_bind_eq_ok hok
      cases hresult
      obtain ⟨name, hbegins, hname⟩ := TagDraft.exists_name_of_run rfl hrun hmem
      refine ⟨c :: name, List.cons_prefix_cons.mpr ⟨rfl, hbegins⟩, ?_⟩
      have hnull : c ≠ nullChar := by
        rintro rfl
        revert hletter
        decide
      rw [hname, List.map_cons, TagDraft.readNameChar, replaceNull, if_neg hnull]
      rfl
    · cases hok
      simp at hmem
  next =>
    cases hok
    simp at hmem

/-- The name of a start tag that is read stands behind the bracket at the start of the input. -/
theorem exists_name_of_step {tag : Tag} (hok : lexer.step foreign = .ok (tokens, next))
    (hmem : .startTag tag ∈ tokens) :
    ∃ name, '<' :: name <+: lexer.input ∧ tag.name.toList = name.map TagDraft.readNameChar := by
  by_cases hmodel : lexer.model = .markup
  · unfold step at hok
    rw [hmodel] at hok
    split at hok
    next =>
      cases hok
      cases hmem
    next c cs hinput =>
      dsimp only at hok
      split_ifs at hok with hreference hopen
      · exact absurd hmem (not_mem_of_yields (yields_of_readReference tagless hok))
      · obtain ⟨name, hbegins, hname⟩ := exists_name_of_readMarkup hok hmem
        rw [hinput, hopen]
        exact ⟨name, List.cons_prefix_cons.mpr ⟨rfl, hbegins⟩, hname⟩
      · cases hok
        simp at hmem
      · have hyields := yields_of_readText tagless (Except.ok.inj hok)
        exact absurd hmem (not_mem_of_yields hyields)
  · exact absurd hmem (not_mem_of_yields (yields_of_step_text tagless hmodel hok))

end Lexer

/-- The start of a tag stands in the input in capitals or not. A null character would be read as
one that is not in the name. -/
theorem Lexer.infix_of_step {lexer next : Lexer} {tokens : List Token} {foreign : Bool} {tag : Tag}
    (hok : lexer.step foreign = .ok (tokens, next)) (hmem : .startTag tag ∈ tokens)
    (hnull : replaceNull nullChar ∉ tag.name.toList) :
    '<' :: tag.name.toList <:+: lexer.input.map Text.asciiLowerChar := by
  obtain ⟨name, hbegins, hname⟩ := Lexer.exists_name_of_step hok hmem
  have hsame : name.map TagDraft.readNameChar = name.map Text.asciiLowerChar := by
    refine List.map_congr_left fun c hc => ?_
    have hread : TagDraft.readNameChar c ∈ tag.name.toList := hname ▸ List.mem_map_of_mem hc
    have hother : c ≠ nullChar := by
      rintro rfl
      exact hnull hread
    rw [TagDraft.readNameChar, replaceNull, if_neg hother]
  have hlower : ('<' :: name).map Text.asciiLowerChar = '<' :: tag.name.toList := by
    rw [List.map_cons, ← hsame, ← hname]
    rfl
  have hwritten := (hbegins.map Text.asciiLowerChar).isInfix
  rwa [hlower] at hwritten

/-! ## Frame sets -/

/-- Does the start of a tag of a frame set stand somewhere in a text, in capitals or not? -/
def MentionsFrames (input : List Char) : Prop :=
  "<frameset".toList <:+: input.map Text.asciiLowerChar

instance (input : List Char) : Decidable (MentionsFrames input) :=
  inferInstanceAs (Decidable ("<frameset".toList <:+: input.map Text.asciiLowerChar))

theorem MentionsFrames.of_suffix {rest input : List Char} (hrest : MentionsFrames rest)
    (hsuffix : rest <:+ input) : MentionsFrames input :=
  hrest.trans (hsuffix.map Text.asciiLowerChar).isInfix

theorem mentionsFrames_of_unifyLineEnds {input : List Char}
    (hunified : MentionsFrames (Text.unifyLineEnds input)) : MentionsFrames input :=
  Text.infix_of_unifyLineEnds (by decide) (by decide) hunified

/-- The tag of a frame set is read of a text that mentions one. -/
theorem Lexer.mentionsFrames_of_step {lexer next : Lexer} {tokens : List Token} {foreign : Bool}
    {tag : Tag} (hok : lexer.step foreign = .ok (tokens, next)) (hmem : .startTag tag ∈ tokens)
    (hframes : tag.name = "frameset") : MentionsFrames lexer.input := by
  have hwritten := Lexer.infix_of_step hok hmem (by rw [hframes]; decide)
  rwa [hframes] at hwritten

/-!
## The content model after a step

Only a tag changes what counts as markup: after it everything does. A start tag is read in markup
only, and nothing but the problems in it is told before it.
-/

/-- A start tag with nothing but problems before it. -/
def IsStart (tokens : List Token) : Prop :=
  ∃ front tag, tokens = front ++ [.startTag tag] ∧
    ∀ token ∈ front, ∃ problem, token = .problem problem

namespace Lexer

variable {lexer next : Lexer} {tokens : List Token} {input : List Char} {foreign : Bool}

end Lexer

end Winnow.Html
