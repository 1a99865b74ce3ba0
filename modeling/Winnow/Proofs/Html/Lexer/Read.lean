import Winnow.Proofs.Html.Source.Builder
import Winnow.Proofs.Html.Lexer.Comment
import Winnow.Proofs.Html.Lexer.Name

/-!
# Whatever is read

Of any text only well-formed names in lower case and texts that may stand in comments are read.
-/

namespace Winnow.Html

/-- What may be read of any text. -/
def Source.lexed : Source where
  tag name := IsTagName name.toList ∧ IsLower name.toList
  pair name _ := IsFieldName name.toList ∧ IsLower name.toList
  comment data := IsComment data.toList

namespace TagDraft

theorem yields_problemTokens (source : Source) (draft : TagDraft) :
    ∀ token ∈ draft.problemTokens, source.Yields False token := by
  intro token hmem
  obtain ⟨problem, -, rfl⟩ := List.mem_map.mp hmem
  trivial

theorem yields_cutOff (source : Source) (draft : TagDraft) :
    ∀ token ∈ draft.cutOff, source.Yields False token :=
  yields_problemTokens source _

/-- An end tag says nothing that has to come from a source. -/
theorem yields_tokens_of_end (source : Source) (draft : TagDraft) :
    ∀ token ∈ draft.tokens true, source.Yields False token := by
  intro token hmem
  rcases List.mem_append.mp hmem with hfront | hend
  · rcases List.mem_append.mp hfront with hproblem | hextra
    · exact yields_problemTokens source draft token hproblem
    · have hother : token = .problem .other := by
        rcases List.mem_append.mp hextra with hfields | hclosing
        · split at hfields
          · cases hfields
          · exact List.mem_singleton.mp hfields
        · split at hclosing
          · exact List.mem_singleton.mp hclosing
          · cases hclosing
      cases hother
      trivial
  · cases List.mem_singleton.mp hend
    trivial

theorem Sound.writes {draft : TagDraft} (hsound : draft.Sound) : Source.lexed.Writes {
    name := draft.tagNameText
    attributes := Assoc.ofPairsFirst draft.attributeList
    selfClosing := draft.selfClosing } where
  named := by
    change IsTagName (String.ofList _).toList ∧ IsLower (String.ofList _).toList
    rw [String.toList_ofList]
    exact ⟨hsound.name, hsound.lower⟩
  pairs entry hmem := by
    obtain ⟨field, hfield, rfl⟩ := List.mem_map.mp (Assoc.mem_of_mem_ofPairsFirst hmem)
    change IsFieldName (String.ofList _).toList ∧ IsLower (String.ofList _).toList
    rw [String.toList_ofList]
    exact hsound.fields field (List.mem_reverse.mp hfield)

theorem Sound.yields_tokens {draft : TagDraft} (hsound : draft.Sound) :
    ∀ token ∈ draft.tokens false, Source.lexed.Yields False token := by
  intro token hmem
  rcases List.mem_append.mp hmem with hproblem | htag
  · exact yields_problemTokens _ draft token hproblem
  · cases List.mem_singleton.mp htag
    exact ⟨hsound.writes, fun h => h.elim⟩

/-- Reading a tag ends with the tokens of a draft, or the input ends first. -/
theorem exists_of_run {expand isEnd : Bool} {draft : TagDraft} {taken : Nat}
    {input rest : List Char} {tokens : List Token}
    (hok : run expand isEnd draft taken input = .ok (tokens, rest)) :
    ∃ final : TagDraft, (draft.Sound → final.Sound) ∧
      (tokens = final.tokens isEnd ∨ tokens = final.cutOff ∧ rest = []) := by
  induction input generalizing draft taken with
  | nil =>
      cases hok
      exact ⟨draft, id, Or.inr ⟨rfl, rfl⟩⟩
  | cons c cs ih =>
      cases taken with
      | succ taken => exact ih hok
      | zero =>
          rw [run] at hok
          split at hok
          next => cases hok
          next final hstep =>
            cases hok
            exact ⟨final, fun hsound => hsound.step expand c _ hstep, Or.inl rfl⟩
          next onward also hstep =>
            obtain ⟨final, hfinal, htokens⟩ := ih hok
            exact ⟨final, fun hsound => hfinal (hsound.step expand c _ hstep), htokens⟩

end TagDraft

/-! ## Steps of the lexer -/

namespace Lexer

variable {lexer next : Lexer} {tokens : List Token} {input : List Char} {foreign : Bool}

theorem yields_of_readTag_end (source : Source) {draft : TagDraft}
    (hok : lexer.readTag true draft input = .ok (tokens, next)) :
    ∀ token ∈ tokens, source.Yields False token := by
  obtain ⟨read, hrun, hresult⟩ := Fault.exists_of_bind_eq_ok hok
  cases hresult
  obtain ⟨final, -, hend | ⟨hcut, -⟩⟩ := TagDraft.exists_of_run hrun
  · exact hend ▸ TagDraft.yields_tokens_of_end source final
  · exact hcut ▸ TagDraft.yields_cutOff source final

theorem yields_of_readTag_start {c : Char} (hc : Text.isAsciiLetter c = true)
    (hok : lexer.readTag false { name := [Text.asciiLowerChar c] } input = .ok (tokens, next)) :
    ∀ token ∈ tokens, Source.lexed.Yields False token := by
  have hsound : TagDraft.Sound { name := [Text.asciiLowerChar c] } := by
    refine ⟨⟨_, [], rfl, isAsciiLetter_asciiLowerChar c hc, fun d hd => by cases hd⟩, ?_, ?_⟩
    · exact isLower_nil.snoc c
    · exact fun entry hmem => by cases hmem
  obtain ⟨read, hrun, hresult⟩ := Fault.exists_of_bind_eq_ok hok
  cases hresult
  obtain ⟨final, hfinal, htag | ⟨hcut, -⟩⟩ := TagDraft.exists_of_run hrun
  · exact htag ▸ (hfinal hsound).yields_tokens
  · exact hcut ▸ TagDraft.yields_cutOff _ final

theorem yields_singleton {source : Source} {token : Token} (hyields : source.Yields False token) :
    ∀ other ∈ [token], source.Yields False other := by
  intro other hmem
  exact List.mem_singleton.mp hmem ▸ hyields

theorem yields_pair {source : Source} {first second : Token}
    (hfirst : source.Yields False first) (hsecond : source.Yields False second) :
    ∀ other ∈ [first, second], source.Yields False other := by
  intro other hmem
  rcases List.mem_cons.mp hmem with rfl | hrest
  · exact hfirst
  · exact yields_singleton hsecond other hrest

theorem isComment_toList_ofList {data : List Char} (hdata : IsComment data) :
    Source.lexed.comment (String.ofList data) := by
  change IsComment (String.ofList data).toList
  rwa [String.toList_ofList]

theorem yields_of_readDeclaration
    (hread : lexer.readDeclaration foreign input = (tokens, next)) :
    ∀ token ∈ tokens, Source.lexed.Yields False token := by
  unfold readDeclaration at hread
  split at hread
  next cs =>
    cases hread
    exact yields_singleton (isComment_toList_ofList (isComment_of_readComment cs))
  next =>
    split at hread
    next =>
      cases hread
      exact yields_singleton trivial
    next =>
      split at hread
      next =>
        cases hread
        intro token hmem
        split at hmem
        next => cases hmem
        next =>
          cases List.mem_singleton.mp hmem
          trivial
      next =>
        cases hread
        exact yields_pair trivial (isComment_toList_ofList (isComment_readBogusComment _))

theorem yields_of_readMarkup (hok : lexer.readMarkup foreign input = .ok (tokens, next)) :
    ∀ token ∈ tokens, Source.lexed.Yields False token := by
  unfold readMarkup at hok
  split at hok
  next => exact yields_of_readDeclaration (Except.ok.inj hok)
  next c cs =>
    split at hok
    next => exact yields_of_readTag_end _ hok
    next =>
      split at hok
      next =>
        cases hok
        exact yields_singleton trivial
      next =>
        cases hok
        exact yields_pair trivial (isComment_toList_ofList (isComment_readBogusComment _))
  next =>
    cases hok
    exact yields_pair trivial trivial
  next =>
    cases hok
    exact yields_pair trivial trivial
  next cs =>
    cases hok
    have hcomment := isComment_readBogusComment ('?' :: cs)
    exact yields_pair trivial (isComment_toList_ofList hcomment)
  next =>
    split at hok
    next hletter => exact yields_of_readTag_start hletter hok
    next =>
      cases hok
      exact yields_pair trivial trivial
  next =>
    cases hok
    exact yields_pair trivial trivial

theorem yields_ofReference (source : Source) (text : List Char) :
    source.Yields False (.ofReference text) := by
  unfold Token.ofReference
  split
  · split
    · trivial
    · trivial
  · trivial

theorem yields_of_readReference (source : Source)
    (hok : lexer.readReference input = .ok (tokens, next)) :
    ∀ token ∈ tokens, source.Yields False token := by
  unfold readReference at hok
  split at hok
  next =>
    obtain ⟨read, -, hresult⟩ := Fault.exists_of_bind_eq_ok hok
    cases hresult
    exact yields_singleton (yields_ofReference source _)
  next =>
    cases hok
    exact yields_singleton trivial

theorem yields_of_readText (source : Source) {ends : Char → Bool} {c : Char}
    (hread : lexer.readText ends c input = (tokens, next)) :
    ∀ token ∈ tokens, source.Yields False token := by
  unfold readText at hread
  split at hread
  next =>
    cases hread
    exact yields_singleton trivial
  next =>
    cases hread
    exact yields_singleton trivial

theorem yields_of_readRawBracket (source : Source)
    (hok : lexer.readRawBracket input = .ok (tokens, next)) :
    ∀ token ∈ tokens, source.Yields False token := by
  unfold readRawBracket at hok
  split at hok
  next => exact yields_of_readTag_end source hok
  next =>
    cases hok
    exact yields_singleton trivial

/-- Outside markup nothing is read that has to come from a source. -/
theorem yields_of_step_text (source : Source) (hmodel : lexer.model ≠ .markup)
    (hok : lexer.step foreign = .ok (tokens, next)) :
    ∀ token ∈ tokens, source.Yields False token := by
  unfold step at hok
  split at hok
  next =>
    cases hok
    exact fun token hmem => by cases hmem
  next c cs _ =>
    split at hok
    next heq => exact absurd heq hmodel
    next =>
      split at hok
      next => exact yields_of_readReference source hok
      next =>
        split at hok
        next => exact yields_of_readRawBracket source hok
        next =>
          split at hok
          next =>
            cases hok
            exact yields_pair trivial trivial
          next => exact yields_of_readText source (Except.ok.inj hok)
    next =>
      split at hok
      next => exact yields_of_readRawBracket source hok
      next =>
        cases hok
        exact yields_singleton trivial
    next =>
      dsimp only at hok
      split at hok
      next => exact yields_of_readRawBracket source hok
      next =>
        cases hok
        exact yields_singleton trivial
    next =>
      cases hok
      exact yields_singleton trivial

theorem yields_of_step (hok : lexer.step foreign = .ok (tokens, next)) :
    ∀ token ∈ tokens, Source.lexed.Yields False token := by
  by_cases hmodel : lexer.model = .markup
  · unfold step at hok
    rw [hmodel] at hok
    split at hok
    next =>
      cases hok
      exact fun token hmem => by cases hmem
    next c cs _ =>
      dsimp only at hok
      split at hok
      next => exact yields_of_readReference _ hok
      next =>
        split at hok
        next => exact yields_of_readMarkup hok
        next =>
          split at hok
          next =>
            cases hok
            exact yields_pair trivial trivial
          next => exact yields_of_readText _ (Except.ok.inj hok)
  · exact yields_of_step_text _ hmodel hok

end Lexer

/-- Whatever text is read, names and comments are well formed. -/
theorem Source.steady_lexed : Source.lexed.Steady fun _ => True where
  yields _ hstep := Lexer.yields_of_step hstep
  step _ _ := trivial
  asked _ _ _ _ := trivial

/-! ## Names are not empty -/

theorem restoreCase_ne_empty {known : List String} (hknown : ∀ name ∈ known, name ≠ "")
    {name : String} (hname : name ≠ "") : Vocabulary.restoreCase known name ≠ "" :=
  Vocabulary.restoreCase_cases (p := fun name => name ≠ "") hknown hname

theorem Source.GivesTag.ne_empty {tag : String} (htag : Source.lexed.GivesTag tag) : tag ≠ "" := by
  have hmadeTags : ∀ tag ∈ madeTags, tag ≠ "" := by decide
  rcases htag with hmade | ⟨name, ⟨hname, -⟩, rfl | rfl⟩
  · exact hmadeTags tag hmade
  · exact hname.ne_empty
  · exact restoreCase_ne_empty (by decide) hname.ne_empty

theorem Source.GivesPair.ne_empty {name value : String}
    (hpair : Source.lexed.GivesPair name value) : name ≠ "" := by
  rcases hpair with ⟨rfl, -⟩ | ⟨plain, ⟨hplain, -⟩, hform⟩
  · decide
  · simp only [attributeForms, List.mem_cons, List.not_mem_nil, or_false] at hform
    rcases hform with rfl | rfl | rfl
    · exact hplain.ne_empty
    · exact restoreCase_ne_empty (by decide) hplain.ne_empty
    · exact restoreCase_ne_empty (by decide) hplain.ne_empty

theorem Source.GivesAttribute.ne_empty {entry : String × Option String}
    (hentry : Source.lexed.GivesAttribute entry) : entry.1 ≠ "" := by
  obtain ⟨name, value, hpair, -, heq | ⟨hexpands, -⟩⟩ := hentry
  · rw [heq]
    exact hpair.ne_empty
  · exact hexpands.elim

end Winnow.Html
