import Winnow.Html.Lexer
import Winnow.Proofs.Assoc
import Winnow.Proofs.Fault
import Winnow.Proofs.Text.Lowercase

/-!
# Names that are read

The name of a tag starts with a letter, neither kind of name holds what would end it, and both
are in lower case.
-/

namespace Winnow.Html

/-- May a character be part of a name? -/
def isNameChar (c : Char) : Bool := !isSpace c && c != '/' && c != '>' && c != nullChar

/-- A name that a tag may have. -/
def IsTagName (name : List Char) : Prop :=
  ∃ c cs, name = c :: cs ∧ Text.isAsciiLetter c = true ∧ ∀ d ∈ cs, isNameChar d = true

/-- A name that an attribute may have. Only its first character may be an equals sign. -/
def IsFieldName (name : List Char) : Prop :=
  ∃ c cs, name = c :: cs ∧ isNameChar c = true ∧ ∀ d ∈ cs, isNameChar d = true ∧ d ≠ '='

theorem IsTagName.ne_empty {name : String} (hname : IsTagName name.toList) : name ≠ "" := by
  rintro rfl
  obtain ⟨c, cs, heq, -⟩ := hname
  cases heq

theorem IsFieldName.ne_empty {name : String} (hname : IsFieldName name.toList) : name ≠ "" := by
  rintro rfl
  obtain ⟨c, cs, heq, -⟩ := hname
  cases heq

/-- Is a name in lower case? -/
def IsLower (name : List Char) : Prop := ∀ c ∈ name, Text.asciiLowerChar c = c

theorem isNameChar_asciiLowerChar (c : Char) :
    isNameChar c = true → isNameChar (Text.asciiLowerChar c) = true :=
  Text.asciiLowerChar_cases (p := fun c d => isNameChar c = true → isNameChar d = true)
    (fun _ hc => hc) (by decide) c

theorem asciiLowerChar_ne_equals (c : Char) : c ≠ '=' → Text.asciiLowerChar c ≠ '=' :=
  Text.asciiLowerChar_cases (p := fun c d => c ≠ '=' → d ≠ '=') (fun _ hc => hc) (by decide) c

theorem isAsciiLetter_asciiLowerChar (c : Char) :
    Text.isAsciiLetter c = true → Text.isAsciiLetter (Text.asciiLowerChar c) = true :=
  Text.asciiLowerChar_cases
    (p := fun c d => Text.isAsciiLetter c = true → Text.isAsciiLetter d = true)
    (fun _ hc => hc) (by decide) c

theorem isNameChar_of_not {c : Char} (hspace : isSpace c ≠ true) (hslash : c ≠ '/')
    (hclose : c ≠ '>') (hnull : c ≠ nullChar) : isNameChar c = true := by
  simp [isNameChar, hspace, hslash, hclose, hnull]

theorem IsTagName.snoc {name : List Char} (hname : IsTagName name) {c : Char}
    (hc : isNameChar c = true) : IsTagName (name ++ [c]) := by
  obtain ⟨first, rest, rfl, hfirst, hrest⟩ := hname
  refine ⟨first, rest ++ [c], rfl, hfirst, fun d hmem => ?_⟩
  rcases List.mem_append.mp hmem with hold | hnew
  · exact hrest d hold
  · exact List.mem_singleton.mp hnew ▸ hc

theorem IsFieldName.snoc {name : List Char} (hname : IsFieldName name) {c : Char}
    (hc : isNameChar c = true) (hne : c ≠ '=') : IsFieldName (name ++ [c]) := by
  obtain ⟨first, rest, rfl, hfirst, hrest⟩ := hname
  refine ⟨first, rest ++ [c], rfl, hfirst, fun d hmem => ?_⟩
  rcases List.mem_append.mp hmem with hold | hnew
  · exact hrest d hold
  · exact List.mem_singleton.mp hnew ▸ ⟨hc, hne⟩

theorem isLower_nil : IsLower [] := fun _ hmem => by cases hmem

theorem IsLower.snoc {name : List Char} (hname : IsLower name) (c : Char) :
    IsLower (name ++ [Text.asciiLowerChar c]) := by
  intro d hmem
  rcases List.mem_append.mp hmem with hold | hnew
  · exact hname d hold
  · rw [List.mem_singleton.mp hnew, Text.asciiLowerChar_asciiLowerChar]

namespace TagDraft

/-- A draft whose names are such as may be read. -/
structure Sound (draft : TagDraft) : Prop where
  name : IsTagName draft.name.reverse
  lower : IsLower draft.name.reverse
  fields : ∀ entry ∈ draft.attributes, IsFieldName entry.1.reverse ∧ IsLower entry.1.reverse

namespace Sound

variable {draft : TagDraft} (hsound : draft.Sound)
include hsound

theorem of_same {other : TagDraft} (hname : other.name = draft.name)
    (hattributes : other.attributes = draft.attributes) : other.Sound where
  name := hname ▸ hsound.name
  lower := hname ▸ hsound.lower
  fields := hattributes ▸ hsound.fields

theorem addToTagName {c : Char} (hc : isNameChar c = true) :
    Sound { draft with name := Text.asciiLowerChar c :: draft.name } where
  name := by
    rw [List.reverse_cons]
    exact hsound.name.snoc (isNameChar_asciiLowerChar c hc)
  lower := by
    rw [List.reverse_cons]
    exact hsound.lower.snoc c
  fields := hsound.fields

theorem startAttribute {c : Char} (hc : isNameChar c = true) : (draft.startAttribute c).Sound where
  name := hsound.name
  lower := hsound.lower
  fields entry hmem := by
    rcases List.mem_cons.mp hmem with rfl | hold
    · refine ⟨⟨_, [], rfl, isNameChar_asciiLowerChar c hc, fun d hd => by cases hd⟩, ?_⟩
      exact isLower_nil.snoc c
    · exact hsound.fields entry hold

theorem addToName {c : Char} (hc : isNameChar c = true) (hne : c ≠ '=') :
    (draft.addToName c).Sound := by
  unfold TagDraft.addToName
  split
  next name value rest heq =>
    refine ⟨hsound.name, hsound.lower, fun entry hmem => ?_⟩
    rcases List.mem_cons.mp hmem with rfl | hold
    · obtain ⟨hfield, hlower⟩ := hsound.fields (name, value) (heq ▸ List.mem_cons_self)
      rw [List.reverse_cons]
      exact ⟨hfield.snoc (isNameChar_asciiLowerChar c hc) (asciiLowerChar_ne_equals c hne),
        hlower.snoc c⟩
    · exact hsound.fields entry (heq ▸ List.mem_cons_of_mem _ hold)
  next => exact hsound

theorem addToValue (text : List Char) : (draft.addToValue text).Sound := by
  unfold TagDraft.addToValue
  split
  next name value rest heq =>
    refine ⟨hsound.name, hsound.lower, fun entry hmem => ?_⟩
    rcases List.mem_cons.mp hmem with rfl | hold
    · exact hsound.fields (name, value) (heq ▸ List.mem_cons_self)
    · exact hsound.fields entry (heq ▸ List.mem_cons_of_mem _ hold)
  next => exact hsound

theorem leaveName : draft.leaveName.Sound := by
  unfold TagDraft.leaveName
  split
  · split
    · exact hsound.of_same rfl rfl
    · exact hsound
  · exact hsound

end Sound

/-- Does a step lead to a sound draft? -/
def Step.Sound : Step → Prop
  | .go draft _ => draft.Sound
  | .finish draft => draft.Sound

namespace Sound

variable {draft : TagDraft} (hsound : draft.Sound)
include hsound

theorem stepBeforeName (c : Char) : (TagDraft.stepBeforeName draft c).Sound := by
  unfold TagDraft.stepBeforeName
  split
  next => exact hsound.of_same rfl rfl
  next hspace =>
    split
    next => exact hsound
    next hclose =>
      split
      next => exact hsound.of_same rfl rfl
      next hslash =>
        have hnoted : ∀ problem, (draft.note problem).Sound := fun _ => hsound.of_same rfl rfl
        split
        next hquote =>
          have hnull : c ≠ nullChar := by
            rintro rfl
            cases hquote
          exact (hnoted _).startAttribute (isNameChar_of_not hspace hslash hclose hnull)
        next =>
          split
          next => exact (hnoted _).startAttribute (by decide)
          next hnull => exact hsound.startAttribute (isNameChar_of_not hspace hslash hclose hnull)

theorem stepReference (expand : Bool) (closing : Char) (rest : List Char) {step : Step}
    (hstep : TagDraft.stepReference expand draft closing rest = .ok step) : step.Sound := by
  unfold TagDraft.stepReference at hstep
  split at hstep
  next =>
    obtain ⟨read, -, hread⟩ := Fault.exists_of_bind_eq_ok hstep
    cases hread
    exact hsound.addToValue _
  next =>
    cases hstep
    exact hsound.addToValue _

theorem stepUnquoted (expand : Bool) (c : Char) (rest : List Char) {step : Step}
    (hstep : TagDraft.stepUnquoted expand draft c rest = .ok step) : step.Sound := by
  have hplaced : (draft.goto .unquoted).Sound := hsound.of_same rfl rfl
  have hnoted : ((draft.goto .unquoted).note .other).Sound := hsound.of_same rfl rfl
  unfold TagDraft.stepUnquoted at hstep
  dsimp only at hstep
  split at hstep
  next =>
    cases hstep
    exact hsound.of_same rfl rfl
  next =>
    split at hstep
    next => exact hplaced.stepReference _ _ _ hstep
    next =>
      split at hstep
      next =>
        cases hstep
        exact hplaced
      next =>
        split at hstep
        next =>
          cases hstep
          exact hnoted.addToValue _
        next =>
          split at hstep
          next =>
            cases hstep
            exact hnoted.addToValue _
          next =>
            cases hstep
            exact hplaced.addToValue _

/-- A character in the name of a tag. -/
theorem step_tagName (hplace : draft.place = .tagName) (expand : Bool) (c : Char)
    (rest : List Char) {step : Step} (hstep : TagDraft.step expand draft c rest = .ok step) :
    step.Sound := by
  unfold TagDraft.step at hstep
  rw [hplace] at hstep
  dsimp only at hstep
  split at hstep
  next =>
    cases hstep
    exact hsound.of_same rfl rfl
  next hspace =>
    split at hstep
    next =>
      cases hstep
      exact hsound
    next hclose =>
      split at hstep
      next =>
        cases hstep
        exact hsound.of_same rfl rfl
      next hslash =>
        split at hstep
        next =>
          cases hstep
          exact (hsound.addToTagName (c := replacement) (by decide)).of_same rfl rfl
        next hnull =>
          cases hstep
          have hc := isNameChar_of_not hspace hslash hclose hnull
          exact (hsound.addToTagName hc).of_same rfl rfl

/-- A character in the name of an attribute. -/
theorem step_name (hplace : draft.place = .name) (expand : Bool) (c : Char)
    (rest : List Char) {step : Step} (hstep : TagDraft.step expand draft c rest = .ok step) :
    step.Sound := by
  have hnoted : ∀ problem, (draft.note problem).Sound := fun _ => hsound.of_same rfl rfl
  have hleft : ∀ place, (draft.leaveName.goto place).Sound :=
    fun _ => hsound.leaveName.of_same rfl rfl
  unfold TagDraft.step at hstep
  rw [hplace] at hstep
  dsimp only at hstep
  split at hstep
  next =>
    cases hstep
    exact hleft _
  next hequals =>
    split at hstep
    next =>
      cases hstep
      exact hsound.leaveName
    next hclose =>
      split at hstep
      next =>
        cases hstep
        exact hleft _
      next hspace =>
        split at hstep
        next =>
          cases hstep
          exact hleft _
        next hslash =>
          split at hstep
          next =>
            cases hstep
            exact (hnoted _).addToName (by decide) (by decide)
          next hnull =>
            have hc := isNameChar_of_not hspace hslash hclose hnull
            split at hstep
            next =>
              cases hstep
              exact (hnoted _).addToName hc hequals
            next =>
              cases hstep
              exact hsound.addToName hc hequals

/-- A character after the name of an attribute. -/
theorem step_afterName (hplace : draft.place = .afterName) (expand : Bool) (c : Char)
    (rest : List Char) {step : Step} (hstep : TagDraft.step expand draft c rest = .ok step) :
    step.Sound := by
  have hnoted : ∀ problem, (draft.note problem).Sound := fun _ => hsound.of_same rfl rfl
  unfold TagDraft.step at hstep
  rw [hplace] at hstep
  dsimp only at hstep
  split at hstep
  next =>
    cases hstep
    exact hsound
  next hspace =>
    split at hstep
    next =>
      cases hstep
      exact hsound.of_same rfl rfl
    next =>
      split at hstep
      next =>
        cases hstep
        exact hsound
      next hclose =>
        split at hstep
        next =>
          cases hstep
          exact hsound.of_same rfl rfl
        next hslash =>
          split at hstep
          next =>
            cases hstep
            exact (hnoted _).startAttribute (by decide)
          next hnull =>
            have hc := isNameChar_of_not hspace hslash hclose hnull
            split at hstep
            next =>
              cases hstep
              exact (hnoted _).startAttribute hc
            next =>
              cases hstep
              exact hsound.startAttribute hc

/-- A character of a value, or before one. -/
theorem step_value (hplace : draft.place = .beforeValue ∨ ∃ quote, draft.place = .quoted quote)
    (expand : Bool) (c : Char) (rest : List Char) {step : Step}
    (hstep : TagDraft.step expand draft c rest = .ok step) : step.Sound := by
  have hnoted : ∀ problem, (draft.note problem).Sound := fun _ => hsound.of_same rfl rfl
  have hplaced : ∀ place, (draft.goto place).Sound := fun _ => hsound.of_same rfl rfl
  unfold TagDraft.step at hstep
  rcases hplace with hplace | ⟨quote, hplace⟩
  · rw [hplace] at hstep
    dsimp only at hstep
    split at hstep
    next =>
      cases hstep
      exact hsound
    next =>
      split at hstep
      next =>
        cases hstep
        exact hplaced _
      next =>
        split at hstep
        next =>
          cases hstep
          exact hnoted _
        next =>
          split at hstep
          next =>
            cases hstep
            have hunquoted : ((draft.note .other).goto .unquoted).Sound := hsound.of_same rfl rfl
            exact hunquoted.addToValue _
          next => exact hsound.stepUnquoted _ _ _ hstep
  · rw [hplace] at hstep
    dsimp only at hstep
    split at hstep
    next =>
      cases hstep
      exact hplaced _
    next =>
      split at hstep
      next => exact hsound.stepReference _ _ _ hstep
      next =>
        split at hstep
        next =>
          cases hstep
          exact (hnoted _).addToValue _
        next =>
          cases hstep
          exact hsound.addToValue _

theorem step (expand : Bool) (c : Char) (rest : List Char) {step : Step}
    (hstep : TagDraft.step expand draft c rest = .ok step) : step.Sound := by
  have hnoted : (draft.note .other).Sound := hsound.of_same rfl rfl
  cases hplace : draft.place with
  | tagName => exact hsound.step_tagName hplace expand c rest hstep
  | name => exact hsound.step_name hplace expand c rest hstep
  | afterName => exact hsound.step_afterName hplace expand c rest hstep
  | beforeValue => exact hsound.step_value (Or.inl hplace) expand c rest hstep
  | quoted quote => exact hsound.step_value (Or.inr ⟨quote, hplace⟩) expand c rest hstep
  | beforeName =>
      unfold TagDraft.step at hstep
      rw [hplace] at hstep
      cases hstep
      exact hsound.stepBeforeName c
  | unquoted =>
      unfold TagDraft.step at hstep
      rw [hplace] at hstep
      exact hsound.stepUnquoted _ _ _ hstep
  | afterValue =>
      unfold TagDraft.step at hstep
      rw [hplace] at hstep
      dsimp only at hstep
      split at hstep
      next =>
        cases hstep
        exact hsound.of_same rfl rfl
      next =>
        split at hstep
        next =>
          cases hstep
          exact hsound
        next =>
          split at hstep
          next =>
            cases hstep
            exact hsound.of_same rfl rfl
          next =>
            cases hstep
            exact hnoted.stepBeforeName c
  | solidus =>
      unfold TagDraft.step at hstep
      rw [hplace] at hstep
      dsimp only at hstep
      split at hstep
      next =>
        cases hstep
        exact hsound.of_same rfl rfl
      next =>
        cases hstep
        exact hnoted.stepBeforeName c

end Sound

end TagDraft

end Winnow.Html
