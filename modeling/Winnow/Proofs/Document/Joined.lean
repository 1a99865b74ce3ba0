import Winnow.Proofs.Store.FromTree

/-!
# Neighbouring text nodes

Where text nodes are joined, a text that falls into several nodes is one with the text in a
single node, and a change of attributes is the same before and after joining.
-/

namespace Winnow.Tree

/-! ## Joining at the front of a list -/

section Front

variable {label next : Label} (children : List Tree) {below rest others : List Tree}

theorem joinText_cons_of_nil (hrest : joinText rest = []) :
    joinText (node label children :: rest) = [node label children] := by
  rw [joinText, hrest]

theorem joinText_cons_of_texts (hrest : joinText rest = node next below :: others)
    (hlabel : label.isText = true) (hnext : next.isText = true) :
    joinText (node label children :: rest) =
      node { label with text := label.text ++ next.text } children :: others := by
  rw [joinText, hrest]
  exact if_pos (by rw [hlabel, hnext]; rfl)

theorem joinText_cons_of_not_texts (hrest : joinText rest = node next below :: others)
    (hnot : label.isText = false ∨ next.isText = false) :
    joinText (node label children :: rest) =
      node label children :: node next below :: others := by
  rw [joinText, hrest]
  refine if_neg ?_
  rcases hnot with hlabel | hnext
  · simp [hlabel]
  · simp [hnext]

/-- A node that is no text is joined to nothing. -/
theorem joinText_cons_of_not_text (htext : label.isText = false) :
    joinText (node label children :: rest) = node label children :: joinText rest := by
  cases hrest : joinText rest with
  | nil => exact joinText_cons_of_nil children hrest
  | cons tree others =>
      obtain ⟨next, below⟩ := tree
      exact joinText_cons_of_not_texts children hrest (Or.inl htext)

end Front

/-- Two texts next to each other are joined as the text of both. -/
theorem joinText_ofText_cons (first second : String) (rest : List Tree) :
    joinText (ofText first :: ofText second :: rest) =
      joinText (ofText (first ++ second) :: rest) := by
  unfold ofText
  cases hrest : joinText rest with
  | nil =>
      rw [joinText_cons_of_texts _ (joinText_cons_of_nil _ hrest) rfl rfl,
        joinText_cons_of_nil _ hrest]
      rfl
  | cons tree others =>
      obtain ⟨next, below⟩ := tree
      cases hnext : next.isText with
      | true =>
          rw [joinText_cons_of_texts _ (joinText_cons_of_texts _ hrest rfl hnext) rfl rfl,
            joinText_cons_of_texts _ hrest rfl hnext]
          simp [Label.ofText, String.append_assoc]
      | false =>
          have hnot := Or.inr (a := (Label.ofText second).isText = false) hnext
          rw [joinText_cons_of_texts _ (joinText_cons_of_not_texts _ hrest hnot) rfl rfl,
            joinText_cons_of_not_texts _ hrest (Or.inr hnext)]
          rfl

/-! ## Text in pieces -/

/-- Characters as a text node, if there are any. -/
def ofChars : List Char → List Tree
  | [] => []
  | c :: cs => [ofText (String.ofList (c :: cs))]

theorem ofChars_of_ne {cs : List Char} (hne : cs ≠ []) :
    ofChars cs = [ofText (String.ofList cs)] := by
  cases cs with
  | nil => exact absurd rfl hne
  | cons c cs => rfl

/-- Text before a text node is joined to it. -/
theorem joinText_ofChars_cons (cs : List Char) {text : String} (hne : text ≠ "")
    (rest : List Tree) : joinText (ofChars cs ++ ofText text :: rest) =
      joinText (ofChars (cs ++ text.toList) ++ rest) := by
  have hchars : text.toList ≠ [] := fun hnil => hne (String.toList_eq_nil_iff.mp hnil)
  cases cs with
  | nil =>
      rw [List.nil_append, ofChars_of_ne hchars, String.ofList_toList]
      rfl
  | cons c cs =>
      rw [ofChars_of_ne (List.append_ne_nil_of_right_ne_nil _ hchars), ofChars_of_ne (by simp),
        List.singleton_append, joinText_ofText_cons, String.ofList_append, String.ofList_toList]
      rfl

/-- Pieces of text are joined to the whole text. -/
theorem joinText_map_ofText {texts : List String} (hne : ∀ text ∈ texts, text ≠ "")
    (rest : List Tree) : joinText (texts.map ofText ++ rest) =
      joinText (ofChars (texts.flatMap String.toList) ++ rest) := by
  have hpieces : ∀ cs : List Char, joinText (ofChars cs ++ (texts.map ofText ++ rest)) =
      joinText (ofChars (cs ++ texts.flatMap String.toList) ++ rest) := by
    induction texts with
    | nil => simp
    | cons text texts ih =>
        intro cs
        have hlater := ih fun other hmem => hne other (List.mem_cons_of_mem _ hmem)
        rw [List.map_cons, List.cons_append, joinText_ofChars_cons cs (hne text List.mem_cons_self),
          hlater, List.flatMap_cons, List.append_assoc]
  exact hpieces []

/-- Text before a node that is no text stays as it is. -/
theorem joinText_ofChars_cons_of_not_text {label : Label} (htext : label.isText = false)
    (cs : List Char) (children rest : List Tree) :
    joinText (ofChars cs ++ node label children :: rest) =
      ofChars cs ++ node label children :: joinText rest := by
  cases cs with
  | nil => exact joinText_cons_of_not_text _ htext
  | cons c cs =>
      exact joinText_cons_of_not_texts _ (joinText_cons_of_not_text _ htext) (Or.inr htext)

/-! ## Joining everywhere -/

theorem normalizeAll_append (front back : List Tree) :
    normalizeAll (front ++ back) = normalizeAll front ++ normalizeAll back := by
  induction front with
  | nil => rfl
  | cons tree rest ih => rw [List.cons_append, normalizeAll, ih, normalizeAll, List.cons_append]

theorem normalize_ofText (text : String) : (ofText text).normalize = ofText text := rfl

theorem normalizeAll_map_ofText (texts : List String) :
    normalizeAll (texts.map ofText) = texts.map ofText := by
  induction texts with
  | nil => rfl
  | cons text texts ih => rw [List.map_cons, normalizeAll, ih, normalize_ofText]

/-- What pieces of text, an element and more are joined to. -/
theorem joinText_normalizeAll_pieces {texts : List String} (hne : ∀ text ∈ texts, text ≠ "")
    {label : Label} (htext : label.isText = false) (inner outer : List Tree) :
    joinText (normalizeAll (texts.map ofText ++ node label inner :: outer)) =
      ofChars (texts.flatMap String.toList) ++
        node label (joinText (normalizeAll inner)) :: joinText (normalizeAll outer) := by
  rw [normalizeAll_append, normalizeAll_map_ofText, normalizeAll, normalize,
    joinText_map_ofText hne, joinText_ofChars_cons_of_not_text htext]

/-! ## A change of attributes -/

mutual

/-- The tree with the attributes of every node changed. -/
def withAttributes (change : Attributes → Attributes) : Tree → Tree
  | node label children =>
    node { label with attributes := change label.attributes } (withAttributesAll change children)

/-- `withAttributes` on every tree of a forest. -/
def withAttributesAll (change : Attributes → Attributes) : List Tree → List Tree
  | [] => []
  | tree :: rest => withAttributes change tree :: withAttributesAll change rest

end

section Change

variable (change : Attributes → Attributes)

theorem withAttributesAll_append (front back : List Tree) :
    withAttributesAll change (front ++ back) =
      withAttributesAll change front ++ withAttributesAll change back := by
  induction front with
  | nil => rfl
  | cons tree rest ih =>
      rw [List.cons_append, withAttributesAll, ih, withAttributesAll, List.cons_append]

theorem withAttributes_ofText (hempty : change [] = []) (text : String) :
    withAttributes change (ofText text) = ofText text := by
  have hlabel : ({ Label.ofText text with attributes := change [] } : Label) = .ofText text := by
    rw [hempty]
    rfl
  rw [ofText, withAttributes, withAttributesAll]
  exact congrArg (node · []) hlabel

theorem withAttributesAll_ofChars (hempty : change [] = []) (cs : List Char) :
    withAttributesAll change (ofChars cs) = ofChars cs := by
  cases cs with
  | nil => rfl
  | cons c cs =>
      rw [ofChars, withAttributesAll, withAttributes_ofText change hempty, withAttributesAll]

theorem joinText_withAttributesAll (forest : List Tree) :
    joinText (withAttributesAll change forest) = withAttributesAll change (joinText forest) := by
  induction forest with
  | nil => rfl
  | cons tree rest ih =>
      obtain ⟨label, children⟩ := tree
      rw [withAttributesAll, withAttributes]
      cases hrest : joinText rest with
      | nil =>
          rw [hrest, withAttributesAll] at ih
          rw [joinText_cons_of_nil _ hrest, joinText_cons_of_nil _ ih]
          rfl
      | cons first others =>
          obtain ⟨next, below⟩ := first
          rw [hrest, withAttributesAll, withAttributes] at ih
          have hsame : ({ label with attributes := change label.attributes } : Label).isText =
            label.isText := rfl
          by_cases hboth : label.isText = true ∧ next.isText = true
          · have hjoined := joinText_cons_of_texts (withAttributesAll change children) ih
              (hsame.trans hboth.1) hboth.2
            rw [joinText_cons_of_texts _ hrest hboth.1 hboth.2]
            exact hjoined
          · have hnot : label.isText = false ∨ next.isText = false := by
              simpa [Classical.or_iff_not_imp_left] using hboth
            have hapart := joinText_cons_of_not_texts (withAttributesAll change children) ih
              (hnot.imp_left hsame.trans)
            rw [joinText_cons_of_not_texts _ hrest hnot]
            exact hapart

theorem normalizeAll_withAttributesAll (forest : List Tree) :
    normalizeAll (withAttributesAll change forest) =
      withAttributesAll change (normalizeAll forest) := by
  induction forest using forest_induction with
  | nil => rfl
  | cons label children rest ihChildren ihRest =>
      rw [withAttributesAll, withAttributes, normalizeAll, normalize, ihChildren,
        joinText_withAttributesAll, ihRest]
      rfl

end Change

end Winnow.Tree
