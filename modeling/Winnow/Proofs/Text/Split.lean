import Winnow.Text.Blank

/-!
# Segments and words of texts
-/

namespace Winnow.Text

variable {sep : Char}

theorem exists_splitAt (sep : Char) (cs : List Char) :
    ∃ segment rest, splitAt sep cs = segment :: rest := by
  induction cs with
  | nil => exact ⟨[], [], rfl⟩
  | cons c cs ih =>
      obtain ⟨segment, rest, heq⟩ := ih
      rw [splitAt, heq]
      split
      · exact ⟨[], _, rfl⟩
      · exact ⟨c :: segment, rest, rfl⟩

theorem splitAt_cons_self (cs : List Char) : splitAt sep (sep :: cs) = [] :: splitAt sep cs :=
  if_pos rfl

theorem splitAt_cons_of_ne {c : Char} (hc : c ≠ sep) {cs segment : List Char}
    {rest : List (List Char)} (heq : splitAt sep cs = segment :: rest) :
    splitAt sep (c :: cs) = (c :: segment) :: rest := by
  rw [splitAt, if_neg hc, heq]

/-- What holds no separator belongs to the first segment. -/
theorem splitAt_append {front : List Char} (hfront : sep ∉ front) {cs segment : List Char}
    {rest : List (List Char)} (heq : splitAt sep cs = segment :: rest) :
    splitAt sep (front ++ cs) = (front ++ segment) :: rest := by
  induction front with
  | nil => exact heq
  | cons c front ih =>
      have hc : c ≠ sep := fun h => hfront (h ▸ List.mem_cons_self)
      exact splitAt_cons_of_ne hc (ih fun h => hfront (List.mem_cons_of_mem _ h))

/-- The segments with separators between them are the text. -/
theorem join_splitAt (cs : List Char) :
    joinWith [sep] (splitAt sep cs) = cs := by
  induction cs with
  | nil => rfl
  | cons c cs ih =>
      obtain ⟨segment, rest, heq⟩ := exists_splitAt sep cs
      by_cases hc : c = sep
      · subst hc
        rw [splitAt_cons_self, heq, joinWith, ← heq, ih]
        · rfl
        · simp
      · rw [splitAt_cons_of_ne hc heq]
        rw [heq] at ih
        cases rest with
        | nil => exact congrArg (c :: ·) ih
        | cons other others =>
            rw [joinWith] at ih ⊢
            · exact congrArg (c :: ·) ih
            all_goals simp

/-- Segments without separators are what their joined text is split into. -/
theorem splitAt_joinWith {segments : List (List Char)} (hne : segments ≠ [])
    (hsegments : ∀ segment ∈ segments, sep ∉ segment) :
    splitAt sep (joinWith [sep] segments) = segments := by
  induction segments using joinWith.induct with
  | case1 => exact absurd rfl hne
  | case2 segment =>
      have hempty : splitAt sep [] = [[]] := rfl
      have hsplit := splitAt_append (hsegments segment List.mem_cons_self) hempty
      rwa [List.append_nil] at hsplit
  | case3 segment rest hrest ih =>
      obtain ⟨hsegment, hothers⟩ := List.forall_mem_cons.mp hsegments
      have hsplit := @splitAt_cons_self sep (joinWith [sep] rest)
      rw [ih hrest hothers] at hsplit
      rw [joinWith, List.append_assoc, List.singleton_append, splitAt_append hsegment hsplit,
        List.append_nil]
      exact hrest

/-- The first segment is the start of the text, and all others are parts of it. -/
theorem parts_of_splitAt {cs segment : List Char} {rest : List (List Char)}
    (heq : splitAt sep cs = segment :: rest) :
    segment <+: cs ∧ ∀ other ∈ rest, other <:+: cs := by
  induction cs generalizing segment rest with
  | nil =>
      cases heq
      exact ⟨List.nil_prefix, by simp⟩
  | cons c cs ih =>
      obtain ⟨first, others, hsplit⟩ := exists_splitAt sep cs
      obtain ⟨hfirst, hothers⟩ := ih hsplit
      by_cases hc : c = sep
      · subst hc
        rw [splitAt_cons_self, hsplit] at heq
        cases heq
        refine ⟨List.nil_prefix, List.forall_mem_cons.mpr ⟨?_, fun other hmem => ?_⟩⟩
        · exact List.infix_cons hfirst.isInfix
        · exact List.infix_cons (hothers other hmem)
      · rw [splitAt_cons_of_ne hc hsplit] at heq
        cases heq
        exact ⟨List.cons_prefix_cons.mpr ⟨rfl, hfirst⟩,
          fun other hmem => List.infix_cons (hothers other hmem)⟩

theorem isInfix_of_mem_splitAt {cs segment : List Char} (hmem : segment ∈ splitAt sep cs) :
    segment <:+: cs := by
  obtain ⟨first, rest, heq⟩ := exists_splitAt sep cs
  obtain ⟨hfirst, hrest⟩ := parts_of_splitAt heq
  rw [heq] at hmem
  rcases List.mem_cons.mp hmem with rfl | hmem
  · exact hfirst.isInfix
  · exact hrest segment hmem

theorem not_mem_of_mem_splitAt {cs segment : List Char} (hmem : segment ∈ splitAt sep cs) :
    sep ∉ segment := by
  induction cs generalizing segment with
  | nil => simp_all [splitAt]
  | cons c cs ih =>
      obtain ⟨first, others, hsplit⟩ := exists_splitAt sep cs
      rw [hsplit] at ih
      by_cases hc : c = sep
      · subst hc
        rw [splitAt_cons_self, hsplit] at hmem
        rcases List.mem_cons.mp hmem with rfl | hmem
        · exact List.not_mem_nil
        · exact ih hmem
      · rw [splitAt_cons_of_ne hc hsplit] at hmem
        rcases List.mem_cons.mp hmem with rfl | hmem
        · exact List.not_mem_cons_of_ne_of_not_mem (Ne.symm hc) (ih List.mem_cons_self)
        · exact ih (List.mem_cons_of_mem _ hmem)

theorem mem_of_mem_joinWith {separator : List Char} {segments : List (List Char)} {c : Char}
    (hmem : c ∈ joinWith separator segments) :
    c ∈ separator ∨ ∃ segment ∈ segments, c ∈ segment := by
  induction segments using joinWith.induct with
  | case1 => cases hmem
  | case2 segment => exact Or.inr ⟨segment, List.mem_singleton_self _, hmem⟩
  | case3 segment rest hrest ih =>
      rw [joinWith, List.mem_append, List.mem_append] at hmem
      · rcases hmem with (hmem | hmem) | hmem
        · exact Or.inr ⟨segment, List.mem_cons_self, hmem⟩
        · exact Or.inl hmem
        · refine (ih hmem).imp_right ?_
          rintro ⟨other, hother, hmem⟩
          exact ⟨other, List.mem_cons_of_mem _ hother, hmem⟩
      · exact hrest

/-! ## Words -/

/-- A text that starts with no blank starts with its first word. -/
theorem exists_words_of_not_blank {c : Char} (hc : isBlank c = false) (cs : List Char) :
    ∃ word rest, words (c :: cs) = word :: rest ∧ word <+: c :: cs := by
  induction cs generalizing c with
  | nil => exact ⟨[c], [], by simp [words, hc], List.prefix_rfl⟩
  | cons d ds ih =>
      rw [words, if_neg (by simp [hc])]
      cases hd : isBlank d with
      | true => exact ⟨[c], words (d :: ds), if_pos rfl, by simp⟩
      | false =>
          obtain ⟨word, rest, hwords, hprefix⟩ := ih hd
          refine ⟨c :: word, rest, ?_, List.cons_prefix_cons.mpr ⟨rfl, hprefix⟩⟩
          rw [if_neg Bool.false_ne_true, hwords]

theorem words_cons_of_blank {c : Char} (hc : isBlank c = true) (cs : List Char) :
    words (c :: cs) = words cs := by
  cases cs with
  | nil => exact if_pos hc
  | cons d ds => exact if_pos hc

theorem isInfix_of_head?_words {cs word : List Char} (hword : (words cs).head? = some word) :
    word <:+: cs := by
  induction cs with
  | nil => cases hword
  | cons c cs ih =>
      cases hc : isBlank c with
      | true =>
          rw [words_cons_of_blank hc] at hword
          exact List.infix_cons (ih hword)
      | false =>
          obtain ⟨first, rest, hwords, hprefix⟩ := exists_words_of_not_blank hc cs
          rw [hwords] at hword
          cases hword
          exact hprefix.isInfix

end Winnow.Text
