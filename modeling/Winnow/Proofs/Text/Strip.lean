import Mathlib.Data.List.DropRight
import Winnow.Text.Blank

/-!
# Trimmed texts

Blanks at the ends of a text do not change what is left when it is trimmed.
-/

namespace Winnow.Text

variable {p : Char → Bool}

theorem dropEndWhile_append_of_pos {front back : List Char} (hback : ∀ c ∈ back, p c = true) :
    dropEndWhile p (front ++ back) = dropEndWhile p front := by
  rw [dropEndWhile, List.reverse_append,
    List.dropWhile_append_of_pos fun c hmem => hback c (List.mem_reverse.mp hmem), ← dropEndWhile]

theorem dropEndWhile_append {front back : List Char} (hback : dropEndWhile p back ≠ []) :
    dropEndWhile p (front ++ back) = front ++ dropEndWhile p back := by
  have hne : (back.reverse.dropWhile p).isEmpty = false := by
    rw [List.isEmpty_eq_false_iff]
    intro hnil
    rw [dropEndWhile, hnil] at hback
    exact hback rfl
  rw [dropEndWhile, List.reverse_append, List.dropWhile_append, hne]
  simp [dropEndWhile]

theorem dropEndWhile_concat {front : List Char} {c : Char} (hc : p c = false) :
    dropEndWhile p (front ++ [c]) = front ++ [c] :=
  List.rdropWhile_concat_neg p front c (by simp [hc])

theorem strip_append {front back : List Char} (text : List Char)
    (hfront : ∀ c ∈ front, isBlank c = true) (hback : ∀ c ∈ back, isBlank c = true) :
    strip (front ++ (text ++ back)) = strip text := by
  rw [strip, List.dropWhile_append_of_pos hfront, List.dropWhile_append]
  split
  next hempty =>
    have hnil : back.dropWhile isBlank = [] := List.dropWhile_eq_nil_iff.mpr hback
    rw [strip, List.isEmpty_iff.mp hempty, hnil]
  next => rw [dropEndWhile_append_of_pos hback, strip]

theorem strip_of_head {text : List Char} (hhead : ∀ c ∈ text.head?, isBlank c = false) :
    strip text = dropEndWhile isBlank text := by
  cases text with
  | nil => rfl
  | cons c cs =>
      rw [strip, List.dropWhile_cons_of_neg]
      simpa using hhead c rfl

theorem strip_cons {c : Char} (hc : isBlank c = false) (cs : List Char) :
    strip (c :: cs) = c :: dropEndWhile isBlank cs := by
  rw [strip, List.dropWhile_cons_of_neg (by simp [hc]), ← List.singleton_append]
  -- If everything behind the first character is blank, it is this character that ends the text.
  by_cases hrest : dropEndWhile isBlank cs = []
  · rw [dropEndWhile_append_of_pos (List.rdropWhile_eq_nil_iff.mp hrest), hrest]
    exact @dropEndWhile_concat _ [] c hc
  · exact dropEndWhile_append hrest

/-- A text without blanks at its ends stays as it is. -/
theorem strip_eq_self {text : List Char} (hhead : ∀ c ∈ text.head?, isBlank c = false)
    (hlast : ∀ c ∈ text.getLast?, isBlank c = false) : strip text = text := by
  rw [strip_of_head hhead]
  refine List.rdropWhile_eq_self_iff.mpr fun hne => ?_
  rw [hlast _ (List.getLast?_eq_some_getLast hne)]
  exact Bool.false_ne_true

/-- Only blanks are taken away. -/
theorem exists_around_strip (cs : List Char) : ∃ front back,
    cs = front ++ (strip cs ++ back) ∧ (∀ c ∈ front, isBlank c = true) ∧
      ∀ c ∈ back, isBlank c = true := by
  refine ⟨cs.takeWhile isBlank, (cs.dropWhile isBlank).rtakeWhile isBlank, ?_,
    fun c hmem => List.mem_takeWhile_imp hmem, fun c hmem => List.mem_rtakeWhile_imp hmem⟩
  have hstrip : strip cs = (cs.dropWhile isBlank).rdropWhile isBlank := rfl
  rw [hstrip, List.rdropWhile_append_rtakeWhile, List.takeWhile_append_dropWhile]

/-! ## What is left -/

theorem strip_isPrefix (cs : List Char) : strip cs <+: cs.dropWhile isBlank :=
  List.rdropWhile_prefix isBlank _

theorem mem_of_mem_strip {cs : List Char} {c : Char} (hmem : c ∈ strip cs) : c ∈ cs :=
  (List.dropWhile_sublist _).subset ((strip_isPrefix cs).subset hmem)

theorem isBlank_of_head?_strip {cs : List Char} {c : Char} (hhead : c ∈ (strip cs).head?) :
    isBlank c = false := by
  obtain ⟨rest, heq⟩ := strip_isPrefix cs
  have hfirst := List.head?_dropWhile_not isBlank cs
  rw [← heq, List.head?_append, Option.mem_def.mp hhead] at hfirst
  exact hfirst

theorem isBlank_of_getLast?_strip {cs : List Char} {c : Char} (hlast : c ∈ (strip cs).getLast?) :
    isBlank c = false := by
  have hne : strip cs ≠ [] := by
    intro hnil
    rw [hnil] at hlast
    cases hlast
  have hnot := List.rdropWhile_last_not isBlank _ hne
  rw [Option.mem_def, List.getLast?_eq_some_getLast hne] at hlast
  cases hlast
  exact Bool.eq_false_iff.mpr hnot

end Winnow.Text
