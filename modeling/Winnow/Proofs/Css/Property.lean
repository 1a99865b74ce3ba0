import Winnow.Proofs.Css.Clean

/-!
# Names of properties

The properties that an allowance names are written in small letters, digits and hyphens. Such a
name is an identifier that neither trimming nor lowering changes.
-/

namespace Winnow.Css

/-- The letters a to z. -/
def isSmallLetter (c : Char) : Bool := 'a' ≤ c && c ≤ 'z'

/-- A character of the name of a property. -/
def isPropertyChar (c : Char) : Bool := isSmallLetter c || Text.isAsciiDigit c || c = '-'

/-- A name of small letters, digits and hyphens that starts with a letter, or with a hyphen and a
letter. -/
def isProperty : List Char → Bool
  | '-' :: c :: cs => isSmallLetter c && cs.all isPropertyChar
  | c :: cs => isSmallLetter c && cs.all isPropertyChar
  | [] => false

theorem isNameStart_of_isSmallLetter {c : Char} (hc : isSmallLetter c = true) :
    isNameStart c = true := by
  simp only [isSmallLetter, Bool.and_eq_true, decide_eq_true_eq] at hc
  simp [isNameStart, Text.isAsciiLetter, hc]

theorem isNameChar_of_isPropertyChar {c : Char} (hc : isPropertyChar c = true) :
    isNameChar c = true := by
  simp only [isPropertyChar, Bool.or_eq_true, decide_eq_true_eq] at hc
  rcases hc with (hc | hc) | rfl
  · exact isNameChar_of_isNameStart (isNameStart_of_isSmallLetter hc)
  · simp [isNameChar, hc]
  · decide

theorem isPropertyChar_of_isSmallLetter {c : Char} (hc : isSmallLetter c = true) :
    isPropertyChar c = true := by
  simp [isPropertyChar, hc]

theorem isClean_of_isPropertyChar {c : Char} (hc : isPropertyChar c = true) : IsClean c := by
  simp only [isPropertyChar, isSmallLetter, Bool.or_eq_true, Bool.and_eq_true,
    decide_eq_true_eq] at hc
  rcases hc with (hc | hc) | rfl
  · exact isClean_of_between (by decide) (by decide) hc
  · exact isClean_of_isAsciiDigit hc
  · exact isClean_of_range (by decide) (by decide)

theorem lowerLetter_of_isPropertyChar {c : Char} (hc : isPropertyChar c = true) :
    Node.lowerLetter c = c := by
  refine if_neg fun ⟨hlow, hhigh⟩ => ?_
  have hlow : 'A'.toNat ≤ c.toNat := hlow
  have hhigh : c.toNat ≤ 'Z'.toNat := hhigh
  simp only [isPropertyChar, isSmallLetter, Bool.or_eq_true, Bool.and_eq_true,
    decide_eq_true_eq] at hc
  rcases hc with (hc | hc) | rfl
  · have hsmall : 'a'.toNat ≤ c.toNat := hc.1
    exact absurd (hsmall.trans hhigh) (by decide)
  · rw [Text.isAsciiDigit, Text.asciiDigit?] at hc
    split at hc
    next hdigit =>
      have hdigit : c.toNat ≤ '9'.toNat := hdigit.2
      exact absurd (hlow.trans hdigit) (by decide)
    next => cases hc
  · exact absurd hlow (by decide)

theorem isPropertyChar_of_isProperty {name : List Char} (hname : isProperty name = true) :
    ∀ c ∈ name, isPropertyChar c = true := by
  unfold isProperty at hname
  split at hname
  next c cs =>
    obtain ⟨hc, hcs⟩ := Bool.and_eq_true_iff.mp hname
    exact List.forall_mem_cons.mpr ⟨by decide, List.forall_mem_cons.mpr
      ⟨isPropertyChar_of_isSmallLetter hc, List.all_eq_true.mp hcs⟩⟩
  next c cs _ =>
    obtain ⟨hc, hcs⟩ := Bool.and_eq_true_iff.mp hname
    exact List.forall_mem_cons.mpr
      ⟨isPropertyChar_of_isSmallLetter hc, List.all_eq_true.mp hcs⟩
  next => cases hname

theorem isIdent_of_isProperty {name : List Char} (hname : isProperty name = true) :
    IsIdent name := by
  have hchar := isPropertyChar_of_isProperty hname
  refine ⟨⟨?_, fun c hmem => isNameChar_of_isPropertyChar (hchar c hmem),
    fun c hmem => (isClean_of_isPropertyChar (hchar c hmem)).1⟩, ?_⟩
  · rintro rfl
    cases hname
  · unfold isProperty at hname
    split at hname
    next c cs =>
      have hstart := isNameStart_of_isSmallLetter (Bool.and_eq_true_iff.mp hname).1
      exact startsName_hyphen_of_isNameStart hstart
    next c cs _ =>
      exact startsName_of_isNameStart
        (isNameStart_of_isSmallLetter (Bool.and_eq_true_iff.mp hname).1)
    next => cases hname

theorem lowerName_of_isProperty {name : List Char} (hname : isProperty name = true) :
    Node.lowerName name = name := by
  have hchar := isPropertyChar_of_isProperty hname
  exact (List.map_congr_left fun c hmem => lowerLetter_of_isPropertyChar (hchar c hmem)).trans
    (List.map_id' name)

theorem strip_of_isProperty {name : List Char} (hname : isProperty name = true) :
    Text.strip name = name := by
  have hclean : ∀ c ∈ name, IsClean c := fun c hmem =>
    isClean_of_isPropertyChar (isPropertyChar_of_isProperty hname c hmem)
  rw [Text.strip_of_head (Lexeme.head_of_clean hclean)]
  exact Lexeme.dropEndWhile_of_clean hclean

end Winnow.Css
