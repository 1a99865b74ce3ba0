import Mathlib.Data.List.TakeWhile
import Winnow.Css.Name

/-!
# Names that are read back

A name without characters that need an escape is written as it is, and reading takes it back as
a whole when what follows cannot belong to it.
-/

namespace Winnow.Css

/-! ## Runs of characters -/

/-- A text does not start with a character of a class. -/
def Stops (p : Char → Bool) (cs : List Char) : Prop := ∀ c ∈ cs.head?, p c = false

theorem stops_nil (p : Char → Bool) : Stops p [] := fun c hmem => by cases hmem

theorem stops_cons {p : Char → Bool} {c : Char} {cs : List Char} :
    Stops p (c :: cs) ↔ p c = false := by
  simp [Stops]

theorem stops_char {d : Char} {cs : List Char} (hne : ∀ ds, cs ≠ d :: ds) : Stops (· = d) cs := by
  intro c hmem
  obtain ⟨ds, hcons⟩ := List.head?_eq_some_iff.mp (Option.mem_def.mp hmem)
  rw [decide_eq_false_iff_not]
  rintro rfl
  exact hne ds hcons

theorem stops_dropWhile (p : Char → Bool) (cs : List Char) : Stops p (cs.dropWhile p) := by
  intro c hmem
  have hnot := List.head?_dropWhile_not p cs
  rw [Option.mem_def.mp hmem] at hnot
  exact hnot

theorem Stops.takeWhile_eq_nil {p : Char → Bool} {cs : List Char} (hstops : Stops p cs) :
    cs.takeWhile p = [] := by
  cases cs with
  | nil => rfl
  | cons c cs => rw [List.takeWhile_cons_of_neg (by simpa using stops_cons.mp hstops)]

theorem Stops.dropWhile_eq_self {p : Char → Bool} {cs : List Char} (hstops : Stops p cs) :
    cs.dropWhile p = cs := by
  cases cs with
  | nil => rfl
  | cons c cs => rw [List.dropWhile_cons_of_neg (by simpa using stops_cons.mp hstops)]

theorem takeWhile_run {p : Char → Bool} {run rest : List Char} (hrun : ∀ c ∈ run, p c = true)
    (hrest : Stops p rest) : (run ++ rest).takeWhile p = run := by
  rw [List.takeWhile_append_of_pos hrun, hrest.takeWhile_eq_nil, List.append_nil]

theorem dropWhile_run {p : Char → Bool} {run rest : List Char} (hrun : ∀ c ∈ run, p c = true)
    (hrest : Stops p rest) : (run ++ rest).dropWhile p = rest := by
  rw [List.dropWhile_append_of_pos hrun, hrest.dropWhile_eq_self]

theorem Stops.mono {p q : Char → Bool} {cs : List Char} (hstops : Stops p cs)
    (himp : ∀ c, q c = true → p c = true) : Stops q cs := by
  intro c hmem
  rw [Bool.eq_false_iff]
  intro hq
  have hp := hstops c hmem
  rw [himp c hq] at hp
  cases hp

theorem Stops.take {p : Char → Bool} {cs : List Char} (hstops : Stops p cs) (n : Nat) :
    Stops p (cs.take n) := by
  cases n with
  | zero => exact stops_nil p
  | succ n =>
      cases cs with
      | nil => exact stops_nil p
      | cons c cs => exact stops_cons.mpr (stops_cons.mp hstops)

/-! ## Names -/

/-- A character that may go on with a name or start an escape in it. -/
def continuesName (c : Char) : Bool := isNameChar c || c = '\\'

theorem ne_of_isNameChar {c d : Char} (hc : isNameChar c = true) (hd : isNameChar d = false) :
    c ≠ d := by
  rintro rfl
  rw [hc] at hd
  cases hd

theorem isNameChar_of_isNameStart {c : Char} (hc : isNameStart c = true) :
    isNameChar c = true := by
  simp [isNameChar, hc]

/-- A name whose characters are written as they are, none of them blank. -/
structure IsName (name : List Char) : Prop where
  ne_nil : name ≠ []
  char : ∀ c ∈ name, isNameChar c = true
  not_blank : ∀ c ∈ name, Text.isBlank c = false

/-- A name of this kind that is an identifier. -/
structure IsIdent (name : List Char) : Prop extends IsName name where
  starts : startsName name = true

theorem readName_run {name rest : List Char} (hname : ∀ c ∈ name, isNameChar c = true)
    (hrest : Stops continuesName rest) : readName 0 (name ++ rest) = (name, rest) := by
  induction name with
  | nil =>
      cases rest with
      | nil => rfl
      | cons c cs =>
          have hstop := stops_cons.mp hrest
          simp only [continuesName, Bool.or_eq_false_iff, decide_eq_false_iff_not] at hstop
          simp [readName, hstop.1, hstop.2]
  | cons c cs ih =>
      obtain ⟨hc, hcs⟩ := List.forall_mem_cons.mp hname
      simp [readName, hc, ih hcs]

/-- Where no escape occurs, a name is a run of characters. -/
theorem readName_eq {cs : List Char} (hescape : '\\' ∉ cs) :
    readName 0 cs = (cs.takeWhile isNameChar, cs.dropWhile isNameChar) := by
  have hstops : Stops continuesName (cs.dropWhile isNameChar) := by
    intro c hmem
    have hnot := stops_dropWhile isNameChar cs c hmem
    have hne : c ≠ '\\' := by
      rintro rfl
      exact hescape ((List.dropWhile_sublist isNameChar).subset (List.mem_of_mem_head? hmem))
    simp [continuesName, hnot, hne]
  have hname : ∀ c ∈ cs.takeWhile isNameChar, isNameChar c = true :=
    fun c hmem => List.mem_takeWhile_imp hmem
  have hread := readName_run hname hstops
  rwa [List.takeWhile_append_dropWhile] at hread

/-- Whether a name starts somewhere is seen from the name itself. -/
theorem startsName_append {name rest : List Char} (hne : name ≠ [])
    (hname : ∀ c ∈ name, isNameChar c = true) (hrest : Stops continuesName rest) :
    startsName (name ++ rest) = startsName name := by
  obtain ⟨c, cs, rfl⟩ := List.exists_cons_of_ne_nil hne
  have hc : c ≠ '\\' := ne_of_isNameChar (hname c List.mem_cons_self) (by decide)
  by_cases hhyphen : c = '-'
  · subst hhyphen
    cases cs with
    | cons d ds =>
        have hd : d ≠ '\\' := ne_of_isNameChar (hname d (by simp)) (by decide)
        simp only [List.cons_append, startsName]
    | nil =>
        cases rest with
        | nil => rfl
        | cons d ds =>
            have hstop := stops_cons.mp hrest
            simp only [continuesName, Bool.or_eq_false_iff, decide_eq_false_iff_not] at hstop
            have hstart : isNameStart d = false := by
              rw [Bool.eq_false_iff]
              exact fun h => by simp [isNameChar_of_isNameStart h] at hstop
            have hne : d ≠ '-' := by
              rintro rfl
              simp [isNameChar] at hstop
            have hhyphen : isNameStart '-' = false := by decide
            simp [startsName, hstop.2, hstart, hne, hhyphen]
  · simp [startsName, hhyphen]

theorem startsName_of_isNameStart {c : Char} {cs : List Char} (hc : isNameStart c = true) :
    startsName (c :: cs) = true := by
  have hhyphen : c ≠ '-' := by
    rintro rfl
    cases hc
  have hescape : c ≠ '\\' := by
    rintro rfl
    cases hc
  simp [startsName, hc, hhyphen]

theorem startsName_hyphen_of_isNameStart {c : Char} {cs : List Char} (hc : isNameStart c = true) :
    startsName ('-' :: c :: cs) = true := by
  have hescape : c ≠ '\\' := by
    rintro rfl
    cases hc
  simp [startsName, hc]

theorem writeName_eq {name : List Char} (hname : ∀ c ∈ name, isNameChar c = true) :
    writeName name = name := by
  induction name with
  | nil => rfl
  | cons c cs ih =>
      obtain ⟨hc, hcs⟩ := List.forall_mem_cons.mp hname
      rw [writeName, List.flatMap_cons, ← writeName, ih hcs]
      simp [writeNameChar, hc]

theorem writePlainIdent_eq {c : Char} {cs : List Char} (hc : isNameStart c = true)
    (hcs : ∀ d ∈ cs, isNameChar d = true) : writePlainIdent (c :: cs) = c :: cs := by
  rw [writePlainIdent, writeName_eq hcs]
  simp [writeFirst, hc]

namespace IsIdent

variable {name : List Char} (hname : IsIdent name)
include hname

/-- An identifier starts with a character of its own, or with a hyphen and another one. -/
theorem exists_cons : ∃ c cs, name = c :: cs ∧
    (isNameStart c = true ∨ c = '-' ∧ ∃ d ds, cs = d :: ds ∧ (isNameStart d = true ∨ d = '-')) := by
  obtain ⟨c, cs, rfl⟩ := List.exists_cons_of_ne_nil hname.ne_nil
  have hc : c ≠ '\\' := ne_of_isNameChar (hname.char c List.mem_cons_self) (by decide)
  refine ⟨c, cs, rfl, ?_⟩
  have hstarts := hname.starts
  by_cases hhyphen : c = '-'
  · subst hhyphen
    cases cs with
    | nil => exact absurd hstarts (by decide)
    | cons d ds =>
        have hd : d ≠ '\\' := ne_of_isNameChar (hname.char d (by simp)) (by decide)
        exact .inr ⟨rfl, d, ds, rfl, by simpa [startsName, hd] using hstarts⟩
  · exact .inl (by simpa [startsName, hc, hhyphen] using hstarts)

theorem write_eq : writeIdent name = name := by
  obtain ⟨c, cs, rfl, hstart⟩ := hname.exists_cons
  have hcs : ∀ d ∈ cs, isNameChar d = true := fun d hmem => hname.char d (by simp [hmem])
  rcases hstart with hc | ⟨rfl, d, ds, rfl, hd⟩
  · have hhyphen : c ≠ '-' := by
      rintro rfl
      exact absurd hc (by decide)
    simp [writeIdent, hhyphen, writePlainIdent_eq hc hcs]
  · have hds : ∀ e ∈ ds, isNameChar e = true := fun e hmem => hcs e (by simp [hmem])
    by_cases hsecond : d = '-'
    · subst hsecond
      simp [writeIdent, writeName_eq hds]
    · have hd := hd.resolve_right hsecond
      simp [writeIdent, hsecond, writePlainIdent_eq hd hds]

theorem startsName_append {rest : List Char} (hrest : Stops continuesName rest) :
    startsName (name ++ rest) = true := by
  rw [Css.startsName_append hname.ne_nil hname.char hrest, hname.starts]

theorem readName_append {rest : List Char} (hrest : Stops continuesName rest) :
    readName 0 (name ++ rest) = (name, rest) :=
  readName_run hname.char hrest

end IsIdent

end Winnow.Css
