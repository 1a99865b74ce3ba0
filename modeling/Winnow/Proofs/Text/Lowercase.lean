import Mathlib.Data.List.Basic
import Mathlib.Tactic.IntervalCases
import Winnow.Text.Lowercase

/-!
# Lower case

Letters of ASCII may be in lower case before the whole text is, and but for two signs nothing
beyond ASCII has a lower-case form in it.
-/

namespace Winnow.Text

/-- The capital letters of ASCII. -/
def capitals : List Char := "ABCDEFGHIJKLMNOPQRSTUVWXYZ".toList

theorem mem_capitals {c : Char} (hc : 'A' ≤ c ∧ c ≤ 'Z') : c ∈ capitals := by
  obtain ⟨hlow, hhigh⟩ := hc
  have hbelow : 65 ≤ c.toNat := hlow
  have habove : c.toNat ≤ 90 := hhigh
  rw [← Char.ofNat_toNat c]
  interval_cases c.toNat <;> decide

/-- What holds of all characters as they are, and of the capitals in lower case, holds of all
characters in lower case. -/
theorem asciiLowerChar_cases {p : Char → Char → Prop} (hsame : ∀ c, p c c)
    (hcapital : capitals.Forall fun c => p c (asciiLowerChar c)) (c : Char) :
    p c (asciiLowerChar c) := by
  by_cases hc : 'A' ≤ c ∧ c ≤ 'Z'
  · exact List.forall_iff_forall_mem.mp hcapital c (mem_capitals hc)
  · unfold asciiLowerChar
    rw [if_neg hc]
    exact hsame c

@[simp] theorem asciiLowerChar_asciiLowerChar (c : Char) :
    asciiLowerChar (asciiLowerChar c) = asciiLowerChar c := by
  by_cases hc : 'A' ≤ c ∧ c ≤ 'Z'
  · have hcapital : capitals.Forall fun c => asciiLowerChar (asciiLowerChar c) = asciiLowerChar c :=
      by decide
    exact List.forall_iff_forall_mem.mp hcapital c (mem_capitals hc)
  · have hsame : asciiLowerChar c = c := if_neg hc
    rw [hsame, hsame]

/-! ## Letters in texts -/

@[simp] theorem lowerChar_asciiLowerChar (c : Char) : lowerChar (asciiLowerChar c) = lowerChar c :=
  asciiLowerChar_cases (p := fun c d => lowerChar d = lowerChar c) (fun _ => rfl)
    (by decide +kernel) c

@[simp] theorem isCased_asciiLowerChar (c : Char) : isCased (asciiLowerChar c) = isCased c :=
  asciiLowerChar_cases (p := fun c d => isCased d = isCased c) (fun _ => rfl)
    (by decide +kernel) c

@[simp] theorem isCaseIgnorable_asciiLowerChar (c : Char) :
    isCaseIgnorable (asciiLowerChar c) = isCaseIgnorable c :=
  asciiLowerChar_cases (p := fun c d => isCaseIgnorable d = isCaseIgnorable c) (fun _ => rfl)
    (by decide +kernel) c

theorem asciiLowerChar_eq_capitalSigma (c : Char) :
    asciiLowerChar c = capitalSigma ↔ c = capitalSigma :=
  asciiLowerChar_cases (p := fun c d => d = capitalSigma ↔ c = capitalSigma) (fun _ => Iff.rfl)
    (by decide +kernel) c

theorem nextIsCased_map_asciiLowerChar (cs : List Char) :
    nextIsCased (cs.map asciiLowerChar) = nextIsCased cs := by
  induction cs with
  | nil => rfl
  | cons c cs ih =>
      unfold nextIsCased at ih ⊢
      rw [List.map_cons, List.dropWhile_cons, List.dropWhile_cons, isCaseIgnorable_asciiLowerChar]
      cases isCaseIgnorable c with
      | true => exact ih
      | false => exact isCased_asciiLowerChar c

theorem lowerAfter_map_asciiLowerChar (before cs : List Char) :
    lowerAfter (before.map asciiLowerChar) (cs.map asciiLowerChar) = lowerAfter before cs := by
  induction cs generalizing before with
  | nil => rfl
  | cons c cs ih =>
      have hrest := ih (c :: before)
      rw [List.map_cons] at hrest
      rw [List.map_cons, lowerAfter, lowerAfter, hrest, nextIsCased_map_asciiLowerChar,
        nextIsCased_map_asciiLowerChar, lowerChar_asciiLowerChar]
      simp only [asciiLowerChar_eq_capitalSigma]

/-- Letters may be in lower case already. -/
@[simp] theorem lower_asciiLower (s : String) : lower (asciiLower s) = lower s := by
  unfold lower asciiLower lowerChars
  rw [String.toList_ofList]
  exact congrArg String.ofList (lowerAfter_map_asciiLowerChar [] s.toList)

/-! ## Characters of ASCII in lower case -/

/-- Does the run lead from ASCII or to characters beyond it? The one that does neither leads from
the sign for degrees Kelvin to its letter. -/
def CaseRun.isApart (run : CaseRun) : Bool :=
  decide (run.last < 0x80) || (run.first == 0x212a && run.last == 0x212a) ||
    (decide (0x80 ≤ run.first + run.offset) && decide (run.last + run.offset < 0xd800)) ||
    (decide (0xdfff < run.first + run.offset) && decide (run.last + run.offset < 0x110000))

theorem isApart_of_mem : ∀ run ∈ caseRuns, run.isApart = true := by decide +kernel

theorem toNat_ofNat_of_isValidChar {n : Nat} (hn : n.isValidChar) : (Char.ofNat n).toNat = n := by
  unfold Char.ofNat
  rw [dif_pos hn]
  rfl

/-- A letter of ASCII, the dotted capital, a character of a run or one that has no other case. -/
theorem lowerChar_cases (c : Char) :
    (c.toNat < 0x80 ∧ lowerChar c = [asciiLowerChar c]) ∨
      (c.toNat = 0x130 ∧ lowerChar c = ['i', Char.ofNat 0x307]) ∨
      (¬ c.toNat < 0x80 ∧ lowerChar c = [c]) ∨
      ∃ run ∈ caseRuns, ¬ c.toNat < 0x80 ∧ run.covers c.toNat = true ∧
        lowerChar c = [Char.ofNat (c.toNat + run.offset).toNat] := by
  unfold lowerChar
  split
  next hascii => exact Or.inl ⟨hascii, rfl⟩
  next hascii =>
    split
    next hdotted => exact Or.inr (Or.inl ⟨hdotted, rfl⟩)
    next =>
      split
      next run hrun =>
        have hcovers : run.covers c.toNat = true := by simpa using List.find?_some hrun
        exact Or.inr (Or.inr (Or.inr
          ⟨run, List.mem_of_find?_eq_some hrun, hascii, hcovers, rfl⟩))
      next => exact Or.inr (Or.inr (Or.inl ⟨hascii, rfl⟩))

/-- Where a lower-case form has a character of ASCII it comes from one, but for two signs. -/
theorem lowerChar_of_mem {c d : Char} (hmem : d ∈ lowerChar c) (hd : d.toNat < 0x80) :
    (c.toNat < 0x80 ∧ d = asciiLowerChar c) ∨ (c.toNat = 0x212a ∧ lowerChar c = ['k']) ∨
      (c.toNat = 0x130 ∧ lowerChar c = ['i', Char.ofNat 0x307]) := by
  rcases lowerChar_cases c with ⟨hascii, hlower⟩ | hdotted | ⟨hascii, hlower⟩ |
    ⟨run, hrun, hascii, hcovers, hlower⟩
  · rw [hlower] at hmem
    exact Or.inl ⟨hascii, List.mem_singleton.mp hmem⟩
  · exact Or.inr (Or.inr hdotted)
  · rw [hlower] at hmem
    cases List.mem_singleton.mp hmem
    exact absurd hd hascii
  · rw [hlower] at hmem
    obtain rfl := List.mem_singleton.mp hmem
    have hapart := isApart_of_mem run hrun
    simp only [CaseRun.covers, Bool.and_eq_true, decide_eq_true_eq] at hcovers
    simp only [CaseRun.isApart, Bool.or_eq_true, Bool.and_eq_true, decide_eq_true_eq,
      beq_iff_eq] at hapart
    have hvalid : ((c.toNat : Int) + run.offset).toNat.isValidChar →
        ((c.toNat : Int) + run.offset).toNat < 0x80 := fun hvalid => by
      rwa [toNat_ofNat_of_isValidChar hvalid] at hd
    rcases hapart with ((hlow | ⟨hfirst, hlast⟩) | ⟨hfirst, hlast⟩) | ⟨hfirst, hlast⟩
    · omega
    · have hkelvin : c = Char.ofNat 0x212a := by
        rw [← Char.ofNat_toNat c]
        congr 1
        omega
      subst hkelvin
      exact Or.inr (Or.inl ⟨by decide, by decide +kernel⟩)
    · have hbelow := hvalid (Or.inl (by omega))
      omega
    · have hbelow := hvalid (Or.inr (by omega))
      omega

/-! ## Starts of texts in lower case -/

/-- A text that no sign beyond ASCII has for the start of its lower-case form. -/
def IsStart : List Char → Prop
  | [] => True
  | c :: cs => c.toNat < 0x80 ∧ c ≠ 'k' ∧ (c = 'i' → cs ≠ []) ∧ IsStart cs

instance decidableIsStart : (cs : List Char) → Decidable (IsStart cs)
  | [] => isTrue trivial
  | _ :: cs =>
    have := decidableIsStart cs
    inferInstanceAs (Decidable (_ ∧ _))

theorem lowerAfter_of_ascii {c : Char} (hc : c.toNat < 0x80) (before cs : List Char) :
    lowerAfter before (c :: cs) = asciiLowerChar c :: lowerAfter (c :: before) cs := by
  have hsigma : c ≠ capitalSigma := by
    rintro rfl
    exact absurd hc (by decide)
  rw [lowerAfter, if_neg hsigma, lowerChar, if_pos hc]
  rfl

theorem asciiLowerChar_of_not_ascii {c : Char} (hc : ¬ c.toNat < 0x80) : asciiLowerChar c = c := by
  refine if_neg fun hcapital => hc ?_
  have hle : c.toNat ≤ 0x5a := hcapital.2
  omega

theorem lowerChar_ne_nil (c : Char) : lowerChar c ≠ [] := by
  rcases lowerChar_cases c with ⟨-, hlower⟩ | ⟨-, hlower⟩ | ⟨-, hlower⟩ |
    ⟨_, -, -, -, hlower⟩
  all_goals simp [hlower]

theorem not_isPrefix_lowerChar {a c : Char} {start rest : List Char} (hstart : IsStart (a :: start))
    (hc : ¬ c.toNat < 0x80) : ¬ a :: start <+: lowerChar c ++ rest := by
  obtain ⟨hascii, hk, hi, hnext⟩ := hstart
  intro hstarts
  obtain ⟨d, ds, hlowered⟩ := List.exists_cons_of_ne_nil (lowerChar_ne_nil c)
  rw [hlowered, List.cons_append, List.cons_prefix_cons] at hstarts
  obtain ⟨rfl, hstarts⟩ := hstarts
  have hmem : a ∈ lowerChar c := hlowered ▸ List.mem_cons_self
  rcases lowerChar_of_mem hmem hascii with ⟨hlow, -⟩ | ⟨-, hkelvin⟩ | ⟨-, hdotted⟩
  · exact hc hlow
  · exact hk (List.cons.inj (hlowered.symm.trans hkelvin)).1
  · -- The dot above the letter is a character of its own, and no part of the start.
    obtain ⟨rfl, rfl⟩ := List.cons.inj (hlowered.symm.trans hdotted)
    obtain ⟨b, bs, rfl⟩ := List.exists_cons_of_ne_nil (hi rfl)
    rw [List.singleton_append, List.cons_prefix_cons] at hstarts
    obtain ⟨rfl, -⟩ := hstarts
    exact absurd hnext.1 (by decide)

/-- Beyond ASCII nothing has a lower-case form that starts like this. -/
theorem not_isPrefix_lowerAfter {a c : Char} {start : List Char} (hstart : IsStart (a :: start))
    (hc : ¬ c.toNat < 0x80) (before cs : List Char) :
    ¬ a :: start <+: lowerAfter before (c :: cs) := by
  rw [lowerAfter]
  split
  · rw [List.singleton_append, List.cons_prefix_cons]
    rintro ⟨rfl, -⟩
    have hascii := hstart.1
    revert hascii
    split
    · decide
    · decide
  · exact not_isPrefix_lowerChar hstart hc

/-- Such a start is that of the lower-case form of a text if it is so letter by letter. -/
theorem isPrefix_lowerAfter_iff {start : List Char} (hstart : IsStart start)
    (before cs : List Char) :
    start <+: lowerAfter before cs ↔ start <+: cs.map asciiLowerChar := by
  induction start generalizing before cs with
  | nil => simp
  | cons a start ih =>
      cases cs with
      | nil => rfl
      | cons c cs =>
          by_cases hc : c.toNat < 0x80
          · rw [lowerAfter_of_ascii hc, List.map_cons, List.cons_prefix_cons,
              List.cons_prefix_cons, ih hstart.2.2.2]
          · refine iff_of_false (not_isPrefix_lowerAfter hstart hc before cs) ?_
            rw [List.map_cons, asciiLowerChar_of_not_ascii hc, List.cons_prefix_cons]
            rintro ⟨rfl, -⟩
            exact hc hstart.1

/-! ## Lower case is final -/

/-- The lower-case forms that a run leads to. -/
def CaseRun.image (run : CaseRun) : CaseRun :=
  ⟨(run.first + run.offset).toNat, (run.last + run.offset).toNat, run.stride, 0⟩

/-- Has a run nothing in common with another? Runs that lie in each other take turns. -/
def CaseRun.isClear (run other : CaseRun) : Bool :=
  other.last.blt run.first || run.last.blt other.first ||
    (other.stride == 2 && (run.stride == 2 || run.first == run.last) &&
      (run.first + other.first) % 2 == 1)

/-- The runs with the two capitals that have lower-case forms of their own. -/
def allRuns : List CaseRun := ⟨0x130, 0x130, 1, 0⟩ :: ⟨0x3a3, 0x3a3, 1, 0⟩ :: caseRuns

theorem isClear_image : (caseRuns.all fun run => allRuns.all run.image.isClear) = true := by
  decide +kernel

theorem not_covers_of_isClear {run other : CaseRun} (hclear : run.image.isClear other = true)
    (hfirst : 0 ≤ run.first + run.offset) {n m : Nat} (hcovers : run.covers n = true)
    (hm : (m : Int) = n + run.offset) : other.covers m = false := by
  rw [Bool.eq_false_iff]
  intro hother
  simp only [CaseRun.covers, Bool.and_eq_true, decide_eq_true_eq, beq_iff_eq] at hcovers hother
  simp only [CaseRun.isClear, CaseRun.image, Bool.or_eq_true, Bool.and_eq_true, Nat.blt_eq,
    beq_iff_eq] at hclear
  obtain ⟨⟨hlow, hhigh⟩, hstride⟩ := hcovers
  obtain ⟨⟨hotherLow, hotherHigh⟩, hotherStride⟩ := hother
  rcases hclear with (hbelow | habove) | ⟨⟨htwo, hrun⟩, hodd⟩
  · omega
  · omega
  · rw [htwo] at hotherStride
    rcases hrun with hrun | hrun
    · rw [hrun] at hstride
      omega
    · omega

/-- Is the character its own lower-case form wherever it stands? -/
def IsSmall (c : Char) : Prop := c ≠ capitalSigma ∧ lowerChar c = [c]

theorem isSmall_of_not_covers {d : Char} (hd : ¬ d.toNat < 0x80)
    (hclear : ∀ run ∈ allRuns, run.covers d.toNat = false) : IsSmall d := by
  have hdotted : d.toNat ≠ 0x130 := by
    intro heq
    have hnot := hclear _ List.mem_cons_self
    rw [heq] at hnot
    cases hnot
  have hsigma : d ≠ capitalSigma := by
    rintro rfl
    exact absurd (hclear _ (List.mem_cons_of_mem _ List.mem_cons_self)) (by decide)
  have hnone : caseRuns.find? (·.covers d.toNat) = none := by
    refine List.find?_eq_none.mpr fun run hrun => ?_
    rw [hclear run (List.mem_cons_of_mem _ (List.mem_cons_of_mem _ hrun))]
    exact Bool.false_ne_true
  refine ⟨hsigma, ?_⟩
  unfold lowerChar
  rw [if_neg hd, if_neg hdotted, hnone]

/-- A run leads to characters that no run leads away from. -/
theorem isSmall_of_covers {run : CaseRun} (hrun : run ∈ caseRuns) {c : Char}
    (hcovers : run.covers c.toNat = true) (hc : ¬ c.toNat < 0x80) :
    IsSmall (Char.ofNat (c.toNat + run.offset).toNat) := by
  have hapart := isApart_of_mem run hrun
  have hinside := hcovers
  simp only [CaseRun.covers, Bool.and_eq_true, decide_eq_true_eq] at hinside
  simp only [CaseRun.isApart, Bool.or_eq_true, Bool.and_eq_true, decide_eq_true_eq,
    beq_iff_eq] at hapart
  have hsmall : 0x80 ≤ run.first + run.offset →
      ((c.toNat : Int) + run.offset).toNat.isValidChar →
        IsSmall (Char.ofNat (c.toNat + run.offset).toNat) := by
    intro hfirst hvalid
    have hnat := toNat_ofNat_of_isValidChar hvalid
    refine isSmall_of_not_covers (by omega) fun other hother => ?_
    rw [hnat]
    have hclear := List.all_eq_true.mp (List.all_eq_true.mp isClear_image run hrun) other hother
    exact not_covers_of_isClear hclear (by omega) hcovers (by omega)
  rcases hapart with ((hlow | ⟨hfirst, hlast⟩) | ⟨hfirst, hlast⟩) | ⟨hfirst, hlast⟩
  · omega
  · have hoffset : ∀ other ∈ caseRuns, other.first = 0x212a → other.offset = -8383 := by
      decide +kernel
    have hkelvin : c.toNat = 0x212a := by omega
    rw [hkelvin, hoffset run hrun hfirst]
    exact ⟨by decide, by decide⟩
  · exact hsmall hfirst (Or.inl (by omega))
  · exact hsmall (by omega) (Or.inr (by omega))

theorem isSmall_of_mem_lowerChar {c d : Char} (hc : c ≠ capitalSigma) (hmem : d ∈ lowerChar c) :
    IsSmall d := by
  rcases lowerChar_cases c with ⟨hascii, hlower⟩ | ⟨-, hlower⟩ | ⟨-, hlower⟩ |
    ⟨run, hrun, hascii, hcovers, hlower⟩
  · rw [hlower] at hmem
    obtain rfl := List.mem_singleton.mp hmem
    exact ⟨fun heq => hc ((asciiLowerChar_eq_capitalSigma c).mp heq),
      (lowerChar_asciiLowerChar c).trans hlower⟩
  · rw [hlower] at hmem
    rcases List.mem_cons.mp hmem with rfl | hmem
    · exact ⟨by decide, by decide⟩
    · cases List.mem_singleton.mp hmem
      exact ⟨by decide, by decide +kernel⟩
  · rw [hlower] at hmem
    cases List.mem_singleton.mp hmem
    exact ⟨hc, hlower⟩
  · rw [hlower] at hmem
    obtain rfl := List.mem_singleton.mp hmem
    exact isSmall_of_covers hrun hcovers hascii

theorem isSmall_of_mem_lowerAfter {before cs : List Char} {d : Char}
    (hmem : d ∈ lowerAfter before cs) : IsSmall d := by
  induction cs generalizing before with
  | nil => cases hmem
  | cons c cs ih =>
      rw [lowerAfter] at hmem
      rcases List.mem_append.mp hmem with hfirst | hrest
      · split at hfirst
        next =>
          obtain rfl := List.mem_singleton.mp hfirst
          split
          · exact ⟨by decide, by decide +kernel⟩
          · exact ⟨by decide, by decide +kernel⟩
        next hc => exact isSmall_of_mem_lowerChar hc hfirst
      · exact ih hrest

theorem lowerAfter_of_isSmall (before : List Char) {cs : List Char} (hcs : ∀ c ∈ cs, IsSmall c) :
    lowerAfter before cs = cs := by
  induction cs generalizing before with
  | nil => rfl
  | cons c cs ih =>
      obtain ⟨hsigma, hlowered⟩ := hcs c List.mem_cons_self
      rw [lowerAfter, if_neg hsigma, hlowered,
        ih _ fun d hmem => hcs d (List.mem_cons_of_mem _ hmem)]
      rfl

/-- What is in lower case stays as it is. -/
@[simp] theorem lower_lower (s : String) : lower (lower s) = lower s := by
  have hsmall : ∀ c ∈ lowerChars s.toList, IsSmall c := fun _ hmem => isSmall_of_mem_lowerAfter hmem
  unfold lower
  rw [String.toList_ofList, lowerChars, lowerAfter_of_isSmall [] hsmall]

/-- A text is in lower case if all its characters are. -/
theorem lower_eq_self_iff {s : String} : lower s = s ↔ ∀ c ∈ s.toList, IsSmall c := by
  constructor
  · intro hlower c hmem
    have hchars : s.toList = lowerAfter [] s.toList := by
      have heq := congrArg String.toList hlower.symm
      rwa [lower, String.toList_ofList] at heq
    rw [hchars] at hmem
    exact isSmall_of_mem_lowerAfter hmem
  · intro hsmall
    rw [lower, lowerChars, lowerAfter_of_isSmall [] hsmall, String.ofList_toList]

theorem IsSmall.asciiLowerChar {c : Char} (hc : IsSmall c) : asciiLowerChar c = c := by
  by_cases hascii : c.toNat < 0x80
  · have hlowered := hc.2
    rw [lowerChar, if_pos hascii] at hlowered
    exact (List.cons.inj hlowered).1
  · exact asciiLowerChar_of_not_ascii hascii

theorem asciiLower_eq_self {s : String} (hchars : ∀ c ∈ s.toList, Text.asciiLowerChar c = c) :
    asciiLower s = s := by
  rw [asciiLower, List.map_congr_left hchars, List.map_id', String.ofList_toList]

/-- What is in lower case has no capital letters of ASCII. -/
theorem asciiLower_eq_self_of_lower_eq {s : String} (hlower : lower s = s) : asciiLower s = s :=
  asciiLower_eq_self fun c hmem => (lower_eq_self_iff.mp hlower c hmem).asciiLowerChar

/-- In a text of ASCII there are no other letters to put in lower case. -/
theorem lower_eq_asciiLower {s : String} (hascii : ∀ c ∈ s.toList, c.toNat < 0x80) :
    lower s = asciiLower s := by
  have hchars : ∀ (before cs : List Char), (∀ c ∈ cs, c.toNat < 0x80) →
      lowerAfter before cs = cs.map Text.asciiLowerChar := by
    intro before cs
    induction cs generalizing before with
    | nil => exact fun _ => rfl
    | cons c cs ih =>
        intro hcs
        rw [lowerAfter_of_ascii (hcs c List.mem_cons_self),
          ih _ fun d hmem => hcs d (List.mem_cons_of_mem _ hmem), List.map_cons]
  rw [lower, lowerChars, hchars [] s.toList hascii, asciiLower]

theorem lowerAfter_ne_nil (before : List Char) {cs : List Char} (hcs : cs ≠ []) :
    lowerAfter before cs ≠ [] := by
  obtain ⟨c, rest, rfl⟩ := List.exists_cons_of_ne_nil hcs
  rw [lowerAfter]
  intro hnil
  have hfirst := (List.append_eq_nil_iff.mp hnil).1
  split at hfirst
  · cases hfirst
  · exact lowerChar_ne_nil c hfirst

theorem lower_ne_empty {s : String} (hs : s ≠ "") : lower s ≠ "" := by
  intro heq
  have hnil : lowerAfter [] s.toList = [] := by
    simpa [lower, lowerChars] using congrArg String.toList heq
  exact lowerAfter_ne_nil [] (mt String.toList_eq_nil_iff.mp hs) hnil

end Winnow.Text
