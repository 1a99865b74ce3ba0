import Mathlib.Data.List.DropRight
import Winnow.Proofs.Text.Lowercase
import Winnow.Proofs.Text.Strip

/-!
# Where characters in lower case come from

Each character of a text makes a part of its lower-case form. No character but a blank makes
one, and no other sign of ASCII than a letter comes from a character other than itself, so what
a text holds at its ends can be seen in its lower-case form. No sigma looks past a blank, so it
makes no difference whether a text is trimmed before or after it is put in lower case.
-/

namespace Winnow.Text

/-- May the second character stand for the first one in a lower-case form? -/
def LowersTo (c d : Char) : Prop :=
  d ∈ lowerChar c ∨ (c = capitalSigma ∧ (d = Char.ofNat 0x3c2 ∨ d = Char.ofNat 0x3c3))

theorem lowerAfter_cons (before : List Char) (c : Char) (cs : List Char) :
    ∃ block, block ≠ [] ∧ (∀ d ∈ block, LowersTo c d) ∧
      lowerAfter before (c :: cs) = block ++ lowerAfter (c :: before) cs := by
  rw [lowerAfter]
  split
  next hsigma =>
    refine ⟨_, List.cons_ne_nil _ _, fun d hmem => Or.inr ⟨hsigma, ?_⟩, rfl⟩
    rw [List.mem_singleton.mp hmem]
    split
    · exact Or.inl rfl
    · exact Or.inr rfl
  next => exact ⟨_, lowerChar_ne_nil c, fun d hmem => Or.inl hmem, rfl⟩

variable {before cs : List Char} {d : Char}

theorem exists_lowersTo_of_mem (hmem : d ∈ lowerAfter before cs) : ∃ c ∈ cs, LowersTo c d := by
  induction cs generalizing before with
  | nil => cases hmem
  | cons c cs ih =>
      obtain ⟨block, -, hblock, heq⟩ := lowerAfter_cons before c cs
      rw [heq] at hmem
      rcases List.mem_append.mp hmem with hfirst | hrest
      · exact ⟨c, List.mem_cons_self, hblock d hfirst⟩
      · obtain ⟨other, hother, hlowers⟩ := ih hrest
        exact ⟨other, List.mem_cons_of_mem _ hother, hlowers⟩

/-- What has no other case is in the lower-case form too. -/
theorem mem_lowerAfter_of_isSmall (before : List Char) {c : Char} (hsmall : IsSmall c)
    (hmem : c ∈ cs) : c ∈ lowerAfter before cs := by
  induction cs generalizing before with
  | nil => cases hmem
  | cons other cs ih =>
      rw [lowerAfter]
      rcases List.mem_cons.mp hmem with rfl | hmem
      · simp [hsmall.1, hsmall.2]
      · exact List.mem_append_right _ (ih _ hmem)

theorem exists_lowersTo_of_head? (hhead : d ∈ (lowerAfter before cs).head?) :
    ∃ c ∈ cs.head?, LowersTo c d := by
  cases cs with
  | nil => cases hhead
  | cons c cs =>
      obtain ⟨block, hne, hblock, heq⟩ := lowerAfter_cons before c cs
      rw [heq, List.head?_append_of_ne_nil _ hne] at hhead
      exact ⟨c, rfl, hblock d (List.mem_of_mem_head? hhead)⟩

theorem exists_lowersTo_of_getLast? (hlast : d ∈ (lowerAfter before cs).getLast?) :
    ∃ c ∈ cs.getLast?, LowersTo c d := by
  induction cs generalizing before with
  | nil => cases hlast
  | cons c cs ih =>
      obtain ⟨block, hne, hblock, heq⟩ := lowerAfter_cons before c cs
      rw [heq] at hlast
      cases cs with
      | nil =>
          rw [lowerAfter, List.append_nil] at hlast
          exact ⟨c, rfl, hblock d (List.mem_of_mem_getLast? hlast)⟩
      | cons other rest =>
          rw [List.getLast?_append_of_ne_nil _
            (lowerAfter_ne_nil _ (List.cons_ne_nil _ _))] at hlast
          rw [List.getLast?_cons_cons]
          exact ih hlast

/-! ## Bars -/

theorem LowersTo.eq_bar {c : Char} (hlowers : LowersTo c '|') : c = '|' := by
  rcases hlowers with hmem | ⟨-, heq | heq⟩
  · rcases lowerChar_of_mem hmem (by decide) with ⟨-, heq⟩ | ⟨-, hkelvin⟩ | ⟨-, hdotted⟩
    · have hbar : '|' = asciiLowerChar c → c = '|' :=
        asciiLowerChar_cases (p := fun c d => '|' = d → c = '|') (fun _ => Eq.symm) (by decide) c
      exact hbar heq
    · rw [hkelvin] at hmem
      exact absurd hmem (by decide)
    · rw [hdotted] at hmem
      exact absurd hmem (by decide)
  · exact absurd heq (by decide)
  · exact absurd heq (by decide)

/-- A text and its lower-case form both have bars or neither has. -/
theorem bar_mem_lowerAfter_iff : '|' ∈ lowerAfter before cs ↔ '|' ∈ cs := by
  constructor
  · intro hmem
    obtain ⟨c, hc, hlowers⟩ := exists_lowersTo_of_mem hmem
    exact hlowers.eq_bar ▸ hc
  · intro hmem
    exact mem_lowerAfter_of_isSmall before ⟨by decide, by decide⟩ hmem

/-! ## Blanks -/

/-- The ranges of the blanks. -/
def blankRanges : List (Nat × Nat) :=
  [(0x09, 0x0d), (0x1c, 0x20), (0x85, 0x85), (0xa0, 0xa0), (0x1680, 0x1680), (0x2000, 0x200a),
    (0x2028, 0x2029), (0x202f, 0x202f), (0x205f, 0x205f), (0x3000, 0x3000)]

theorem isBlank_eq_inRanges (c : Char) : isBlank c = inRanges blankRanges c.toNat := by
  rw [Bool.eq_iff_iff]
  simp only [isBlank, inRanges, blankRanges, List.any_cons, List.any_nil, Bool.or_eq_true,
    Bool.and_eq_true, decide_eq_true_eq, beq_iff_eq, Bool.or_false]
  omega

/-- Does the run lead to no blank? -/
def CaseRun.missesBlanks (run : CaseRun) : Bool :=
  blankRanges.all fun range =>
    decide ((run.last + run.offset).toNat < range.1) || decide (range.2 < run.first + run.offset)

theorem missesBlanks_of_mem : ∀ run ∈ caseRuns, run.missesBlanks = true := by decide +kernel

theorem isBlank_ofNat_of_covers {run : CaseRun} (hrun : run ∈ caseRuns) {n : Nat}
    (hcovers : run.covers n = true) : isBlank (Char.ofNat (n + run.offset).toNat) = false := by
  by_cases hvalid : ((n : Int) + run.offset).toNat.isValidChar
  · have hmisses := List.all_eq_true.mp (missesBlanks_of_mem run hrun)
    simp only [CaseRun.covers, Bool.and_eq_true, decide_eq_true_eq] at hcovers
    rw [isBlank_eq_inRanges, toNat_ofNat_of_isValidChar hvalid, inRanges, List.any_eq_false]
    intro range hmem
    have hmiss := hmisses range hmem
    simp only [Bool.or_eq_true, decide_eq_true_eq] at hmiss
    simp only [Bool.and_eq_true, decide_eq_true_eq]
    omega
  · unfold Char.ofNat
    rw [dif_neg hvalid]
    decide

theorem LowersTo.isBlank {c : Char} (hlowers : LowersTo c d) (hd : isBlank d = true) :
    isBlank c = true := by
  rcases hlowers with hmem | ⟨-, rfl | rfl⟩
  · rcases lowerChar_cases c with ⟨-, hlower⟩ | ⟨-, hlower⟩ | ⟨-, hlower⟩ |
      ⟨run, hrun, -, hcovers, hlower⟩
    · rw [hlower] at hmem
      obtain rfl := List.mem_singleton.mp hmem
      have hsame := asciiLowerChar_cases (p := fun c d => Text.isBlank d = Text.isBlank c)
        (fun _ => rfl) (by decide) c
      exact hsame ▸ hd
    · rw [hlower] at hmem
      rcases List.mem_cons.mp hmem with rfl | hmem
      · exact absurd hd (by decide)
      · cases List.mem_singleton.mp hmem
        exact absurd hd (by decide)
    · rw [hlower] at hmem
      exact List.mem_singleton.mp hmem ▸ hd
    · rw [hlower] at hmem
      rw [List.mem_singleton.mp hmem, isBlank_ofNat_of_covers hrun hcovers] at hd
      cases hd
  · exact absurd hd (by decide)
  · exact absurd hd (by decide)

theorem LowersTo.not_isBlank {c : Char} (hlowers : LowersTo c d) (hc : Text.isBlank c = false) :
    Text.isBlank d = false :=
  Bool.eq_false_iff.mpr fun hd => Bool.eq_false_iff.mp hc (hlowers.isBlank hd)

theorem isBlank_of_head?_lowerAfter (hcs : ∀ c ∈ cs.head?, isBlank c = false)
    (hhead : d ∈ (lowerAfter before cs).head?) : isBlank d = false := by
  obtain ⟨c, hc, hlowers⟩ := exists_lowersTo_of_head? hhead
  exact hlowers.not_isBlank (hcs c hc)

theorem isBlank_of_getLast?_lowerAfter (hcs : ∀ c ∈ cs.getLast?, isBlank c = false)
    (hlast : d ∈ (lowerAfter before cs).getLast?) : isBlank d = false := by
  obtain ⟨c, hc, hlowers⟩ := exists_lowersTo_of_getLast? hlast
  exact hlowers.not_isBlank (hcs c hc)

/-! ## Blanks around a text -/

/-- Do the ranges hold no blank? -/
def missBlanks (ranges : List (Nat × Nat)) : Bool :=
  blankRanges.all fun blanks => ranges.all fun range =>
    decide (blanks.2 < range.1) || decide (range.2 < blanks.1)

theorem inRanges_of_isBlank {ranges : List (Nat × Nat)} (hmiss : missBlanks ranges = true)
    {c : Char} (hc : isBlank c = true) : inRanges ranges c.toNat = false := by
  rw [isBlank_eq_inRanges] at hc
  obtain ⟨blanks, hblanks, hinside⟩ := List.any_eq_true.mp hc
  refine List.any_eq_false.mpr fun range hrange => ?_
  have hapart := List.all_eq_true.mp (List.all_eq_true.mp hmiss blanks hblanks) range hrange
  simp only [Bool.and_eq_true, Bool.or_eq_true, decide_eq_true_eq] at hinside hapart ⊢
  omega

theorem isCaseIgnorable_of_isBlank {c : Char} (hc : isBlank c = true) :
    isCaseIgnorable c = false := by
  have hmiss : missBlanks caseIgnorableRanges = true := by decide +kernel
  exact inRanges_of_isBlank hmiss hc

theorem isCased_of_isBlank {c : Char} (hc : isBlank c = true) : isCased c = false := by
  have hmiss : missBlanks casedRanges = true := by decide +kernel
  exact inRanges_of_isBlank hmiss hc

/-- A blank has no other case. -/
theorem isSmall_of_isBlank {c : Char} (hc : isBlank c = true) : IsSmall c := by
  have hsigma : c ≠ capitalSigma := by
    rintro rfl
    exact absurd hc (by decide)
  refine ⟨hsigma, ?_⟩
  rcases lowerChar_cases c with ⟨-, hlower⟩ | ⟨hdotted, -⟩ | ⟨-, hlower⟩ |
    ⟨run, hrun, -, hcovers, -⟩
  · have hsame : isBlank c = true → asciiLowerChar c = c :=
      asciiLowerChar_cases (p := fun c d => isBlank c = true → d = c) (fun _ _ => rfl)
        (by decide) c
    rw [hlower, hsame hc]
  · rw [← Char.ofNat_toNat c, hdotted] at hc
    exact absurd hc (by decide)
  · exact hlower
  · have hmiss : missBlanks (caseRuns.map fun run => (run.first, run.last)) = true := by
      decide +kernel
    have hinside := List.any_eq_false.mp (inRanges_of_isBlank hmiss hc) _
      (List.mem_map_of_mem hrun)
    simp only [CaseRun.covers, Bool.and_eq_true, decide_eq_true_eq] at hcovers hinside
    exact absurd hcovers.1 hinside

/-- What has no other case stays in front of a text in lower case. -/
theorem lowerAfter_append_of_isSmall (before : List Char) {start : List Char}
    (hstart : ∀ c ∈ start, IsSmall c) (cs : List Char) :
    lowerAfter before (start ++ cs) = start ++ lowerAfter (start.reverse ++ before) cs := by
  induction start generalizing before with
  | nil => rfl
  | cons c start ih =>
      obtain ⟨⟨hsigma, hlowered⟩, hrest⟩ := List.forall_mem_cons.mp hstart
      rw [List.cons_append, lowerAfter, if_neg hsigma, hlowered, ih _ hrest]
      simp

section Around

variable {front back : List Char} (hfront : ∀ c ∈ front, isBlank c = true)
  (hback : ∀ c ∈ back, isBlank c = true)

include hback in
/-- No sigma looks past a blank. -/
theorem nextIsCased_append_blanks (cs : List Char) :
    nextIsCased (cs ++ back) = nextIsCased cs := by
  induction cs with
  | nil =>
      cases back with
      | nil => rfl
      | cons c rest =>
          have hc := hback c List.mem_cons_self
          simp [nextIsCased, isCaseIgnorable_of_isBlank hc, isCased_of_isBlank hc]
  | cons c cs ih =>
      unfold nextIsCased at ih ⊢
      rw [List.cons_append, List.dropWhile_cons, List.dropWhile_cons]
      cases isCaseIgnorable c with
      | true => exact ih
      | false => rfl

include hfront hback in
theorem lowerAfter_append_blanks (before cs : List Char) :
    lowerAfter (before ++ front) (cs ++ back) = lowerAfter before cs ++ back := by
  induction cs generalizing before with
  | nil => exact lowerAfter_of_isSmall _ fun c hmem => isSmall_of_isBlank (hback c hmem)
  | cons c cs ih =>
      have hrest := ih (c :: before)
      rw [List.cons_append] at hrest
      rw [List.cons_append, lowerAfter, lowerAfter, nextIsCased_append_blanks hfront,
        nextIsCased_append_blanks hback, hrest, List.append_assoc]

include hfront hback in
/-- Blanks around a text do not change its lower-case form. -/
theorem lowerChars_append_blanks (text : List Char) :
    lowerChars (front ++ (text ++ back)) = front ++ (lowerChars text ++ back) := by
  have hsmall : ∀ c ∈ front, IsSmall c := fun c hmem => isSmall_of_isBlank (hfront c hmem)
  have hbefore : ∀ c ∈ front.reverse, isBlank c = true := fun c hmem =>
    hfront c (List.mem_reverse.mp hmem)
  have hafter := lowerAfter_append_blanks hbefore hback [] text
  rw [List.nil_append] at hafter
  rw [lowerChars, lowerAfter_append_of_isSmall [] hsmall, List.append_nil, hafter, lowerChars]

end Around

/-- A text may be trimmed before it is put in lower case or after it. -/
theorem strip_lowerChars (cs : List Char) : strip (lowerChars cs) = lowerChars (strip cs) := by
  obtain ⟨front, back, heq, hfront, hback⟩ := exists_around_strip cs
  calc strip (lowerChars cs)
      = strip (lowerChars (front ++ (strip cs ++ back))) := by rw [← heq]
    _ = strip (lowerChars (strip cs)) := by
      rw [lowerChars_append_blanks hfront hback, strip_append _ hfront hback]
    _ = lowerChars (strip cs) :=
      strip_eq_self (fun _ => isBlank_of_head?_lowerAfter fun _ => isBlank_of_head?_strip)
        fun _ => isBlank_of_getLast?_lowerAfter fun _ => isBlank_of_getLast?_strip

end Winnow.Text
