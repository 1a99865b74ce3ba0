import Winnow.Text.Lines

/-!
# Lines of texts

Unifying the line ends of a text goes part by part, except that a carriage return at the end of
one part and a line feed at the start of the next are one line end. In a text that starts with
characters that end no line, these are the start of its first line.
-/

namespace Winnow.Text

theorem unifyLineEnds_cons {c : Char} (hc : c ≠ '\r') (cs : List Char) :
    unifyLineEnds (c :: cs) = c :: unifyLineEnds cs := by
  rw [unifyLineEnds]
  · rw [if_neg hc]
  · rintro rest rfl
    exact absurd rfl hc

/-- A carriage return is one line end with a line feed after it, and one alone otherwise. -/
theorem unifyLineEnds_return {cs : List Char} (hcs : cs.head? ≠ some '\n') :
    unifyLineEnds ('\r' :: cs) = '\n' :: unifyLineEnds cs := by
  rw [unifyLineEnds]
  · rfl
  · rintro rest - rfl
    exact hcs rfl

theorem unifyLineEnds_append {front : List Char} (hfront : '\r' ∉ front) (back : List Char) :
    unifyLineEnds (front ++ back) = front ++ unifyLineEnds back := by
  induction front with
  | nil => rfl
  | cons c cs ih =>
      have hc : c ≠ '\r' := fun h => hfront (h ▸ List.mem_cons_self)
      have hcs : '\r' ∉ cs := fun h => hfront (List.mem_cons_of_mem _ h)
      rw [List.cons_append, unifyLineEnds_cons hc, ih hcs, List.cons_append]

theorem unifyLineEnds_of_not_mem {cs : List Char} (hcs : '\r' ∉ cs) : unifyLineEnds cs = cs := by
  have happend := unifyLineEnds_append hcs []
  rw [unifyLineEnds, List.append_nil] at happend
  exact happend

/-- Induction along the line ends of a text. -/
theorem lineEnds_induction {p : List Char → Prop} (nil : p [])
    (pair : ∀ cs, p cs → p ('\r' :: '\n' :: cs))
    (alone : ∀ cs, cs.head? ≠ some '\n' → p cs → p ('\r' :: cs))
    (other : ∀ c cs, c ≠ '\r' → p cs → p (c :: cs)) (cs : List Char) : p cs := by
  induction cs using unifyLineEnds.induct with
  | case1 => exact nil
  | case2 cs ih => exact pair cs ih
  | case3 c cs hpair ih =>
      by_cases hc : c = '\r'
      · subst hc
        refine alone cs (fun hhead => ?_) ih
        obtain ⟨rest, rfl⟩ := List.head?_eq_some_iff.mp hhead
        exact hpair rest rfl rfl
      · exact other c cs hc ih

theorem unifyLineEnds_append_of_head? {back : List Char} (hback : back.head? ≠ some '\n')
    (front : List Char) :
    unifyLineEnds (front ++ back) = unifyLineEnds front ++ unifyLineEnds back := by
  induction front using lineEnds_induction with
  | nil => rfl
  | pair cs ih => exact congrArg ('\n' :: ·) ih
  | alone cs hcs ih =>
      have happend : (cs ++ back).head? ≠ some '\n' := by
        cases cs with
        | nil => exact hback
        | cons c rest => exact hcs
      rw [List.cons_append, unifyLineEnds_return happend, unifyLineEnds_return hcs, ih]
      rfl
  | other c cs hc ih =>
      rw [List.cons_append, unifyLineEnds_cons hc, unifyLineEnds_cons hc, ih]
      rfl

theorem mem_unifyLineEnds {c : Char} (hc : c ≠ '\r') {cs : List Char} (hmem : c ∈ cs) :
    c ∈ unifyLineEnds cs := by
  induction cs using lineEnds_induction with
  | nil => cases hmem
  | pair cs ih =>
      have hrest := (List.mem_cons.mp hmem).resolve_left hc
      change c ∈ '\n' :: unifyLineEnds cs
      exact List.mem_cons.mpr ((List.mem_cons.mp hrest).imp_right ih)
  | alone cs hcs ih =>
      rw [unifyLineEnds_return hcs]
      exact List.mem_cons_of_mem _ (ih ((List.mem_cons.mp hmem).resolve_left hc))
  | other d cs hd ih =>
      rw [unifyLineEnds_cons hd]
      exact List.mem_cons.mpr ((List.mem_cons.mp hmem).imp_right ih)

/-- No carriage return is left. -/
theorem not_mem_unifyLineEnds (cs : List Char) : '\r' ∉ unifyLineEnds cs := by
  induction cs using lineEnds_induction with
  | nil => exact List.not_mem_nil
  | pair cs ih => exact List.not_mem_cons_of_ne_of_not_mem (by decide) ih
  | alone cs hcs ih =>
      rw [unifyLineEnds_return hcs]
      exact List.not_mem_cons_of_ne_of_not_mem (by decide) ih
  | other c cs hc ih =>
      rw [unifyLineEnds_cons hc]
      exact List.not_mem_cons_of_ne_of_not_mem (Ne.symm hc) ih

/-- The line ends of a text before another text are unified by themselves, but for a carriage
return at its end that a line feed follows. -/
theorem exists_unifyLineEnds_append (front back : List Char) :
    ∃ unified, unifyLineEnds (front ++ back) = unified ++ unifyLineEnds back ∧
      ∀ c ∈ unified, c ∈ front ∨ c = '\n' := by
  induction front using lineEnds_induction with
  | nil => exact ⟨[], rfl, fun c hmem => by cases hmem⟩
  | pair cs ih =>
      obtain ⟨unified, happend, hunified⟩ := ih
      refine ⟨'\n' :: unified, congrArg ('\n' :: ·) happend, fun c hmem => ?_⟩
      rcases List.mem_cons.mp hmem with rfl | hrest
      · exact Or.inr rfl
      · exact (hunified c hrest).imp_left fun h => List.mem_cons_of_mem _ (List.mem_cons_of_mem _ h)
  | alone cs hcs ih =>
      by_cases hhead : (cs ++ back).head? = some '\n'
      · -- The carriage return is the last of its text, and the line feed is the next one's.
        cases cs with
        | nil =>
            obtain ⟨rest, rfl⟩ := List.head?_eq_some_iff.mp hhead
            exact ⟨[], by rw [unifyLineEnds_cons (by decide)]; rfl, fun c hmem => by cases hmem⟩
        | cons c rest => exact absurd hhead hcs
      · obtain ⟨unified, happend, hunified⟩ := ih
        refine ⟨'\n' :: unified, ?_, fun c hmem => ?_⟩
        · rw [List.cons_append, unifyLineEnds_return hhead, happend, List.cons_append]
        · rcases List.mem_cons.mp hmem with rfl | hrest
          · exact Or.inr rfl
          · exact (hunified c hrest).imp_left (List.mem_cons_of_mem _)
  | other d cs hd ih =>
      obtain ⟨unified, happend, hunified⟩ := ih
      refine ⟨d :: unified, ?_, fun c hmem => ?_⟩
      · rw [List.cons_append, unifyLineEnds_cons hd, happend, List.cons_append]
      · rcases List.mem_cons.mp hmem with rfl | hrest
        · exact Or.inl List.mem_cons_self
        · exact (hunified c hrest).imp_left (List.mem_cons_of_mem _)

theorem mem_of_mem_unifyLineEnds {cs : List Char} {c : Char} (hmem : c ∈ unifyLineEnds cs) :
    c ∈ cs ∨ c = '\n' := by
  obtain ⟨unified, happend, hunified⟩ := exists_unifyLineEnds_append cs []
  rw [List.append_nil, unifyLineEnds, List.append_nil] at happend
  exact hunified c (happend ▸ hmem)

theorem unifyLineEnds_ne_nil {cs : List Char} (hcs : cs ≠ []) : unifyLineEnds cs ≠ [] := by
  unfold unifyLineEnds
  split
  · exact absurd rfl hcs
  · exact List.cons_ne_nil _ _
  · exact List.cons_ne_nil _ _

/-! ## Words of one line -/

/-- Only the empty word is a prefix of a text that starts with a character not in it. -/
theorem eq_nil_of_begins {word rest : List Char} {c : Char} (hword : c ∉ word)
    (hbegins : word <+: c :: rest) : word = [] := by
  cases word with
  | nil => rfl
  | cons d others =>
      obtain ⟨rfl, -⟩ := List.cons_prefix_cons.mp hbegins
      exact absurd List.mem_cons_self hword

section Words

variable {word : List Char} {f : Char → Char} (hfeed : f '\n' = '\n') (hword : '\n' ∉ word)
include hfeed hword

/-- A word that a text with unified line ends starts with, the text starts with. -/
theorem prefix_of_unifyLineEnds {cs : List Char} (hbegins : word <+: (unifyLineEnds cs).map f) :
    word <+: cs.map f := by
  induction cs using lineEnds_induction generalizing word with
  | nil => exact hbegins
  | pair cs ih =>
      change word <+: f '\n' :: _ at hbegins
      rw [hfeed] at hbegins
      rw [eq_nil_of_begins hword hbegins]
      exact List.nil_prefix
  | alone cs hcs ih =>
      rw [unifyLineEnds_return hcs, List.map_cons, hfeed] at hbegins
      rw [eq_nil_of_begins hword hbegins]
      exact List.nil_prefix
  | other c cs hc ih =>
      rw [unifyLineEnds_cons hc, List.map_cons] at hbegins
      cases word with
      | nil => exact List.nil_prefix
      | cons d others =>
          obtain ⟨rfl, hrest⟩ := List.cons_prefix_cons.mp hbegins
          rw [List.map_cons, List.cons_prefix_cons]
          exact ⟨rfl, ih (fun hmem => hword (List.mem_cons_of_mem _ hmem)) hrest⟩

/-- A word in a text with unified line ends is in the text. -/
theorem infix_of_unifyLineEnds {cs : List Char} (hinside : word <:+: (unifyLineEnds cs).map f) :
    word <:+: cs.map f := by
  have hlater : ∀ rest, word <:+: '\n' :: rest → word <:+: rest := by
    intro rest hinside
    rcases List.infix_cons_iff.mp hinside with hbegins | hrest
    · rw [eq_nil_of_begins hword hbegins]
      exact List.nil_infix
    · exact hrest
  induction cs using lineEnds_induction with
  | nil => exact hinside
  | pair cs ih =>
      change word <:+: f '\n' :: _ at hinside
      rw [hfeed] at hinside
      exact (ih (hlater _ hinside)).trans (List.suffix_append [f '\r', f '\n'] _).isInfix
  | alone cs hcs ih =>
      rw [unifyLineEnds_return hcs, List.map_cons, hfeed] at hinside
      exact (ih (hlater _ hinside)).trans (List.suffix_cons _ _).isInfix
  | other c cs hc ih =>
      have hsame : unifyLineEnds (c :: cs) = c :: unifyLineEnds cs := unifyLineEnds_cons hc cs
      rw [hsame, List.map_cons] at hinside
      rcases List.infix_cons_iff.mp hinside with hbegins | hrest
      · have hwhole : word <+: (unifyLineEnds (c :: cs)).map f := by rwa [hsame, List.map_cons]
        exact (prefix_of_unifyLineEnds hfeed hword hwhole).isInfix
      · exact (ih hrest).trans (List.suffix_cons _ _).isInfix

end Words

/-! ## First lines -/

/-- No character ends a line. -/
def Unbroken (cs : List Char) : Prop := ∀ c ∈ cs, isLineBreak c = false

instance (cs : List Char) : Decidable (Unbroken cs) := List.decidableBAll _ cs

theorem Unbroken.append {front back : List Char} (hfront : Unbroken front)
    (hback : Unbroken back) : Unbroken (front ++ back) :=
  List.forall_mem_append.mpr ⟨hfront, hback⟩

theorem Unbroken.not_mem {cs : List Char} (hcs : Unbroken cs) {c : Char}
    (hbreak : isLineBreak c = true) : c ∉ cs := by
  intro hmem
  rw [hcs c hmem] at hbreak
  cases hbreak

theorem linesAfter_append {front : List Char} (hfront : Unbroken front)
    (current back : List Char) :
    linesAfter current (front ++ back) = linesAfter (front.reverse ++ current) back := by
  induction front generalizing current with
  | nil => rfl
  | cons c cs ih =>
      obtain ⟨hc, hcs⟩ := List.forall_mem_cons.mp hfront
      -- A return ends a line, so the branch for a return with a feed is not the one that is taken.
      have hreturn : c ≠ '\r' := by
        rintro rfl
        cases hc
      rw [List.cons_append, linesAfter, if_neg (by rw [hc]; exact Bool.false_ne_true), ih hcs,
        List.reverse_cons, List.append_assoc, List.singleton_append]
      exact fun rest heq _ => hreturn heq

theorem lines_feed {front : List Char} (hfront : Unbroken front) (back : List Char) :
    lines (front ++ '\n' :: back) = front :: lines back := by
  rw [lines, linesAfter_append hfront, List.append_nil, linesAfter, if_pos (by decide),
    List.reverse_reverse, ← lines]
  rintro rest ⟨⟩

theorem lines_of_unbroken {cs : List Char} (hcs : Unbroken cs) :
    lines cs = if cs = [] then [] else [cs] := by
  have happend := linesAfter_append hcs [] []
  rw [List.append_nil, List.append_nil] at happend
  rw [lines, happend, linesAfter]
  simp

end Winnow.Text
