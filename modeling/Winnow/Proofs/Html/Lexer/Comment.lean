import Mathlib.Data.List.TakeWhile
import Winnow.Html.Lexer.Comment

/-!
# Comments that are written again

The text of a comment that was read never ends a comment before its own end, so it can be
written as a comment again.
-/

namespace Winnow.Html

namespace CommentPlace

/-- The place in a comment after a character, unless the character ends the comment. -/
def after : CommentPlace → Char → Option CommentPlace
  | start, c =>
    if c = '-' then some startDash else if c = nullChar then some start
    else if c = '>' then none else some body
  | startDash, c =>
    if c = '-' then some endDashes else if c = nullChar then some startDash
    else if c = '>' then none else some body
  | body, c => if c = '-' then some endDash else some body
  | endDash, c => if c = '-' then some endDashes else some body
  | endDashes, c =>
    if c = '>' then none else if c = '!' then some bang
    else if c = '-' then some endDashes else some body
  | bang, c => if c = '>' then none else if c = '-' then some endDash else some body

/-- The place in a comment after some text, unless the text ends the comment. -/
def through (place : CommentPlace) (cs : List Char) : Option CommentPlace := cs.foldlM after place

theorem through_append (place : CommentPlace) (front back : List Char) :
    place.through (front ++ back) = (place.through front).bind (·.through back) :=
  List.foldlM_append

/-- What has been read of a comment after a character that goes on with it, in reverse. -/
def gains (place : CommentPlace) (c : Char) (data : List Char) : List Char :=
  if c = '-' then
    match place with
    | endDashes => '-' :: data
    | bang => place.pending ++ data
    | _ => data
  else if c = '!' ∧ place = endDashes then data
  else replaceNull c :: (place.pending ++ data)

/-- Reading a comment goes from place to place, up to a character that ends it. -/
theorem readComment_cons (place : CommentPlace) (data : List Char) (c : Char) (cs : List Char) :
    readComment place data (c :: cs) = match place.after c with
      | some next => readComment next (place.gains c data) cs
      | none => (data.reverse, cs) := by
  rw [readComment.eq_def]
  by_cases hdash : c = '-'
  · subst hdash
    cases place <;> rfl
  · by_cases hbang : c = '!'
    · subst hbang
      cases place <;> rfl
    · by_cases hnull : c = nullChar
      · subst hnull
        cases place <;> rfl
      · by_cases hclose : c = '>'
        · subst hclose
          cases place <;> rfl
        · cases place <;> simp [after, gains, hdash, hbang, hnull, hclose]

theorem exists_readComment_of_through {place next : CommentPlace} {front : List Char}
    (hthrough : place.through front = some next) (data back : List Char) :
    ∃ read, readComment place data (front ++ back) = readComment next read back := by
  induction front generalizing place data with
  | nil =>
      cases hthrough
      exact ⟨data, rfl⟩
  | cons c cs ih =>
      rw [through, List.foldlM_cons] at hthrough
      obtain ⟨middle, hafter, hrest⟩ := Option.bind_eq_some_iff.mp hthrough
      rw [List.cons_append, readComment_cons, hafter]
      exact ih hrest _

/-- Two dashes and a closing bracket end a comment wherever it stands. -/
theorem readComment_end (place : CommentPlace) (data rest : List Char) :
    (readComment place data ('-' :: '-' :: '>' :: rest)).2 = rest := by
  cases place <;> rfl

/-- Reading closes with the end of a comment at the latest. Places that a null character has
kept at the start may differ when the comment is written again. -/
inductive Meets : CommentPlace → CommentPlace → Prop
  | same (place : CommentPlace) : Meets place place
  | start : Meets .start .body
  | startDash : Meets .startDash .endDash

end CommentPlace

/-- A text that may stand in a comment. -/
def IsComment (data : List Char) : Prop :=
  ∃ place, CommentPlace.start.through data = some place

theorem IsComment.readComment {data : List Char} (hdata : IsComment data) (rest : List Char) :
    (readComment .start [] (data ++ '-' :: '-' :: '>' :: rest)).2 = rest := by
  obtain ⟨place, hthrough⟩ := hdata
  obtain ⟨read, hread⟩ := CommentPlace.exists_readComment_of_through hthrough []
    ('-' :: '-' :: '>' :: rest)
  rw [hread, CommentPlace.readComment_end]

theorem IsComment.of_append {front back : List Char} (hdata : IsComment (front ++ back)) :
    IsComment front := by
  obtain ⟨place, hthrough⟩ := hdata
  rw [CommentPlace.through_append] at hthrough
  obtain ⟨middle, hfront, -⟩ := Option.bind_eq_some_iff.mp hthrough
  exact ⟨middle, hfront⟩

/-! ## Comments that were read -/

namespace CommentPlace

theorem through_singleton (place : CommentPlace) (c : Char) : place.through [c] = place.after c := by
  rw [through, List.foldlM_cons]
  cases place.after c <;> rfl

theorem replaceNull_ne {c d : Char} (hne : c ≠ d) (hd : d ≠ replacement) : replaceNull c ≠ d := by
  unfold replaceNull
  split
  · exact hd.symm
  · exact hne

/-- An ordinary character goes on with the comment from every place. -/
theorem after_body {place : CommentPlace} {c : Char} (hdash : c ≠ '-') (hnull : c ≠ nullChar)
    (hclose : c = '>' → place = .body ∨ place = .endDash)
    (hbang : c = '!' → place ≠ .endDashes) : place.after c = some .body := by
  cases place with
  | start => simp [after, hdash, hnull, show c ≠ '>' from fun h => by simpa using hclose h]
  | startDash => simp [after, hdash, hnull, show c ≠ '>' from fun h => by simpa using hclose h]
  | body => simp [after, hdash]
  | endDash => simp [after, hdash]
  | endDashes =>
      simp [after, hdash, show c ≠ '>' from fun h => by simpa using hclose h,
        show c ≠ '!' from fun h => by simpa using hbang h]
  | bang => simp [after, hdash, show c ≠ '>' from fun h => by simpa using hclose h]

/-- What a comment gains is read again, up to a place that meets the one that was reached. -/
theorem Meets.exists_through {place met next : CommentPlace} (hmeets : place.Meets met) {c : Char}
    (hafter : place.after c = some next) :
    ∃ written reached, met.through written = some reached ∧ next.Meets reached ∧
      ∀ data, (place.gains c data).reverse ++ next.pending.reverse =
        data.reverse ++ place.pending.reverse ++ written := by
  by_cases hdash : c = '-'
  · subst hdash
    refine ⟨['-'], ?_⟩
    cases hmeets with
    | same =>
        cases place <;> cases hafter <;>
          exact ⟨_, rfl, .same _, fun data => by simp [gains, pending]⟩
    | start =>
        cases hafter
        exact ⟨_, rfl, .startDash, fun data => by simp [gains, pending]⟩
    | startDash =>
        cases hafter
        exact ⟨_, rfl, .same _, fun data => by simp [gains, pending]⟩
  by_cases hbang : c = '!' ∧ place = .endDashes
  · obtain ⟨rfl, rfl⟩ := hbang
    cases hmeets
    cases hafter
    exact ⟨['!'], .bang, rfl, .same _, fun data => by simp [gains, pending]⟩
  have hgains : ∀ data, place.gains c data = replaceNull c :: (place.pending ++ data) :=
    fun data => (if_neg hdash).trans (if_neg hbang)
  by_cases hnull : c = nullChar
  · -- A null character keeps its place at the start, where what it becomes does not.
    subst hnull
    cases place with
    | startDash =>
        cases hafter
        refine ⟨[replaceNull nullChar, '-'], .endDash, ?_, .startDash, fun data => ?_⟩
        · cases hmeets <;> rfl
        · simp [hgains, pending]
    | start =>
        cases hafter
        refine ⟨[replaceNull nullChar], .body, ?_, .start, fun data => ?_⟩
        · cases hmeets <;> rfl
        · simp [hgains, pending]
    | _ =>
        cases hmeets
        cases hafter
        exact ⟨[replaceNull nullChar], .body, rfl, .same _, fun data => by simp [hgains, pending]⟩
  have hbody : next = .body ∧ (c = '>' → place = .body ∨ place = .endDash) := by
    cases place <;> simp_all [after]
  obtain ⟨rfl, hclose⟩ := hbody
  refine ⟨[c], .body, ?_, .same _, fun data => ?_⟩
  · rw [through_singleton]
    refine after_body hdash hnull ?_ ?_
    · cases hmeets <;> simp_all
    · cases hmeets <;> simp_all
  · rw [hgains, replaceNull, if_neg hnull]
    simp [pending]

end CommentPlace

theorem isComment_of_readComment_at {place met : CommentPlace} {data : List Char}
    (hmeets : place.Meets met)
    (hthrough : CommentPlace.start.through (data.reverse ++ place.pending.reverse) = some met)
    (input : List Char) : IsComment (readComment place data input).1 := by
  induction input generalizing place met data with
  | nil => exact IsComment.of_append ⟨met, hthrough⟩
  | cons c cs ih =>
      rw [CommentPlace.readComment_cons]
      cases hafter : place.after c with
      | none => exact IsComment.of_append ⟨met, hthrough⟩
      | some next =>
          obtain ⟨written, reached, hwritten, hnext, htext⟩ := hmeets.exists_through hafter
          refine ih hnext ?_
          rw [htext, CommentPlace.through_append, hthrough]
          exact hwritten

theorem isComment_of_readComment (input : List Char) :
    IsComment (readComment .start [] input).1 :=
  isComment_of_readComment_at (.same .start) rfl input

/-- A text without a closing bracket may stand in a comment. -/
theorem isComment_of_not_mem {data : List Char} (hclose : '>' ∉ data) : IsComment data := by
  suffices hgeneral : ∀ place : CommentPlace, ∃ next, place.through data = some next from
    hgeneral .start
  induction data with
  | nil => exact fun place => ⟨place, rfl⟩
  | cons c cs ih =>
      intro place
      have hc : c ≠ '>' := fun h => hclose (h ▸ List.mem_cons_self)
      obtain ⟨middle, hafter⟩ : ∃ middle, place.after c = some middle := by
        cases place <;> simp only [CommentPlace.after, if_neg hc] <;> (repeat' split) <;> simp
      obtain ⟨next, hrest⟩ := ih (fun h => hclose (List.mem_cons_of_mem _ h)) middle
      refine ⟨next, ?_⟩
      rw [CommentPlace.through, List.foldlM_cons, hafter]
      exact hrest

theorem isComment_readBogusComment (input : List Char) :
    IsComment (readBogusComment input).1 := by
  refine isComment_of_not_mem fun hmem => ?_
  obtain ⟨c, hc, hnull⟩ := List.mem_map.mp hmem
  have hne : c ≠ '>' := by simpa using List.mem_takeWhile_imp hc
  exact CommentPlace.replaceNull_ne hne (by decide) hnull

end Winnow.Html
