import Winnow.Proofs.Html.Lexer.Segment
import Winnow.Proofs.Text.Lines

/-!
# Line ends in written markup

A document is read with its line ends unified. They stand in texts, in comments and between
quotes, so the parts of written markup stay the same but for those.
-/

namespace Winnow.Html

/-- An attribute with the line ends of its value unified. -/
def Field.unified (field : Field) : Field :=
  { field with value := field.value.map fun value => (value.1, Text.unifyLineEnds value.2) }

/-- A part of written markup with its line ends unified. -/
def Segment.unified : Segment → Segment
  | .text data => .text (Text.unifyLineEnds data)
  | .startTag name fields => .startTag name (fields.map Field.unified)
  | .endTag name => .endTag name
  | .comment data => .comment (Text.unifyLineEnds data)

open Segment

theorem not_mem_of_isNameChar {name : List Char} (hname : ∀ c ∈ name, isNameChar c = true) :
    '\r' ∉ name := by
  intro hmem
  have hreturn := hname '\r' hmem
  revert hreturn
  decide

theorem IsFieldName.return_not_mem {name : List Char} (hname : IsFieldName name) :
    '\r' ∉ name := by
  obtain ⟨c, cs, rfl, hc, hcs⟩ := hname
  refine not_mem_of_isNameChar fun d hmem => ?_
  rcases List.mem_cons.mp hmem with rfl | hrest
  · exact hc
  · exact (hcs d hrest).1

theorem IsTagName.return_not_mem {name : List Char} (hname : IsTagName name) : '\r' ∉ name := by
  obtain ⟨c, cs, rfl, hc, hcs⟩ := hname
  refine List.not_mem_cons_of_ne_of_not_mem ?_ (not_mem_of_isNameChar hcs)
  exact (Lexer.ne_of_isAsciiLetter hc (by decide)).symm

theorem Field.unifyLineEnds_append {field : Field} (hfield : field.unified.Sound)
    (back : List Char) : Text.unifyLineEnds (field.chars ++ back) =
      field.unified.chars ++ Text.unifyLineEnds back := by
  have hnot : '\r' ∉ field.name := hfield.name.return_not_mem
  have hname : '\r' ∉ ' ' :: field.name := List.not_mem_cons_of_ne_of_not_mem (by decide) hnot
  unfold Field.chars
  cases hvalue : field.value with
  | none =>
      have hunified : field.unified.value = none := by rw [Field.unified, hvalue]; rfl
      rw [hunified]
      dsimp only
      rw [List.append_nil, List.append_nil]
      exact Text.unifyLineEnds_append hname back
  | some value =>
      obtain ⟨quote, text⟩ := value
      have hunified : field.unified.value = some (quote, Text.unifyLineEnds text) := by
        rw [Field.unified, hvalue]
        rfl
      obtain ⟨hquote, -⟩ := hfield.value _ _ hunified
      obtain ⟨hreturn, hfeed⟩ : quote ≠ '\r' ∧ quote ≠ '\n' := by
        rcases hquote with rfl | rfl
        · decide
        · decide
      have hfront : '\r' ∉ ' ' :: field.name ++ ['=', quote] := by
        simp [hnot, hreturn.symm]
      have hcut : ' ' :: field.name ++ ('=' :: quote :: text ++ [quote]) ++ back =
          (' ' :: field.name ++ ['=', quote]) ++ (text ++ quote :: back) := by simp
      rw [hunified]
      dsimp only
      rw [hcut, Text.unifyLineEnds_append hfront,
        Text.unifyLineEnds_append_of_head? (by simpa using hfeed), Text.unifyLineEnds_cons hreturn]
      simp [Field.unified]

theorem unifyLineEnds_fields {fields : List Field}
    (hfields : ∀ field ∈ fields, field.unified.Sound) (back : List Char) :
    Text.unifyLineEnds (fields.flatMap Field.chars ++ back) =
      (fields.map Field.unified).flatMap Field.chars ++ Text.unifyLineEnds back := by
  induction fields with
  | nil => rfl
  | cons field fields ih =>
      rw [List.flatMap_cons, List.append_assoc,
        Field.unifyLineEnds_append (hfields field List.mem_cons_self),
        ih fun other hmem => hfields other (List.mem_cons_of_mem _ hmem), List.map_cons,
        List.flatMap_cons, List.append_assoc]

/-- Line ends are unified part by part, up to a line feed between texts. -/
theorem exists_unifyLineEnds_flat {source : Source} {expand : Bool} {segments : List Segment}
    (hsound : ∀ segment ∈ segments, segment.unified.Sound source expand) :
    ∃ parts, Text.unifyLineEnds (flat segments) = flat parts ∧
      ∀ part ∈ parts, part.Sound source expand := by
  induction segments with
  | nil => exact ⟨[], rfl, fun part hmem => by cases hmem⟩
  | cons segment segments ih =>
      obtain ⟨parts, hparts, hall⟩ :=
        ih fun other hmem => hsound other (List.mem_cons_of_mem _ hmem)
      have hsegment := hsound segment List.mem_cons_self
      have hcons : ∀ part : Segment, part.Sound source expand →
          ∀ other ∈ part :: parts, other.Sound source expand := by
        intro part hpart other hmem
        rcases List.mem_cons.mp hmem with rfl | hrest
        · exact hpart
        · exact hall other hrest
      have hsame : Text.unifyLineEnds (segment.chars ++ flat segments) =
          segment.unified.chars ++ Text.unifyLineEnds (flat segments) →
          ∃ parts, Text.unifyLineEnds (flat (segment :: segments)) = flat parts ∧
            ∀ part ∈ parts, part.Sound source expand := by
        intro hchars
        refine ⟨segment.unified :: parts, ?_, hcons _ hsegment⟩
        rw [flat_cons, flat_cons, hchars, hparts]
      cases segment with
      | text data =>
          obtain ⟨unified, happend, hunified⟩ :=
            Text.exists_unifyLineEnds_append data (flat segments)
          have hnone : '<' ∉ Text.unifyLineEnds data := hsegment
          refine ⟨.text unified :: parts, ?_, hcons _ fun hmem => ?_⟩
          · rw [flat_cons, flat_cons, ← hparts]
            exact happend
          · rcases hunified '<' hmem with hdata | hfeed
            · exact hnone (Text.mem_unifyLineEnds (by decide) hdata)
            · revert hfeed
              decide
      | startTag name fields =>
          obtain ⟨hname, -, hfields⟩ := hsegment
          have heach : ∀ field ∈ fields, field.unified.Sound := fun field hmem =>
            (hfields field.unified (List.mem_map_of_mem hmem)).1
          apply hsame
          simp only [chars, Segment.unified, List.cons_append, List.append_assoc, List.nil_append]
          rw [Text.unifyLineEnds_cons (by decide),
            Text.unifyLineEnds_append hname.return_not_mem, unifyLineEnds_fields heach,
            Text.unifyLineEnds_cons (by decide)]
      | endTag name =>
          have hname : IsTagName name := hsegment
          apply hsame
          simp only [chars, Segment.unified, List.cons_append, List.append_assoc, List.nil_append]
          rw [Text.unifyLineEnds_cons (by decide), Text.unifyLineEnds_cons (by decide),
            Text.unifyLineEnds_append hname.return_not_mem, Text.unifyLineEnds_cons (by decide)]
      | comment data =>
          apply hsame
          simp only [chars, Segment.unified, List.cons_append, List.append_assoc, List.nil_append]
          rw [Text.unifyLineEnds_cons (by decide), Text.unifyLineEnds_cons (by decide),
            Text.unifyLineEnds_cons (by decide), Text.unifyLineEnds_cons (by decide),
            Text.unifyLineEnds_append_of_head? (by simp), Text.unifyLineEnds_cons (by decide),
            Text.unifyLineEnds_cons (by decide), Text.unifyLineEnds_cons (by decide)]

/-- Line ends are part of a comment in either form. -/
theorem IsComment.unified {data : List Char} (hdata : IsComment data) :
    IsComment (Text.unifyLineEnds data) := by
  have hbody : ∀ (place : CommentPlace) (c : Char), c = '\r' ∨ c = '\n' →
      place.after c = some .body := by
    rintro place c (rfl | rfl)
    · cases place <;> rfl
    · cases place <;> rfl
  have hcons : ∀ (place : CommentPlace) (c : Char) (cs : List Char),
      place.through (c :: cs) = (place.after c).bind (·.through cs) := by
    intro place c cs
    rw [← List.singleton_append, CommentPlace.through_append, CommentPlace.through_singleton]
  have hsame : ∀ (data : List Char) (place : CommentPlace),
      place.through (Text.unifyLineEnds data) = place.through data := by
    intro data
    induction data using Text.lineEnds_induction with
    | nil => exact fun _ => rfl
    | pair cs ih =>
        intro place
        change place.through ('\n' :: Text.unifyLineEnds cs) = _
        rw [hcons, hcons, hbody place '\n' (Or.inr rfl), hbody place '\r' (Or.inl rfl),
          Option.bind_some, Option.bind_some, hcons, hbody .body '\n' (Or.inr rfl)]
        exact ih .body
    | alone cs hhead ih =>
        intro place
        rw [Text.unifyLineEnds_return hhead, hcons, hcons, hbody place '\n' (Or.inr rfl),
          hbody place '\r' (Or.inl rfl)]
        exact ih .body
    | other c cs hc ih =>
        intro place
        rw [Text.unifyLineEnds_cons hc, hcons, hcons]
        exact congrArg _ (funext ih)
  obtain ⟨place, hthrough⟩ := hdata
  exact ⟨place, (hsame data .start).trans hthrough⟩

/-- A lexer for written markup follows its parts. -/
theorem Lexer.follows_ofString {source : Source} {expand : Bool} {segments : List Segment}
    (hsound : ∀ segment ∈ segments, segment.unified.Sound source expand) :
    (Lexer.ofString (String.ofList (flat segments)) expand).Follows source := by
  obtain ⟨parts, hparts, hall⟩ := exists_unifyLineEnds_flat hsound
  refine ⟨rfl, parts, hall, [], ?_, List.not_mem_nil⟩
  change Text.unifyLineEnds (String.ofList (flat segments)).toList = _
  rw [String.toList_ofList]
  exact hparts

end Winnow.Html
