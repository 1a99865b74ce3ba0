import Winnow.Proofs.Html.Lexer.Read
import Winnow.Proofs.Html.Lexer.Written

/-!
# Reading written markup

Written markup is a list of texts, tags and comments. As long as nothing asks for content that
is read as text, the tags that are read of it are those that were written.
-/

namespace Winnow.Html

/-- A part of written markup. -/
inductive Segment where
  | text (data : List Char)
  | startTag (name : List Char) (fields : List Field)
  | endTag (name : List Char)
  | comment (data : List Char)

namespace Segment

/-- How a part is written. -/
def chars : Segment → List Char
  | text data => data
  | startTag name fields => '<' :: (name ++ (fields.flatMap Field.chars ++ ['>']))
  | endTag name => '<' :: '/' :: (name ++ ['>'])
  | comment data => '<' :: '!' :: '-' :: '-' :: (data ++ ['-', '-', '>'])

/-- Written markup. -/
def flat (segments : List Segment) : List Char := segments.flatMap chars

/-- A part that says nothing but what a source may say. -/
def Sound (source : Source) (expand : Bool) : Segment → Prop
  | text data => '<' ∉ data
  | startTag name fields =>
    IsTagName name ∧ source.tag (String.ofList (lowered name)) ∧
      ∀ field ∈ fields, field.Sound ∧ ∀ value, field.reads expand = .ok value →
        source.pair (String.ofList (lowered field.name)) (String.ofList value)
  | endTag name => IsTagName name
  | comment data => IsComment data ∧ ∀ read, source.comment read

theorem flat_cons (segment : Segment) (segments : List Segment) :
    flat (segment :: segments) = segment.chars ++ flat segments := List.flatMap_cons

end Segment

open Segment

/-! ## Single parts -/

namespace Lexer

variable {source : Source} {lexer next : Lexer} {tokens : List Token} {foreign : Bool}
  {name rest : List Char}

theorem noteStart_eq (lexer : Lexer) (tokens : List Token) :
    ∃ lastStart, lexer.noteStart tokens = { lexer with lastStart := lastStart } := by
  unfold noteStart
  split
  · exact ⟨_, rfl⟩
  · exact ⟨lexer.lastStart, rfl⟩

theorem ne_of_isAsciiLetter {c d : Char} (hc : Text.isAsciiLetter c = true)
    (hd : Text.isAsciiLetter d = false) : c ≠ d := by
  rintro rfl
  rw [hc] at hd
  cases hd

theorem readMarkup_start {c : Char} (hc : Text.isAsciiLetter c = true) (cs : List Char) :
    lexer.readMarkup foreign (c :: cs) =
      lexer.readTag false { name := [Text.asciiLowerChar c] } cs := by
  have hne := fun d => ne_of_isAsciiLetter (d := d) hc
  unfold readMarkup
  split
  next heq => exact absurd (List.cons.inj heq).1 (hne '!' (by decide))
  next heq => exact absurd (List.cons.inj heq).1 (hne '/' (by decide))
  next heq => exact absurd (List.cons.inj heq).1 (hne '/' (by decide))
  next heq => exact absurd (List.cons.inj heq).1 (hne '>' (by decide))
  next heq => exact absurd (List.cons.inj heq).1 (hne '?' (by decide))
  next heq =>
    obtain ⟨rfl, rfl⟩ := List.cons.inj heq
    exact if_pos hc
  next heq => cases heq

theorem readMarkup_end {c : Char} (hc : Text.isAsciiLetter c = true) (cs : List Char) :
    lexer.readMarkup foreign ('/' :: c :: cs) =
      lexer.readTag true { name := [Text.asciiLowerChar c] } cs :=
  if_pos hc

theorem exists_of_reads {expand : Bool} {fields : List Field}
    {pairs : List (List Char × List Char)} (hreads : TagDraft.Reads expand fields pairs)
    {entry : String × String} (hmem : entry ∈ TagDraft.texts pairs) :
    ∃ field ∈ fields, ∃ value, field.reads expand = .ok value ∧
      entry = (String.ofList (lowered field.name), String.ofList value) := by
  induction hreads with
  | nil => cases hmem
  | @cons field pair fields pairs hfirst hrest ih =>
      rcases List.mem_cons.mp hmem with rfl | hlater
      · exact ⟨field, List.mem_cons_self, pair.2, hfirst.2, by rw [← hfirst.1]⟩
      · obtain ⟨other, hother, value, hvalue, hentry⟩ := ih hlater
        exact ⟨other, List.mem_cons_of_mem _ hother, value, hvalue, hentry⟩

/-- A written start tag is read as what it says, and reading goes on after it. -/
theorem readTag_start {c : Char} {ds : List Char} {fields : List Field}
    (hsound : (startTag (c :: ds) fields).Sound source lexer.expand)
    (hok : lexer.readTag false { name := [Text.asciiLowerChar c] }
      (ds ++ (fields.flatMap Field.chars ++ '>' :: rest)) = .ok (tokens, next)) :
    (∀ token ∈ tokens, source.Yields False token) ∧
      ∃ lastStart, next = { lexer with
        input := rest, model := .markup, lastStart := lastStart } := by
  obtain ⟨⟨d, es, heq, -, hds⟩, htag, hfields⟩ := hsound
  obtain ⟨rfl, rfl⟩ := List.cons.inj heq
  obtain ⟨read, hrun, hresult⟩ := Fault.exists_of_bind_eq_ok hok
  obtain ⟨final, pairs, rfl, hreads, hname, hlist⟩ :=
    TagDraft.exists_of_run_tag hds (fun field hmem => (hfields field hmem).1) hrun
  cases hresult
  refine ⟨fun token hmem => ?_, noteStart_eq _ _⟩
  rcases List.mem_append.mp hmem with hproblem | htoken
  · exact TagDraft.yields_problemTokens source final token hproblem
  · cases List.mem_singleton.mp htoken
    refine ⟨⟨hname ▸ htag, fun entry hentry => ?_⟩, fun h => h.elim⟩
    have hlisted : entry ∈ TagDraft.texts pairs := hlist ▸ Assoc.mem_of_mem_ofPairsFirst hentry
    obtain ⟨field, hfield, value, hvalue, rfl⟩ := exists_of_reads hreads hlisted
    exact (hfields field hfield).2 value hvalue

/-- A written end tag is read up to its end. -/
theorem readTag_end {c : Char} {ds : List Char} (hname : IsTagName (c :: ds))
    (hok : lexer.readTag true { name := [Text.asciiLowerChar c] } (ds ++ '>' :: rest) =
      .ok (tokens, next)) :
    ∃ lastStart, next = { lexer with
      input := rest, model := .markup, lastStart := lastStart } := by
  obtain ⟨d, es, heq, -, hds⟩ := hname
  obtain ⟨rfl, rfl⟩ := List.cons.inj heq
  obtain ⟨read, hrun, hresult⟩ := Fault.exists_of_bind_eq_ok hok
  have hnone : ∀ field ∈ ([] : List Field), field.Sound := by simp
  obtain ⟨final, pairs, rfl, -⟩ := TagDraft.exists_of_run_tag hds hnone hrun
  cases hresult
  exact noteStart_eq _ _

/-- What a part that starts with a bracket is read as. -/
theorem readMarkup_part {part : Segment} {cs : List Char}
    (hok : lexer.readMarkup foreign (cs ++ rest) = .ok (tokens, next))
    (hsound : part.Sound source lexer.expand) (hchars : part.chars = '<' :: cs) :
    (∀ token ∈ tokens, source.Yields False token) ∧ next.input = rest ∧
      next.expand = lexer.expand ∧ (lexer.model = .markup → next.model = .markup) := by
  cases part with
  | text data =>
      obtain rfl : data = '<' :: cs := hchars
      have hmem : '<' ∈ '<' :: cs := List.mem_cons_self
      exact absurd hmem hsound
  | startTag name fields =>
      obtain ⟨c, ds, rfl, hc, -⟩ := hsound.1
      obtain rfl := (List.cons.inj hchars).2
      rw [List.append_assoc, List.append_assoc, List.cons_append, readMarkup_start hc] at hok
      obtain ⟨hyields, lastStart, rfl⟩ := readTag_start hsound hok
      exact ⟨hyields, rfl, rfl, fun _ => rfl⟩
  | endTag name =>
      have hname : IsTagName name := hsound
      obtain ⟨c, ds, rfl, hc, -⟩ := hname
      obtain rfl := (List.cons.inj hchars).2
      rw [List.cons_append, List.append_assoc, List.cons_append, readMarkup_end hc] at hok
      have hyields := yields_of_readTag_end source hok
      obtain ⟨lastStart, rfl⟩ := readTag_end hsound hok
      exact ⟨hyields, rfl, rfl, fun _ => rfl⟩
  | comment data =>
      obtain ⟨hcomment, hany⟩ := hsound
      obtain rfl := (List.cons.inj hchars).2
      have hrest := hcomment.readComment rest
      rw [List.cons_append, List.cons_append, List.cons_append, List.append_assoc] at hok
      cases hok
      exact ⟨yields_singleton (hany _), hrest, rfl, id⟩

end Lexer

/-! ## Text between parts -/

/-- Text without an opening bracket, before the end of the input or an opening bracket. -/
structure Stretch (input tail : List Char) : Prop where
  text : ∃ front, input = front ++ tail ∧ '<' ∉ front
  tail : tail = [] ∨ ∃ cs, tail = '<' :: cs

namespace Stretch

variable {input tail : List Char}

/-- The parts of written markup begin after some text. -/
theorem exists_of_parts {source : Source} {expand : Bool} {segments : List Segment}
    (hsound : ∀ segment ∈ segments, segment.Sound source expand) {front : List Char}
    (hfront : '<' ∉ front) :
    ∃ parts, Stretch (front ++ flat segments) (flat parts) ∧
      (∀ part ∈ parts, part.Sound source expand) ∧
      (parts = [] ∨ ∃ part rest cs, parts = part :: rest ∧ part.chars = '<' :: cs) := by
  induction segments generalizing front with
  | nil => exact ⟨[], ⟨⟨front, rfl, hfront⟩, Or.inl rfl⟩, hsound, Or.inl rfl⟩
  | cons segment segments ih =>
      have hopen : ∀ cs, segment.chars = '<' :: cs → ∃ parts,
          Stretch (front ++ flat (segment :: segments)) (flat parts) ∧
          (∀ part ∈ parts, part.Sound source expand) ∧
          (parts = [] ∨ ∃ part rest cs, parts = part :: rest ∧ part.chars = '<' :: cs) := by
        intro cs hchars
        refine ⟨segment :: segments, ⟨⟨front, rfl, hfront⟩, Or.inr ⟨cs ++ flat segments, ?_⟩⟩,
          hsound, Or.inr ⟨segment, segments, cs, rfl, hchars⟩⟩
        rw [flat_cons, hchars, List.cons_append]
      cases segment with
      | text data =>
          have hdata : '<' ∉ data := hsound (.text data) List.mem_cons_self
          have hboth : '<' ∉ front ++ data := by
            rw [List.mem_append]
            exact fun h => h.elim hfront hdata
          have hrest := fun other hmem => hsound other (List.mem_cons_of_mem _ hmem)
          obtain ⟨parts, hstretch, hparts⟩ := ih hrest hboth
          refine ⟨parts, ?_, hparts⟩
          rw [List.append_assoc] at hstretch
          exact hstretch
      | startTag name fields => exact hopen _ rfl
      | endTag name => exact hopen _ rfl
      | comment data => exact hopen _ rfl

variable (hstretch : Stretch input tail)
include hstretch

/-- After one character that is no bracket the text goes on. -/
theorem of_cons {c : Char} {cs : List Char} (heq : input = c :: cs) (hc : c ≠ '<') :
    Stretch cs tail := by
  obtain ⟨⟨front, happend, hfront⟩, htail⟩ := hstretch
  refine ⟨?_, htail⟩
  cases front with
  | nil =>
      rcases htail with rfl | ⟨ds, rfl⟩
      · cases heq.symm.trans happend
      · exact absurd (List.cons.inj (heq.symm.trans happend)).1 hc
  | cons d ds =>
      obtain ⟨-, rfl⟩ := List.cons.inj (heq.symm.trans happend)
      exact ⟨ds, rfl, fun hmem => hfront (List.mem_cons_of_mem _ hmem)⟩

/-- At an opening bracket the text is over. -/
theorem eq_of_cons {cs : List Char} (heq : input = '<' :: cs) : tail = '<' :: cs := by
  obtain ⟨⟨front, happend, hfront⟩, -⟩ := hstretch
  cases front with
  | nil => exact happend.symm.trans heq
  | cons d ds =>
      obtain ⟨rfl, -⟩ := List.cons.inj (heq.symm.trans happend)
      exact absurd List.mem_cons_self hfront

theorem dropWhile {p : Char → Bool} (hp : p '<' = false) : Stretch (input.dropWhile p) tail := by
  obtain ⟨⟨front, rfl, hfront⟩, htail⟩ := hstretch
  refine ⟨⟨front.dropWhile p, ?_, ?_⟩, htail⟩
  · rcases htail with rfl | ⟨cs, rfl⟩
    · rw [List.append_nil, List.append_nil]
    · exact (Entity.takeWhile_append_of_stop hp front cs).2
  · exact fun hmem => hfront ((List.dropWhile_sublist p).subset hmem)

/-- A reference takes nothing beyond the text. -/
theorem drop_of_read {inAttribute : Bool} {closing : Option Char} {text : List Char} {taken : Nat}
    (hok : Entity.read inAttribute closing input = .ok (text, taken)) :
    Stretch (input.drop taken) tail := by
  obtain ⟨⟨front, rfl, hfront⟩, htail⟩ := hstretch
  have hdropped : '<' ∉ front.drop taken := fun hmem => hfront (List.mem_of_mem_drop hmem)
  refine ⟨⟨front.drop taken, ?_, hdropped⟩, htail⟩
  rcases htail with rfl | ⟨cs, rfl⟩
  · rw [List.append_nil, List.append_nil]
  · have hle := (Entity.stops (by decide) inAttribute closing front cs).le hok
    exact List.drop_append_of_le_length hle

end Stretch

/-! ## Written markup -/

namespace Lexer

variable {source : Source} {lexer next : Lexer} {tokens : List Token} {foreign : Bool}

/-- Is the input of a lexer what is left of written markup? -/
structure Follows (source : Source) (lexer : Lexer) : Prop where
  model : lexer.model = .markup
  parts : ∃ segments, (∀ segment ∈ segments, segment.Sound source lexer.expand) ∧
    ∃ front, lexer.input = front ++ flat segments ∧ '<' ∉ front

/-- Text is read up to the next part at most. -/
theorem exists_of_readText {ends : Char → Bool} (hends : ends '<' = true) {c : Char}
    {input tail : List Char} (hstretch : Stretch input tail)
    (hread : lexer.readText ends c input = (tokens, next)) :
    ∃ rest, next = lexer.rest rest ∧ Stretch rest tail := by
  unfold readText at hread
  split at hread
  next =>
    cases hread
    exact ⟨_, rfl, hstretch.dropWhile (by decide)⟩
  next =>
    cases hread
    exact ⟨_, rfl, hstretch.dropWhile (by rw [hends]; rfl)⟩

theorem exists_of_readReference {input tail : List Char} (hstretch : Stretch input tail)
    (hok : lexer.readReference input = .ok (tokens, next)) :
    ∃ rest, next = lexer.rest rest ∧ Stretch rest tail := by
  unfold readReference at hok
  split at hok
  next =>
    obtain ⟨read, hread, hresult⟩ := Fault.exists_of_bind_eq_ok hok
    cases hresult
    exact ⟨_, rfl, hstretch.drop_of_read hread⟩
  next =>
    cases hok
    exact ⟨_, rfl, hstretch⟩

/-- Outside tags text is read up to the next part at most, and is no token of a source. -/
theorem exists_of_step_text (source : Source) {c : Char} {cs tail : List Char}
    (hmodel : lexer.model = .markup) (hinput : lexer.input = c :: cs) (hc : c ≠ '<')
    (hstretch : Stretch (c :: cs) tail) (hok : lexer.step foreign = .ok (tokens, next)) :
    (∀ token ∈ tokens, source.Yields False token) ∧
      ∃ rest, next = lexer.rest rest ∧ Stretch rest tail := by
  have htail := hstretch.of_cons rfl hc
  unfold step at hok
  rw [hinput, hmodel] at hok
  dsimp only at hok
  split at hok
  next => exact ⟨yields_of_readReference source hok, exists_of_readReference htail hok⟩
  next =>
    split at hok
    next =>
      cases hok
      exact ⟨yields_pair trivial trivial, cs, rfl, htail⟩
    next =>
      have hread := Except.ok.inj hok
      exact ⟨yields_of_readText source hread, exists_of_readText (by decide) htail hread⟩

/-- One step through written markup. -/
theorem follows_of_step (hfollows : lexer.Follows source)
    (hok : lexer.step foreign = .ok (tokens, next)) :
    (∀ token ∈ tokens, source.Yields False token) ∧ next.Follows source := by
  obtain ⟨hmodel, segments, hsegments, front, hinput, hfront⟩ := hfollows
  obtain ⟨parts, hstretch, hparts, hcut⟩ := Stretch.exists_of_parts hsegments hfront
  rw [← hinput] at hstretch
  cases hread : lexer.input with
  | nil =>
      unfold step at hok
      rw [hread] at hok
      cases hok
      exact ⟨by simp, hmodel, [], by simp, [], hread, by simp⟩
  | cons c cs =>
      by_cases hc : c = '<'
      · subst hc
        have htail := hstretch.eq_of_cons hread
        obtain rfl | ⟨part, rest, ds, rfl, hchars⟩ := hcut
        · cases htail
        · rw [flat_cons, hchars, List.cons_append] at htail
          obtain ⟨-, rfl⟩ := List.cons.inj htail
          unfold step at hok
          rw [hread, hmodel] at hok
          dsimp only at hok
          rw [if_neg (by decide), if_pos rfl] at hok
          obtain ⟨hyields, hrest, hexpand, hmarkup⟩ :=
            readMarkup_part hok (hparts part List.mem_cons_self) hchars
          refine ⟨hyields, hmarkup rfl, rest, ?_, [], hrest, by simp⟩
          rw [hexpand]
          exact fun other hmem => hparts other (List.mem_cons_of_mem _ hmem)
      · rw [hread] at hstretch
        obtain ⟨hyields, rest, rfl, ⟨middle, happend, hmiddle⟩, -⟩ :=
          exists_of_step_text source hmodel hread hc hstretch hok
        exact ⟨hyields, hmodel, parts, hparts, middle, happend, hmiddle⟩

end Lexer

/-- Markup that is written by a source without elements whose content is read as text is read
as it was written. -/
theorem Source.steady_follows {source : Source}
    (hquiet : ∀ name, source.tag name → name ∉ textTags) :
    source.Steady (Lexer.Follows source) where
  yields hfollows hok := (Lexer.follows_of_step hfollows hok).1
  step hfollows hok := (Lexer.follows_of_step hfollows hok).2
  asked hfollows hok hasks := by
    obtain ⟨token, hmem, htoken⟩ := hasks
    have hyields := (Lexer.follows_of_step hfollows hok).1 token hmem
    cases token with
    | startTag tag => exact absurd htoken (hquiet tag.name hyields.1.named)
    | text data => exact htoken.elim
    | space data => exact htoken.elim
    | endTag name => exact htoken.elim
    | comment data => exact htoken.elim
    | doctype declaration => exact htoken.elim
    | problem problem => exact htoken.elim

end Winnow.Html
