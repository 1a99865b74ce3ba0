import Winnow.Html.Construction
import Winnow.Proofs.Html.Lexer.Escaped

/-!
# Construction over written markup

A lexer and a builder go on side by side. Here their progress is a relation between what is left
of the input and the builder before and after, so that the parts of written markup can be taken
one after the other: tags in one step each, and text in as many as it falls into.
-/

namespace Winnow.Html

namespace Builder

/-! ## Tokens that are taken at once -/

theorem take_of_done {b : Builder} {token : Token} (hmode : b.takesInMode token = true)
    {next : Builder} (htake : b.takeInMode token = next.done) : b.take token = next := by
  rw [take, takeIn, if_pos hmode, htake]
  rfl

theorem takesInMode_of_html {b : Builder} {handle : Handle} {outer : List Handle}
    (hstack : b.stack = handle :: outer) (hspace : (b.label handle).space = .html)
    (token : Token) : b.takesInMode token = true := by
  rw [takesInMode, hstack]
  simp [hspace]

theorem take_problem (b : Builder) (problem : Problem) : b.take (.problem problem) = b := by
  rw [take, takeIn]
  cases b.takesInMode (.problem problem) with
  | false => rfl
  | true => rfl

/-- Problems before a token are passed over. -/
theorem takeAll_problems (b : Builder) (problems : List Problem) (token : Token) :
    b.takeAll (problems.map .problem ++ [token]) = b.take token := by
  induction problems with
  | nil => rfl
  | cons problem problems ih =>
      rw [List.map_cons, List.cons_append, takeAll, List.foldl_cons, take_problem]
      exact ih

end Builder

/-! ## Progress -/

/-- A lexer in ordinary content, with references resolved. -/
structure Lexer.Faces (lexer : Lexer) (input : List Char) : Prop where
  input : lexer.input = input
  model : lexer.model = .markup
  expand : lexer.expand = true

/-- Construction with a builder at some input comes to another builder at what is left of it. -/
def Leads (input : List Char) (b : Builder) (rest : List Char) (next : Builder) : Prop :=
  ∀ (lexer : Lexer) (fuel : Nat), lexer.Faces input → input.length ≤ fuel →
    ∃ (after : Lexer) (left : Nat), after.Faces rest ∧ rest.length ≤ left ∧
      construct lexer b fuel = construct after next left

namespace Leads

variable {input middle rest : List Char} {b between next : Builder}

theorem refl (input : List Char) (b : Builder) : Leads input b input b :=
  fun lexer fuel hfaces hfuel => ⟨lexer, fuel, hfaces, hfuel, rfl⟩

theorem trans (hfirst : Leads input b middle between) (hsecond : Leads middle between rest next) :
    Leads input b rest next := by
  intro lexer fuel hfaces hfuel
  obtain ⟨after, left, hafter, hleft, hconstruct⟩ := hfirst lexer fuel hfaces hfuel
  rw [hconstruct]
  exact hsecond after left hafter hleft

/-- One unit of the input whose tokens ask for no other content. -/
theorem step (hshorter : rest.length < input.length)
    (hstep : ∀ lexer : Lexer, lexer.Faces input → ∃ tokens after,
      lexer.step b.inForeign = .ok (tokens, after) ∧ after.Faces rest ∧ b.takeAll tokens = next)
    (hfault : next.fault = none) (hrequest : next.request = none) : Leads input b rest next := by
  intro lexer fuel hfaces hfuel
  obtain ⟨tokens, after, hread, hafter, htake⟩ := hstep lexer hfaces
  have hinput : lexer.input.isEmpty = false := by
    rw [hfaces.input]
    cases input with
    | nil => cases hshorter
    | cons c cs => rfl
  have hsame : ({ next with request := none } : Builder) = next := by rw [← hrequest]
  cases fuel with
  | zero => exact absurd (hshorter.trans_le hfuel) (Nat.not_lt_zero _)
  | succ fuel =>
      refine ⟨after, fuel, hafter, Nat.lt_succ_iff.mp (hshorter.trans_le hfuel), ?_⟩
      rw [construct, hinput, if_neg Bool.false_ne_true, hread]
      dsimp only
      rw [htake, if_neg (by simp [hfault]), hrequest]
      exact congrArg (construct after · fuel) hsame

/-- At the end of the input the document is finished. -/
theorem construct_eq (hleads : Leads input b [] next) {lexer : Lexer} (hfaces : lexer.Faces input)
    {fuel : Nat} (hfuel : input.length ≤ fuel) : construct lexer b fuel = .ok next.finish := by
  obtain ⟨after, left, hafter, -, hconstruct⟩ := hleads lexer fuel hfaces hfuel
  rw [hconstruct]
  cases left with
  | zero => rfl
  | succ left =>
      rw [construct, hafter.input]
      rfl

end Leads

/-! ## Attributes as they are written -/

/-- Attributes that a start tag can write and that reading it gives back: with names that can be
read, each once, and with values in which reading replaces nothing. -/
structure Writable (attributes : Attributes) : Prop where
  entry : ∀ entry ∈ attributes, ∃ value, entry.2 = some value ∧
    Source.lexed.pair entry.1 value ∧ nullChar ∉ value.toList ∧ '\r' ∉ value.toList
  nodup : attributes.names.Nodup

namespace Writable

variable {attributes : Attributes} (hwritten : Writable attributes)
include hwritten

/-- The names and values as they are written can be read back. -/
theorem fields : ∀ field ∈ writtenFields attributes,
    IsFieldName field.1 ∧ IsLower field.1 ∧ nullChar ∉ field.2 := by
  intro field hmem
  obtain ⟨entry, hentry, rfl⟩ := List.mem_map.mp hmem
  obtain ⟨value, hvalue, hpair, hnull, -⟩ := hwritten.entry entry hentry
  rw [hvalue]
  exact ⟨hpair.1, hpair.2, hnull⟩

/-- Nothing is lost where of attributes with the same name only the first counts. -/
theorem ofPairsFirst_texts : Assoc.ofPairsFirst (TagDraft.texts (writtenFields attributes)) =
    attributes.map fun entry => (entry.1, entry.2.getD "") := by
  have htexts : TagDraft.texts (writtenFields attributes) =
      attributes.map fun entry => (entry.1, entry.2.getD "") := by
    simp [TagDraft.texts, writtenFields]
  rw [htexts]
  refine Assoc.ofPairsFirst_of_nodup ?_
  rw [Assoc.names, List.map_map]
  exact hwritten.nodup

end Writable

/-- The start tag that is read for an element. -/
def Tag.written (name : String) (attributes : Attributes) : Tag :=
  { name := name, attributes := attributes.map fun entry => (entry.1, entry.2.getD "") }

/-! ## Single units -/

namespace Lexer

theorem faces_noteStart (lexer : Lexer) (hexpand : lexer.expand = true) (rest : List Char)
    (tokens : List Token) :
    (({ lexer with input := rest, model := .markup } : Lexer).noteStart tokens).Faces rest := by
  obtain ⟨lastStart, heq⟩ := noteStart_eq { lexer with input := rest, model := .markup } tokens
  rw [heq]
  exact ⟨rfl, rfl, hexpand⟩

namespace Faces

variable {lexer : Lexer} {rest : List Char}

/-- A written start tag is one unit. Only problems stand before its token. -/
theorem exists_step_startTag {name : String} (hname : Source.lexed.tag name)
    {attributes : Attributes} (hwritten : Writable attributes)
    (hfaces : lexer.Faces ((Markup.startTag name attributes).toList ++ rest)) (foreign : Bool) :
    ∃ (problems : List Problem) (after : Lexer), lexer.step foreign =
        .ok (problems.map .problem ++ [.startTag (.written name attributes)], after) ∧
      after.Faces rest := by
  obtain ⟨⟨first, others, heq, hletter, hothers⟩, hlower⟩ := hname
  rw [heq] at hlower
  obtain ⟨problems, hrun⟩ :=
    @TagDraft.exists_run_escapedTag rest first others hothers hlower _ hwritten.fields
  have hinput : lexer.input = '<' :: first ::
      (others ++ ((writtenFields attributes).flatMap escapedField ++ '>' :: rest)) := by
    rw [hfaces.input, toList_startTag, heq]
    simp
  refine ⟨problems, _, ?_, faces_noteStart { lexer with fromBracket := lexer.input } hfaces.expand
    rest (problems.map .problem ++ [.startTag (.written name attributes)])⟩
  unfold step
  rw [hinput, hfaces.model]
  dsimp only
  rw [if_neg (by decide), if_pos rfl, readMarkup_start hletter, readTag, hfaces.expand, hrun,
    Fault.ok_bind, hwritten.ofPairsFirst_texts]
  simp only [← heq, String.ofList_toList]
  rfl

/-- A written end tag is one unit. -/
theorem exists_step_endTag {name : String} (hname : Source.lexed.tag name)
    (hfaces : lexer.Faces ((Markup.endTag name).toList ++ rest)) (foreign : Bool) :
    ∃ (problems : List Problem) (after : Lexer),
      lexer.step foreign = .ok (problems.map .problem ++ [.endTag name], after) ∧
      after.Faces rest := by
  obtain ⟨⟨first, others, heq, hletter, hothers⟩, hlower⟩ := hname
  rw [heq] at hlower
  have hinput : lexer.input = '<' :: '/' :: first :: (others ++ '>' :: rest) := by
    rw [hfaces.input, Markup.endTag]
    simp [heq]
  obtain ⟨problems, hclose⟩ := @TagDraft.run_close true true
    { name := (lowered others).reverse ++ [Text.asciiLowerChar first] } rest .tagName
  have hread : ((lowered others).reverse ++ [Text.asciiLowerChar first]).reverse = name.toList := by
    have hsame := lowered_eq_self hlower
    rw [lowered, List.map_cons] at hsame
    rw [← List.reverse_cons, List.reverse_reverse, lowered, hsame, heq]
  have htokens : TagDraft.tokens true {
      name := (lowered others).reverse ++ [Text.asciiLowerChar first]
      problems := problems } = problems.reverse.map .problem ++ [.endTag name] := by
    simp [TagDraft.tokens, TagDraft.problemTokens, TagDraft.tagNameText, hread]
  refine ⟨problems.reverse, _, ?_, faces_noteStart { lexer with fromBracket := lexer.input }
    hfaces.expand rest (problems.reverse.map .problem ++ [.endTag name])⟩
  unfold step
  rw [hinput, hfaces.model]
  dsimp only
  rw [if_neg (by decide), if_pos rfl, readMarkup_end hletter, readTag, hfaces.expand,
    TagDraft.run_tagName rfl hothers, hclose, htokens, Fault.ok_bind]
  rfl

end Faces

end Lexer

namespace Leads

variable {input rest : List Char} {b next : Builder} {name : String}

/-- One unit that is read as problems and a token. -/
theorem of_token {token : Token} (hshorter : rest.length < input.length)
    (hstep : ∀ lexer : Lexer, lexer.Faces input → ∃ (problems : List Problem) (after : Lexer),
      lexer.step b.inForeign = .ok (problems.map .problem ++ [token], after) ∧ after.Faces rest)
    (htake : b.take token = next) (hfault : next.fault = none) (hrequest : next.request = none) :
    Leads input b rest next := by
  refine Leads.step hshorter (fun lexer hfaces => ?_) hfault hrequest
  obtain ⟨problems, after, hread, hafter⟩ := hstep lexer hfaces
  exact ⟨_, after, hread, hafter, (b.takeAll_problems problems token).trans htake⟩

theorem of_startTag {attributes : Attributes} (hname : Source.lexed.tag name)
    (hwritable : Writable attributes) (htake : b.take (.startTag (.written name attributes)) = next)
    (hfault : next.fault = none) (hrequest : next.request = none) (rest : List Char) :
    Leads ((Markup.startTag name attributes).toList ++ rest) b rest next := by
  have hshorter : rest.length < ((Markup.startTag name attributes).toList ++ rest).length := by
    rw [toList_startTag, List.length_append, List.length_cons]
    omega
  exact of_token hshorter (fun lexer hfaces => hfaces.exists_step_startTag hname hwritable _) htake
    hfault hrequest

theorem of_endTag (hname : Source.lexed.tag name) (htake : b.take (.endTag name) = next)
    (hfault : next.fault = none) (hrequest : next.request = none) (rest : List Char) :
    Leads ((Markup.endTag name).toList ++ rest) b rest next := by
  have hshorter : rest.length < ((Markup.endTag name).toList ++ rest).length := by
    have hopen : 0 < "</".toList.length := by decide
    simp only [Markup.endTag, String.toList_append, List.length_append]
    omega
  exact of_token hshorter (fun lexer hfaces => hfaces.exists_step_endTag hname _) htake hfault
    hrequest

end Leads

end Winnow.Html
