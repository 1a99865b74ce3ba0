import Winnow.Proofs.Document.Markup
import Winnow.Proofs.Html.Roundtrip.Flow
import Winnow.Proofs.Html.Roundtrip.Locals
import Winnow.Proofs.Html.Roundtrip.Reading

/-!
# Written content is read as it was

The markup of plain blocks, spans and texts is read as the forest that it was written from. A text
may come back in pieces, and of attributes with the same local name only one is left.
-/

namespace Winnow.Html

open Winnow.Tree Markup Builder

/-- Plain blocks, spans and texts: content that no parsing rule treats in its own way. -/
inductive Plain : List Tree → Prop
  | nil : Plain []
  | text {text : String} {rest : List Tree} (hne : text ≠ "") (hnull : nullChar ∉ text.toList)
      (hreturn : '\r' ∉ text.toList) (hrest : Plain rest) : Plain (.ofText text :: rest)
  | element {name : String} {attributes : Attributes} {children rest : List Tree}
      (hname : name = "div" ∨ name = "span") (hattributes : Writable attributes)
      (hchildren : Plain children) (hrest : Plain rest) :
      Plain (.node { tag := name, attributes := attributes } children :: rest)

/-! ## What is written -/

theorem lexed_tag_of_plain {name : String} (hname : name = "div" ∨ name = "span") :
    Source.lexed.tag name := by
  rcases hname with rfl | rfl
  · exact ⟨isTagName_of_all rfl rfl, isLower_of_all rfl⟩
  · exact ⟨isTagName_of_all rfl rfl, isLower_of_all rfl⟩

theorem isText_of_plain {name : String} (hname : name = "div" ∨ name = "span")
    (attributes : Attributes) :
    ({ tag := name, attributes := attributes } : Label).isText = false := by
  rcases hname with rfl | rfl
  · rfl
  · rfl

theorem toList_renderAll_text (text : String) (rest : List Tree) :
    (renderAll false (ofText text :: rest)).toList =
      escaped text.toList ++ (renderAll false rest).toList := by
  rw [renderAll, String.toList_append, ← toList_escapeText]
  rfl

theorem toList_renderAll_element {name : String} (hname : name = "div" ∨ name = "span")
    (attributes : Attributes) (children rest : List Tree) :
    (renderAll false (node { tag := name, attributes := attributes } children :: rest)).toList =
      (startTag name attributes).toList ++ ((renderAll false children).toList ++
        ((endTag name).toList ++ (renderAll false rest).toList)) := by
  have hrender : render false (node { tag := name, attributes := attributes } children) =
      startTag name attributes ++ renderAll false children ++ endTag name := by
    rcases hname with rfl | rfl
    · rfl
    · rfl
  rw [renderAll, hrender]
  simp only [String.toList_append, List.append_assoc]

theorem Writable.not_mem_startTag {name : String} {attributes : Attributes}
    (hwritable : Writable attributes) (hname : Source.lexed.tag name) :
    '\r' ∉ (Markup.startTag name attributes).toList := by
  refine Html.not_mem_startTag hname.1 fun entry hmem => ?_
  obtain ⟨value, hvalue, hpair, -, hreturn⟩ := hwritable.entry entry hmem
  rw [hvalue]
  exact ⟨hpair.1, hreturn⟩

theorem not_mem_endTag {name : String} (hname : '\r' ∉ name.toList) :
    '\r' ∉ (Markup.endTag name).toList := by
  simp [Markup.endTag, hname]

/-- Plain content is written without line ends that reading would unify. -/
theorem Plain.not_mem_renderAll {forest : List Tree} (hplain : Plain forest) :
    '\r' ∉ (renderAll false forest).toList := by
  induction hplain with
  | nil => exact List.not_mem_nil
  | text hne hnull hreturn hrest ih =>
      rw [toList_renderAll_text, List.mem_append, not_or]
      exact ⟨not_mem_flatMap_return hreturn fun c => (escapeTextChar_cases c).imp_left And.left, ih⟩
  | element hname hattributes hchildren hrest ihChildren ihRest =>
      rw [toList_renderAll_element hname]
      simp only [List.mem_append, not_or]
      refine ⟨hattributes.not_mem_startTag (lexed_tag_of_plain hname), ihChildren,
        not_mem_endTag ?_, ihRest⟩
      rcases hname with rfl | rfl
      · decide
      · decide

/-- Text that stands before this ends here: there is no more input, or there is a bracket. -/
def EndsText (tail : List Char) : Prop := ∀ d ∈ tail.head?, d = '<'

theorem endsText_startTag (name : String) (attributes : Attributes) (rest : List Char) :
    EndsText ((startTag name attributes).toList ++ rest) := by
  intro d hd
  rw [toList_startTag] at hd
  exact (Option.some.inj hd).symm

theorem endsText_endTag (name : String) (rest : List Char) :
    EndsText ((Markup.endTag name).toList ++ rest) := by
  intro d hd
  rw [Markup.endTag] at hd
  simpa using hd.symm

/-! ## What is read -/

theorem mem_openNames {name : String} (hname : name = "div" ∨ name = "span") :
    name ∈ openNames := by
  rcases hname with rfl | rfl
  · decide
  · decide

theorem labelOf_written {b : Builder} (hfragment : b.fragment = false) (name : String)
    (attributes : Attributes) : b.labelOf .html (.written name attributes) =
      { tag := name, attributes := settle attributes } := by
  rw [labelOf, attributesOf, hfragment, if_neg Bool.false_ne_true, Tag.written, List.foldl_map]
  rfl

theorem nest_extend (b : Builder) (label : Label) (children : List Tree) (ok : Bool) :
    ({ (b.nest label).extend children ok with stack := b.stack } : Builder) =
      b.extend [node label children] ok := by
  unfold Builder.extend
  rw [Store.addTrees, Store.addTree, Store.addTrees]
  rfl

namespace Builder.Flows

variable {b : Builder} (hb : b.Flows)
include hb

/-- A start tag opens its element. -/
theorem leads_startTag {name : String} (hname : name = "div" ∨ name = "span")
    {attributes : Attributes} (hattributes : Writable attributes) (rest : List Char) :
    Leads ((Markup.startTag name attributes).toList ++ rest) b rest
      (b.nest { tag := name, attributes := settle attributes }) := by
  have htake : b.take (.startTag (.written name attributes)) =
      b.nest { tag := name, attributes := settle attributes } := by
    rw [hb.take_startTag hname, labelOf_written hb.fragment]
  exact Leads.of_startTag (lexed_tag_of_plain hname) hattributes htake hb.fault hb.request rest

/-- An end tag closes its element. -/
theorem leads_endTag {handle : Handle} {outer : List Handle} (hstack : b.stack = handle :: outer)
    {name : String} (htag : b.name handle = name) (hname : name = "div" ∨ name = "span")
    (rest : List Char) :
    Leads ((Markup.endTag name).toList ++ rest) b rest { b with stack := outer } := by
  have htake := hb.take_endTag hstack (htag.symm ▸ hname)
  rw [htag] at htake
  exact Leads.of_endTag (lexed_tag_of_plain hname) htake hb.fault hb.request rest

/-- One unit of text is added to the innermost open element. -/
theorem exists_take_of_eq {cs : List Char} (hnull : nullChar ∉ cs) {token : Token}
    (htoken : token = .text (String.ofList cs) ∨ token = .space (String.ofList cs)) :
    ∃ ok, b.take token = b.extend [.ofText (String.ofList cs)] ok := by
  rcases htoken with rfl | rfl
  · refine hb.exists_take_text fun heq => hnull ?_
    rw [String.ofList_injective heq]
    exact List.mem_singleton.mpr rfl
  · exact ⟨_, hb.take_space _⟩

/-- An element is read as one if what is inside it is read inside it. -/
theorem leads_element {name : String} (hname : name = "div" ∨ name = "span")
    {attributes : Attributes} (hattributes : Writable attributes) {content rest : List Char}
    {inner : List Tree} {ok : Bool}
    (hinner : Leads (content ++ ((Markup.endTag name).toList ++ rest))
      (b.nest { tag := name, attributes := settle attributes })
      ((Markup.endTag name).toList ++ rest)
      ((b.nest { tag := name, attributes := settle attributes }).extend inner ok)) :
    Leads ((Markup.startTag name attributes).toList ++
        (content ++ ((Markup.endTag name).toList ++ rest))) b rest
      (b.extend [.node { tag := name, attributes := settle attributes } inner] ok) := by
  have hstart := hb.leads_startTag hname hattributes
    (content ++ ((Markup.endTag name).toList ++ rest))
  have hnested := hb.nest { tag := name, attributes := settle attributes } rfl (mem_openNames hname)
  have htag : ((b.nest { tag := name, attributes := settle attributes }).extend inner ok).name
      b.store.cells.size = name := by
    rw [Builder.name, label_nest_extend]
  have hend := (hnested.extend inner ok).leads_endTag rfl htag hname rest
  rw [nest_extend] at hend
  exact (hstart.trans hinner).trans hend

end Builder.Flows

/-- Escaped text up to a bracket is added to the innermost open element, in pieces. -/
theorem exists_leads_escaped {b : Builder} (hb : b.Flows) {cs tail : List Char}
    (hnull : nullChar ∉ cs) (htail : EndsText tail) :
    ∃ (texts : List String) (ok : Bool),
      Leads (escaped cs ++ tail) b tail (b.extend (texts.map .ofText) ok) ∧
        (∀ text ∈ texts, text ≠ "") ∧ texts.flatMap String.toList = cs := by
  -- A unit of text takes any number of characters at once, so the induction is on the length.
  induction hlength : cs.length using Nat.strong_induction_on generalizing b cs with
  | _ length ih =>
      cases cs with
      | nil => exact ⟨[], b.framesetOk, Leads.refl _ _, by simp, rfl⟩
      | cons c cs =>
          have hc : c ≠ nullChar := fun heq => hnull (heq ▸ List.mem_cons_self)
          obtain ⟨token, front, back, rfl, htoken, hread⟩ :=
            Lexer.exists_step_escaped_append cs hc htail
          rw [← List.cons_append, List.mem_append, not_or] at hnull
          obtain ⟨ok, htake⟩ := hb.exists_take_of_eq hnull.1 htoken
          have hshorter : back.length < length := by
            rw [← hlength, List.length_cons, List.length_append]
            omega
          have hfirst := hb.extend [.ofText (String.ofList (c :: front))] ok
          obtain ⟨texts, later, hleads, hne, hchars⟩ := ih back.length hshorter hfirst hnull.2 rfl
          refine ⟨String.ofList (c :: front) :: texts, later, ?_, ?_, ?_⟩
          · have hunit : Leads (escaped (c :: (front ++ back)) ++ tail) b (escaped back ++ tail)
                (b.extend [.ofText (String.ofList (c :: front))] ok) := by
              refine Leads.of_token ?_ (fun lexer hfaces => ?_) htake hfirst.fault hfirst.request
              · have hfront := length_le_length_escaped (c :: front)
                simp only [← List.cons_append, escaped_append, List.length_append]
                rw [List.length_cons] at hfront
                omega
              · refine ⟨[], _, hread lexer _ hfaces.model hfaces.expand hfaces.input, ?_⟩
                exact ⟨rfl, hfaces.model, hfaces.expand⟩
            rw [extend_extend] at hleads
            exact hunit.trans hleads
          · refine List.forall_mem_cons.mpr ⟨fun heq => ?_, hne⟩
            have hempty := congrArg String.toList heq
            rw [String.toList_ofList] at hempty
            cases hempty
          · rw [List.flatMap_cons, hchars, String.toList_ofList, List.cons_append]

/-- Written content is read to its end as what it was written from. -/
theorem exists_leads_renderAll {forest : List Tree} (hplain : Plain forest)
    {b : Builder} (hb : b.Flows) {cs tail : List Char} (hnull : nullChar ∉ cs)
    (htail : EndsText tail) :
    ∃ (read : List Tree) (ok : Bool),
      Leads (escaped cs ++ ((renderAll false forest).toList ++ tail)) b tail (b.extend read ok) ∧
        joinText (normalizeAll read) =
          joinText (ofChars cs ++ normalizeAll (withAttributesAll settle forest)) := by
  -- A unit of text does not end where a node ends. So the text that stands before the forest is
  -- carried through the induction and read together with what comes next.
  induction hplain generalizing b cs tail with
  | nil =>
      obtain ⟨texts, ok, hleads, hne, hchars⟩ := exists_leads_escaped hb hnull htail
      refine ⟨texts.map .ofText, ok, hleads, ?_⟩
      rw [normalizeAll_map_ofText, ← hchars]
      simpa [withAttributesAll, normalizeAll] using joinText_map_ofText hne []
  | @text text rest hne htext _ _ ihRest =>
      have hboth : nullChar ∉ cs ++ text.toList := by
        rw [List.mem_append, not_or]
        exact ⟨hnull, htext⟩
      obtain ⟨read, ok, hleads, hjoin⟩ := ihRest hb hboth htail
      refine ⟨read, ok, ?_, ?_⟩
      · rw [escaped_append, List.append_assoc] at hleads
        rw [toList_renderAll_text, List.append_assoc]
        exact hleads
      · rw [hjoin, withAttributesAll, withAttributes_ofText settle rfl, normalizeAll,
          normalize_ofText, joinText_ofChars_cons cs hne]
  | @element name attributes children rest hname hattributes _ _ ihChildren ihRest =>
      have htext := isText_of_plain hname (settle attributes)
      -- First comes the text before the element, then what is inside it, then what is after it.
      obtain ⟨texts, first, htexts, hne, hchars⟩ := exists_leads_escaped hb hnull
        (endsText_startTag name attributes ((renderAll false children).toList ++
          ((Markup.endTag name).toList ++ ((renderAll false rest).toList ++ tail))))
      have hbTexts := hb.extend (texts.map .ofText) first
      obtain ⟨inner, second, hinner, hjoinInner⟩ :=
        ihChildren (hbTexts.nest { tag := name, attributes := settle attributes } rfl
          (mem_openNames hname)) List.not_mem_nil
          (endsText_endTag name ((renderAll false rest).toList ++ tail))
      have helement := hbTexts.leads_element hname hattributes hinner
      rw [extend_extend] at helement
      have hbElement := hb.extend (texts.map .ofText ++
        [.node { tag := name, attributes := settle attributes } inner]) second
      obtain ⟨outer, third, houter, hjoinOuter⟩ := ihRest hbElement List.not_mem_nil htail
      rw [extend_extend] at houter
      refine ⟨texts.map .ofText ++
        .node { tag := name, attributes := settle attributes } inner :: outer, third, ?_, ?_⟩
      · rw [toList_renderAll_element hname]
        simp only [List.append_assoc, List.singleton_append] at houter ⊢
        exact (htexts.trans helement).trans houter
      · rw [joinText_normalizeAll_pieces hne htext, hchars, hjoinInner, hjoinOuter,
          withAttributesAll, withAttributes, normalizeAll, Tree.normalize,
          joinText_ofChars_cons_of_not_text htext]
        rfl

end Winnow.Html
