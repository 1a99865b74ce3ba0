import Winnow.Proofs.Css.Sheet
import Winnow.Proofs.Document.Markup
import Winnow.Proofs.Enforcement.Left
import Winnow.Proofs.Html.Lexer.RawText

/-!
# Style elements that are left

The text of a style element is written without escapes, so a bracket in it could end the element.
Where no allowed property has one in its name, no style element that is left holds any, and each
is closed by its own end tag.
-/

namespace Winnow

namespace Policy

variable {policy : Policy}

/-- The text that stays in a style element is not empty, and the filter has written it. -/
theorem of_filterStyleText {content text : String}
    (hok : policy.filterStyleText content = .ok (some text)) :
    text ≠ "" ∧ ∃ filtered, Css.filterSheet policy.styleAllow content.toList = .ok filtered ∧
      text = String.ofList filtered := by
  obtain ⟨filtered, hfilter, hresult⟩ := Fault.exists_of_bind_eq_ok hok
  split at hresult
  next => cases hresult
  next hfilled =>
    cases hresult
    refine ⟨fun hempty => hfilled ?_, filtered, hfilter, rfl⟩
    have hnil : filtered = [] := by simpa using congrArg String.toList hempty
    rw [hnil]
    rfl

theorem not_mem_filterStyleText (hlacks : Css.Allowance.LacksBrackets policy.styleAllow)
    {content text : String} (hok : policy.filterStyleText content = .ok (some text)) :
    '<' ∉ text.toList := by
  obtain ⟨-, filtered, hfilter, rfl⟩ := of_filterStyleText hok
  rw [String.toList_ofList]
  exact Css.not_mem_filterSheet hlacks hfilter

end Policy

/-- A style element whose text is written without escapes has this name as it stands. -/
theorem Label.tag_of_isRawText {label : Label} (hraw : label.isRawText = true)
    (hstyle : Text.lower label.tag = "style") : label.tag = "style" := by
  have hnames : ∀ name ∈ rawTextElements, Text.lower name = "style" → name = "style" := by
    decide
  rw [isRawText, Bool.and_eq_true, List.contains_iff_mem] at hraw
  exact hnames _ hraw.2 hstyle

namespace Tree

/-- An element with nothing but raw text in it is written with this text between its tags. -/
theorem html_of_isRawText {label : Label} (hraw : label.isRawText = true)
    (hstyle : label.tag = "style") (text : String) :
    (node label [.ofText text]).html =
      Markup.startTag label.tag label.attributes ++ text ++ Markup.endTag label.tag := by
  have hvoid : label.isVoid = false := by
    rw [Label.isVoid, hstyle, Bool.and_eq_false_iff]
    exact Or.inr (by decide)
  have htext : render true (.ofText text) = text := by
    rw [ofText, render]
    rfl
  rw [html_eq_render, render, if_neg (by rw [hstyle]; decide), if_neg (by rw [hstyle]; decide),
    if_neg (by rw [hstyle]; decide), hvoid, if_neg Bool.false_ne_true, hraw, renderAll, renderAll,
    htext, String.append_empty]

end Tree

namespace Policy

variable {policy : Policy}

/-- Where no allowed property has an opening bracket in its name, no filtered sheet holds one. A
style element that a pass leaves holds one text without brackets, and where this text is written
without escapes it is closed by the end tag of the element only. -/
theorem sheets_lack_brackets (hlacks : Css.Allowance.LacksBrackets policy.styleAllow) :
    (∀ css out : List Char, Css.filterSheet policy.styleAllow css = .ok out → '<' ∉ out) ∧
    ∀ (document left : Tree) (tally : Tally), document.label.tag = "#document" →
      document.enforce policy = .ok (left, tally) →
      ∀ element ∈ left.elements, Text.lower element.label.tag = "style" →
        ∃ text, element.children = [.ofText text] ∧ '<' ∉ text.toList ∧
          (element.label.isRawText = true →
            element.html = Markup.startTag element.label.tag element.label.attributes ++ text ++
              Markup.endTag element.label.tag ∧
            Html.ClosesBehind element.label.tag text) := by
  refine ⟨fun css out hok => Css.not_mem_filterSheet hlacks hok, ?_⟩
  intro document left tally hdocument henforce element hmem hstyle
  obtain ⟨before, -, hleaves⟩ := Tree.exists_leaves_of_enforce hdocument henforce element hmem
  obtain ⟨text, hfilter, hchildren⟩ := hleaves.sheet hstyle
  have hbracket := not_mem_filterStyleText hlacks hfilter
  refine ⟨text, hchildren, hbracket, fun hraw => ?_⟩
  have htag := Label.tag_of_isRawText hraw hstyle
  obtain ⟨label, children⟩ := element
  obtain rfl : children = [.ofText text] := hchildren
  refine ⟨Tree.html_of_isRawText hraw htag text, ?_⟩
  change Html.ClosesBehind label.tag text
  rw [show label.tag = "style" from htag]
  exact Html.closesBehind_of_not_mem (by decide) (List.all_eq_true.mp (by decide)) hbracket
    (of_filterStyleText hfilter).1

theorem sheets_lack_brackets_color :
    ∃ left tally, (Store.sheetDocument []).enforce Store.sheetPolicy = .ok (left, tally) ∧
      ∃ element ∈ left.elements, ∃ text, element.children = [.ofText text] ∧
        '<' ∉ text.toList ∧ Html.ClosesBehind element.label.tag text := by
  have hstays : ((Store.sheetDocument []).enforce Store.sheetPolicy).map (fun reached =>
      reached.1.elements.any fun element =>
        Text.lower element.label.tag == "style" && element.label.isRawText) = .ok true := by
    decide +kernel
  have hlacks : Css.Allowance.LacksBrackets Store.sheetPolicy.styleAllow := by decide
  obtain ⟨⟨left, tally⟩, henforce, hany⟩ := Fault.exists_of_map_eq_ok hstays
  obtain ⟨element, hmem, hraw⟩ := List.any_eq_true.mp hany
  rw [Bool.and_eq_true, beq_iff_eq] at hraw
  obtain ⟨text, hchildren, hbracket, hwritten⟩ :=
    (sheets_lack_brackets hlacks).2 _ _ _ rfl henforce element hmem hraw.1
  exact ⟨left, tally, henforce, element, hmem, text, hchildren, hbracket, (hwritten hraw.2).2⟩

/-- A property with a bracket in its name, which is written with an escape, is kept without it. -/
theorem bracket_mem_filterSheet :
    ∃ out, Css.filterSheet (ofLines ["style|p|a<b"] {}).styleAllow
        "p\x7ba\\<b:red\x7d".toList = .ok out ∧ '<' ∈ out :=
  ⟨"p\x7ba<b:red\x7d".toList, by decide +kernel, by decide⟩

end Policy

end Winnow
