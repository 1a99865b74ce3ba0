import Winnow.Proofs.Html.Roundtrip.Forest

/-!
# Written documents are read as they were

A document with an empty head and with plain content in its body is read as the tree that it was
written from, up to texts in several nodes, exactly if no two attributes of an element below its
root have the same local name.
-/

namespace Winnow.Html

open Winnow.Tree Markup Builder

/-! ## The frame of a document -/

/-- The head and the body of a document. -/
def parts (head body : Attributes) (forest : List Tree) : List Tree := [
  .node { tag := "head", attributes := head } [],
  .node { tag := "body", attributes := body } forest]

/-- A document with an empty head. -/
def page (html head body : Attributes) (forest : List Tree) : Tree :=
  .node .document [.node { tag := "html", attributes := html } (parts head body forest)]

variable {html head body : Attributes} {forest : List Tree}

theorem toList_html_page : (page html head body forest).html.toList =
    (Markup.startTag "html" html).toList ++ ((Markup.startTag "head" head).toList ++
      ((Markup.endTag "head").toList ++ ((Markup.startTag "body" body).toList ++
        ((renderAll false forest).toList ++ ((Markup.endTag "body").toList ++
          ((Markup.endTag "html").toList ++ [])))))) := by
  have hrender : render false (page html head body forest) =
      Markup.startTag "html" html ++ (Markup.startTag "head" head ++ "" ++ Markup.endTag "head" ++
        (Markup.startTag "body" body ++ renderAll false forest ++ Markup.endTag "body" ++ "")) ++
        Markup.endTag "html" ++ "" := rfl
  rw [html_eq_render, hrender]
  simp only [String.toList_append, List.append_assoc]
  simp

theorem normalize_page : (page html head body forest).normalize =
    page html head body (joinText (normalizeAll forest)) := rfl

theorem page_inj {html' head' body' : Attributes} {forest' : List Tree} :
    page html head body forest = page html' head' body' forest' ↔
      html = html' ∧ head = head' ∧ body = body' ∧ forest = forest' := by
  simp [page, parts]

theorem ofTree_page : Store.ofTree (page html head body forest) =
    (Store.ofTree (page html head body [])).addTrees 3 forest := by
  simp [page, parts, Store.ofTree, Store.addTrees, Store.addTree]

/-! ## The tags of the frame -/

theorem Writable.map_getD {attributes : Attributes} (hwritable : Writable attributes) :
    attributes.map (fun entry => (entry.1, some (entry.2.getD ""))) = attributes := by
  have hsame : ∀ entry ∈ attributes, (entry.1, some (entry.2.getD "")) = id entry := by
    intro entry hmem
    obtain ⟨value, hvalue, -⟩ := hwritable.entry entry hmem
    rw [hvalue]
    exact Prod.ext rfl hvalue.symm
  rw [List.map_congr_left hsame, List.map_id]

/-- A builder before the body of a document, with what stands in its root element so far. -/
def early (html : Attributes) (children : List Tree) (stack : List Handle) (mode : Mode)
    (headElement : Option Handle) : Builder :=
  { Builder.empty with
    store := Store.ofTree (.node .document [.node { tag := "html", attributes := html } children])
    stack := stack
    mode := mode
    headElement := headElement
    oldRules := true }

/-- A builder at the start of the body. -/
def atBody (html head body : Attributes) : Builder :=
  { early html (parts head body []) [3, 1] .body (some 2) with framesetOk := false }

theorem take_start_html (hwritable : Writable html) :
    Builder.empty.take (.startTag (.written "html" html)) = early html [] [1] .beforeHead none := by
  -- The root is made without attributes and gets those of its tag that it does not have yet.
  have hmissing : ∀ entries : Assoc String, (entries.filter fun entry =>
      !Assoc.has ([] : Attributes) entry.1) = entries := fun entries =>
    List.filter_eq_self.mpr fun _ _ => rfl
  have hmerged : Builder.empty.take (.startTag (.written "html" html)) =
      { early [] [] [1] .beforeHead none with
        store := (early [] [] [1] .beforeHead none).store.setAttributes 1
          (((Tag.written "html" html).attributes.filter fun entry =>
            !Assoc.has ([] : Attributes) entry.1).map fun entry => (entry.1, some entry.2)) } := rfl
  have hgiven : (Tag.written "html" html).attributes.map (fun entry => (entry.1, some entry.2)) =
      html := by
    rw [Tag.written, List.map_map]
    exact hwritable.map_getD
  rw [hmerged, hmissing, hgiven]
  rfl

theorem take_start_head : (early html [] [1] .beforeHead none).take
      (.startTag (.written "head" head)) =
    early html [.node { tag := "head", attributes := settle head } []] [2, 1] .head (some 2) := by
  have hopen : (early html [] [1] .beforeHead none).take (.startTag (.written "head" head)) =
      (early html [] [1] .beforeHead none).openHead (.written "head" head) := rfl
  rw [hopen, openHead, openElement, labelOf_written rfl]
  rfl

/-- The root keeps its label while its children are added. -/
theorem label_root (children : List Tree) (stack : List Handle) (mode : Mode)
    (headElement : Option Handle) :
    (early html children stack mode headElement).label 1 =
      { tag := "html", attributes := html } := by
  have hkept := (Store.kept_addTrees children (((Store.add {} .document).1.add
    { tag := "html", attributes := html }).1.append 0 1) 1).2 1 (by simp)
  refine Eq.trans ?_ (hkept.trans ?_)
  · simp [early, Store.ofTree, Store.addTrees, Store.addTree, Builder.label]
  · simp [Store.label_add]

theorem label_head : (early html [.node { tag := "head", attributes := head } []] [2, 1] .head
    (some 2)).label 2 = { tag := "head", attributes := head } := by
  simp [early, Store.ofTree, Store.addTrees, Store.addTree, Builder.label, Store.label_add]

theorem label_body : (atBody html head body).label 3 = { tag := "body", attributes := body } := by
  simp [atBody, early, parts, Store.ofTree, Store.addTrees, Store.addTree, Builder.label,
    Store.label_add]

theorem size_atBody : (atBody html head body).store.cells.size = 4 := by
  simp [atBody, early, parts, Store.ofTree, Store.addTrees, Store.addTree]

theorem take_end_head :
    (early html [.node { tag := "head", attributes := head } []] [2, 1] .head (some 2)).take
        (.endTag "head") =
      early html [.node { tag := "head", attributes := head } []] [1] .afterHead (some 2) :=
  take_of_done (takesInMode_of_html rfl (by rw [label_head]) _) rfl

theorem take_start_body :
    (early html [.node { tag := "head", attributes := head } []] [1] .afterHead (some 2)).take
        (.startTag (.written "body" body)) = atBody html head (settle body) := by
  refine take_of_done (takesInMode_of_html rfl (by rw [label_root]) _) ?_
  have hopen : (early html [.node { tag := "head", attributes := head } []] [1] .afterHead
      (some 2)).takeInMode (.startTag (.written "body" body)) =
        (((early html [.node { tag := "head", attributes := head } []] [1] .afterHead
          (some 2)).keepBody.openElement (.written "body" body)).goto .body).done := rfl
  rw [hopen, openElement, labelOf_written rfl]
  simp [early, atBody, parts, Builder.empty, keepBody, openLabel, create, place, misplaces, attach,
    current, goto, Store.ofTree, Store.addTrees, Store.addTree]

theorem flows_atBody : (atBody html head body).Flows where
  mode := rfl
  fragment := rfl
  formatting := rfl
  fosters := rfl
  dropNewline := rfl
  strays := rfl
  request := rfl
  fault := rfl
  nonempty := List.cons_ne_nil _ _
  opened handle hmem := by
    have hcases : handle = 3 ∨ handle = 1 := by simpa [atBody, early] using hmem
    rw [size_atBody]
    rcases hcases with rfl | rfl
    · rw [Builder.name, label_body]
      exact ⟨by decide, rfl, by simp [openNames]⟩
    · have hroot : (atBody html head body).label 1 =
        (early html (parts head body []) [3, 1] .body (some 2)).label 1 := rfl
      rw [Builder.name, hroot, label_root]
      exact ⟨by decide, rfl, by simp [openNames]⟩

/-! ## Whole documents -/

theorem lexed_tag_html : Source.lexed.tag "html" :=
  ⟨isTagName_of_all rfl rfl, isLower_of_all rfl⟩

theorem lexed_tag_head : Source.lexed.tag "head" :=
  ⟨isTagName_of_all rfl rfl, isLower_of_all rfl⟩

theorem lexed_tag_body : Source.lexed.tag "body" :=
  ⟨isTagName_of_all rfl rfl, isLower_of_all rfl⟩

/-- A written document is read to its end, with the content of its body in pieces. -/
theorem exists_leads_page (hhtml : Writable html) (hhead : Writable head) (hbody : Writable body)
    (hforest : Plain forest) :
    ∃ (read : List Tree) (ok : Bool),
      Leads (page html head body forest).html.toList Builder.empty []
          (((atBody html (settle head) (settle body)).extend read ok).goto .afterAfterBody) ∧
        joinText (normalizeAll read) =
          joinText (normalizeAll (withAttributesAll settle forest)) := by
  have hflows := @flows_atBody html (settle head) (settle body)
  obtain ⟨read, ok, hcontent, hjoin⟩ := exists_leads_renderAll hforest hflows List.not_mem_nil
    (endsText_endTag "body" ((Markup.endTag "html").toList ++ []))
  have hread := hflows.extend read ok
  have hname : ((atBody html (settle head) (settle body)).extend read ok).name 3 = "body" := by
    have hkept := (Store.kept_addTrees read (atBody html (settle head) (settle body)).store 3).2 3
      (by rw [size_atBody]; decide)
    have hlabel : ((atBody html (settle head) (settle body)).extend read ok).label 3 =
      { tag := "body", attributes := settle body } := hkept.trans label_body
    rw [Builder.name, hlabel]
  refine ⟨read, ok, ?_, hjoin⟩
  -- The tags around the content are read one by one, in modes that are known.
  rw [toList_html_page]
  refine (Leads.of_startTag lexed_tag_html hhtml (take_start_html hhtml) rfl rfl _).trans ?_
  refine (Leads.of_startTag lexed_tag_head hhead take_start_head rfl rfl _).trans ?_
  refine (Leads.of_endTag lexed_tag_head take_end_head rfl rfl _).trans ?_
  refine (Leads.of_startTag lexed_tag_body hbody take_start_body rfl rfl _).trans ?_
  refine hcontent.trans ?_
  refine (Leads.of_endTag lexed_tag_body (hread.take_endBody rfl hname) rfl rfl _).trans ?_
  exact Leads.of_endTag lexed_tag_html hread.take_endHtml rfl rfl _

/-- A written document is read as the document with the content of its body in pieces and the
attributes that its elements keep. -/
theorem exists_parse_page (hhtml : Writable html) (hhead : Writable head) (hbody : Writable body)
    (hforest : Plain forest) :
    ∃ read, parse (page html head body forest).html =
        .ok (page html (settle head) (settle body) read) ∧
      joinText (normalizeAll read) = joinText (normalizeAll (withAttributesAll settle forest)) := by
  obtain ⟨read, ok, hleads, hjoin⟩ := exists_leads_page hhtml hhead hbody hforest
  have hreturn : '\r' ∉ (page html head body forest).html.toList := by
    rw [toList_html_page]
    simp only [List.mem_append, not_or]
    exact ⟨hhtml.not_mem_startTag lexed_tag_html, hhead.not_mem_startTag lexed_tag_head,
      not_mem_endTag (by decide), hbody.not_mem_startTag lexed_tag_body, hforest.not_mem_renderAll,
      not_mem_endTag (by decide), not_mem_endTag (by decide), List.not_mem_nil⟩
  have hinput : (Lexer.ofString (page html head body forest).html true).input =
      (page html head body forest).html.toList := Text.unifyLineEnds_of_not_mem hreturn
  refine ⟨read, ?_, hjoin⟩
  rw [parse, hleads.construct_eq ⟨hinput, rfl, rfl⟩
    (Nat.le_of_eq (congrArg List.length hinput.symm)), Fault.ok_bind]
  have htree : ((atBody html (settle head) (settle body)).extend read ok).store =
      Store.ofTree (page html (settle head) (settle body) read) := ofTree_page.symm
  change Except.ok (((atBody html (settle head) (settle body)).extend read ok).store.toTree 0) = _
  rw [htree, Store.toTree_ofTree]

theorem writable_nil : Writable [] :=
  ⟨fun _ hmem => (List.not_mem_nil hmem).elim, List.nodup_nil⟩

theorem Writable.settle_eq_self_iff {attributes : Attributes} (hwritable : Writable attributes) :
    settle attributes = attributes ↔ Apart attributes :=
  Html.settle_eq_self_iff (fun entry hmem => (hwritable.entry entry hmem).imp fun _ h => h.1)
    hwritable.nodup

/-- The elements of plain content keep their attributes exactly if no local name comes twice. -/
theorem Plain.settle_joined_iff (hplain : Plain forest) (cs : List Char) :
    withAttributesAll settle (joinText (ofChars cs ++ normalizeAll forest)) =
        joinText (ofChars cs ++ normalizeAll forest) ↔
      ∀ part ∈ preorderAll forest, Apart part.label.attributes := by
  -- As in reading, the text before the forest is carried along.
  induction hplain generalizing cs with
  | nil =>
      have hjoined : joinText (ofChars cs ++ normalizeAll []) = ofChars cs := by
        cases cs with
        | nil => rfl
        | cons c cs => rfl
      rw [hjoined, withAttributesAll_ofChars settle rfl]
      exact iff_of_true rfl fun part hmem => absurd hmem List.not_mem_nil
  | @text text rest hne _ _ _ ih =>
      rw [normalizeAll, normalize_ofText, joinText_ofChars_cons cs hne, ih]
      have hempty : Apart [] := List.nodup_nil
      exact ⟨fun hrest => List.forall_mem_cons.mpr ⟨hempty, hrest⟩,
        fun hall => (List.forall_mem_cons.mp hall).2⟩
  | @element name attributes children rest hname hattributes _ _ ihChildren ihRest =>
      have htext := isText_of_plain hname attributes
      rw [normalizeAll, Tree.normalize, joinText_ofChars_cons_of_not_text htext,
        withAttributesAll_append, withAttributesAll_ofChars settle rfl, withAttributesAll,
        withAttributes, List.append_cancel_left_eq, List.cons.injEq, Tree.node.injEq]
      have hlabel : ({ tag := name, attributes := settle attributes } : Label) =
          { tag := name, attributes := attributes } ↔ Apart attributes := by
        rw [← hattributes.settle_eq_self_iff]
        simp
      have hparts : preorderAll (node { tag := name, attributes := attributes } children :: rest) =
          node { tag := name, attributes := attributes } children ::
            (preorderAll children ++ preorderAll rest) := rfl
      rw [hparts, List.forall_mem_cons, List.forall_mem_append, ← ihChildren [], ← ihRest [],
        ← and_assoc]
      exact and_congr_left' (and_congr_left' hlabel)

/-- A document with an empty head and plain content in its body, written and read again, is the
same up to texts in several nodes exactly if no two attributes of an element below its root have
the same local name. -/
theorem parse_html_page (hhtml : Writable html) (hhead : Writable head) (hbody : Writable body)
    (hforest : Plain forest) :
    ∃ read, parse (page html head body forest).html = .ok read ∧
      (read.normalize = (page html head body forest).normalize ↔
        ∀ part ∈ preorderAll (parts head body forest), Apart part.label.attributes) := by
  obtain ⟨read, hparse, hjoin⟩ := exists_parse_page hhtml hhead hbody hforest
  refine ⟨_, hparse, ?_⟩
  have hforestJoined := hforest.settle_joined_iff []
  have hall : (∀ part ∈ preorderAll (parts head body forest), Apart part.label.attributes) ↔
      Apart head ∧ Apart body ∧ ∀ part ∈ preorderAll forest, Apart part.label.attributes := by
    simp [parts, preorderAll, preorder, Tree.label]
  -- The root takes its attributes over as they are, so nothing is asked of them.
  rw [normalize_page, normalize_page, page_inj, hjoin, normalizeAll_withAttributesAll,
    joinText_withAttributesAll, hall, hhead.settle_eq_self_iff, hbody.settle_eq_self_iff,
    ← hforestJoined]
  exact and_iff_right rfl

/-- A block with a text that looks like markup, a second text next to it and an empty span. -/
def nested : List Tree := [
  .node { tag := "div", attributes := [("title", some "a \"quote\" & more"), ("a:b", some "")] } [
    .ofText "1 < 2 &amp; ", .ofText "\u00a0", .node { tag := "span" } []],
  .ofText "\n"]

theorem plain_nested : Plain nested := by
  have hpairs : Writable [("title", some "a \"quote\" & more"), ("a:b", some "")] := by
    refine ⟨?_, by decide⟩
    have htitle : Source.lexed.pair "title" "a \"quote\" & more" :=
      ⟨isFieldName_of_all rfl rfl, isLower_of_all rfl⟩
    have hcolon : Source.lexed.pair "a:b" "" :=
      ⟨isFieldName_of_all rfl rfl, isLower_of_all rfl⟩
    intro entry hmem
    rcases List.mem_cons.mp hmem with rfl | hlast
    · exact ⟨_, rfl, htitle, by decide, by decide⟩
    · obtain rfl := List.mem_singleton.mp hlast
      exact ⟨_, rfl, hcolon, by decide, by decide⟩
  have hspan : Plain [.node { tag := "span" } []] := .element (Or.inr rfl) writable_nil .nil .nil
  exact .element (Or.inl rfl) hpairs
    (.text (by decide) (by decide) (by decide) (.text (by decide) (by decide) (by decide) hspan))
    (.text (by decide) (by decide) (by decide) .nil)

theorem parse_html_page_nested : Plain nested ∧
    ∃ read, parse (page [] [] [] nested).html = .ok read ∧
      read.normalize = (page [] [] [] nested).normalize := by
  obtain ⟨read, hparse, hsame⟩ :=
    parse_html_page writable_nil writable_nil writable_nil plain_nested
  exact ⟨plain_nested, read, hparse, hsame.mpr (by decide +kernel)⟩

/-- A block with two attributes of the same local name. -/
def clashing : List Tree :=
  [.node { tag := "div", attributes := [("a:x", some "1"), ("b:x", some "2")] } []]

theorem plain_clashing : Plain clashing := by
  have hfirst : Source.lexed.pair "a:x" "1" :=
    ⟨isFieldName_of_all rfl rfl, isLower_of_all rfl⟩
  have hsecond : Source.lexed.pair "b:x" "2" :=
    ⟨isFieldName_of_all rfl rfl, isLower_of_all rfl⟩
  refine .element (Or.inl rfl) ⟨fun entry hmem => ?_, by decide⟩ .nil .nil
  rcases List.mem_cons.mp hmem with rfl | hlast
  · exact ⟨_, rfl, hfirst, by decide, by decide⟩
  · obtain rfl := List.mem_singleton.mp hlast
    exact ⟨_, rfl, hsecond, by decide, by decide⟩

/-- A document with such a block is not read as it was written. -/
theorem parse_html_page_clashing : Plain clashing ∧
    ¬ ∃ read, parse (page [] [] [] clashing).html = .ok read ∧
      read.normalize = (page [] [] [] clashing).normalize := by
  refine ⟨plain_clashing, ?_⟩
  rintro ⟨read, hparse, hsame⟩
  have hread : (parse (page [] [] [] clashing).html).map (·.normalize.outline 0) =
      .ok ((page [] [] [] clashing).normalize.outline 0) := by
    rw [hparse, ← hsame]
    rfl
  exact absurd hread (by decide +kernel)

end Winnow.Html
