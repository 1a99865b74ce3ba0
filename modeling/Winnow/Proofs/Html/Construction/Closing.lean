import Winnow.Proofs.Html.Construction.Moves

/-!
# The moves at end tags

In ordinary content an end tag makes edits. Elsewhere it closes what the mode is for, if that is in
scope, and leads to the mode around it.
-/

namespace Winnow.Html.Builder

variable {read : Option Token} {start b : Builder}

/-! ## Ordinary content -/

namespace Edits

variable (hb : Edits read start b)
include hb

theorem closeParagraph (hopen : b.inScope .button "p" = true) :
    Edits read start b.closeParagraph := by
  have hstill := inScope_popImplied hopen "p" (Or.inr rfl)
  exact (hb.step (.popImplied "p")).step
    (.popThrough (by decide) hstill List.mem_cons_self (by decide) (by decide))

theorem leaveParagraph : Edits read start b.leaveParagraph := by
  unfold Builder.leaveParagraph
  split
  next hopen => exact hb.closeParagraph hopen
  next => exact hb

theorem endParagraph : Edits read start b.endParagraph := by
  unfold Builder.endParagraph
  split
  next hopen => exact hb.closeParagraph hopen
  next =>
    have hopened : Edits read start (b.openNamed "p") :=
      hb.step (.openElement (.named (by decide)) (by decide))
    exact hopened.closeParagraph (inScope_openElement { name := "p" })

theorem endBlock {tag : String} (htag : tag ∈ blockNames) : Edits read start (b.endBlock tag) := by
  have hknown : ∀ name ∈ blockNames, (∀ other ∈ [name], IsLoose other) ∧ name ∉ formattingNames ∧
      name ∉ Vocabulary.impliedEnds := by decide
  obtain ⟨hloose, hformatting, hstays⟩ := hknown tag htag
  have hstarted : Edits read start
      (if tag = "pre" then { b with dropNewline := false } else b) := by
    split
    · exact hb.step (.flags rfl)
    · exact hb
  unfold Builder.endBlock
  dsimp only
  generalize (if tag = "pre" then { b with dropNewline := false } else b) = started
    at hstarted ⊢
  split
  next hopen =>
    have hstill := inScope_popImplied hopen "" (Or.inl hstays)
    exact (hstarted.step (.popImplied "")).step
      (.popThrough (by decide) hstill List.mem_cons_self hloose hformatting)
  next => exact hstarted

theorem endForm : Edits read start b.endForm := by
  unfold Builder.endForm
  dsimp only
  split
  next => exact hb.step .dropForm
  next form hform =>
    split
    next =>
      have hclosed : Edits read start (b.popImplied "") := hb.step (.popImplied "")
      exact hclosed.step (.closeForm hform)
    next => exact hb.step .dropForm

theorem endItem {tag : String} (htag : tag ∈ ["dd", "dt", "li"]) :
    Edits read start (b.endItem tag) := by
  have hknown : ∀ name ∈ ["dd", "dt", "li"],
      (∀ other ∈ [name], IsLoose other) ∧ name ∉ formattingNames := by decide
  obtain ⟨hloose, hformatting⟩ := hknown tag htag
  have hscope : (if tag = "li" then Vocabulary.Scope.list else .ordinary) ∈
      [Vocabulary.Scope.ordinary, .button, .list] := by
    split <;> decide
  unfold Builder.endItem
  generalize (if tag = "li" then Vocabulary.Scope.list else .ordinary) = scope at hscope ⊢
  split
  next hopen =>
    have hstill := inScope_popImplied hopen tag (Or.inr rfl)
    exact (hb.step (.popImplied tag)).step
      (.popThrough hscope hstill List.mem_cons_self hloose hformatting)
  next => exact hb

theorem endHeading : Edits read start b.endHeading := by
  have hclosed : Edits read start (b.popImplied "") := hb.step (.popImplied "")
  have hknown : ∀ name ∈ Vocabulary.headings, name ∉ formattingNames := by decide
  unfold Builder.endHeading
  dsimp only
  split
  · split
    next hopen =>
      obtain ⟨tag, hmem, hopen⟩ := List.any_eq_true.mp hopen
      exact hclosed.step (.popThrough (by decide) hopen hmem (by decide) (hknown tag hmem))
    next => exact hclosed
  · exact hb

theorem endObject {tag : String} (htag : tag ∈ objectNames) :
    Edits read start (b.endObject tag) := by
  have hclosed : Edits read start (b.popImplied "") := hb.step (.popImplied "")
  have hknown : ∀ name ∈ objectNames,
      (∀ other ∈ [name], IsLoose other) ∧ name ∉ formattingNames := by decide
  obtain ⟨hloose, hformatting⟩ := hknown tag htag
  unfold Builder.endObject
  dsimp only
  split
  · split
    next hopen =>
      exact (hclosed.step
        (.popThrough (by decide) hopen List.mem_cons_self hloose hformatting)).step .clearToMarker
    next => exact hclosed
  · exact hb

/-- An end tag other than those of the body, the root and the elements that the mode is for. -/
theorem endInBody {tag : String} (htag : tag ∉ ["body", "html"]) (hholder : tag ∉ b.mode.holders) :
    Edits read start (b.endInBody tag).1 := by
  simp only [List.mem_cons, List.not_mem_nil, or_false, not_or] at htag
  unfold Builder.endInBody
  rw [if_neg htag.1, if_neg htag.2]
  split
  next hblock => exact hb.endBlock (List.contains_iff_mem.mp hblock)
  next =>
    split
    next => exact hb.endForm
    next =>
      split
      next => exact hb.endParagraph
      next =>
        split
        next hitem => exact hb.endItem (by simpa [or_assoc] using hitem)
        next =>
          split
          next => exact hb.endHeading
          next =>
            split
            next hformatting =>
              exact hb.step (.endFormatting (List.contains_iff_mem.mp hformatting))
            next =>
              split
              next hobject => exact hb.endObject (List.contains_iff_mem.mp hobject)
              next =>
                split
                next => exact (hb.step .reconstruct).step (.openVoid (.named (by decide)))
                next => exact hb.step (.endOther htag.2 hholder)

theorem endOutsideTable {tag : String} (htag : tag ∉ ["body", "html"])
    (hholder : tag ∉ b.mode.holders) : Edits read start (b.endOutsideTable tag).1 := by
  have hfosters : Edits read start { b with fosters := true } := hb.step (.flags rfl)
  exact (hfosters.endInBody htag hholder).step (.flags rfl)

/-- Where content is taken, these end tags are taken as in the body. -/
theorem endLoose {tag : String} (htag : tag ∈ ["dd", "dt", "li", "option", "p"])
    (hmode : b.mode.takesContent = true) : Edits read start (b.endTag tag).1 := by
  have hknown : ∀ name ∈ ["dd", "dt", "li", "option", "p"], name ∉ ["body", "html"] ∧
      IsLoose name := by decide
  obtain ⟨hnot, hloose⟩ := hknown tag htag
  have hholder : tag ∉ b.mode.holders := fun hmem =>
    Mode.not_isLoose_of_mem_holders hmem hloose
  have hinside : Edits read start (b.endInBody tag).1 := hb.endInBody hnot hholder
  have houtside : Edits read start (b.endOutsideTable tag).1 := hb.endOutsideTable hnot hholder
  simp only [List.mem_cons, List.not_mem_nil, or_false] at htag
  unfold endTag
  cases hcase : b.mode with
  | body => exact hinside
  | caption => rcases htag with rfl | rfl | rfl | rfl | rfl <;> exact hinside
  | cell => rcases htag with rfl | rfl | rfl | rfl | rfl <;> exact hinside
  | table => rcases htag with rfl | rfl | rfl | rfl | rfl <;> exact houtside
  | tableBody => rcases htag with rfl | rfl | rfl | rfl | rfl <;> exact houtside
  | row => rcases htag with rfl | rfl | rfl | rfl | rfl <;> exact houtside
  | _ => rw [hcase] at hmode; cases hmode

end Edits

namespace Moves

variable (hb : Moves read start b)
include hb

/-- In the body the end tags of the body and the root only change the mode. -/
theorem endInBody (hmode : b.mode = .body) (tag : String) :
    Moves read start (b.endInBody tag).1 := by
  have hended : Moves read start (b.goto .afterBody) := hb.proceeds (.endBody hmode)
  by_cases hbody : tag = "body"
  · unfold Builder.endInBody
    rw [if_pos hbody]
    dsimp only [done]
    split
    · exact hended
    · exact hb
  by_cases hhtml : tag = "html"
  · unfold Builder.endInBody
    rw [if_neg hbody, if_pos hhtml]
    split
    · exact hended
    · exact hb
  refine hb.edits (by rw [hmode]; rfl) (Edits.refl.endInBody (by simp [hbody, hhtml]) ?_)
  rw [hmode]
  exact fun hmem => hbody (List.mem_singleton.mp hmem)

/-! ## The head -/

theorem endInHead (hmode : b.mode = .head) (tag : String) :
    Moves read start (b.endInHead tag).1 := by
  have hleft : Moves read start b.leaveHead := hb.begins (.leaveHead hmode)
  unfold Builder.endInHead
  split
  · exact hleft
  · split
    · exact hleft
    · exact hb

theorem endInHeadNoscript (hmode : b.mode = .headNoscript) (tag : String) :
    Moves read start (b.endInHeadNoscript tag).1 := by
  have hleft : Moves read start (b.pop.goto .head) := hb.begins (.leaveNoscript hmode)
  unfold Builder.endInHeadNoscript
  split
  · exact hleft
  · split
    · exact hleft
    · exact hb

/-! ## Tables -/

/-- A mode that is for one kind of element misses it if it is not in scope. -/
theorem missHolder {tag : String} (hholders : b.mode.holders = [tag])
    (hopen : ¬ b.inScope b.mode.scope tag = true) : Moves read start (b.expect false) := by
  refine hb.proceeds (.missHolder (by rw [hholders]; exact List.cons_ne_nil _ _) ?_)
  rw [hholders]
  exact fun other hmem => List.mem_singleton.mp hmem ▸ Bool.not_eq_true _ ▸ hopen

/-- Everything in what the mode is for is closed. -/
theorem clear (hmode : b.mode ∈ [.table, .tableBody, .row]) {names : List String}
    (hholders : b.mode.holders = names) :
    Moves read start (b.popTo (names ++ ["html"])) ∧ (b.popTo (names ++ ["html"])).Cleared := by
  subst hholders
  exact ⟨hb.proceeds (.clear hmode), cleared_popTo b⟩

theorem endInTable (hmode : b.mode ∈ [.table, .tableBody, .row]) {tag : String}
    (htable : tag = "table" → b.mode = .table) : Moves read start (b.endInTable tag).1 := by
  unfold Builder.endInTable
  split
  next hend =>
    have hcase := htable hend
    split
    next hopen =>
      have hclosed : Moves read start (b.popImplied "") :=
        hb.proceeds (.edit (by rw [hcase]; rfl) (.popImplied ""))
      have hstill : (b.popImplied "").inScope (b.popImplied "").mode.scope "table" = true := by
        have hsame : (b.popImplied "").mode = .table := hcase
        rw [hsame]
        exact inScope_popImplied hopen "" (Or.inl (by decide))
      refine hclosed.proceeds (.closeBlock (by decide) ?_ hstill)
      have hholder : "table" ∈ b.mode.holders := by rw [hcase]; decide
      exact hholder
    next hopen => exact hb.missHolder (by rw [hcase]; rfl) (by rwa [hcase])
  next hend =>
    split
    next => exact hb
    next hnot =>
      have hparts : ∀ mode ∈ [Mode.table, .tableBody, .row],
          ∀ name ∈ ["body", "html"] ++ mode.holders, name = "table" ∨ name ∈ ["body", "caption",
            "col", "colgroup", "html", "tbody", "td", "tfoot", "th", "thead", "tr"] := by decide
      have hother : tag ∉ ["body", "html"] ++ b.mode.holders := fun hmem =>
        (hparts _ hmode tag hmem).elim hend fun hpart => hnot (List.contains_iff_mem.mpr hpart)
      have hcontent : ∀ mode ∈ [Mode.table, .tableBody, .row], mode.takesContent = true := by decide
      exact hb.edits (hcontent _ hmode) (Edits.refl.endOutsideTable
        (fun hmem => hother (List.mem_append_left _ hmem))
        fun hmem => hother (List.mem_append_right _ hmem))

/-- A caption or a cell in scope is closed with what is inside it. -/
theorem closeSection (hmode : b.mode ∈ [.caption, .cell]) {tag : String} (except : String)
    (hholder : tag ∈ b.mode.holders) (hopen : b.inScope .table tag = true) :
    Moves read start
      (((b.popImplied except).popThrough [tag]).clearToMarker.goto b.mode.outer) := by
  have hknown : ∀ mode ∈ [Mode.caption, .cell], mode.takesContent = true ∧
      ∀ name ∈ mode.holders, name ∉ Vocabulary.impliedEnds := by decide
  obtain ⟨hcontent, hstays⟩ := hknown _ hmode
  have hclosed : Moves read start (b.popImplied except) :=
    hb.proceeds (.edit hcontent (.popImplied except))
  have hstill := inScope_popImplied hopen except (Or.inl (hstays tag hholder))
  have hsame : (b.popImplied except).mode ∈ [.caption, .cell] := hmode
  exact hclosed.proceeds (.closeSection hsame hholder hstill)

theorem leaveCaption (hmode : b.mode = .caption) : Moves read start b.leaveCaption.1 := by
  unfold Builder.leaveCaption
  split
  next hopen =>
    have hclosed := hb.closeSection (by rw [hmode]; decide) "" (by rw [hmode]; decide) hopen
    rwa [hmode] at hclosed
  next hopen => exact hb.missHolder (by rw [hmode]; rfl) (by rwa [hmode])

theorem endInCaption (hmode : b.mode = .caption) (tag : String) :
    Moves read start (b.endInCaption tag).1 := by
  unfold Builder.endInCaption
  split
  next => exact hb.leaveCaption hmode
  next hcaption =>
    split
    next => exact hb.leaveCaption hmode
    next =>
      split
      next => exact hb
      next hnot =>
        have hparts : ∀ name ∈ ["body", "html"], name ∈ ["body", "col", "colgroup", "html", "tbody",
            "td", "tfoot", "th", "thead", "tr"] := by decide
        refine hb.edits (by rw [hmode]; rfl) (Edits.refl.endInBody (fun hmem => hnot ?_) ?_)
        · exact List.contains_iff_mem.mpr (hparts tag hmem)
        · rw [hmode]
          exact fun hmem => hcaption (List.mem_singleton.mp hmem)

theorem leaveColumnGroup (hmode : b.mode = .columnGroup) :
    Moves read start b.leaveColumnGroup.1 := by
  unfold Builder.leaveColumnGroup
  split
  next hname =>
    have hexpected : Moves read start (b.expect (b.currentName != "html")) :=
      hb.proceeds (.expectInner (by rw [hmode]; decide))
    rwa [hname] at hexpected
  next hname => exact hb.proceeds (.closeColumns hmode hname)

theorem endInColumnGroup (hmode : b.mode = .columnGroup) (tag : String) :
    Moves read start (b.endInColumnGroup tag).1 := by
  unfold Builder.endInColumnGroup
  split
  · exact hb.leaveColumnGroup hmode
  · split
    · exact hb
    · exact hb.leaveColumnGroup hmode

omit hb in
/-- Closing back to a group of rows changes nothing but what is open and the fault. -/
theorem popToRowGroup_eq (b : Builder) : b.popToRowGroup =
    { b.popTo (rowGroups ++ ["html"]) with fault := b.popToRowGroup.fault } :=
  expect_eq_fault _ _

theorem popToRowGroup (hmode : b.mode = .tableBody) :
    Moves read start b.popToRowGroup ∧ b.popToRowGroup.Cleared := by
  obtain ⟨hclosed, hcleared⟩ := hb.clear (by rw [hmode]; decide)
    (show b.mode.holders = rowGroups by rw [hmode]; rfl)
  have hsame : (b.popTo (rowGroups ++ ["html"])).mode = .tableBody := hmode
  exact ⟨hclosed.proceeds (.expectInner (by rw [hsame]; decide)), hcleared.expect _⟩

theorem endRowGroup (hmode : b.mode = .tableBody) {tag : String}
    (hopen : b.inScope .table tag = true → ∃ handle ∈ b.stack, b.name handle ∈ rowGroups) :
    Moves read start (b.endRowGroup tag) := by
  unfold Builder.endRowGroup
  split
  next hscope =>
    obtain ⟨handle, hmem, hname⟩ := hopen hscope
    obtain ⟨hclosed, hcleared⟩ := hb.popToRowGroup hmode
    -- Closing back to a group stops at the one in scope, so there is something to close.
    have hstops : (!(rowGroups ++ ["html"]).contains (b.name handle)) = false := by simp [hname]
    have hstill : handle ∈ b.popToRowGroup.stack := by
      rw [popToRowGroup_eq]
      exact mem_dropWhile hmem hstops
    have hsame : b.popToRowGroup.mode = .tableBody := by
      rw [popToRowGroup_eq]
      exact hmode
    have hnamed : b.popToRowGroup.name handle = b.name handle := by
      rw [popToRowGroup_eq]
      rfl
    have hgroup : b.popToRowGroup.name handle ∈ b.popToRowGroup.mode.holders := by
      rw [hnamed, hsame]
      exact hname
    have houter := hclosed.proceeds (.closePart (by rw [hsame]; decide) hcleared
      ⟨handle, hstill, hgroup⟩)
    rwa [hsame] at houter
  next => exact hb

theorem leaveRowGroup (hmode : b.mode = .tableBody) : Moves read start b.leaveRowGroup.1 := by
  unfold Builder.leaveRowGroup
  split
  next hscope =>
    obtain ⟨tag, hgroup, hscope⟩ := List.any_eq_true.mp hscope
    obtain ⟨handle, hmem, rfl⟩ := exists_of_inScope hscope
    have hstops : (!(rowGroups ++ ["html"]).contains (b.name handle)) = false := by simp [hgroup]
    refine (hb.popToRowGroup hmode).1.endRowGroup ?_ fun _ => ⟨handle, ?_, ?_⟩
    · rw [popToRowGroup_eq]
      exact hmode
    · rw [popToRowGroup_eq]
      exact mem_dropWhile hmem hstops
    · rw [popToRowGroup_eq]
      exact hgroup
  next hscope =>
    refine hb.proceeds (.missHolder (by rw [hmode]; decide) ?_)
    rw [hmode]
    exact fun tag hmem => Bool.not_eq_true _ ▸
      List.any_eq_false.mp (Bool.not_eq_true _ ▸ hscope) tag hmem

theorem endInTableBody (hmode : b.mode = .tableBody) (tag : String) :
    Moves read start (b.endInTableBody tag).1 := by
  unfold Builder.endInTableBody
  split
  next hgroup =>
    refine hb.endRowGroup hmode fun hscope => ?_
    obtain ⟨handle, hmem, rfl⟩ := exists_of_inScope hscope
    exact ⟨handle, hmem, List.contains_iff_mem.mp hgroup⟩
  next =>
    split
    next => exact hb.leaveRowGroup hmode
    next htable =>
      split
      next => exact hb
      next => exact hb.endInTable (by rw [hmode]; decide) fun heq => absurd heq htable

theorem popToRow (hmode : b.mode = .row) :
    Moves read start b.popToRow ∧ b.popToRow.Cleared :=
  hb.clear (by rw [hmode]; decide) (show b.mode.holders = ["tr"] by rw [hmode]; rfl)

theorem leaveRow (hmode : b.mode = .row) : Moves read start b.leaveRow.1 := by
  unfold Builder.leaveRow
  split
  next hscope =>
    obtain ⟨handle, hmem, hname⟩ := exists_of_inScope hscope
    obtain ⟨hclosed, hcleared⟩ := hb.popToRow hmode
    have hstill : handle ∈ b.popToRow.stack := mem_dropWhile hmem (by simp [hname])
    have hsame : b.popToRow.mode = .row := hmode
    have hrow : b.popToRow.name handle ∈ b.popToRow.mode.holders := by
      rw [hsame]
      exact List.mem_singleton.mpr hname
    have houter := hclosed.proceeds (.closePart (by rw [hsame]; decide) hcleared
      ⟨handle, hstill, hrow⟩)
    rwa [hsame] at houter
  next hopen => exact hb.missHolder (by rw [hmode]; rfl) (by rwa [hmode])

theorem endInRow (hmode : b.mode = .row) (tag : String) : Moves read start (b.endInRow tag).1 := by
  unfold Builder.endInRow
  split
  next => exact hb.leaveRow hmode
  next =>
    split
    next => exact hb.leaveRow hmode
    next htable =>
      split
      next =>
        split
        · exact hb.leaveRow hmode
        · exact hb
      next =>
        split
        next => exact hb
        next => exact hb.endInTable (by rw [hmode]; decide) fun heq => absurd heq htable

theorem endCell (hmode : b.mode = .cell) {tag : String} (htag : tag ∈ ["td", "th"]) :
    Moves read start (b.endCell tag) := by
  unfold Builder.endCell
  split
  next hopen =>
    have hclosed := hb.closeSection (by rw [hmode]; decide) tag (by rw [hmode]; exact htag) hopen
    rwa [hmode] at hclosed
  next => exact hb

theorem leaveCell (hmode : b.mode = .cell) : Moves read start b.leaveCell := by
  unfold Builder.leaveCell
  split
  · exact hb.endCell hmode (by decide)
  · exact hb.endCell hmode (by decide)

theorem endInCell (hmode : b.mode = .cell) (tag : String) :
    Moves read start (b.endInCell tag).1 := by
  unfold Builder.endInCell
  split
  next htag => exact hb.endCell hmode (by simpa using htag)
  next htag =>
    split
    next => exact hb
    next hnot =>
      split
      next =>
        split
        · exact hb.leaveCell hmode
        · exact hb
      next =>
        have hparts : ∀ name ∈ ["body", "html"],
            name ∈ ["body", "caption", "col", "colgroup", "html"] := by decide
        refine hb.edits (by rw [hmode]; rfl) (Edits.refl.endInBody (fun hmem => hnot ?_) ?_)
        · exact List.contains_iff_mem.mpr (hparts tag hmem)
        · rw [hmode]
          exact fun hmem => htag (by simpa [Mode.holders] using hmem)

/-! ## Selections -/

section Select

variable (hmode : b.mode ∈ [.select, .selectInTable])
include hmode

theorem endSelect : Moves read start b.endSelect := by
  obtain ⟨hholders, hscope⟩ := Mode.holders_of_select hmode
  unfold Builder.endSelect
  split
  next hopen =>
    exact hb.proceeds (.closeBlock (by decide) (by rw [hholders]; decide) (by rwa [hscope]))
  next hopen => exact hb.missHolder hholders (by rwa [hscope])

theorem popIf {name : String} (hname : name ∈ ["option", "optgroup"]) :
    Moves read start (b.popIf name) := by
  unfold Builder.popIf
  split
  next hcurrent => exact hb.proceeds (.closeOption hmode (hcurrent ▸ hname))
  next => exact hb

theorem endOptionGroup : Moves read start b.endOptionGroup := by
  have hgroup : "optgroup" ∈ ["option", "optgroup"] := by decide
  unfold Builder.endOptionGroup
  dsimp only
  split
  next hoption =>
    have hname : b.currentName = "option" :=
      of_decide_eq_true (Bool.and_eq_true_iff.mp hoption).1
    have hclosed : Moves read start b.pop :=
      hb.proceeds (.closeOption hmode (by rw [hname]; decide))
    exact hclosed.popIf hmode hgroup
  next => exact hb.popIf hmode hgroup

theorem endInSelect (tag : String) : Moves read start (b.endInSelect tag).1 := by
  unfold Builder.endInSelect
  split
  · exact hb.popIf hmode (by decide)
  · split
    · exact hb.endOptionGroup hmode
    · split
      · exact hb.endSelect hmode
      · exact hb

theorem endInTableSelect (tag : String) : Moves read start (b.endInTableSelect tag).1 := by
  unfold Builder.endInTableSelect
  split
  · split
    · exact hb.endSelect hmode
    · exact hb
  · exact hb.endInSelect hmode tag

end Select

/-! ## Any mode -/

theorem flushTableText (hmode : b.mode = .tableText) : Moves read start b.flushTableText := by
  refine hb.proceeds (.endTableText hmode ?_)
  have hreturned : Edits read { b with tableTexts := [], mode := b.tableReturn }
      { b with tableTexts := [], mode := b.tableReturn } := .refl
  unfold Builder.flushTableText
  dsimp only
  split
  · have hfosters : Edits read { b with tableTexts := [], mode := b.tableReturn }
        { b with tableTexts := [], mode := b.tableReturn, fosters := true } :=
      hreturned.step (.flags rfl)
    exact ((hfosters.step .reconstruct).step (.addText _)).step (.flags rfl)
  · split
    · exact hreturned
    · exact hreturned.step (.addText _)

theorem openHead (hmode : b.mode = .beforeHead) :
    Moves read start (b.openHead { name := "head" }) :=
  hb.begins (.openHead hmode (.named (by decide)) rfl)

theorem openBody (hmode : b.mode = .afterHead) : Moves read start b.openBody := by
  have hopened : Moves read start ((b.openNamed "body").goto .body) :=
    hb.begins (.openBody hmode (.named (by decide)) rfl)
  exact hopened.step (.flags rfl)

theorem endTag (tag : String) : Moves read start (b.endTag tag).1 := by
  unfold Builder.endTag
  cases hmode : b.mode with
  | initial => exact hb.begins (.declare hmode true)
  | beforeHtml =>
      dsimp only
      split
      · exact hb.begins (.openRoot hmode)
      · exact hb
  | beforeHead =>
      dsimp only
      split
      · exact hb.openHead hmode
      · exact hb
  | head => exact hb.endInHead hmode tag
  | headNoscript => exact hb.endInHeadNoscript hmode tag
  | afterHead =>
      dsimp only
      split
      · exact hb.openBody hmode
      · exact hb
  | body => exact hb.endInBody hmode tag
  | text => exact hb.step (.leaveText hmode)
  | table => exact hb.endInTable (by rw [hmode]; decide) fun _ => hmode
  | tableText => exact hb.flushTableText hmode
  | caption => exact hb.endInCaption hmode tag
  | columnGroup => exact hb.endInColumnGroup hmode tag
  | tableBody => exact hb.endInTableBody hmode tag
  | row => exact hb.endInRow hmode tag
  | cell => exact hb.endInCell hmode tag
  | select => exact hb.endInSelect (by rw [hmode]; decide) tag
  | selectInTable => exact hb.endInTableSelect (by rw [hmode]; decide) tag
  | afterBody =>
      dsimp only
      split
      · dsimp only [done]
        split
        · exact hb
        · exact hb.proceeds (.endDocument hmode)
      · exact hb.proceeds (.reenter (by rw [hmode]; decide))
  | frameset =>
      dsimp only [done]
      split
      · exact hb.proceeds (.closeFrameset hmode)
      · exact hb
  | afterFrameset =>
      dsimp only [done]
      split
      · exact hb.proceeds (.endFrames hmode)
      · exact hb
  | afterAfterBody => exact hb.proceeds (.reenter (by rw [hmode]; decide))
  | afterAfterFrameset => exact hb

/-- An end tag in foreign content closes foreign elements, or the mode takes it. -/
theorem endForeignFrom (hforeign : b.inForeign = true) (tag : String) (front handles : List Handle)
    (hstack : b.stack = front ++ handles)
    (hfront : ∀ handle ∈ front ++ handles.head?.toList, (b.label handle).space ≠ .html) :
    Moves read start (b.endForeignFrom tag handles).1 := by
  -- The elements passed on the way are foreign, as the search goes on to no other.
  induction handles generalizing front with
  | nil => exact hb
  | cons handle outer ih =>
      unfold Builder.endForeignFrom
      dsimp only
      split
      next => exact hb.step (.wanders hforeign (.closeForeign hstack hfront rfl))
      next =>
        split
        next => exact hb
        next next rest =>
          split
          next => exact hb.endTag tag
          next hnext =>
            refine ih (front ++ [handle]) (by simp [hstack]) fun other hmem => ?_
            rcases List.mem_append.mp hmem with hold | hlast
            · exact hfront other hold
            · exact List.mem_singleton.mp hlast ▸ hnext

theorem endForeign (hforeign : b.inForeign = true) (tag : String) :
    Moves read start (b.endForeign tag).1 := by
  refine hb.endForeignFrom hforeign tag [] b.stack rfl fun handle hmem => ?_
  unfold inForeign at hforeign
  split at hforeign
  next => cases hforeign
  next first rest hstack =>
    rw [hstack] at hmem
    cases List.mem_singleton.mp hmem
    exact of_decide_eq_true hforeign

end Moves

end Winnow.Html.Builder
