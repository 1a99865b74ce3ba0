import Winnow.Proofs.Assoc
import Winnow.Proofs.Html.Construction.Closing

/-!
# The moves at start tags

A start tag opens an element of its name, or one of the elements that are made without a tag of
their own, after closing what the new element may not stand in.
-/

namespace Winnow.Html

theorem Mode.takesElements_of_takesContent {mode : Mode} (hmode : mode.takesContent = true) :
    mode.takesElements = true := by
  cases mode <;> first | rfl | cases hmode

theorem Mode.hasRoot_of_takesElements {mode : Mode} (hmode : mode.takesElements = true) :
    mode.hasRoot = true := by
  cases mode <;> first | rfl | cases hmode

namespace Builder

variable {read : Option Token} {start b : Builder} {tag : Tag}

/-! ## The head -/

/-- The elements that the head takes and that are taken alike elsewhere. -/
def headContent : List String := [
  "base", "basefont", "bgsound", "command", "link", "meta", "noframes", "script", "style", "title"]

/-- Such an element has raw content or none. -/
theorem startInHead_eq (htag : tag.name ∈ headContent) :
    (tag.name ∈ textTags ∧ ∃ model ∈ [ContentModel.escapable, .raw, .script],
      b.startInHead tag = (b.openRaw tag model).done) ∨
        b.startInHead tag = (b.openVoid tag).done := by
  unfold startInHead
  split
  next hname => exact absurd (hname ▸ htag) (by decide)
  next hname => exact Or.inl ⟨by rw [hname]; decide, _, by decide, rfl⟩
  next hname => exact Or.inl ⟨by rw [hname]; decide, _, by decide, rfl⟩
  next hname => exact Or.inl ⟨by rw [hname]; decide, _, by decide, rfl⟩
  next hname => exact absurd (hname ▸ htag) (by decide)
  next hname => exact Or.inl ⟨by rw [hname]; decide, _, by decide, rfl⟩
  next => exact Or.inr rfl
  next => exact Or.inr rfl
  next => exact Or.inr rfl
  next => exact Or.inr rfl
  next => exact Or.inr rfl
  next => exact Or.inr rfl
  next hname => exact absurd (hname ▸ htag) (by decide)
  next => simp_all [headContent]

namespace Moves

section Head

variable (hb : Moves read start b) (hread : read = some (.startTag tag))
include hb hread

theorem openRaw (hmode : b.mode.takesElements = true) (htext : tag.name ∈ textTags)
    {model : ContentModel} (hmodel : model ∈ [.escapable, .raw, .script]) :
    Replies read start (b.openRaw tag model).done :=
  .raw hb (.openRaw hmode hread htext hmodel) rfl

theorem openVoid (hmode : b.mode.takesElements = true) :
    Replies read start (b.openVoid tag).done :=
  .moves (hb.step (.openVoid hmode (.own hread)))

theorem mergeRoot (hmode : b.mode.hasRoot = true) : Replies read start (b.mergeRoot tag).done :=
  .moves (hb.step (.mergeRoot hmode (.own hread)))

theorem startInHead_of_content (hmode : b.mode.takesElements = true)
    (hcontent : tag.name ∈ headContent) : Replies read start (b.startInHead tag) := by
  obtain ⟨htext, model, hmodel, heq⟩ | heq := startInHead_eq (b := b) hcontent
  · rw [heq]
    exact hb.openRaw hread hmode htext hmodel
  · rw [heq]
    exact hb.openVoid hread hmode

theorem startInHead (hmode : b.mode = .head) : Replies read start (b.startInHead tag) := by
  have htakes : b.mode.takesElements = true := by rw [hmode]; rfl
  have hraw : ∀ {model : ContentModel}, tag.name ∈ textTags →
      model ∈ [ContentModel.escapable, .raw, .script] →
        Replies read start (b.openRaw tag model).done :=
    fun htext hmodel => hb.openRaw hread htakes htext hmodel
  have hvoid : Replies read start (b.openVoid tag).done := hb.openVoid hread htakes
  unfold Builder.startInHead
  split
  next => exact hb.mergeRoot hread (by rw [hmode]; rfl)
  next hname => exact hraw (by rw [hname]; decide) (by decide)
  next hname => exact hraw (by rw [hname]; decide) (by decide)
  next hname => exact hraw (by rw [hname]; decide) (by decide)
  next hname =>
    split
    · exact hraw (by rw [hname]; decide) (by decide)
    · exact .moves (hb.begins (.openNoscript hmode (.own hread) hname))
  next hname => exact hraw (by rw [hname]; decide) (by decide)
  next => exact hvoid
  next => exact hvoid
  next => exact hvoid
  next => exact hvoid
  next => exact hvoid
  next => exact hvoid
  next => exact .moves hb
  next => exact .moves (hb.begins (.leaveHead hmode))

theorem startInHeadNoscript (hmode : b.mode = .headNoscript) :
    Replies read start (b.startInHeadNoscript tag) := by
  have hknown : ∀ name ∈ ["basefont", "bgsound", "link", "meta", "noframes", "style"],
      name ∈ headContent := by decide
  unfold Builder.startInHeadNoscript
  split
  · exact hb.mergeRoot hread (by rw [hmode]; rfl)
  · split
    next hname =>
      exact hb.startInHead_of_content hread (by rw [hmode]; rfl)
        (hknown _ (List.contains_iff_mem.mp hname))
    next =>
      split
      · exact .moves hb
      · exact .moves (hb.begins (.leaveNoscript hmode))

theorem startAfterHead (hmode : b.mode = .afterHead) :
    Replies read start (b.startAfterHead tag) := by
  unfold Builder.startAfterHead
  split
  next => exact hb.mergeRoot hread (by rw [hmode]; rfl)
  next =>
    split
    next hname =>
      have hkept : Moves read start b.keepBody := hb.step (.flags rfl)
      have hsame : b.keepBody.mode = .afterHead := hmode
      exact .moves (hkept.begins (.openBody hsame (.own hread) hname))
    next =>
      split
      next hname => exact .moves (hb.begins (.openFrames hmode hread hname))
      next =>
        split
        next hname =>
          exact .raw hb (.startIntoHead hmode hread (List.contains_iff_mem.mp hname)) rfl
        next =>
          split
          · exact .moves hb
          · exact .moves (hb.openBody hmode)

end Head

end Moves

/-! ## Ordinary content -/

theorem mem_of_openItem? {items : List String} {handles : List Handle} {item : String}
    (hopen : b.openItem? items handles = some item) : item ∈ items := by
  induction handles with
  | nil => cases hopen
  | cons handle outer ih =>
      unfold openItem? at hopen
      dsimp only at hopen
      split at hopen
      next hitem =>
        cases hopen
        exact List.contains_iff_mem.mp hitem
      next =>
        split at hopen
        · cases hopen
        · exact ih hopen

namespace Edits

variable (hb : Edits read start b)
include hb

theorem textInBody (text : String) : Edits read start (b.textInBody text) := by
  have hadded : Edits read start (b.reconstruct.addText text) :=
    (hb.step .reconstruct).step (.addText text)
  unfold Builder.textInBody
  split
  · exact hb
  · dsimp only
    split
    · exact hadded.step (.flags rfl)
    · exact hadded

section Tag

variable (htag : Stands read tag)
include htag

theorem startInline : Edits read start (b.startInline tag) :=
  ((hb.step .reconstruct).step (.openVoid htag)).step (.flags rfl)

theorem startInput : Edits read start (b.startInput tag) :=
  (hb.startInline htag).step (.flags rfl)

theorem startRule : Edits read start (b.startRule tag) :=
  (hb.leaveParagraph.step (.openVoid htag)).step (.flags rfl)

theorem startForm (hname : tag.name = "form") : Edits read start (b.startForm tag) := by
  unfold Builder.startForm
  split
  · exact hb
  · exact hb.leaveParagraph.step (.openForm htag hname)

theorem startAnchor (hname : tag.name = "a") : Edits read start (b.startAnchor tag) := by
  have hformatting : tag.name ∈ formattingNames := by rw [hname]; decide
  unfold Builder.startAnchor
  dsimp only
  split
  next anchor hnamed =>
    exact ((hb.step (.endAnchor hnamed)).step .reconstruct).step (.openFormatting htag hformatting)
  next => exact (hb.step .reconstruct).step (.openFormatting htag hformatting)

theorem startNobr (hname : tag.name = "nobr") : Edits read start (b.startNobr tag) := by
  have hformatting : tag.name ∈ formattingNames := by rw [hname]; decide
  have hcontinued : Edits read start b.reconstruct := hb.step .reconstruct
  unfold Builder.startNobr
  dsimp only
  refine Edits.step ?_ (.openFormatting htag hformatting)
  split
  · exact (hcontinued.step (.endFormatting (by decide))).step .reconstruct
  · exact hcontinued

section Loose

variable (hloose : IsLoose tag.name)
include hloose

theorem openBlock : Edits read start (b.openBlock tag) :=
  hb.leaveParagraph.step (.openElement htag hloose)

/-- An element is opened inside the formatting elements that are continued. -/
theorem openInside : Edits read start (b.reconstruct.openElement tag) :=
  (hb.step .reconstruct).step (.openElement htag hloose)

theorem startHeading : Edits read start (b.startHeading tag) := by
  have hknown : ∀ name ∈ Vocabulary.headings, IsLoose name := by decide
  unfold Builder.startHeading
  dsimp only
  refine Edits.step ?_ (.openElement htag hloose)
  split
  next hheading =>
    exact hb.leaveParagraph.step (.pop (hknown _ (List.contains_iff_mem.mp hheading)))
  next => exact hb.leaveParagraph

theorem startAnnotation : Edits read start (b.startAnnotation tag) := by
  unfold Builder.startAnnotation
  refine Edits.step ?_ (.openElement htag hloose)
  split
  · exact hb.step (.popImplied "")
  · exact hb

variable (hmode : b.mode.takesContent = true)
include hmode

theorem startItem : Edits read start (b.startItem tag) := by
  have hitems : ∀ item ∈ itemsClosedBy tag.name, item ∈ ["dd", "dt", "li", "option", "p"] := by
    unfold itemsClosedBy
    split <;> decide
  have hkept : Edits read b b.keepBody := Edits.refl.step (.flags rfl)
  have hclosed : ∀ {ended : Builder}, Edits read b ended →
      Edits read b (if ended.inScope .button "p" then (ended.endTag "p").1 else ended) := by
    intro ended hended
    split
    · exact hended.endLoose (by decide) (hended.mode_eq ▸ hmode)
    · exact hended
  unfold Builder.startItem
  dsimp only
  refine Edits.step (hb.trans (hclosed ?_)) (.openElement htag hloose)
  split
  next item hopen => exact hkept.endLoose (hitems item (mem_of_openItem? hopen)) hmode
  next => exact hkept

theorem startOption : Edits read start (b.startOption tag) := by
  unfold Builder.startOption
  dsimp only
  refine Edits.openInside ?_ htag hloose
  split
  · exact hb.endLoose (by decide) hmode
  · exact hb

end Loose

end Tag

/-- The search form has the action and the other attributes of its tag in two places. -/
theorem startSearch (hread : read = some (.startTag tag)) :
    Edits read start (b.startSearch tag) := by
  have haction : Stands read { name := "form", attributes :=
      (tag.attributes.find? "action").toList.map fun value => ("action", value) } := by
    refine .made (by decide) fun entry hmem => Or.inr ⟨tag, hread, ?_⟩
    obtain ⟨value, hvalue, rfl⟩ := List.mem_map.mp hmem
    exact Assoc.mem_of_find? (Option.mem_toList.mp hvalue)
  have hfield : Stands read {
      name := "input"
      attributes := Assoc.put "name" "isindex"
        (Assoc.without "prompt" (Assoc.without "action" tag.attributes))
      selfClosing := tag.selfClosing } := by
    refine .made (by decide) fun entry hmem => ?_
    refine (Assoc.mem_of_mem_put hmem).imp_right fun hrest => ⟨tag, hread, ?_⟩
    exact List.mem_of_mem_filter (List.mem_of_mem_filter hrest)
  have hrule : Stands read { name := "hr" } := .named (by decide)
  unfold Builder.startSearch
  split
  · exact hb
  · have hform := ((hb.startForm haction rfl).startRule hrule).step .reconstruct
    have hlabel := hform.step
      (.openElement (.named (show "label" ∈ madeTags by decide)) (by decide))
    have hprompt := hlabel.textInBody ((tag.attributes.find? "prompt").getD searchPrompt)
    have hended := (hprompt.startInput hfield).step
      (.endOther (show "label" ≠ "html" by decide) fun hholder =>
        Mode.not_isLoose_of_mem_holders hholder (by decide))
    exact (hended.startRule hrule).endForm

end Edits

/-- What may be taken without a look at its name calls for no mode of its own. -/
theorem isLoose_of_not_mem {name : String}
    (hname : name ∉ ["html", "body", "frameset", "table", "select"])
    (hplace : name ∉ misplacedNames) : IsLoose name := by
  unfold IsLoose modeWithin
  split
  all_goals first
    | rfl
    | exact absurd (by decide) hname
    | exact absurd (by decide) hplace

namespace Moves

section Body

variable (hb : Moves read start b) (hmode : b.mode.takesContent = true)
  (hread : read = some (.startTag tag))
include hb hmode hread

theorem startBody : Moves read start (b.startBody tag) := by
  unfold Builder.startBody
  split
  next body hbody =>
    split
    next =>
      have hkept : Edits read b b.keepBody := Edits.refl.step (.flags rfl)
      exact hb.edits hmode (hkept.step (.addMissing body (.own hread)))
    next hname =>
      refine hb.proceeds (.missBody hmode fun other hother => ?_)
      cases hbody.symm.trans hother
      exact hname
  next hnone =>
    exact hb.proceeds (.missBody hmode fun other hother => by cases hnone.symm.trans hother)

theorem startFrameset (hframes : tag.name = "frameset") :
    Moves read start (b.startFrameset tag) := by
  unfold Builder.startFrameset
  split
  next body hbody =>
    split
    next hname =>
      split
      · exact hb.proceeds (.replaceBody hmode hbody hname hread hframes)
      · exact hb
    next hname =>
      refine hb.proceeds (.missBody hmode fun other hother => ?_)
      cases hbody.symm.trans hother
      exact hname
  next hnone =>
    exact hb.proceeds (.missBody hmode fun other hother => by cases hnone.symm.trans hother)

theorem startSelect (hname : tag.name = "select") : Moves read start (b.startSelect tag) := by
  have hcontinued : Moves read start b.reconstruct :=
    hb.edits hmode (Edits.refl.step .reconstruct)
  have hsame : b.reconstruct.mode = b.mode := congrArg Prod.fst (modes_reconstruct b)
  have hopened : ∀ {mode : Mode}, "select" ∈ mode.holders →
      Moves read start ((b.reconstruct.openElement tag).goto mode) := fun hholder =>
    hcontinued.proceeds (.openBlock (hsame ▸ hmode) (.own hread) (by rw [hname]; decide)
      (hname ▸ hholder))
  unfold Builder.startSelect
  dsimp only
  refine (hopened ?_).step (.flags rfl)
  split
  · decide
  · decide

theorem startParticular (hplace : tag.name ∉ misplacedNames) :
    Replies read start (b.startParticular tag) := by
  have htag : Stands read tag := .own hread
  have hself : Edits read b b := .refl
  have hedits : ∀ {reply : Reply}, Edits read b reply.1 → Replies read start reply :=
    fun hedits => .moves (hb.edits hmode hedits)
  have htakes := Mode.takesElements_of_takesContent hmode
  have hraw : ∀ {other : Builder} {model : ContentModel}, Edits read b other →
      tag.name ∈ textTags → model ∈ [ContentModel.escapable, .raw, .script] →
        Replies read start (other.openRaw tag model).done := fun hother htext hmodel =>
    (hb.edits hmode hother).openRaw hread (hother.mode_eq ▸ htakes) htext hmodel
  have hnamed : ∀ {name : String}, tag.name = name → IsLoose name → IsLoose tag.name :=
    fun hname hloose => hname ▸ hloose
  have hforeign : tag.name ∈ ["svg", "math"] →
      ∃ tag, read = some (.startTag tag) ∧ tag.name ∈ ["svg", "math"] :=
    fun hname => ⟨tag, hread, hname⟩
  -- One case for each name, in the order of the definition; every other name is loose.
  unfold Builder.startParticular
  split
  next => exact hb.mergeRoot hread (Mode.hasRoot_of_takesElements htakes)
  next => exact .moves (hb.startBody hmode hread)
  next hname => exact .moves (hb.startFrameset hmode hread hname)
  next hname => exact hedits ((hself.openBlock htag (hnamed hname (by decide))).step (.flags rfl))
  next hname => exact hedits ((hself.openBlock htag (hnamed hname (by decide))).step (.flags rfl))
  next hname => exact hedits (hself.startForm htag hname)
  next hname => exact hedits (hself.startItem htag (hnamed hname (by decide)) hmode)
  next hname => exact hedits (hself.startItem htag (hnamed hname (by decide)) hmode)
  next hname => exact hedits (hself.startItem htag (hnamed hname (by decide)) hmode)
  next hname =>
    exact hedits ((hself.openBlock htag (hnamed hname (by decide))).step
      (.ask hread (by rw [hname]; decide) .plain))
  next hname => exact hedits (hself.startAnchor htag hname)
  next hname => exact hedits (hself.startNobr htag hname)
  next hname =>
    split
    · exact hedits (hself.endBlock (by decide))
    · exact hedits ((hself.openInside htag (hnamed hname (by decide))).step (.flags rfl))
  next hname =>
    have hready : Edits read b b.leaveParagraph.reconstruct.keepBody :=
      (hself.leaveParagraph.step .reconstruct).step (.flags rfl)
    exact hraw hready (by rw [hname]; decide) (by decide)
  next hname =>
    have hleft : Edits read b (if b.oldRules then b else b.leaveParagraph) := by
      split
      · exact hself
      · exact hself.leaveParagraph
    have hopened := (hb.edits hmode hleft).proceeds (.openBlock (hleft.mode_eq ▸ hmode) htag
      (by rw [hname]; decide) (by rw [hname]; decide : tag.name ∈ Mode.table.holders))
    exact .moves (hopened.step (.flags rfl))
  next => exact hedits (hself.startInput htag)
  next => exact hedits (hself.startRule htag)
  next =>
    have himage : Stands read { tag with name := "img" } :=
      .made (by decide) fun entry hmem => Or.inr ⟨tag, hread, hmem⟩
    exact hedits (hself.startInline himage)
  next => exact hedits (hself.startSearch hread)
  next hname =>
    have hasked := (hself.step (.openElement htag (hnamed hname (by decide)))).step
      (.ask hread (by rw [hname]; decide) .escapable)
    exact hedits (hasked.step (.flags rfl))
  next hname => exact hraw (hself.step (.flags rfl)) (by rw [hname]; decide) (by decide)
  next hname =>
    split
    · exact hraw hself (by rw [hname]; decide) (by decide)
    · exact hedits (hself.openInside htag (hnamed hname (by decide)))
  next hname => exact hraw hself (by rw [hname]; decide) (by decide)
  next hname => exact hraw hself (by rw [hname]; decide) (by decide)
  next hname => exact .moves (hb.startSelect hmode hread hname)
  next hname => exact hedits (hself.startAnnotation htag (hnamed hname (by decide)))
  next hname => exact hedits (hself.startAnnotation htag (hnamed hname (by decide)))
  next hname => exact hedits (hself.startOption htag (hnamed hname (by decide)) hmode)
  next hname => exact hedits (hself.startOption htag (hnamed hname (by decide)) hmode)
  next hname =>
    exact hedits ((hself.step .reconstruct).step
      (.openForeign .mathml (.math hread) (hforeign (by rw [hname]; decide))))
  next hname =>
    exact hedits ((hself.step .reconstruct).step
      (.openForeign .svg (.svg hread (Or.inl rfl)) (hforeign (by rw [hname]; decide))))
  next =>
    refine hedits (hself.openInside htag (isLoose_of_not_mem ?_ hplace))
    simp only [List.mem_cons, List.not_mem_nil, or_false, not_or]
    exact ⟨‹_›, ‹_›, ‹_›, ‹_›, ‹_›⟩

theorem startInBody : Replies read start (b.startInBody tag) := by
  have htag : Stands read tag := .own hread
  have hself : Edits read b b := .refl
  have hedits : ∀ {reply : Reply}, Edits read b reply.1 → Replies read start reply :=
    fun hedits => .moves (hb.edits hmode hedits)
  have hhead : ∀ name ∈ headNamesInBody, name ∈ headContent := by decide
  have hblocks : ∀ name ∈ paragraphEnders, IsLoose name := by decide
  have hheadings : ∀ name ∈ Vocabulary.headings, IsLoose name := by decide
  have hobjects : ∀ name ∈ objectNames, IsLoose name := by decide
  -- The groups of names come first, and a name of none of them is taken by itself.
  unfold Builder.startInBody
  split
  next hname =>
    exact hb.startInHead_of_content hread (Mode.takesElements_of_takesContent hmode)
      (hhead _ (List.contains_iff_mem.mp hname))
  next =>
    split
    next hname => exact hedits (hself.openBlock htag (hblocks _ (List.contains_iff_mem.mp hname)))
    next =>
      split
      next hname =>
        exact hedits (hself.startHeading htag (hheadings _ (List.contains_iff_mem.mp hname)))
      next =>
        split
        next hname =>
          rw [Bool.and_eq_true] at hname
          exact hedits ((hself.step .reconstruct).step
            (.openFormatting htag (List.contains_iff_mem.mp hname.2)))
        next =>
          split
          next hname =>
            have hopened := hself.openInside htag (hobjects _ (List.contains_iff_mem.mp hname))
            exact hedits ((hopened.step .mark).step (.flags rfl))
          next =>
            split
            next => exact hedits (hself.startInline htag)
            next =>
              split
              next => exact hedits (hself.step (.openVoid htag))
              next =>
                split
                next => exact .moves hb
                next hplace =>
                  refine hb.startParticular hmode hread fun hmem => ?_
                  exact hplace (List.contains_iff_mem.mpr hmem)

theorem startOutsideTable : Replies read start (b.startOutsideTable tag) := by
  have hfosters : Moves read start { b with fosters := true } := hb.step (.flags rfl)
  exact (hfosters.startInBody hmode hread).flags rfl

end Body

/-! ## Tables -/

section Tables

variable (hb : Moves read start b) (hread : read = some (.startTag tag))
include hb hread

/-- The parts of a table are opened where the mode is that of the table itself. -/
theorem startInTable (hmode : b.mode ∈ [.table, .tableBody, .row])
    (hparts : tag.name ∈ tablePartNames → b.mode = .table) :
    Replies read start (b.startInTable tag) := by
  have hknown : ∀ mode ∈ [Mode.table, .tableBody, .row], mode.takesContent = true := by decide
  have hcontent : b.mode.takesContent = true := hknown _ hmode
  have htakes := Mode.takesElements_of_takesContent hcontent
  -- The table is cleared, and the tag of a part or of what the part sits in is taken.
  have hcleared : b.mode = .table → Moves read start b.popToTable ∧ b.popToTable.Cleared :=
    fun htable => hb.clear hmode (show b.mode.holders = ["table"] by rw [htable]; rfl)
  have hsits : ∀ {part : Tag}, part.name ∈ "caption" :: "colgroup" :: rowGroups →
      ∀ holder ∈ Mode.table.holders, PartOf part.name holder := by
    intro part hpart holder hmem
    rw [List.mem_singleton.mp hmem]
    exact .ofTable hpart
  have hopen : ∀ {part : Tag} {mode : Mode}, tag.name ∈ tablePartNames → Stands read part →
      part.name ∈ "caption" :: "colgroup" :: rowGroups → part.name ∈ mode.holders →
        Moves read start ((b.popToTable.openElement part).goto mode) := by
    intro part mode hname hstands hpart hholder
    have htable := hparts hname
    obtain ⟨hclosed, hclear⟩ := hcleared htable
    have hsame : b.popToTable.mode = .table := htable
    exact hclosed.proceeds (.openPart (by rw [hsame]; decide) hclear hstands
      (hsame ▸ hsits hpart) hholder)
  unfold Builder.startInTable
  split
  next => exact hb.mergeRoot hread (Mode.hasRoot_of_takesElements htakes)
  next hname =>
    have htable := hparts (by rw [hname]; decide)
    obtain ⟨hclosed, hclear⟩ := hcleared htable
    have hsame : b.popToTable.mode = .table := htable
    have hmarked : Moves read start b.popToTable.mark :=
      hclosed.proceeds (.edit (by rw [hsame]; rfl) .mark)
    replace hsame : b.popToTable.mark.mode = .table := htable
    have hstill : b.popToTable.mark.Cleared := hclear
    exact .moves (hmarked.proceeds (.openPart (by rw [hsame]; decide) hstill (.own hread)
      (hsame ▸ hsits (by rw [hname]; decide)) (by rw [hname]; decide)))
  next hname =>
    exact .moves (hopen (by rw [hname]; decide) (.own hread) (by rw [hname]; decide)
      (by rw [hname]; decide))
  next hname =>
    exact .moves (hopen (by rw [hname]; decide) (.named (by decide)) (by decide) (by decide))
  next hname =>
    exact .moves (hopen (by rw [hname]; decide) (.own hread) (by rw [hname]; decide)
      (by rw [hname]; decide))
  next hname =>
    exact .moves (hopen (by rw [hname]; decide) (.own hread) (by rw [hname]; decide)
      (by rw [hname]; decide))
  next hname =>
    exact .moves (hopen (by rw [hname]; decide) (.own hread) (by rw [hname]; decide)
      (by rw [hname]; decide))
  next hname =>
    exact .moves (hopen (by rw [hname]; decide) (.named (by decide)) (by decide) (by decide))
  next hname =>
    exact .moves (hopen (by rw [hname]; decide) (.named (by decide)) (by decide) (by decide))
  next hname =>
    exact .moves (hopen (by rw [hname]; decide) (.named (by decide)) (by decide) (by decide))
  next =>
    dsimp only
    split
    · exact .moves (hb.endTag "table")
    · exact .moves (hb.endTag "table")
  next hname => exact hb.startInHead_of_content hread htakes (by rw [hname]; decide)
  next hname => exact hb.startInHead_of_content hread htakes (by rw [hname]; decide)
  next =>
    split
    · exact hb.openVoid hread htakes
    · exact hb.startOutsideTable hcontent hread
  next hname =>
    split
    · exact .moves hb
    · have hopened : Edits read b
          { b.openElement tag with formElement := some (b.openElement tag).current } :=
        Edits.refl.step (.openForm (.own hread) hname)
      have hcurrent : (b.openElement tag).currentName = tag.name :=
        congrArg Label.tag (label_current_openLabel b (b.labelOf .html tag))
      refine .moves (hb.edits hcontent (hopened.step (.pop ?_)))
      change IsLoose (b.openElement tag).currentName
      rw [hcurrent, hname]
      decide
  next => exact hb.startOutsideTable hcontent hread

theorem startInCaption (hmode : b.mode = .caption) :
    Replies read start (b.startInCaption tag) := by
  unfold Builder.startInCaption
  split
  · exact hb.mergeRoot hread (by rw [hmode]; rfl)
  · split
    · exact .moves (hb.leaveCaption hmode)
    · exact hb.startInBody (by rw [hmode]; rfl) hread

theorem startInColumnGroup (hmode : b.mode = .columnGroup) :
    Replies read start (b.startInColumnGroup tag) := by
  unfold Builder.startInColumnGroup
  split
  · exact hb.mergeRoot hread (by rw [hmode]; rfl)
  · split
    · exact hb.openVoid hread (by rw [hmode]; rfl)
    · exact .moves (hb.leaveColumnGroup hmode)

omit hread in
theorem openRow (hmode : b.mode = .tableBody) {row : Tag} (hrow : Stands read row)
    (hname : row.name = "tr") : Moves read start (b.openRow row) := by
  obtain ⟨hclosed, hcleared⟩ := hb.popToRowGroup hmode
  have hsame : b.popToRowGroup.mode = .tableBody := by
    rw [popToRowGroup_eq]
    exact hmode
  refine hclosed.proceeds (.openPart (by rw [hsame]; decide) hcleared hrow ?_
    (by rw [hname]; decide))
  rw [hsame, hname]
  exact fun holder hgroup => .ofGroup hgroup

theorem startInTableBody (hmode : b.mode = .tableBody) :
    Replies read start (b.startInTableBody tag) := by
  have hrow : Moves read start (b.openRow { name := "tr" }) :=
    hb.openRow hmode (.named (by decide)) rfl
  unfold Builder.startInTableBody
  split
  next => exact hb.mergeRoot hread (by rw [hmode]; rfl)
  next hname => exact .moves (hb.openRow hmode (.own hread) hname)
  next => exact .moves hrow
  next => exact .moves hrow
  next =>
    split
    next => exact .moves (hb.leaveRowGroup hmode)
    next hpart =>
      refine hb.startInTable hread (by rw [hmode]; decide) fun hmem => ?_
      exact absurd (List.contains_iff_mem.mpr hmem) hpart

theorem startInRow (hmode : b.mode = .row) : Replies read start (b.startInRow tag) := by
  unfold Builder.startInRow
  split
  next => exact hb.mergeRoot hread (by rw [hmode]; rfl)
  next =>
    split
    next hcell =>
      have hcell : tag.name ∈ ["td", "th"] := by simpa using hcell
      obtain ⟨hclosed, hcleared⟩ := hb.popToRow hmode
      have hsame : b.popToRow.mode = .row := hmode
      have hsits : ∀ holder ∈ b.popToRow.mode.holders, PartOf tag.name holder := by
        rw [hsame]
        intro holder hmem
        rw [List.mem_singleton.mp hmem]
        exact .ofRow hcell
      have hopened : Moves read start ((b.popToRow.openElement tag).goto .cell) :=
        hclosed.proceeds (.openPart (by rw [hsame]; decide) hcleared (.own hread) hsits hcell)
      exact .moves (hopened.proceeds (.edit rfl .mark))
    next =>
      split
      next => exact .moves (hb.leaveRow hmode)
      next hpart =>
        refine hb.startInTable hread (by rw [hmode]; decide) fun hmem => ?_
        exact absurd (List.contains_iff_mem.mpr hmem) hpart

theorem startInCell (hmode : b.mode = .cell) : Replies read start (b.startInCell tag) := by
  unfold Builder.startInCell
  split
  next => exact hb.mergeRoot hread (by rw [hmode]; rfl)
  next =>
    split
    next =>
      split
      next => exact .moves (hb.leaveCell hmode)
      next hscope =>
        refine .moves (hb.proceeds (.missHolder (by rw [hmode]; decide) ?_))
        rw [hmode]
        exact fun tag hmem => Bool.not_eq_true _ ▸
          List.any_eq_false.mp (Bool.not_eq_true _ ▸ hscope) tag hmem
    next => exact hb.startInBody (by rw [hmode]; rfl) hread

/-! ## Selections and frames -/

theorem startInSelect (hmode : b.mode ∈ [.select, .selectInTable]) :
    Replies read start (b.startInSelect tag) := by
  have hknown : ∀ mode ∈ [Mode.select, .selectInTable], mode.takesElements = true := by decide
  have htakes := hknown _ hmode
  -- Closing an option leaves the mode alone.
  have hclosed : ∀ {b : Builder} {name : String}, b.mode ∈ [.select, .selectInTable] →
      (b.popIf name).mode ∈ [.select, .selectInTable] := by
    intro b name hmode
    unfold Builder.popIf
    split
    · exact hmode
    · exact hmode
  have hoption : Moves read start (b.popIf "option") := hb.popIf hmode (by decide)
  unfold Builder.startInSelect
  split
  next => exact hb.mergeRoot hread (Mode.hasRoot_of_takesElements htakes)
  next hname =>
    exact .moves (hoption.proceeds
      (.openOption (hclosed hmode) (.own hread) (by rw [hname]; decide)))
  next hname =>
    have hgroup := hoption.popIf (hclosed hmode)
      (show "optgroup" ∈ ["option", "optgroup"] by decide)
    exact .moves (hgroup.proceeds
      (.openOption (hclosed (hclosed hmode)) (.own hread) (by rw [hname]; decide)))
  next => exact .moves (hb.endSelect hmode)
  next hname => exact hb.startInHead_of_content hread htakes (by rw [hname]; decide)
  next =>
    split
    next =>
      split
      next => exact .moves (hb.endSelect hmode)
      next hopen =>
        obtain ⟨hholders, hscope⟩ := Mode.holders_of_select hmode
        exact .moves (hb.missHolder hholders (by rwa [hscope]))
    next => exact .moves hb

/-- In a frame set frame sets and frames are opened, and what is for readers without frames. -/
theorem startInFrameset (hmode : b.mode = .frameset) :
    Replies read start (b.startInFrameset tag) := by
  unfold Builder.startInFrameset
  split
  next => exact hb.mergeRoot hread (by rw [hmode]; rfl)
  next hname => exact .moves (hb.proceeds (.openFrameset hmode (.own hread) hname))
  next => exact hb.openVoid hread (by rw [hmode]; rfl)
  next hname =>
    have hraw : b.startInBody tag = (b.openRaw tag .raw).done := by
      obtain ⟨name, attributes, selfClosing⟩ := tag
      cases hname
      rfl
    rw [hraw]
    exact hb.openRaw hread (by rw [hmode]; rfl) (by rw [hname]; decide) (by decide)
  next => exact .moves hb

/-! ## Any mode -/

theorem startTag : Replies read start (b.startTag tag) := by
  unfold Builder.startTag
  cases hmode : b.mode with
  | initial => exact .moves (hb.begins (.declare hmode true))
  | beforeHtml => exact .moves (hb.begins (.openRoot hmode))
  | beforeHead =>
      dsimp only
      split
      · exact hb.mergeRoot hread (by rw [hmode]; rfl)
      · split
        next hname => exact .moves (hb.begins (.openHead hmode (.own hread) hname))
        next => exact .moves (hb.openHead hmode)
  | head => exact hb.startInHead hread hmode
  | headNoscript => exact hb.startInHeadNoscript hread hmode
  | afterHead => exact hb.startAfterHead hread hmode
  | body => exact hb.startInBody (by rw [hmode]; rfl) hread
  | text => exact .moves (hb.step (.missEnd hmode hread))
  | table => exact hb.startInTable hread (by rw [hmode]; decide) fun _ => hmode
  | tableText => exact .moves (hb.flushTableText hmode)
  | caption => exact hb.startInCaption hread hmode
  | columnGroup => exact hb.startInColumnGroup hread hmode
  | tableBody => exact hb.startInTableBody hread hmode
  | row => exact hb.startInRow hread hmode
  | cell => exact hb.startInCell hread hmode
  | select => exact hb.startInSelect hread (by rw [hmode]; decide)
  | selectInTable =>
      dsimp only
      split
      · exact .moves (hb.endSelect (by rw [hmode]; decide))
      · exact hb.startInSelect hread (by rw [hmode]; decide)
  | afterBody =>
      dsimp only
      split
      · exact hb.mergeRoot hread (by rw [hmode]; rfl)
      · exact .moves (hb.proceeds (.reenter (by rw [hmode]; decide)))
  | frameset => exact hb.startInFrameset hread hmode
  | afterFrameset =>
      dsimp only
      split
      · exact hb.mergeRoot hread (by rw [hmode]; rfl)
      · split
        next hname =>
          exact hb.startInHead_of_content hread (by rw [hmode]; rfl) (by rw [hname]; decide)
        next => exact .moves hb
  | afterAfterBody =>
      dsimp only
      split
      · exact hb.mergeRoot hread (by rw [hmode]; rfl)
      · exact .moves (hb.proceeds (.reenter (by rw [hmode]; decide)))
  | afterAfterFrameset =>
      dsimp only
      split
      · exact hb.mergeRoot hread (by rw [hmode]; rfl)
      · split
        next hname =>
          exact hb.startInHead_of_content hread (by rw [hmode]; rfl) (by rw [hname]; decide)
        next => exact .moves hb

theorem startForeign (hforeign : b.inForeign = true) :
    Moves read start (b.startForeign tag).1 := by
  unfold Builder.startForeign
  split
  · exact hb.step (.wanders hforeign .leaveForeign)
  · refine hb.step (.wanders hforeign (.openForeign _ ?_))
    dsimp only
    split
    · exact .math hread
    · exact .svg hread (Or.inr rfl)
    · exact .own hread

end Tables

end Moves

end Builder

end Winnow.Html
