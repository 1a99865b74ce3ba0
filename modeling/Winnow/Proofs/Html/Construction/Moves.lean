import Mathlib.Logic.Relation
import Winnow.Proofs.Html.Construction.Placing
import Winnow.Proofs.Html.Source

/-!
# What the builder can do

Whatever a token calls for comes down to a few moves. In ordinary content these are edits, which
leave the mode alone: loose elements are opened and closed, formatting elements are continued and
split, text is added. Other moves go from one mode to another. Each says in which mode it is made
and what has been found open before it, so what it keeps can be seen from the move alone.
-/

namespace Winnow.Html

open Builder (modeWithin formattingNames rowGroups headNames)

/-! ## Elements and the modes they call for -/

/-- Does an open element of this name call for no mode of its own? -/
def IsLoose (tag : String) : Prop := modeWithin tag = none

instance (tag : String) : Decidable (IsLoose tag) :=
  inferInstanceAs (Decidable (modeWithin tag = none))

/-- The parts of tables and what they sit in. -/
inductive PartOf : String → String → Prop
  | ofTable {part : String} (hpart : part ∈ "caption" :: "colgroup" :: rowGroups) :
      PartOf part "table"
  | ofGroup {group : String} (hgroup : group ∈ rowGroups) : PartOf "tr" group
  | ofRow {part : String} (hpart : part ∈ ["td", "th"]) : PartOf part "tr"

/-- The names of the elements that a mode is for. -/
def Mode.holders : Mode → List String
  | .body => ["body"]
  | .table => ["table"]
  | .caption => ["caption"]
  | .columnGroup => ["colgroup"]
  | .tableBody => rowGroups
  | .row => ["tr"]
  | .cell => ["td", "th"]
  | .select => ["select"]
  | .selectInTable => ["select"]
  | .afterBody => ["body"]
  | .afterAfterBody => ["body"]
  | _ => []

/-- The modes in which content is taken as in the body. -/
def Mode.takesContent : Mode → Bool
  | .body => true
  | .table => true
  | .caption => true
  | .tableBody => true
  | .row => true
  | .cell => true
  | _ => false

/-- The modes in which the root is open. -/
def Mode.hasRoot : Mode → Bool
  | .initial => false
  | .beforeHtml => false
  | _ => true

/-- The modes in which an element of the head may be opened. -/
def Mode.takesElements : Mode → Bool
  | .initial => false
  | .beforeHtml => false
  | .beforeHead => false
  | .text => false
  | .tableText => false
  | _ => true

/-- The modes after the head, where the content of a document is read. -/
def Mode.isLate : Mode → Bool
  | .initial => false
  | .beforeHtml => false
  | .beforeHead => false
  | .head => false
  | .headNoscript => false
  | .afterHead => false
  | .text => false
  | _ => true

theorem Mode.isLate_of_takesContent {mode : Mode} (hmode : mode.takesContent = true) :
    mode.isLate = true := by
  cases mode <;> first | rfl | cases hmode

theorem Mode.hasRoot_of_isLate {mode : Mode} (hmode : mode.isLate = true) :
    mode.hasRoot = true := by
  cases mode <;> first | rfl | cases hmode

/-- What a mode is for is content. -/
theorem Mode.isLate_of_holders {mode : Mode} (hholders : mode.holders ≠ []) :
    mode.isLate = true := by
  cases mode <;> first | rfl | exact absurd rfl hholders

theorem Mode.html_not_mem_holders (mode : Mode) : "html" ∉ mode.holders := by
  cases mode <;> decide

theorem Mode.not_isLoose_of_mem_holders {mode : Mode} {name : String}
    (hmem : name ∈ mode.holders) : ¬ IsLoose name := by
  have hknown : ∀ mode : Mode, ∀ name ∈ mode.holders, ¬ IsLoose name := by
    intro mode
    cases mode <;> decide
  exact hknown mode name hmem

/-- The mode that holds after a part of a table has been closed. -/
def Mode.outer : Mode → Mode
  | .row => .tableBody
  | .cell => .row
  | _ => .table

/-- Where the element that a mode is for is looked for. -/
def Mode.scope : Mode → Vocabulary.Scope
  | .select => .select
  | .selectInTable => .select
  | _ => .table

theorem Mode.holders_of_select {mode : Mode} (hmode : mode ∈ [.select, .selectInTable]) :
    mode.holders = ["select"] ∧ mode.scope = .select := by
  have hknown : ∀ mode ∈ [Mode.select, .selectInTable],
      mode.holders = ["select"] ∧ mode.scope = .select := by decide
  exact hknown mode hmode

/-- The tags of the elements that may be opened for a token: those of a few elements that are made
without a tag of their own, with no attributes but those of a tag that was read, and the tag that
was read, with or without the capitals of foreign names. -/
inductive Stands (read : Option Token) : Tag → Prop
  | made {name : String} {attributes : Assoc String} {selfClosing : Bool}
      (hname : name ∈ madeTags)
      (hattributes : ∀ entry ∈ attributes, entry = ("name", "isindex") ∨
        ∃ tag, read = some (.startTag tag) ∧ entry ∈ tag.attributes) :
      Stands read { name := name, attributes := attributes, selfClosing := selfClosing }
  | own {tag : Tag} (hread : read = some (.startTag tag)) : Stands read tag
  | math {tag : Tag} (hread : read = some (.startTag tag)) :
      Stands read (Builder.mathAttributes tag)
  | svg {tag : Tag} (hread : read = some (.startTag tag)) {name : String}
      (hname : name = tag.name ∨
        name = Vocabulary.restoreCase Vocabulary.svgElementNames tag.name) :
      Stands read { Builder.svgAttributes tag with name := name }

theorem Stands.named {read : Option Token} {name : String} (hname : name ∈ madeTags) :
    Stands read { name := name } :=
  .made hname fun _ hmem => absurd hmem List.not_mem_nil

namespace Builder

/-- All but the flags, the text met in a table and the nodes moved out of one. -/
def core (b : Builder) := (b.frame, b.modes, b.fragment, b.request, b.fault)

/-! ## Edits -/

/-- What is done in ordinary content for the token that has been read, if one has been read. -/
inductive Edit (read : Option Token) (b : Builder) : Builder → Prop
  | flags {other : Builder} (hcore : other.core = b.core) : Edit read b other
  | addText (text : String) : Edit read b (b.addText text)
  | addMissing (handle : Handle) {tag : Tag} (htag : Stands read tag) :
      Edit read b (b.addMissing handle tag.attributes)
  | openElement {tag : Tag} (htag : Stands read tag) (hloose : IsLoose tag.name) :
      Edit read b (b.openElement tag)
  | openVoid {tag : Tag} (htag : Stands read tag) : Edit read b (b.openVoid tag)
  | openForm {tag : Tag} (htag : Stands read tag) (hname : tag.name = "form") :
      Edit read b { b.openElement tag with formElement := some (b.openElement tag).current }
  | openForeign (space : Namespace) {tag : Tag} (htag : Stands read tag)
      (hread : ∃ tag, read = some (.startTag tag) ∧ tag.name ∈ ["svg", "math"]) :
      Edit read b (b.openForeign space tag)
  | ask {tag : Tag} (hread : read = some (.startTag tag)) (htext : tag.name ∈ textTags)
      (model : ContentModel) : Edit read b { b with request := some model }
  | pop (hloose : IsLoose b.currentName) : Edit read b b.pop
  | popImplied (except : String) : Edit read b (b.popImplied except)
  /-- A loose element in scope that is no formatting element is closed with those inside it. -/
  | popThrough {scope : Vocabulary.Scope} {tag : String} {tags : List String}
      (hscope : scope ∈ [.ordinary, .button, .list]) (hopen : b.inScope scope tag = true)
      (hmem : tag ∈ tags) (hloose : ∀ name ∈ tags, IsLoose name)
      (hformatting : tag ∉ formattingNames) : Edit read b (b.popThrough tags)
  | dropForm : Edit read b { b with formElement := none }
  | closeForm {form : Handle} (hform : b.formElement = some form) :
      Edit read b { b with formElement := none, stack := b.stack.erase form }
  | mark : Edit read b b.mark
  | clearToMarker : Edit read b b.clearToMarker
  | openFormatting {tag : Tag} (htag : Stands read tag) (hname : tag.name ∈ formattingNames) :
      Edit read b (b.openFormatting tag)
  | reconstruct : Edit read b b.reconstruct
  | endFormatting {tag : String} (htag : tag ∈ formattingNames) :
      Edit read b (b.endFormatting tag)
  /-- An anchor is ended, and what its end leaves of it is closed and not continued. -/
  | endAnchor {anchor : Handle} (hnamed : b.formattingNamed "a" = some anchor) :
      Edit read b { b.endFormatting "a" with
        stack := (b.endFormatting "a").stack.erase anchor
        formatting := (b.endFormatting "a").formatting.erase (some anchor) }
  | endOther {tag : String} (hroot : tag ≠ "html") (hholder : tag ∉ b.mode.holders) :
      Edit read b (b.endOther tag)

/-- Edits one after another. -/
def Edits (read : Option Token) : Builder → Builder → Prop := Relation.ReflTransGen (Edit read)

/-! ## Moves from mode to mode -/

/-- The moves from the start of a document to its body. -/
inductive Begins (read : Option Token) (b : Builder) : Builder → Prop
  | declare (hmode : b.mode = .initial) (oldRules : Bool) :
      Begins read b { b with oldRules := oldRules, mode := .beforeHtml }
  | openRoot (hmode : b.mode = .beforeHtml) : Begins read b b.openRoot
  | openHead (hmode : b.mode = .beforeHead) {tag : Tag} (htag : Stands read tag)
      (hname : tag.name = "head") : Begins read b (b.openHead tag)
  | leaveHead (hmode : b.mode = .head) : Begins read b b.leaveHead
  | openNoscript (hmode : b.mode = .head) {tag : Tag} (htag : Stands read tag)
      (hname : tag.name = "noscript") : Begins read b ((b.openElement tag).goto .headNoscript)
  | leaveNoscript (hmode : b.mode = .headNoscript) : Begins read b (b.pop.goto .head)
  | openBody (hmode : b.mode = .afterHead) {tag : Tag} (htag : Stands read tag)
      (hname : tag.name = "body") : Begins read b ((b.openElement tag).goto .body)
  | openFrames (hmode : b.mode = .afterHead) {tag : Tag} (hread : read = some (.startTag tag))
      (hname : tag.name = "frameset") : Begins read b ((b.openElement tag).goto .frameset)

/-- Is one of the elements that the mode is for innermost, or the root, if anything is open? -/
def Cleared (b : Builder) : Prop :=
  ∀ handle ∈ b.stack.head?, b.name handle ∈ b.mode.holders ++ ["html"]

theorem cleared_popTo (b : Builder) : (b.popTo (b.mode.holders ++ ["html"])).Cleared := by
  intro handle hmem
  have hstops := List.head?_dropWhile_not
    (fun handle => !(b.mode.holders ++ ["html"]).contains (b.name handle)) b.stack
  have hhead : (b.stack.dropWhile fun handle =>
      !(b.mode.holders ++ ["html"]).contains (b.name handle)).head? = some handle := hmem
  rw [hhead] at hstops
  have hcontains : (b.mode.holders ++ ["html"]).contains (b.name handle) = true := by
    simpa only [Bool.not_eq_eq_eq_not, Bool.not_false] using hstops
  exact List.contains_iff_mem.mp hcontains

theorem Cleared.expect {b : Builder} (hb : b.Cleared) (ok : Bool) : (b.expect ok).Cleared := by
  unfold Builder.expect
  split
  · exact hb
  · exact hb

/-- The moves in the body of a document and after it. -/
inductive Proceeds (read : Option Token) (b : Builder) : Builder → Prop
  | edit (hmode : b.mode.takesContent = true) {other : Builder} (hedit : Edit read b other) :
      Proceeds read b other
  /-- White space after the end of a document continues the formatting elements in it. -/
  | continueAfter (hmode : b.mode ∈ [.afterAfterBody, .afterAfterFrameset]) :
      Proceeds read b b.reconstruct
  /-- A table or a selection is opened in a mode for it. -/
  | openBlock (hmode : b.mode.takesContent = true) {tag : Tag} {mode : Mode}
      (htag : Stands read tag) (hname : tag.name ∈ ["table", "select"])
      (hholder : tag.name ∈ mode.holders) : Proceeds read b ((b.openElement tag).goto mode)
  | closeBlock {tag : String} (hname : tag ∈ ["table", "select"])
      (hholder : tag ∈ b.mode.holders) (hopen : b.inScope b.mode.scope tag = true) :
      Proceeds read b (b.popThrough [tag]).resetMode
  /-- Everything in what the mode is for is closed. -/
  | clear (hmode : b.mode ∈ [.table, .tableBody, .row]) :
      Proceeds read b (b.popTo (b.mode.holders ++ ["html"]))
  /-- A part of a table is opened in what it is a part of. -/
  | openPart (hmode : b.mode ∈ [.table, .tableBody, .row]) (hclear : b.Cleared) {tag : Tag}
      {mode : Mode} (htag : Stands read tag)
      (hpart : ∀ holder ∈ b.mode.holders, PartOf tag.name holder)
      (hholder : tag.name ∈ mode.holders) : Proceeds read b ((b.openElement tag).goto mode)
  /-- A group of rows or a row is closed. -/
  | closePart (hmode : b.mode ∈ [.tableBody, .row]) (hclear : b.Cleared)
      (hopen : ∃ handle ∈ b.stack, b.name handle ∈ b.mode.holders) :
      Proceeds read b (b.pop.goto b.mode.outer)
  | closeColumns (hmode : b.mode = .columnGroup) (hname : b.currentName ≠ "html") :
      Proceeds read b (b.pop.goto .table)
  /-- A caption or a cell is closed with what is inside it. -/
  | closeSection (hmode : b.mode ∈ [.caption, .cell]) {tag : String}
      (hholder : tag ∈ b.mode.holders) (hopen : b.inScope .table tag = true) :
      Proceeds read b ((b.popThrough [tag]).clearToMarker.goto b.mode.outer)
  | openOption (hmode : b.mode ∈ [.select, .selectInTable]) {tag : Tag} (htag : Stands read tag)
      (hname : tag.name ∈ ["option", "optgroup"]) : Proceeds read b (b.openElement tag)
  | closeOption (hmode : b.mode ∈ [.select, .selectInTable])
      (hname : b.currentName ∈ ["option", "optgroup"]) : Proceeds read b b.pop
  | startTableText (hmode : b.mode ∈ [.table, .tableBody, .row]) :
      Proceeds read b { b with tableReturn := b.mode, mode := .tableText }
  | endTableText (hmode : b.mode = .tableText) {other : Builder}
      (hedits : Edits read { b with tableTexts := [], mode := b.tableReturn } other) :
      Proceeds read b other
  | endBody (hmode : b.mode = .body) : Proceeds read b (b.goto .afterBody)
  | endDocument (hmode : b.mode = .afterBody) : Proceeds read b (b.goto .afterAfterBody)
  | reenter (hmode : b.mode ∈ [.afterBody, .afterAfterBody]) : Proceeds read b (b.goto .body)
  /-- A frame set takes the place of the body. -/
  | replaceBody (hmode : b.mode.takesContent = true) {body : Handle}
      (hbody : b.second? = some body) (hbodyName : b.name body = "body") {tag : Tag}
      (hread : read = some (.startTag tag)) (hname : tag.name = "frameset") :
      Proceeds read b
        (((Builder.popTo { b with store := b.store.detach body } ["html"]).openElement tag).goto
          .frameset)
  | openFrameset (hmode : b.mode = .frameset) {tag : Tag} (htag : Stands read tag)
      (hname : tag.name = "frameset") : Proceeds read b (b.openElement tag)
  | closeFrameset (hmode : b.mode = .frameset) : Proceeds read b b.endFrameset
  | endFrames (hmode : b.mode = .afterFrameset) : Proceeds read b (b.goto .afterAfterFrameset)
  /-- There is no body under what is open. -/
  | missBody (hmode : b.mode.takesContent = true)
      (hnone : ∀ body, b.second? = some body → b.name body ≠ "body") :
      Proceeds read b (b.expect false)
  /-- What the mode is for is not in scope. -/
  | missHolder (hmode : b.mode.holders ≠ [])
      (hnone : ∀ tag ∈ b.mode.holders, b.inScope b.mode.scope tag = false) :
      Proceeds read b (b.expect false)
  /-- The root should not be innermost. -/
  | expectInner (hmode : b.mode ∈ [.table, .columnGroup, .tableBody, .row, .select,
      .selectInTable, .frameset]) : Proceeds read b (b.expect (b.currentName != "html"))

/-- The content of a document is read after its head. -/
theorem Proceeds.isLate {read : Option Token} {b other : Builder} (hmove : Proceeds read b other) :
    b.mode.isLate = true := by
  have hholds : ∀ {tag}, tag ∈ b.mode.holders → b.mode.isLate = true :=
    fun hholder => Mode.isLate_of_holders (List.ne_nil_of_mem hholder)
  have hparts : ∀ mode ∈ [Mode.table, .tableBody, .row], mode.isLate = true := by decide
  have hselects : ∀ mode ∈ [Mode.select, .selectInTable], mode.isLate = true := by decide
  cases hmove with
  | edit hmode _ => exact Mode.isLate_of_takesContent hmode
  | openBlock hmode _ _ _ => exact Mode.isLate_of_takesContent hmode
  | closeBlock _ hholder _ => exact hholds hholder
  | closeSection _ hholder _ => exact hholds hholder
  | replaceBody hmode _ _ _ _ => exact Mode.isLate_of_takesContent hmode
  | missBody hmode _ => exact Mode.isLate_of_takesContent hmode
  | missHolder hmode _ => exact Mode.isLate_of_holders hmode
  | continueAfter hmode =>
      exact (by decide : ∀ mode ∈ [Mode.afterAfterBody, .afterAfterFrameset],
        mode.isLate = true) _ hmode
  | clear hmode => exact hparts _ hmode
  | openPart hmode _ _ _ _ => exact hparts _ hmode
  | closePart hmode _ _ => exact hparts _ (List.mem_cons_of_mem _ hmode)
  | openOption hmode _ _ => exact hselects _ hmode
  | closeOption hmode _ => exact hselects _ hmode
  | startTableText hmode => exact hparts _ hmode
  | reenter hmode =>
      exact (by decide : ∀ mode ∈ [Mode.afterBody, .afterAfterBody], mode.isLate = true) _ hmode
  | expectInner hmode =>
      exact (by decide : ∀ mode ∈ [Mode.table, .columnGroup, .tableBody, .row, .select,
        .selectInTable, .frameset], mode.isLate = true) _ hmode
  | closeColumns hmode _ => rw [hmode]; rfl
  | endTableText hmode _ => rw [hmode]; rfl
  | endBody hmode => rw [hmode]; rfl
  | endDocument hmode => rw [hmode]; rfl
  | openFrameset hmode _ _ => rw [hmode]; rfl
  | closeFrameset hmode => rw [hmode]; rfl
  | endFrames hmode => rw [hmode]; rfl

/-- The moves where the innermost element is foreign. -/
inductive Wanders (read : Option Token) (b : Builder) : Builder → Prop
  | openForeign (space : Namespace) {tag : Tag} (htag : Stands read tag) :
      Wanders read b (b.openForeign space tag)
  | leaveForeign : Wanders read b b.leaveForeign
  /-- A foreign element is closed with those inside, which are foreign too, after the text met in a
  table has been added. -/
  | closeForeign {front outer : List Handle} {handle : Handle}
      (hstack : b.stack = front ++ handle :: outer)
      (hforeign : ∀ other ∈ front ++ [handle], (b.label other).space ≠ .html) {other : Builder}
      (hflushed : other = if b.mode = .tableText then b.flushTableText else b) :
      Wanders read b { other with stack := (other.stack.dropWhile (· != handle)).drop 1 }

/-- What the builder can do at once for the token that has been read. -/
inductive Move (read : Option Token) (b : Builder) : Builder → Prop
  | flags {other : Builder} (hcore : other.core = b.core) : Move read b other
  | addText (hopen : b.mode.hasRoot = true ∨ b.inForeign = true) (text : String) :
      Move read b (b.addText text)
  | addComment {data : String} (hread : read = some (.comment data)) {parent : Handle}
      (hparent : parent = 0 ∨
        (b.mode.hasRoot = true ∨ b.inForeign = true) ∧ parent ∈ [b.current, b.root]) :
      Move read b (b.addComment parent data)
  | mergeRoot (hmode : b.mode.hasRoot = true) {tag : Tag} (htag : Stands read tag) :
      Move read b (b.mergeRoot tag)
  | openVoid (hmode : b.mode.takesElements = true) {tag : Tag} (htag : Stands read tag) :
      Move read b (b.openVoid tag)
  /-- A start tag is met in raw text. -/
  | missEnd (hmode : b.mode = .text) {tag : Tag} (hread : read = some (.startTag tag)) :
      Move read b (b.expect false)
  | leaveText (hmode : b.mode = .text) : Move read b (b.pop.goto b.textReturn)
  | begins {other : Builder} (h : Begins read b other) : Move read b other
  | proceeds {other : Builder} (h : Proceeds read b other) : Move read b other
  | wanders (hforeign : b.inForeign = true) {other : Builder} (h : Wanders read b other) :
      Move read b other

/-- Moves one after another. -/
def Moves (read : Option Token) : Builder → Builder → Prop := Relation.ReflTransGen (Move read)

/-- Raw content is opened, or content of the head is put into it, raw or none. -/
inductive OpensRaw (read : Option Token) (b : Builder) : Builder → Prop
  | openRaw (hmode : b.mode.takesElements = true) {tag : Tag} {model : ContentModel}
      (hread : read = some (.startTag tag)) (htext : tag.name ∈ textTags)
      (hmodel : model ∈ [.escapable, .raw, .script]) : OpensRaw read b (b.openRaw tag model)
  | startIntoHead (hmode : b.mode = .afterHead) {tag : Tag}
      (hread : read = some (.startTag tag)) (hname : tag.name ∈ headNames) :
      OpensRaw read b (b.startIntoHead tag)

/-- How a token is replied to: there are moves, and when raw content is opened after them the token
has been taken. -/
inductive Replies (read : Option Token) (b : Builder) : Reply → Prop
  | moves {reply : Reply} (hmoves : Moves read b reply.1) : Replies read b reply
  | raw {middle opened last : Builder} (hmoves : Moves read b middle)
      (hraw : OpensRaw read middle opened) (hcore : last.core = opened.core) :
      Replies read b last.done

/-! ## Chains of moves -/

section Chains

variable {read : Option Token} {start b other : Builder}

theorem Edit.modes_eq (hedit : Edit read b other) : other.modes = b.modes := by
  cases hedit with
  | flags hcore => exact congrArg (·.2.1) hcore
  | addText text => exact modes_addText b text
  | openElement _ _ => exact modes_openLabel b _
  | openVoid _ => exact modes_openLabel b _
  | openForm _ _ => exact modes_openLabel b _
  | openForeign space _ _ =>
      unfold Builder.openForeign
      dsimp only
      split
      · exact modes_openLabel b _
      · exact modes_openLabel b _
  | openFormatting _ _ =>
      exact (modes_dropFourth ..).trans (modes_openLabel b _)
  | reconstruct => exact modes_reconstruct b
  | endFormatting _ => exact modes_endFormatting b _
  | endAnchor _ => exact modes_endFormatting b _
  | endOther _ _ => exact modes_closeNamed b _ _
  | _ => rfl

namespace Edits

theorem refl : Edits read b b := Relation.ReflTransGen.refl

theorem step (hb : Edits read start b) (hedit : Edit read b other) : Edits read start other :=
  hb.tail hedit

/-- What every edit keeps is kept by edits one after another. -/
theorem preserves {p : Builder → Prop} (hedits : Edits read start other) (hstart : p start)
    (hedit : ∀ {b other}, p b → Edit read b other → p other) : p other := by
  induction hedits with
  | refl => exact hstart
  | tail _ hlast ih => exact hedit ih hlast

theorem modes_eq (hedits : Edits read start b) : b.modes = start.modes :=
  hedits.preserves (p := fun b => b.modes = start.modes) rfl fun hsame hedit =>
    hedit.modes_eq.trans hsame

theorem mode_eq (hedits : Edits read start b) : b.mode = start.mode :=
  congrArg Prod.fst hedits.modes_eq

end Edits

namespace Moves

theorem refl : Moves read b b := Relation.ReflTransGen.refl

theorem step (hb : Moves read start b) (hmove : Move read b other) : Moves read start other :=
  hb.tail hmove

theorem begins (hb : Moves read start b) (h : Begins read b other) : Moves read start other :=
  hb.tail (.begins h)

theorem proceeds (hb : Moves read start b) (h : Proceeds read b other) : Moves read start other :=
  hb.tail (.proceeds h)

/-- Edits are moves where content is taken as in the body. -/
theorem edits (hb : Moves read start b) (hmode : b.mode.takesContent = true)
    (hedits : Edits read b other) : Moves read start other := by
  induction hedits with
  | refl => exact hb
  | tail hbefore hlast ih => exact ih.proceeds (.edit (Edits.mode_eq hbefore ▸ hmode) hlast)

theorem preserves {p : Builder → Prop} (hmoves : Moves read start other) (hstart : p start)
    (hmove : ∀ {b other}, p b → Move read b other → p other) : p other := by
  induction hmoves with
  | refl => exact hstart
  | tail _ hlast ih => exact hmove ih hlast

end Moves

namespace Replies

variable {reply : Reply}

/-- A token that has been taken stays taken when flags change. -/
theorem flags (hreply : Replies read b reply) (hcore : other.core = reply.1.core) :
    Replies read b other.done := by
  cases hreply with
  | moves hmoves => exact .moves (hmoves.step (.flags hcore))
  | raw hmoves hraw hlast => exact .raw hmoves hraw (hcore.trans hlast)

theorem preserves {p : Builder → Prop} (hreply : Replies read b reply) (hb : p b)
    (hmove : ∀ {b other}, p b → Move read b other → p other)
    (hraw : ∀ {b other}, p b → OpensRaw read b other → p other)
    (hflags : ∀ {b other : Builder}, p b → other.core = b.core → p other) : p reply.1 := by
  cases hreply with
  | moves hmoves => exact hmoves.preserves hb hmove
  | raw hmoves hopens hcore => exact hflags (hraw (hmoves.preserves hb hmove) hopens) hcore

end Replies

end Chains

end Builder

end Winnow.Html
