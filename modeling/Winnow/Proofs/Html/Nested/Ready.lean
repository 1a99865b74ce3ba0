import Winnow.Proofs.Html.Construction.Opening
import Winnow.Proofs.Html.Nested.Edits
import Winnow.Proofs.Html.Rooted.Moves

/-!
# The open elements in each mode

In the parts of a document before and after the body the mode says which elements are open; in
the body it says which of them holds the others. Raw text and text in a table stand in what the
mode to go back to calls for.
-/

namespace Winnow.Html

/-- May elements of these names be open in a mode? Raw text and text in a table are not modes to
go back to. -/
def Mode.Fits (mode : Mode) (names : List String) : Prop :=
  match mode with
  | .initial => names = []
  | .beforeHtml => names = []
  | .beforeHead => names = ["html"]
  | .head => names = ["head", "html"]
  | .headNoscript => names = ["noscript", "head", "html"]
  | .afterHead => names = ["html"]
  | .text => False
  | .tableText => False
  | .frameset =>
    ∃ outer, names = "frameset" :: (outer ++ ["html"]) ∧ ∀ name ∈ outer, name = "frameset"
  | .afterFrameset => names = ["html"]
  | .afterAfterFrameset => True
  | mode => ∃ holder ∈ mode.holders, ∃ tight, Nested holder tight names

namespace Mode.Fits

variable {mode : Mode} {names : List String}

theorem of_nested {holder : String} (hholder : holder ∈ mode.holders)
    (hnested : ∃ tight, Nested holder tight names) : mode.Fits names := by
  cases mode <;> first | exact ⟨holder, hholder, hnested⟩ | cases hholder

theorem exists_nested (hfits : mode.Fits names) (hmode : mode.holders ≠ []) :
    ∃ holder ∈ mode.holders, ∃ tight, Nested holder tight names := by
  cases mode <;> first | exact hfits | exact absurd rfl hmode

theorem ne_text (hfits : mode.Fits names) : mode ≠ .text := by
  rintro rfl
  exact hfits

theorem ne_tableText (hfits : mode.Fits names) : mode ≠ .tableText := by
  rintro rfl
  exact hfits

end Mode.Fits

namespace Builder

/-- Does the mode fit what is open, so that any token may follow? -/
inductive Ready (b : Builder) : Prop
  | fits (hplain : b.Plain) (hfits : b.mode.Fits b.stackNames)
  | inTable {holder : String} (hinside : b.Inside holder b.modes) (hmode : b.mode = .tableText)
      (hreturn : b.tableReturn.takesContent = true) (hholder : holder ∈ b.tableReturn.holders)

/-- Is a document ready for any token, or in raw text, which the lexer reads as such? The model
is the one that the input is read with unless another has been asked for. -/
inductive Settled (model : ContentModel) (b : Builder) : Prop
  | ready (hready : b.Ready)
  | text (hplain : b.Plain) (hmode : b.mode = .text)
      (hmodel : b.request.getD model ∈ [.escapable, .raw, .script]) {raw : String}
      {rest : List String} (hnames : b.stackNames = raw :: rest) (hfits : b.textReturn.Fits rest)

variable {model : ContentModel} {b other : Builder}

theorem Held.ready (hb : b.Held) : b.Ready := by
  obtain ⟨holder, hholder, hinside⟩ := hb
  exact .fits hinside.toPlain (.of_nested hholder hinside.nested)

namespace Plain

variable (hb : b.Plain)
include hb

theorem held (hfits : b.mode.Fits b.stackNames) (hmode : b.mode.holders ≠ []) : b.Held := by
  obtain ⟨holder, hholder, hnested⟩ := hfits.exists_nested hmode
  exact ⟨holder, hholder, hb, hnested, rfl⟩

/-- The mode changes to one that fits. -/
theorem ready_goto {mode : Mode} (hfits : mode.Fits b.stackNames) : (b.goto mode).Ready :=
  .fits { hb with } hfits

/-- Raw text starts in any mode that it may go back to. -/
theorem openRaw (hfits : b.mode.Fits b.stackNames) (tag : Tag) {kind : ContentModel}
    (hkind : kind ∈ [ContentModel.escapable, .raw, .script]) :
    (b.openRaw tag kind).Settled model := by
  exact .text { hb.openElement tag with } rfl hkind (hb.stackNames_openElement tag) hfits

/-- A frame set is opened in the root. -/
theorem openFrameset (hnames : b.stackNames = ["html"]) {tag : Tag} (htag : tag.name = "frameset") :
    ((b.openElement tag).goto .frameset).Ready := by
  refine (hb.openElement tag).ready_goto ⟨[], ?_, fun _ hmem => by cases hmem⟩
  rw [hb.stackNames_openElement, hnames, htag]
  rfl

end Plain

namespace Ready

variable (hb : b.Ready)
include hb

theorem plain : b.Plain := by
  cases hb with
  | fits hplain hfits => exact hplain
  | inTable hinside => exact hinside.toPlain

theorem mode_ne_text : b.mode ≠ .text := by
  cases hb with
  | fits hplain hfits => exact hfits.ne_text
  | inTable _ hmode => rw [hmode]; decide

theorem mode_fits (hmode : b.mode ≠ .tableText) : b.mode.Fits b.stackNames := by
  cases hb with
  | fits hplain hfits => exact hfits
  | inTable _ htext => exact absurd htext hmode

theorem held (hmode : b.mode.holders ≠ []) : b.Held := by
  refine hb.plain.held (hb.mode_fits fun htext => ?_) hmode
  rw [htext] at hmode
  exact hmode rfl

theorem names_of_mode {mode : Mode} (hmode : b.mode = mode) (hother : mode ≠ .tableText) :
    mode.Fits b.stackNames := by
  have hfits := hb.mode_fits (by rw [hmode]; exact hother)
  rwa [hmode] at hfits

/-- In a mode for one kind of element this is the one that holds the others. -/
theorem inside_of_mode {mode : Mode} {holder : String} (hmode : b.mode = mode)
    (hholders : mode.holders = [holder]) : b.Inside holder b.modes := by
  obtain ⟨other, hother, hinside⟩ := hb.held (by rw [hmode, hholders]; exact List.cons_ne_nil _ _)
  rw [hmode, hholders] at hother
  obtain rfl := List.mem_singleton.mp hother
  exact hinside

theorem settled : b.Settled model := .ready hb

end Ready

theorem Inside.ready {holder : String} {modes : Mode × Mode × Mode} (hb : b.Inside holder modes)
    (hholder : holder ∈ modes.1.holders) : b.Ready :=
  (hb.held hholder).ready

namespace Settled

theorem plain (hb : b.Settled model) : b.Plain := by
  cases hb with
  | ready hready => exact hready.plain
  | text hplain => exact hplain

end Settled

/-! ## Nodes in what is open -/

theorem Ready.of_same (hb : b.Ready) (hplain : other.Plain)
    (hnames : other.stackNames = b.stackNames) (hmodes : other.modes = b.modes) :
    other.Ready := by
  have hmode : other.mode = b.mode := congrArg Prod.fst hmodes
  have hreturn : other.tableReturn = b.tableReturn := congrArg (fun modes => modes.2.2) hmodes
  cases hb with
  | fits _ hfits => exact .fits hplain (hmode ▸ hnames ▸ hfits)
  | inTable hinside htable hcontent hholder =>
      exact .inTable ⟨hplain, hnames ▸ hinside.nested, rfl⟩ (hmode.trans htable)
        (hreturn ▸ hcontent) (hreturn ▸ hholder)

theorem Settled.of_same (hb : b.Settled model) (hplain : other.Plain)
    (hnames : other.stackNames = b.stackNames) (hmodes : other.modes = b.modes)
    (hrequest : other.request = b.request) : other.Settled model := by
  have hmode : other.mode = b.mode := congrArg Prod.fst hmodes
  have hreturn : other.textReturn = b.textReturn := congrArg (fun modes => modes.2.1) hmodes
  cases hb with
  | ready hready => exact (hready.of_same hplain hnames hmodes).settled
  | text _ htext hmodel hopen hfits =>
      exact .text hplain (hmode.trans htext) (hrequest ▸ hmodel) (hnames.trans hopen)
        (hreturn ▸ hfits)

namespace Settled

variable (hb : b.Settled model)
include hb

theorem of_core (hcore : other.core = b.core) : other.Settled model := by
  obtain ⟨hplain, hnames⟩ := hb.plain.of_core hcore
  exact hb.of_same hplain hnames (congrArg (·.2.1) hcore) (congrArg (·.2.2.2.1) hcore)

theorem addText (text : String) : (b.addText text).Settled model := by
  have hrequest := congrArg Builder.request (addText_eq b text)
  exact hb.of_same (hb.plain.addText text) (hb.plain.stackNames_addText text)
    (modes_addText b text) hrequest

theorem addComment (parent : Handle) (text : String) : (b.addComment parent text).Settled model :=
  hb.of_same (hb.plain.addComment parent text) (hb.plain.stackNames_addComment parent text) rfl rfl

/-- Raw text is left for the mode to go back to. -/
theorem leaveText (hmode : b.mode = .text) : (b.pop.goto b.textReturn).Ready := by
  cases hb with
  | ready hready => exact absurd hmode hready.mode_ne_text
  | text hplain _ hmodel hnames hfits =>
      refine Plain.ready_goto (hplain.close (List.drop_sublist 1 _)) ?_
      change b.textReturn.Fits b.pop.stackNames
      rw [stackNames_pop, hnames]
      exact hfits

theorem addMissing (handle : Handle) (attributes : Assoc String) :
    (b.addMissing handle attributes).Settled model :=
  hb.of_same (hb.plain.addMissing handle attributes)
    (hb.plain.stackNames_addMissing handle attributes) rfl rfl

end Settled

namespace Ready

variable (hb : b.Ready)
include hb

theorem addText (text : String) : (b.addText text).Ready :=
  hb.of_same (hb.plain.addText text) (hb.plain.stackNames_addText text) (modes_addText b text)

theorem addComment (parent : Handle) (text : String) : (b.addComment parent text).Ready :=
  hb.of_same (hb.plain.addComment parent text) (hb.plain.stackNames_addComment parent text) rfl

theorem addMissing (handle : Handle) (attributes : Assoc String) :
    (b.addMissing handle attributes).Ready :=
  hb.of_same (hb.plain.addMissing handle attributes)
    (hb.plain.stackNames_addMissing handle attributes) rfl

theorem openVoid (tag : Tag) : (b.openVoid tag).Ready :=
  hb.of_same (hb.plain.openVoid tag) (hb.plain.stackNames_openVoid tag) (modes_openLabel b _)

/-- Where content is taken, text is put into it. -/
theorem exists_content (hmode : b.mode.takesContent = true) :
    ∃ holder, holder ∈ b.mode.holders ∧ holder ∉ ["colgroup", "select"] ∧
      b.Inside holder b.modes := by
  have hholders : b.mode.holders ≠ [] := by
    cases hcase : b.mode <;> first | decide | (rw [hcase] at hmode; cases hmode)
  obtain ⟨holder, hholder, hinside⟩ := hb.held hholders
  exact ⟨holder, hholder, Mode.not_mem_of_takesContent hmode hholder, hinside⟩

/-- What is to be continued is opened inside the body, or where frame sets have been closed. -/
theorem reconstruct (hmode : b.mode ∈ [.body, .afterAfterBody, .afterAfterFrameset]) :
    b.reconstruct.Ready := by
  obtain ⟨hplain, hmodes, names, hnames, hopen⟩ := hb.plain.reconstruct
  have hsame : b.reconstruct.mode = b.mode := congrArg Prod.fst hmodes
  refine .fits hplain ?_
  rw [hsame, hopen]
  by_cases hframes : b.mode = .afterAfterFrameset
  · rw [hframes]
    trivial
  · have hholders : b.mode.holders = ["body"] := by
      simp only [List.mem_cons, List.not_mem_nil, or_false] at hmode
      rcases hmode with hmode | hmode | hmode
      · rw [hmode]; rfl
      · rw [hmode]; rfl
      · exact absurd hmode hframes
    obtain ⟨tight, hnested⟩ := (hb.inside_of_mode rfl hholders).nested
    exact .of_nested (hholders ▸ List.mem_cons_self)
      ⟨tight, hnested.formatting hnames (by decide)⟩

/-- A frame set is closed, and with the last of them all of them. -/
theorem endFrameset (hmode : b.mode = .frameset) : b.endFrameset.Ready := by
  have hplain := hb.plain
  have hpopped : b.pop.Plain := hplain.close (List.drop_sublist 1 _)
  obtain ⟨outer, hnames, houter⟩ := hb.names_of_mode hmode (by decide)
  have hinner : b.pop.stackNames = outer ++ ["html"] := by
    rw [stackNames_pop, hnames]
    rfl
  have hfragment : b.pop.fragment = false := hplain.whole
  have hended : (if b.currentName = "html" then b else b.pop) = b.pop :=
    if_neg (by rw [currentName_eq hnames]; decide)
  unfold Builder.endFrameset
  rw [hended]
  dsimp only
  rw [hfragment, Bool.not_false, Bool.true_and]
  cases outer with
  | nil =>
      rw [currentName_eq hinner, if_pos (by decide)]
      exact hpopped.ready_goto hinner
  | cons first rest =>
      obtain rfl := houter first List.mem_cons_self
      rw [currentName_eq hinner, if_neg (by decide)]
      refine .fits hpopped ?_
      have hstill : b.pop.mode = .frameset := hmode
      rw [hstill]
      exact ⟨rest, hinner, fun name hmem => houter name (List.mem_cons_of_mem _ hmem)⟩

end Ready

/-- Inside the body the root is not the innermost element. -/
theorem Held.expect_currentName (hb : b.Held) : b.expect (b.currentName != "html") = b := by
  obtain ⟨holder, -, hinside⟩ := hb
  obtain ⟨tight, hnested⟩ := hinside.nested
  obtain ⟨front, hnames, hfront⟩ := hnested.exists_bottom
  refine expect_eq ?_
  cases front with
  | nil =>
      rw [currentName_eq hnames]
      decide
  | cons first rest =>
      rw [currentName_eq hnames]
      exact bne_iff_ne.mpr fun heq => hfront (heq ▸ List.mem_cons_self)

/-! ## The parts of a document -/

namespace Plain

variable (hb : b.Plain) {tag : Tag}
include hb

/-- An element is opened as a child of any node. -/
theorem openIn (parent : Handle) (label : Label) (hspace : label.space = .html) :
    (b.openIn parent label).Plain ∧
      (b.openIn parent label).stackNames = label.tag :: b.stackNames := by
  have hcreated := hb.create hspace
  obtain ⟨hgrown, hattached⟩ := hcreated.attach parent b.store.cells.size
  have hsize : b.store.cells.size < ((b.create label).1.attach parent
      b.store.cells.size).store.cells.size :=
    Nat.lt_of_lt_of_le (Nat.lt_of_lt_of_eq (Nat.lt_succ_self _) (size_create b label).symm)
      hgrown.size
  refine ⟨{ hattached with stack := fun handle hmem => ?_, nodup := ?_ }, ?_⟩
  · rcases List.mem_cons.mp hmem with rfl | hmem
    · exact hsize
    · exact hattached.stack handle hmem
  · exact List.nodup_cons.mpr ⟨fun hmem => Nat.lt_irrefl _ (hb.stack _ hmem), hb.nodup⟩
  · have hall := (grown_create b label).trans hgrown
    have hnew : (b.openIn parent label).name b.store.cells.size = label.tag :=
      congrArg Label.tag (label_openIn_self b parent label)
    have hold := hall.map_name hb.stack
    exact congrArg₂ List.cons hnew hold

theorem openRoot (hnames : b.stackNames = []) : b.openRoot.Ready := by
  have hstack : b.stack = [] := List.map_eq_nil_iff.mp hnames
  obtain ⟨hplain, hopened⟩ := hb.openIn 0 { tag := "html" } rfl
  rw [hnames] at hopened
  have hsame : b.openRoot = (b.openIn 0 { tag := "html" }).goto .beforeHead := by
    rw [Builder.openRoot, Builder.openIn, hstack]
    rfl
  rw [hsame]
  exact hplain.ready_goto hopened

theorem openHead (hnames : b.stackNames = ["html"]) (htag : tag.name = "head") :
    (b.openHead tag).Ready := by
  have hhead : (b.openHead tag).Plain := by
    refine { hb.openElement tag with head := fun handle hmem => ?_ }
    cases hmem
    obtain ⟨hlt, hname⟩ := current_openLabel b (b.labelOf .html tag)
    exact ⟨hlt, hname.trans htag⟩
  have hinside := hb.stackNames_openElement tag
  rw [hnames, htag] at hinside
  exact .fits hhead hinside

theorem openBody (hnames : b.stackNames = ["html"]) (htag : tag.name = "body") :
    ((b.openElement tag).goto .body).Ready := by
  have hinside : (b.openElement tag).stackNames = ["body", "html"] := by
    rw [hb.stackNames_openElement, hnames, htag]
  exact (hb.openElement tag).ready_goto (.of_nested List.mem_cons_self ⟨true, hinside ▸ .body⟩)

theorem leaveHead (hnames : b.stackNames = ["head", "html"]) : b.leaveHead.Ready := by
  refine Plain.ready_goto (hb.close (List.drop_sublist 1 _)) ?_
  change b.pop.stackNames = ["html"]
  rw [stackNames_pop, hnames]
  rfl

theorem leaveNoscript (hnames : b.stackNames = ["noscript", "head", "html"]) :
    (b.pop.goto .head).Ready := by
  refine Plain.ready_goto (hb.close (List.drop_sublist 1 _)) ?_
  change b.pop.stackNames = ["head", "html"]
  rw [stackNames_pop, hnames]
  rfl

theorem openNoscript (hnames : b.stackNames = ["head", "html"]) (htag : tag.name = "noscript") :
    ((b.openElement tag).goto .headNoscript).Ready := by
  refine (hb.openElement tag).ready_goto ?_
  change (b.openElement tag).stackNames = ["noscript", "head", "html"]
  rw [hb.stackNames_openElement, hnames, htag]

theorem startIntoHead (hmode : b.mode = .afterHead) (hnames : b.stackNames = ["html"])
    (htag : tag.name ∈ headNames) : (b.startIntoHead tag).Settled model := by
  have hfits : b.mode.Fits b.stackNames := by
    rw [hmode]
    exact hnames
  have hknown : ∀ name ∈ headNames, name ∈ headContent ∧ name ≠ "head" := by decide
  obtain ⟨hcontent, hother⟩ := hknown tag.name htag
  cases hhead : b.headElement with
  | some head =>
      obtain ⟨hlt, hname⟩ := hb.head head hhead
      obtain ⟨hopened, hinside⟩ := hb.openIn head (b.labelOf .html tag) rfl
      rw [hnames] at hinside
      obtain ⟨kind, hkind, heq⟩ | heq := startIntoHead_eq hhead hname hlt htag
      · rw [heq]
        exact .text { hopened with } rfl hkind hinside (hnames ▸ hfits)
      · rw [heq]
        refine .ready (.fits (hopened.close (List.drop_sublist 1 _)) ?_)
        change b.mode.Fits (b.openIn head (b.labelOf .html tag)).pop.stackNames
        rw [stackNames_pop, hinside, hmode]
        rfl
  | none =>
      -- Without a head the element stands in the root, and there is none to close around it.
      have hnone : ∀ other : Builder, other.stackNames ⊆ [tag.name, "html"] →
          other.stack.find? (other.name · == "head") = none := by
        intro other hsubset
        refine List.find?_eq_none.mpr fun handle hmem heq => ?_
        have hin := hsubset (List.mem_map_of_mem (f := other.name) hmem)
        rw [beq_iff_eq.mp heq] at hin
        simp only [List.mem_cons, List.not_mem_nil, or_false] at hin
        exact hin.elim hother.symm (by decide)
      have hstack : b.headElement.toList ++ b.stack = b.stack := by
        rw [hhead]
        rfl
      have hsame : { b with stack := b.headElement.toList ++ b.stack } = b :=
        congrArg (fun stack => { b with stack := stack }) hstack
      unfold Builder.startIntoHead
      rw [hsame]
      obtain ⟨-, kind, hkind, heq⟩ | heq := startInHead_eq (b := b) hcontent
      · rw [heq]
        dsimp only [done]
        have hinside := hb.stackNames_openElement tag
        rw [hnames] at hinside
        rw [hnone (b.openRaw tag kind) (hinside ▸ List.Subset.refl _)]
        exact hb.openRaw hfits tag hkind
      · rw [heq]
        dsimp only [done]
        rw [hnone (b.openVoid tag) (by rw [hb.stackNames_openVoid, hnames]; simp)]
        exact ((Ready.fits hb hfits).openVoid tag).settled

end Plain

end Builder

end Winnow.Html
