import Winnow.Proofs.Html.Construction.Tokens
import Winnow.Proofs.Html.Nested.Ready

/-!
# Nesting through the moves

Every move for a token that starts no foreign element leads from what a mode calls for to what the
next mode calls for, and so does the end of the input. Nothing is met then that has no place.
-/

namespace Winnow.Html.Builder

variable {model : ContentModel} {b other : Builder} {read : Option Token}

/-! ## What is open -/

namespace Inside

variable {holder : String} {modes : Mode × Mode × Mode} (hb : b.Inside holder modes)
include hb

/-- What a mode is for is found where it is looked for. -/
theorem inScope_mode {mode : Mode} (hholder : holder ∈ mode.holders) :
    b.inScope mode.scope holder = true := by
  have hselect : holder = "select" → b.inScope .select holder = true := by
    rintro rfl
    exact hb.inScope_select
  cases mode with
  | select => exact hselect (List.mem_singleton.mp hholder)
  | selectInTable => exact hselect (List.mem_singleton.mp hholder)
  | _ => exact hb.inScope_holder

/-- A part is opened directly in what it is a part of. -/
theorem openPart (hclear : b.Cleared) {tag : Tag} (hpart : PartOf tag.name holder) :
    (b.openElement tag).Inside tag.name modes := by
  obtain ⟨rest, hnames, htop⟩ := hb.stackNames_of_cleared hclear
  exact hb.openLabel rfl ⟨true, .part hpart (hnames.symm ▸ htop)⟩

/-- A part of a table is closed when nothing is open in it. -/
theorem pop_part {rest : List String} (hnames : b.stackNames = holder :: rest)
    (hnested : Nested holder true (holder :: rest))
    (hpart : holder ∈ ["caption", "colgroup", "tbody", "tfoot", "thead", "tr", "td", "th"]) :
    ∃ base, PartOf holder base ∧ b.pop.Inside base modes := by
  obtain ⟨base, hbase, hrest⟩ := hnested.under_part hpart
  refine ⟨base, hbase, hb.close (List.drop_sublist 1 _) ⟨true, ?_⟩⟩
  rw [List.map_drop, ← stackNames, hnames]
  exact hrest

/-- In a selection an option stands in the selection or in a group of options. -/
theorem openOption (hselect : holder = "select") {tag : Tag}
    (htag : tag.name ∈ ["option", "optgroup"]) : (b.openElement tag).Inside holder modes := by
  have hknown : ∀ name ∈ ["option", "optgroup"], IsLoose name := by decide
  obtain ⟨tight, hnested⟩ := hb.nested
  have hcolumns : holder ≠ "colgroup" := by
    rw [hselect]
    decide
  exact hb.openLabel rfl ⟨_, hnested.loose (hknown _ htag) hcolumns fun _ => htag⟩

end Inside

/-! ## Moves -/

namespace Ready

variable (hb : b.Ready)
include hb

theorem begins (hmove : Begins read b other) : other.Ready := by
  have hplain := hb.plain
  cases hmove with
  | declare hmode _ =>
      have hfits := hb.names_of_mode hmode (by decide)
      exact .fits { hplain with } hfits
  | openRoot hmode => exact hplain.openRoot (hb.names_of_mode hmode (by decide))
  | openHead hmode _ hname => exact hplain.openHead (hb.names_of_mode hmode (by decide)) hname
  | leaveHead hmode => exact hplain.leaveHead (hb.names_of_mode hmode (by decide))
  | openNoscript hmode _ hname =>
      exact hplain.openNoscript (hb.names_of_mode hmode (by decide)) hname
  | leaveNoscript hmode => exact hplain.leaveNoscript (hb.names_of_mode hmode (by decide))
  | openBody hmode _ hname => exact hplain.openBody (hb.names_of_mode hmode (by decide)) hname
  | openFrames hmode _ hname =>
      exact hplain.openFrameset (hb.names_of_mode hmode (by decide)) hname

/-- The element that a mode is for, where it is for some. -/
theorem exists_inside {name : String} (hmem : name ∈ b.mode.holders) :
    ∃ holder ∈ b.mode.holders, b.Inside holder b.modes :=
  hb.held (List.ne_nil_of_mem hmem)

/-- Blocks are closed by their own end tags. -/
theorem closeBlock {tag : String} (hname : tag ∈ ["table", "select"])
    (hholder : tag ∈ b.mode.holders) : (b.popThrough [tag]).resetMode.Ready := by
  obtain ⟨holder, hmem, hinside⟩ := hb.exists_inside hholder
  have hsame : holder = tag := Mode.eq_of_mem_holders hname hholder hmem
  subst hsame
  obtain ⟨base, hbase, hclosed⟩ := hinside.closeBlock hname
  exact (hclosed.resetMode hbase).ready

/-- What is in the elements that a mode is for is closed. -/
theorem clear (hmode : b.mode.holders ≠ []) :
    (b.popTo (b.mode.holders ++ ["html"])).Ready := by
  obtain ⟨holder, hmem, hinside⟩ := hb.held hmode
  have hmodal : ∀ tag ∈ b.mode.holders ++ ["html"], ¬ IsLoose tag := by
    intro tag htag
    rcases List.mem_append.mp htag with hholder | hroot
    · exact Mode.not_isLoose_of_mem_holders hholder
    · rw [List.mem_singleton.mp hroot]
      decide
  exact (hinside.popTo (List.mem_append_left ["html"] hmem) hmodal).1.ready hmem

theorem openPart (hmode : b.mode.holders ≠ []) (hclear : b.Cleared) {tag : Tag} {mode : Mode}
    (hpart : ∀ holder ∈ b.mode.holders, PartOf tag.name holder)
    (hholder : tag.name ∈ mode.holders) : ((b.openElement tag).goto mode).Ready := by
  obtain ⟨holder, hmem, hinside⟩ := hb.held hmode
  exact ((hinside.openPart hclear (hpart holder hmem)).goto mode).ready hholder

theorem closePart (hmode : b.mode ∈ [.tableBody, .row]) (hclear : b.Cleared) :
    (b.pop.goto b.mode.outer).Ready := by
  have hparts : ∀ mode ∈ [Mode.tableBody, .row], mode.holders ≠ [] ∧ ∀ name ∈ mode.holders,
      name ∈ ["caption", "colgroup", "tbody", "tfoot", "thead", "tr", "td", "th"] := by decide
  obtain ⟨hholders, hpart⟩ := hparts b.mode hmode
  obtain ⟨holder, hmem, hinside⟩ := hb.held hholders
  obtain ⟨rest, hnames, htop⟩ := hinside.stackNames_of_cleared hclear
  obtain ⟨base, hbase, hclosed⟩ := hinside.pop_part hnames htop (hpart holder hmem)
  exact (hclosed.goto b.mode.outer).ready (Mode.mem_holders_outer hbase hmem)

theorem closeColumns (hmode : b.mode = .columnGroup) : (b.pop.goto .table).Ready := by
  have hinside := hb.inside_of_mode hmode rfl
  obtain ⟨rest, hnames⟩ := hinside.exists_stackNames_columns
  obtain ⟨tight, hnested⟩ := hinside.nested
  rw [hnames] at hnested
  obtain rfl := hnested.tight_of_not_isLoose (by decide)
  obtain ⟨base, hbase, hclosed⟩ := hinside.pop_part hnames hnested (by decide)
  exact (hclosed.goto .table).ready (List.mem_singleton.mpr (hbase.eq_table (by decide)))

/-- Of the cells only the one that holds what is open is in the scope of tables. -/
theorem closeSection (hmode : b.mode ∈ [.caption, .cell]) {tag : String}
    (hholder : tag ∈ b.mode.holders) (hopen : b.inScope .table tag = true) :
    ((b.popThrough [tag]).clearToMarker.goto b.mode.outer).Ready := by
  obtain ⟨holder, hmem, hinside⟩ := hb.exists_inside hholder
  have hparts : ∀ mode ∈ [Mode.caption, .cell], ∀ name ∈ mode.holders, name ≠ "select" ∧
      name ∈ ["caption", "colgroup", "tbody", "tfoot", "thead", "tr", "td", "th"] := by decide
  obtain ⟨hselect, hpart⟩ := hparts b.mode hmode holder hmem
  have hsame : tag = holder := by
    rcases List.mem_pair.mp hmode with hcase | hcase
    · rw [hcase] at hholder hmem
      exact (List.mem_singleton.mp hholder).trans (List.mem_singleton.mp hmem).symm
    · rw [hcase] at hholder
      obtain ⟨tight, hnested⟩ := hinside.nested
      exact hnested.eq_holder_of_reachesName hselect hholder
        (hinside.inScope_eq .table tag ▸ hopen)
  subst hsame
  obtain ⟨base, hbase, hclosed⟩ := hinside.closePart hpart
  exact (hclosed.clearToMarker.goto b.mode.outer).ready (Mode.mem_holders_outer hbase hmem)

theorem inside_select (hmode : b.mode ∈ [.select, .selectInTable]) :
    "select" ∈ b.mode.holders ∧ b.Inside "select" b.modes := by
  obtain ⟨hholders, -⟩ := Mode.holders_of_select hmode
  exact ⟨hholders ▸ List.mem_cons_self, hb.inside_of_mode rfl hholders⟩

theorem startTableText (hmode : b.mode.takesContent = true) :
    Ready { b with tableReturn := b.mode, mode := .tableText } := by
  obtain ⟨holder, hholder, -, hinside⟩ := hb.exists_content hmode
  exact .inTable ⟨{ hinside.toPlain with }, hinside.nested, rfl⟩ rfl hmode hholder

/-- After the body any content leads back into it, and its end leads on. -/
theorem goto_body {mode : Mode} (hmode : b.mode.holders = ["body"])
    (hnext : mode.holders = ["body"]) : (b.goto mode).Ready := by
  have hmoved := (hb.inside_of_mode rfl hmode).goto mode
  exact hmoved.ready (hnext ▸ List.mem_cons_self)

theorem replaceBody (hmode : b.mode.takesContent = true) (body : Handle) {tag : Tag}
    (hname : tag.name = "frameset") :
    (((Builder.popTo { b with store := b.store.detach body } ["html"]).openElement tag).goto
      .frameset).Ready := by
  obtain ⟨holder, -, -, hinside⟩ := hb.exists_content hmode
  obtain ⟨hpopped, hnames⟩ := hinside.popTo_detach body
  exact hpopped.openFrameset hnames hname

/-- A frame set is opened in another. -/
theorem openFrameset (hmode : b.mode = .frameset) {tag : Tag} (hname : tag.name = "frameset") :
    (b.openElement tag).Ready := by
  obtain ⟨outer, hnames, houter⟩ := hb.names_of_mode hmode (by decide)
  have hsame : (b.openElement tag).mode = .frameset :=
    (congrArg Prod.fst (modes_openLabel b _)).trans hmode
  refine .fits (hb.plain.openElement tag) ?_
  rw [hsame, hb.plain.stackNames_openElement, hnames]
  refine ⟨"frameset" :: outer, congrArg (· :: _) hname, fun name hmem => ?_⟩
  rcases List.mem_cons.mp hmem with rfl | hmem
  · rfl
  · exact houter name hmem

/-- The root is not innermost in a mode for something inside it. -/
theorem expectInner (hmode : b.mode.holders ≠ [] ∨ b.mode = .frameset) :
    (b.expect (b.currentName != "html")).Ready := by
  have hmet : b.expect (b.currentName != "html") = b := by
    rcases hmode with hholders | hframes
    · exact (hb.held hholders).expect_currentName
    · obtain ⟨outer, hnames, -⟩ := hb.names_of_mode hframes (by decide)
      exact expect_eq (by rw [currentName_eq hnames]; decide)
  rw [hmet]
  exact hb

section Read

variable (hread : ∀ token ∈ read, token.IsNative)
include hread

theorem edit (hmode : b.mode.takesContent = true) (hedit : Edit read b other) : other.Ready := by
  obtain ⟨holder, hholder, hflow, hinside⟩ := hb.exists_content hmode
  exact (hinside.edit hflow hholder hread hedit).ready hholder

/-- Text met in a table is added in the mode to go back to. -/
theorem endTableText (hmode : b.mode = .tableText)
    (hedits : Edits read { b with tableTexts := [], mode := b.tableReturn } other) :
    other.Ready := by
  cases hb with
  | fits hplain hfits => exact absurd hmode hfits.ne_tableText
  | @inTable holder hinside _ hreturn hholder =>
      have hreturned : Inside holder (b.tableReturn, b.modes.2)
          { b with tableTexts := [], mode := b.tableReturn } :=
        ⟨{ hinside.toPlain with }, hinside.nested, rfl⟩
      have hflow := Mode.not_mem_of_takesContent hreturn hholder
      exact (hreturned.edits hflow hholder hread hedits).ready hholder

theorem proceeds (hmove : Proceeds read b other) : other.Ready := by
  have hholders : ∀ mode ∈ [Mode.table, .tableBody, .row], mode.holders ≠ [] ∧
      mode.takesContent = true := by decide
  cases hmove with
  | edit hmode hedit => exact hb.edit hread hmode hedit
  | continueAfter hmode => exact hb.reconstruct (List.mem_cons_of_mem _ hmode)
  | openBlock hmode _ hname hholder =>
      obtain ⟨holder, -, hflow, hinside⟩ := hb.exists_content hmode
      exact ((hinside.openModal hflow hname).goto _).ready hholder
  | closeBlock hname hholder _ => exact hb.closeBlock hname hholder
  | clear hmode => exact hb.clear (hholders _ hmode).1
  | openPart hmode hclear _ hpart hholder =>
      exact hb.openPart (hholders _ hmode).1 hclear hpart hholder
  | closePart hmode hclear _ => exact hb.closePart hmode hclear
  | closeColumns hmode _ => exact hb.closeColumns hmode
  | closeSection hmode hholder hopen => exact hb.closeSection hmode hholder hopen
  | openOption hmode _ hname =>
      obtain ⟨hmem, hinside⟩ := hb.inside_select hmode
      exact (hinside.openOption rfl hname).ready hmem
  | closeOption hmode hname =>
      have hknown : ∀ name ∈ ["option", "optgroup"], IsLoose name := by decide
      obtain ⟨hmem, hinside⟩ := hb.inside_select hmode
      exact (hinside.pop (hknown _ hname)).ready hmem
  | startTableText hmode => exact hb.startTableText (hholders _ hmode).2
  | endTableText hmode hedits => exact hb.endTableText hread hmode hedits
  | endBody hmode => exact hb.goto_body (by rw [hmode]; rfl) rfl
  | endDocument hmode => exact hb.goto_body (by rw [hmode]; rfl) rfl
  | reenter hmode =>
      exact hb.goto_body ((by decide : ∀ mode ∈ [Mode.afterBody, .afterAfterBody],
        mode.holders = ["body"]) _ hmode) rfl
  | replaceBody hmode _ _ _ hname => exact hb.replaceBody hmode _ hname
  | openFrameset hmode _ hname => exact hb.openFrameset hmode hname
  | closeFrameset hmode => exact hb.endFrameset hmode
  | endFrames _ => exact hb.plain.ready_goto trivial
  -- What is to be there is there.
  | missBody hmode hnone =>
      obtain ⟨holder, -, -, hinside⟩ := hb.exists_content hmode
      obtain ⟨body, hsecond, hname⟩ := hinside.exists_second
      exact absurd hname (hnone body hsecond)
  | missHolder hmode hnone =>
      obtain ⟨holder, hmem, hinside⟩ := hb.held hmode
      have hmissed := hnone holder hmem
      rw [hinside.inScope_mode hmem] at hmissed
      cases hmissed
  | expectInner hmode =>
      exact hb.expectInner ((by decide : ∀ mode ∈ [Mode.table, .columnGroup, .tableBody, .row,
        .select, .selectInTable, .frameset], mode.holders ≠ [] ∨ mode = .frameset) _ hmode)

theorem move (hmove : Move read b other) : other.Ready := by
  cases hmove with
  | flags hcore =>
      obtain ⟨hplain, hnames⟩ := hb.plain.of_core hcore
      exact hb.of_same hplain hnames (congrArg (·.2.1) hcore)
  | addText _ text => exact hb.addText text
  | addComment _ _ => exact hb.addComment _ _
  | mergeRoot _ _ => exact hb.addMissing _ _
  | openVoid _ _ => exact hb.openVoid _
  | missEnd hmode _ => exact absurd hmode hb.mode_ne_text
  | leaveText hmode => exact absurd hmode hb.mode_ne_text
  | begins hmove => exact hb.begins hmove
  | proceeds hmove => exact hb.proceeds hread hmove
  -- Nothing foreign is open.
  | wanders hforeign _ =>
      rw [hb.plain.inForeign] at hforeign
      cases hforeign

theorem moves (hmoves : Moves read b other) : other.Ready :=
  hmoves.preserves hb fun hb hmove => hb.move hread hmove

omit hread in
theorem opensRaw (hopens : OpensRaw read b other) : other.Settled model := by
  cases hopens with
  | openRaw hmode _ _ hmodel =>
      refine hb.plain.openRaw (hb.mode_fits fun htext => ?_) _ hmodel
      rw [htext] at hmode
      cases hmode
  | startIntoHead hmode _ hname =>
      exact hb.plain.startIntoHead hmode (hb.names_of_mode hmode (by decide)) hname

/-- After a reply a document is settled, and ready if the token is to be taken once more. -/
theorem reply {reply : Reply} (hreply : Replies read b reply) :
    reply.1.Settled model ∧ (reply.2 = true → reply.1.Ready) := by
  cases hreply with
  | moves hmoves =>
      have hready := hb.moves hread hmoves
      exact ⟨hready.settled, fun _ => hready⟩
  | raw hmoves hopens hcore =>
      have hopened : Settled model _ := (hb.moves hread hmoves).opensRaw hopens
      exact ⟨hopened.of_core hcore, fun hagain => absurd hagain Bool.false_ne_true⟩

end Read

end Ready

/-! ## Raw text -/

/-- In raw text a token is taken that is no start tag. -/
theorem Settled.move (hb : b.Settled model) (hread : ∀ tag, read ≠ some (.startTag tag))
    (hmove : Move read b other) : other.Settled model := by
  have hnative : ∀ token ∈ read, token.IsNative := by
    rintro token hmem tag rfl
    exact absurd hmem (hread tag)
  have hsettled := hb
  -- Of the moves that change the mode only the one that leaves raw text is made in it.
  cases hb with
  | ready hready => exact (hready.move hnative hmove).settled
  | text hplain htext _ _ _ =>
      cases hmove with
      | flags hcore => exact hsettled.of_core hcore
      | addText _ text => exact hsettled.addText text
      | addComment _ _ => exact hsettled.addComment _ _
      | mergeRoot _ _ => exact hsettled.addMissing _ _
      | openVoid hmode _ =>
          rw [htext] at hmode
          cases hmode
      | missEnd _ hown => exact absurd hown (hread _)
      | leaveText hmode => exact (hsettled.leaveText hmode).settled
      | begins hmove => cases hmove <;> simp_all
      | proceeds hmove =>
          have hlate := hmove.isLate
          rw [htext] at hlate
          cases hlate
      | wanders hforeign _ =>
          rw [hplain.inForeign] at hforeign
          cases hforeign

/-- A reply to another token than a start tag opens nothing raw. -/
theorem Settled.reply (hb : b.Settled model) (hread : ∀ tag, read ≠ some (.startTag tag))
    {reply : Reply} (hreply : Replies read b reply) : reply.1.Settled model := by
  refine hreply.preserves hb (fun hb hmove => hb.move hread hmove) (fun hb hopens => ?_)
    fun hb hcore => hb.of_core hcore
  cases hopens with
  | openRaw _ hown _ _ => exact absurd hown (hread _)
  | startIntoHead _ hown _ => exact absurd hown (hread _)

/-! ## Tokens -/

theorem Plain.takeIn_succ (hb : b.Plain) (token : Token) (fuel : Nat) :
    b.takeIn token (fuel + 1) =
      if (b.takeInMode token).2 && (b.takeInMode token).1.fault.isNone then
        (b.takeInMode token).1.takeIn token fuel
      else (b.takeInMode token).1 := by
  rw [takeIn, hb.takesInMode, if_pos rfl]

/-- A token is taken in one mode after another. -/
theorem Ready.takeIn (hb : b.Ready) {token : Token} (htoken : token.IsNative) (fuel : Nat) :
    (b.takeIn token fuel).Settled model := by
  induction fuel generalizing b with
  | zero => exact hb.settled
  | succ fuel ih =>
      obtain ⟨hsettled, hready⟩ :
          (b.takeInMode token).1.Settled model ∧
            ((b.takeInMode token).2 = true → (b.takeInMode token).1.Ready) :=
        hb.reply (by rintro other ⟨⟩; exact htoken) (replies_takeInMode b token)
      rw [hb.plain.takeIn_succ]
      split
      next hagain => exact ih (hready (Bool.and_eq_true_iff.mp hagain).1)
      next => exact hsettled

namespace Settled

variable (hb : b.Settled model)
include hb

theorem takeIn {token : Token} (htoken : ∀ tag, token ≠ .startTag tag) (fuel : Nat) :
    (b.takeIn token fuel).Settled model := by
  refine takeIn_preserves (fun hb hreply => hb.reply (fun tag heq => ?_) hreply) hb fuel
  exact htoken tag (Option.some.inj heq)

theorem takeAll {tokens : List Token} (htokens : ∀ tag, .startTag tag ∉ tokens) :
    (b.takeAll tokens).Settled model := by
  refine takeAll_preserves (fun hmem hb hreply => hb.reply (fun tag heq => ?_) hreply) hb
  exact htokens tag (Option.some.inj heq ▸ hmem)

/-- After an end tag the input may be read in any way. -/
theorem take_endTag {other : ContentModel} (name : String) :
    (b.take (.endTag name)).Settled other := by
  have hended : (b.endTag name).1.Ready := by
    cases hb with
    | ready hready =>
        have hmoves : Moves none b (b.endTag name).1 := Moves.refl.endTag name
        exact hready.moves (fun _ hnone => by cases hnone) hmoves
    | text hplain hmode hmodel hnames hfits =>
        unfold Builder.endTag
        rw [hmode]
        exact (Settled.text hplain hmode hmodel hnames hfits).leaveText hmode
  rw [take, hb.plain.takeIn_succ]
  split
  · exact hended.settled.takeIn (fun tag heq => by cases heq) _
  · exact hended.settled

end Settled

/-- The problems in a tag change nothing. -/
theorem Plain.takeAll_problems (hb : b.Plain) {front : List Token}
    (hfront : ∀ token ∈ front, ∃ problem, token = .problem problem) : b.takeAll front = b := by
  induction front with
  | nil => rfl
  | cons token rest ih =>
      obtain ⟨problem, rfl⟩ := hfront _ List.mem_cons_self
      have htaken : b.take (.problem problem) = b := hb.takeIn_succ _ _
      rw [takeAll, List.foldl_cons, htaken]
      exact ih fun other hmem => hfront other (List.mem_cons_of_mem _ hmem)

end Winnow.Html.Builder
