import Winnow.Proofs.Html.Construction.Tokens
import Winnow.Proofs.Html.Rooted.Preamble

/-!
# From the root to the body

Whatever is read in an empty root, a head is begun first. What does not belong into the head ends
it and begins the body, or a frame set in its place. No other move is made before the body.
-/

namespace Winnow.Html

namespace Builder

/-- A document that closes elements by their names only, with all the parts that are to stay. -/
theorem Rooted.whole {root : Handle} {parts : List Handle} {b : Builder} {frames : Bool}
    (hb : b.Rooted root parts) (hmode : b.mode.closesByName = true)
    (hcount : parts.length = (partNames frames).length) : b.Whole frames :=
  ⟨root, parts, Careful.supplied ⟨hb, hmode⟩, hcount⟩

/-! ## Before the root -/

namespace Bare

variable {b : Builder} (hb : b.Bare)
include hb

/-- The root is put directly below the document. -/
theorem openRoot : b.openRoot.Headless b.store.cells.size := by
  have hgrounded := hb.grounded.add { tag := "html" }
  have hlabel : (b.store.add { tag := "html" }).1.label b.store.cells.size = { tag := "html" } := by
    rw [Store.label_add, if_pos rfl]
  have hrooted := hgrounded.append_root rfl (congrArg Label.tag hlabel)
    (congrArg Label.space hlabel)
  have hlisted := hb.listed.add { tag := "html" }
  have hnew : b.store.cells.size < (b.store.add { tag := "html" }).1.cells.size := by
    rw [Store.size_add]
    exact Nat.lt_succ_self _
  refine ⟨⟨hrooted, hb.listed.hosts_root hb.grounded.size_pos _, .single,
    .of_length_le _ (Nat.le_succ 1), ?_, ?_, ?_, hb.tableReturn⟩, hlisted.append hnew 0, rfl, rfl⟩
  · intro handle hmem
    change some handle ∈ b.formatting at hmem
    rw [hb.formatting] at hmem
    cases hmem
  · intro handle hmem
    change handle ∈ b.headElement at hmem
    rw [hb.head] at hmem
    cases hmem
  · intro handle hmem
    change handle ∈ b.formElement at hmem
    rw [hb.form] at hmem
    cases hmem

theorem addComment (data : String) : (b.addComment 0 data).Bare :=
  { hb with
    grounded := hb.grounded.append_comment data
    listed := listed_addComment hb.listed 0 data }

/-- The step from the start of the document to the place before the root. -/
theorem goto_beforeHtml (oldRules : Bool) :
    Bare { b with oldRules := oldRules, mode := .beforeHtml } :=
  { hb with mode := Or.inr rfl }

theorem of_core {other : Builder} (hcore : other.core = b.core) : other.Bare := by
  simp only [core, frame, modes, Prod.mk.injEq] at hcore
  obtain ⟨⟨hstore, hstack, hformatting, hhead, hform, hreturn⟩, ⟨hmode, -, -⟩, -⟩ := hcore
  exact ⟨hstore ▸ hb.grounded, hstore ▸ hb.listed, hstack.trans hb.stack,
    hformatting.trans hb.formatting, hhead.trans hb.head, hform.trans hb.form,
    hreturn ▸ hb.tableReturn, hmode ▸ hb.mode⟩

theorem inForeign_eq_false : b.inForeign = false := by
  unfold Builder.inForeign
  rw [hb.stack]

/-- No mode but the first two has come. -/
theorem mode_ne {mode : Mode} (hmode : b.mode = mode) (hlater : mode ∉ [.initial, .beforeHtml]) :
    False :=
  hlater (hmode ▸ List.mem_pair.mpr hb.mode)

theorem move {read : Option Token} {other : Builder} (hmove : Move read b other) :
    other.Bare ∨ ∃ root, other.Headless root := by
  have hclosed : b.mode.hasRoot = false := by
    rcases hb.mode with hmode | hmode
    · rw [hmode]
      rfl
    · rw [hmode]
      rfl
  have hnone : ¬ (b.mode.hasRoot = true ∨ b.inForeign = true) := by
    rw [hclosed, hb.inForeign_eq_false]
    simp
  cases hmove with
  | flags hcore => exact Or.inl (hb.of_core hcore)
  | addText hopen _ => exact absurd hopen hnone
  | addComment _ hparent =>
      rcases hparent with rfl | hopen
      · exact Or.inl (hb.addComment _)
      · exact absurd hopen.1 hnone
  | mergeRoot hmode _ => exact absurd (Or.inl hmode) hnone
  | openVoid hmode _ => exact absurd (Or.inl (Mode.hasRoot_of_takesElements hmode)) hnone
  | missEnd hmode _ => exact (hb.mode_ne hmode (by decide)).elim
  | leaveText hmode => exact (hb.mode_ne hmode (by decide)).elim
  | begins hmove =>
      cases hmove with
      | declare _ oldRules => exact Or.inl (hb.goto_beforeHtml oldRules)
      | openRoot _ => exact Or.inr ⟨_, hb.openRoot⟩
      | openHead hmode _ _ => exact (hb.mode_ne hmode (by decide)).elim
      | leaveHead hmode => exact (hb.mode_ne hmode (by decide)).elim
      | openNoscript hmode _ _ => exact (hb.mode_ne hmode (by decide)).elim
      | leaveNoscript hmode => exact (hb.mode_ne hmode (by decide)).elim
      | openBody hmode _ _ => exact (hb.mode_ne hmode (by decide)).elim
      | openFrames hmode _ _ => exact (hb.mode_ne hmode (by decide)).elim
  | proceeds hmove => exact absurd (Or.inl (Mode.hasRoot_of_isLate hmove.isLate)) hnone
  | wanders hforeign _ => exact absurd (Or.inr hforeign) hnone

end Bare

/-! ## An empty root -/

namespace Headless

variable {root : Handle} {b : Builder} (hb : b.Headless root)
include hb

theorem inForeign_eq_false : b.inForeign = false := by
  unfold Builder.inForeign
  rw [hb.opened]
  dsimp only
  rw [hb.space_root]
  rfl

theorem openHead {tag : Tag} (hname : tag.name = "head") :
    (b.openHead tag).Headed root b.store.cells.size := by
  have hnamed : ([] : List Handle).map b.name ++ [tag.name] <+: ["head", "body"] := by
    rw [List.map_nil, hname]
    decide
  have hopened : (b.openElement tag).Rooted root [b.store.cells.size] :=
    hb.toRooted.openPart hb.opened hb.listed (b.labelOf .html tag) rfl hnamed
  have hstack : (b.openElement tag).stack = [b.store.cells.size, root] := by
    rw [openElement, stack_openLabel, hb.opened]
  have hlabel : (b.openElement tag).label b.store.cells.size = b.labelOf .html tag :=
    label_current_openLabel b _
  have helement : Tag.IsElement tag := by
    rw [Tag.IsElement, hname]
    decide
  refine ⟨{ hopened with head := fun handle hmem => ?_ }, listed_openLabel hb.listed _, rfl, ?_,
    Or.inl hstack⟩
  · cases hmem
    exact ⟨hb.isInner_current_openLabel helement, (congrArg Label.tag hlabel).trans hname⟩
  · intro handle hmem
    have hmem : handle ∈ (b.openElement tag).stack := hmem
    rw [hstack] at hmem
    rcases List.mem_cons.mp hmem with rfl | hroot
    · exact congrArg Label.space hlabel
    · rw [List.mem_singleton.mp hroot]
      exact hopened.space_root

theorem mergeRoot (tag : Tag) : (b.mergeRoot tag).Headless root :=
  ⟨hb.toRooted.addMissing b.root tag.attributes, listed_addMissing hb.listed b.root _, hb.mode,
    hb.opened⟩

theorem addText (text : String) : (b.addText text).Headless root :=
  ⟨hb.toRooted.addText text, listed_addText hb.listed text,
    (congrArg Builder.mode (addText_eq b text)).trans hb.mode,
    (stack_addText b text).trans hb.opened⟩

theorem addComment {parent : Handle} (text : String)
    (hparent : parent = 0 ∨ (b.label parent).isElement = true) :
    (b.addComment parent text).Headless root :=
  ⟨hb.toRooted.addComment text hparent, listed_addComment hb.listed parent text, hb.mode,
    hb.opened⟩

theorem of_core {other : Builder} (hcore : other.core = b.core) : other.Headless root := by
  simp only [core, modes, Prod.mk.injEq] at hcore
  have hframe := hcore.1
  simp only [frame, Prod.mk.injEq] at hframe
  exact ⟨hb.toRooted.of_frame hcore.1, hframe.1 ▸ hb.listed, hcore.2.1.1.trans hb.mode,
    hframe.2.1.trans hb.opened⟩

theorem mode_ne {mode : Mode} (hmode : b.mode = mode) (hother : mode ≠ .beforeHead) : False :=
  hother (hmode.symm.trans hb.mode)

theorem move {read : Option Token} {other : Builder} (hmove : Move read b other) :
    other.Headless root ∨ ∃ first, other.Headed root first := by
  cases hmove with
  | flags hcore => exact Or.inl (hb.of_core hcore)
  | addText _ text => exact Or.inl (hb.addText text)
  | addComment _ hparent =>
      refine Or.inl (hb.addComment _ (hparent.imp_right fun hopen => ?_))
      rcases List.mem_pair.mp hopen.2 with rfl | rfl
      · exact hb.isElement_current
      · exact hb.root_eq ▸ hb.isElement_root
  | mergeRoot _ _ => exact Or.inl (hb.mergeRoot _)
  | openVoid hmode _ =>
      rw [hb.mode] at hmode
      cases hmode
  | missEnd hmode _ => exact (hb.mode_ne hmode (by decide)).elim
  | leaveText hmode => exact (hb.mode_ne hmode (by decide)).elim
  | begins hmove =>
      cases hmove with
      | openHead _ _ hname => exact Or.inr ⟨_, hb.openHead hname⟩
      | declare hmode _ => exact (hb.mode_ne hmode (by decide)).elim
      | openRoot hmode => exact (hb.mode_ne hmode (by decide)).elim
      | leaveHead hmode => exact (hb.mode_ne hmode (by decide)).elim
      | openNoscript hmode _ _ => exact (hb.mode_ne hmode (by decide)).elim
      | leaveNoscript hmode => exact (hb.mode_ne hmode (by decide)).elim
      | openBody hmode _ _ => exact (hb.mode_ne hmode (by decide)).elim
      | openFrames hmode _ _ => exact (hb.mode_ne hmode (by decide)).elim
  | proceeds hmove =>
      have hlate := hmove.isLate
      rw [hb.mode] at hlate
      cases hlate
  | wanders hforeign _ =>
      rw [hb.inForeign_eq_false] at hforeign
      cases hforeign

end Headless

/-! ## The head and the body -/

namespace Headed

variable {root first : Handle} {b : Builder} (hb : b.Headed root first) {frames : Bool}
include hb

theorem of_core {other : Builder} (hcore : other.core = b.core) : other.Headed root first := by
  simp only [core, Builder.modes, Prod.mk.injEq] at hcore
  have hframe := hcore.1
  simp only [frame, Prod.mk.injEq] at hframe
  obtain ⟨hstore, hstack, -, hhead, -, -⟩ := hframe
  exact hb.of_same (hb.toRooted.of_frame hcore.1) (hstore ▸ hb.listed) hhead
    (fun handle _ => congrArg (fun store : Store => (store.label handle).space) hstore) hstack
    hcore.2.1.1 hcore.2.1.2.1

section Tags

variable {tag : Tag} (htag : tag.IsElement)
include htag

/-- What stands after the head is put into it. -/
theorem startIntoHead (hname : tag.name ∈ headNames) (hmode : b.mode ≠ .text) :
    (b.startIntoHead tag).Headed root first := by
  obtain ⟨⟨helement, -⟩, hheadName⟩ := hb.head first hb.element
  have hopened := hb.toRooted.openIn helement (b.labelOf .html tag) htag
  have hlisted := listed_openIn hb.listed first (b.labelOf .html tag)
  have hold : ∀ handle ∈ b.stack,
      (b.openIn first (b.labelOf .html tag)).label handle = b.label handle :=
    fun handle hmem => label_openIn_of_lt b first _ (hb.lt_size_of_mem hmem)
  have hnew := label_openIn_self b first (b.labelOf .html tag)
  have hhead := headElement_openIn b first (b.labelOf .html tag)
  obtain ⟨model, -, heq⟩ | heq := startIntoHead_eq hb.element hheadName hb.lt_size_head hname
  · rw [heq]
    refine ⟨hopened.of_frame rfl, hlisted, hhead.trans hb.element, fun handle hmem => ?_,
      Or.inr ⟨rfl, hb.opens hmode⟩⟩
    have hsame : ∀ handle, Builder.label { b.openIn first (b.labelOf .html tag) with
        request := some model, textReturn := b.mode, mode := .text } handle =
          (b.openIn first (b.labelOf .html tag)).label handle := fun _ => by rw [label, label]
    rw [hsame]
    rcases List.mem_cons.mp hmem with rfl | hmem
    · rw [hnew]
      rfl
    · rw [hold handle hmem]
      exact hb.spaces handle hmem
  · rw [heq]
    have hpopped := hopened.pop (hb.isFree_create (b.labelOf .html tag) htag).1.2
    have hmode := mode_openIn b first (b.labelOf .html tag)
    have hreturn := textReturn_openIn b first (b.labelOf .html tag)
    exact hb.of_same hpopped hlisted hhead
      (fun handle hmem => congrArg Label.space (hold handle hmem)) rfl hmode hreturn

end Tags

section After

variable (hmode : b.mode = .afterHead)
include hmode

theorem opened_after : b.stack = [root] := by
  have hopen := hb.opens (by rw [hmode]; decide)
  rw [hmode] at hopen
  exact hopen

/-- A body after the head is there to stay unless frame sets may be read. -/
theorem exists_openElement_body (frames : Bool) (tag : Tag) (hname : tag.name = "body") :
    ∃ parts, (b.openElement tag).Rooted root parts ∧ parts.length = (partNames frames).length := by
  -- Where a frame set may still come the body is not counted, as it may be taken out for one.
  cases frames with
  | true =>
      have htag : tag.IsElement := by
        rw [Tag.IsElement, hname]
        decide
      exact ⟨[first], hb.toRooted.openElement htag, rfl⟩
  | false =>
      have hnamed : [first].map b.name ++ [tag.name] <+: ["head", "body"] := by
        rw [List.map_singleton, hb.name_head, hname]
        decide
      exact ⟨[first] ++ [b.store.cells.size], hb.toRooted.openPart (hb.opened_after hmode) hb.listed
        (b.labelOf .html tag) rfl hnamed, rfl⟩

/-- A body after the head completes the document. -/
theorem enterBody {tag : Tag} (hname : tag.name = "body") :
    ((b.openElement tag).goto .body).Whole frames := by
  obtain ⟨parts, hopened, hcount⟩ := hb.exists_openElement_body hmode frames tag hname
  have hentered : ((b.openElement tag).goto .body).Rooted root parts := hopened.of_frame rfl
  exact hentered.whole rfl hcount

theorem openBody : b.openBody.Whole frames := by
  obtain ⟨parts, hopened, hcount⟩ :=
    hb.exists_openElement_body hmode frames { name := "body" } rfl
  have hentered : b.openBody.Rooted root parts := hopened.of_frame rfl
  exact hentered.whole rfl hcount

end After

/-- A frame set stands where the body would, so the head is all that is promised. -/
theorem enterFrames {tag : Tag} (htag : tag.IsElement) (hframes : frames = true) :
    ((b.openElement tag).goto .frameset).Whole frames := by
  have hopened : ((b.openElement tag).goto .frameset).Rooted root [first] :=
    (hb.toRooted.openElement htag).of_frame rfl
  refine hopened.whole rfl ?_
  rw [hframes]
  rfl

theorem mode_ne {mode : Mode} (hmode : b.mode = mode)
    (hother : mode ∉ [.head, .headNoscript, .afterHead, .text]) : False := by
  refine hother (hmode ▸ ?_)
  rcases hb.modes with hmode | hmode | hmode | hmode
  all_goals rw [hmode]; decide

section Read

variable {read : Option Token} {other : Builder} (hread : ∀ token ∈ read, token.Opens frames)
include hread

theorem move (hmove : Move read b other) : other.Headed root first ∨ other.Whole frames := by
  have helement : ∀ {tag : Tag}, Stands read tag → tag.IsElement := isElement_of_stands hread
  cases hmove with
  | flags hcore => exact Or.inl (hb.of_core hcore)
  | addText _ text => exact Or.inl (hb.addText text)
  | addComment _ hparent =>
      refine Or.inl (hb.addComment _ (hparent.imp_right fun hopen => ?_))
      rcases List.mem_pair.mp hopen.2 with rfl | rfl
      · exact hb.isElement_current
      · exact hb.root_eq ▸ hb.isElement_root
  | mergeRoot _ _ => exact Or.inl (hb.mergeRoot _)
  | openVoid _ htag => exact Or.inl (hb.openVoid (helement htag))
  | missEnd _ _ => exact Or.inl (hb.expect false)
  | leaveText hmode => exact Or.inl (hb.leaveText hmode)
  | begins hmove =>
      cases hmove with
      | leaveHead hmode => exact Or.inl (hb.leaveHead hmode)
      | openNoscript hmode htag _ => exact Or.inl (hb.openNoscript (helement htag) hmode)
      | leaveNoscript hmode => exact Or.inl (hb.leaveNoscript hmode)
      | openBody hmode _ hname => exact Or.inr (hb.enterBody hmode hname)
      | openFrames _ hown hname =>
          exact Or.inr (hb.enterFrames (hread _ hown).1 ((hread _ hown).2 hname))
      | declare hmode _ => exact (hb.mode_ne hmode (by decide)).elim
      | openRoot hmode => exact (hb.mode_ne hmode (by decide)).elim
      | openHead hmode _ _ => exact (hb.mode_ne hmode (by decide)).elim
  | proceeds hmove =>
      have hlate := hmove.isLate
      rcases hb.modes with hmode | hmode | hmode | hmode
      all_goals rw [hmode] at hlate; cases hlate
  | wanders hforeign _ =>
      rw [hb.inForeign_eq_false] at hforeign
      cases hforeign

theorem opensRaw (hopens : OpensRaw read b other) : other.Headed root first := by
  cases hopens with
  | openRaw hmode hown _ _ =>
      refine hb.openRaw (hread _ hown).1 (fun htext => ?_) _
      rw [htext] at hmode
      cases hmode
  | startIntoHead hmode hown hname =>
      exact hb.startIntoHead (hread _ hown).1 hname (by rw [hmode]; decide)

end Read

end Headed

/-! ## Any time -/

namespace Standing

variable {frames : Bool} {b other : Builder} (hb : b.Standing frames)
include hb

theorem of_core (hcore : other.core = b.core) : other.Standing frames := by
  cases hb with
  | bare hb => exact .bare (hb.of_core hcore)
  | headless hb => exact .headless (hb.of_core hcore)
  | headed hb => exact .headed (hb.of_core hcore)
  | whole hb =>
      obtain ⟨root, parts, hsupplied, hcount⟩ := hb
      exact .whole ⟨root, parts, hsupplied.of_core hcore, hcount⟩

section Read

variable {read : Option Token} (hread : ∀ token ∈ read, token.Opens frames)
include hread

theorem move (hmove : Move read b other) : other.Standing frames := by
  cases hb with
  | bare hb => exact (hb.move hmove).elim .bare fun ⟨_, hnext⟩ => .headless hnext
  | headless hb => exact (hb.move hmove).elim .headless fun ⟨_, hnext⟩ => .headed hnext
  | headed hb => exact (hb.move hread hmove).elim .headed .whole
  | whole hb =>
      obtain ⟨root, parts, hsupplied, hcount⟩ := hb
      exact .whole ⟨root, parts, hsupplied.move hread hcount hmove, hcount⟩

theorem opensRaw (hopens : OpensRaw read b other) : other.Standing frames := by
  have hopen : b.mode.takesElements = true := by
    cases hopens with
    | openRaw hmode _ _ _ => exact hmode
    | startIntoHead hmode _ _ =>
        rw [hmode]
        rfl
  cases hb with
  | bare hb =>
      rcases hb.mode with hmode | hmode
      all_goals rw [hmode] at hopen; cases hopen
  | headless hb =>
      rw [hb.mode] at hopen
      cases hopen
  | headed hb => exact .headed (hb.opensRaw hread hopens)
  | whole hb =>
      obtain ⟨root, parts, hsupplied, hcount⟩ := hb
      exact .whole ⟨root, parts, hsupplied.opensRaw hread hopens, hcount⟩

/-- Whatever a token is replied with, the document stands. -/
theorem reply {reply : Reply} (hreply : Replies read b reply) : reply.1.Standing frames :=
  hreply.preserves hb (fun hb hmove => hb.move hread hmove)
    (fun hb hopens => hb.opensRaw hread hopens) fun hb hcore => hb.of_core hcore

end Read

end Standing

end Builder

end Winnow.Html
