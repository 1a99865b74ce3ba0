import Winnow.Proofs.Document.Tree
import Winnow.Proofs.Fault
import Winnow.Proofs.Html.Construction.Tokens

/-!
# Nodes of a whole document

Opening an element, adding text and moving nodes about makes no node but of what was read. So what
the tokens that a lexer yields come from, the nodes of the document come from. While all stays
quiet nobody asks for content that is read as text, so everything is read as markup.
-/

namespace Winnow.Html

/-- Does every node of a document under construction come from the source, which is one for
fragments if this is a fragment? If all is to stay quiet, no content is to be read as text
either. -/
def Builder.Within (source : Source) (quiet : Prop) (b : Builder) : Prop :=
  (∀ handle, source.Gives (b.label handle)) ∧ (quiet → b.request = none) ∧
    (b.fragment = true → source.expands)

namespace Source

variable {source : Source} {tag : Tag}

theorem mem_of_mem_setLocal {space : Namespace} {attributes : Attributes} {name value : String}
    {entry : String × Option String}
    (hmem : entry ∈ Builder.setLocal space attributes name value) :
    entry ∈ attributes ∨ entry = (name, some value) := by
  unfold Builder.setLocal at hmem
  dsimp only at hmem
  split at hmem
  next => exact (Assoc.mem_of_mem_put hmem).symm
  next => exact (Assoc.mem_of_mem_put hmem).symm.imp_left List.mem_of_mem_filter

theorem givesAttribute_of_mem_attributesOf {b : Builder}
    (hexpands : b.fragment = true → source.expands) (space : Namespace) {tag : Tag}
    (hcovers : source.Covers tag) :
    ∀ entry ∈ b.attributesOf space tag.attributes, source.GivesAttribute entry := by
  intro entry hmem
  unfold Builder.attributesOf at hmem
  split at hmem
  next hfragment =>
    obtain ⟨pair, hpair, rfl⟩ := List.mem_map.mp (Assoc.mem_of_mem_ofPairs hmem)
    refine ⟨pair.1, pair.2, hcovers.pairs pair hpair, rfl, ?_⟩
    split
    · exact Or.inl rfl
    · exact Or.inr ⟨hexpands hfragment, rfl⟩
  next =>
    have hset : ∀ (table : Attributes) (pair : String × String) (met : String × Option String),
        met ∈ Builder.setLocal space table pair.1 pair.2 →
          met ∈ table ∨ met = (pair.1, some pair.2) :=
      fun _ _ _ hmem => mem_of_mem_setLocal hmem
    obtain ⟨pair, hpair, rfl⟩ := (Assoc.mem_of_mem_foldl hset hmem).resolve_left List.not_mem_nil
    exact ⟨pair.1, pair.2, hcovers.pairs pair hpair, rfl, Or.inl rfl⟩

theorem gives_labelOf {b : Builder} (hexpands : b.fragment = true → source.expands)
    (space : Namespace) {tag : Tag} (hcovers : source.Covers tag) :
    source.Gives (b.labelOf space tag) :=
  .element hcovers.named (givesAttribute_of_mem_attributesOf hexpands space hcovers)

/-- New attributes make no difference to what else a node is. -/
theorem Gives.setAttributes {label : Label} {attributes : Attributes}
    (hgives : source.Gives label)
    (hattributes : (∀ entry ∈ label.attributes, source.GivesAttribute entry) →
      ∀ entry ∈ attributes, source.GivesAttribute entry) :
    source.Gives { label with attributes := attributes } := by
  cases hgives with
  | text htag => exact .text htag
  | document htag => exact .document htag
  | comment htag hcomment => exact .comment htag hcomment
  | element htag hold => exact .element htag (hattributes hold)

/-- Restoring the capitals of attribute names gives forms of the names that were read. -/
theorem Writes.covers_restored (hwrites : source.Writes tag) {names : List String}
    (hforms : ∀ name, Vocabulary.restoreCase names name ∈ attributeForms name) {name : String}
    (hname : source.GivesTag name) :
    source.Covers { tag with
      name := name
      attributes := Assoc.ofPairs (tag.attributes.map fun entry =>
        (Vocabulary.restoreCase names entry.1, entry.2)) } where
  named := hname
  pairs entry hmem := by
    obtain ⟨pair, hpair, rfl⟩ := List.mem_map.mp (Assoc.mem_of_mem_ofPairs hmem)
    exact Or.inr ⟨pair.1, hwrites.pairs pair hpair, hforms pair.1⟩

theorem Writes.covers_svg (hwrites : source.Writes tag) {name : String}
    (hname : source.GivesTag name) :
    source.Covers { Builder.svgAttributes tag with name := name } :=
  hwrites.covers_restored (fun name => by simp [attributeForms]) hname

theorem Writes.covers_math (hwrites : source.Writes tag) :
    source.Covers (Builder.mathAttributes tag) :=
  hwrites.covers_restored (fun name => by simp [attributeForms]) hwrites.covers.named

/-- The elements that may be opened for a token are elements of the source of the token. -/
theorem covers_of_stands {quiet : Prop} {read : Option Token}
    (hread : ∀ token ∈ read, source.Yields quiet token) (hstands : Stands read tag) :
    source.Covers tag := by
  cases hstands with
  | made hname hattributes =>
      refine ⟨.of_made hname, fun entry hmem => ?_⟩
      rcases hattributes entry hmem with rfl | ⟨tag, hown, hold⟩
      · exact Or.inl ⟨rfl, rfl⟩
      · exact (hread _ hown).1.covers.pairs entry hold
  | own hown => exact (hread _ hown).1.covers
  | math hown => exact (hread _ hown).1.covers_math
  | svg hown hname => exact (hread _ hown).1.covers_svg (Or.inr ⟨_, (hread _ hown).1.named, hname⟩)

end Source

namespace Builder.Within

variable {source : Source} {quiet : Prop} {b : Builder} (hb : b.Within source quiet)
include hb

/-! ## Placing nodes -/

theorem of_label {other : Builder} (hlabel : ∀ handle, other.label handle = b.label handle)
    (hkept : (other.request, other.fragment) = (b.request, b.fragment)) :
    other.Within source quiet := by
  obtain ⟨hrequest, hfragment⟩ := Prod.mk.inj hkept
  exact ⟨fun handle => hlabel handle ▸ hb.1 handle, hrequest ▸ hb.2.1, hfragment ▸ hb.2.2⟩

theorem of_store {other : Builder} (hstore : other.store = b.store)
    (hkept : (other.request, other.fragment) = (b.request, b.fragment)) :
    other.Within source quiet :=
  hb.of_label (fun handle => congrArg (·.label handle) hstore) hkept

theorem attach (parent child : Handle) : (b.attach parent child).Within source quiet :=
  hb.of_label (label_attach b parent child) rfl

theorem place (child : Handle) : (b.place child).Within source quiet :=
  hb.of_label (label_place b child) (by rw [place_eq])

theorem create {label : Label} (hlabel : source.Gives label) :
    (b.create label).1.Within source quiet := by
  refine ⟨fun handle => ?_, hb.2⟩
  change source.Gives ((b.store.add label).1.label handle)
  rw [Store.label_add]
  split
  · exact hlabel
  · exact hb.1 handle

theorem openLabel {label : Label} (hlabel : source.Gives label) :
    (b.openLabel label).Within source quiet :=
  (hb.create hlabel).place _

theorem openElement {tag : Tag} (htag : source.Covers tag) :
    (b.openElement tag).Within source quiet :=
  hb.openLabel (Source.gives_labelOf hb.2.2 .html htag)

theorem openVoid {tag : Tag} (htag : source.Covers tag) :
    (b.openVoid tag).Within source quiet :=
  hb.openElement htag

theorem openForeign (space : Namespace) {tag : Tag} (htag : source.Covers tag) :
    (b.openForeign space tag).Within source quiet := by
  unfold Builder.openForeign
  dsimp only
  split
  · exact hb.openLabel (Source.gives_labelOf hb.2.2 space htag)
  · exact hb.openLabel (Source.gives_labelOf hb.2.2 space htag)

/-- An element with raw content is opened only where not all has to stay quiet. -/
theorem openRaw {tag : Tag} (htag : source.Covers tag) (hquiet : quiet → tag.name ∉ textTags)
    (htext : tag.name ∈ textTags) (model : ContentModel) :
    (b.openRaw tag model).Within source quiet :=
  ⟨(hb.openElement htag).1, fun h => absurd htext (hquiet h), (hb.openElement htag).2.2⟩

theorem openRoot : b.openRoot.Within source quiet :=
  (hb.create (.element (.of_made (by decide)) (fun entry hmem => by cases hmem))).attach _ _

theorem addText (text : String) : (b.addText text).Within source quiet := by
  have hcreated := hb.create (Source.gives_ofText text)
  unfold Builder.addText
  dsimp only
  split
  · split
    · exact hcreated.of_label (fun _ => Store.label_insertBefore ..) rfl
    · exact hcreated.attach _ _
  · exact hcreated.attach _ _

theorem addComment (parent : Handle) {data : String} (hdata : source.comment data) :
    (b.addComment parent data).Within source quiet :=
  (hb.create (Source.gives_ofComment hdata)).attach _ _

theorem addMissing (handle : Handle) {tag : Tag} (htag : source.Covers tag) :
    (b.addMissing handle tag.attributes).Within source quiet := by
  refine ⟨fun other => ?_, hb.2⟩
  change source.Gives ((b.store.setAttributes handle _).label other)
  by_cases heq : other = handle ∧ other < b.store.cells.size
  · obtain ⟨rfl, hlt⟩ := heq
    rw [Store.label_setAttributes_self _ _ _ hlt]
    refine (hb.1 other).setAttributes fun hold entry hmem => ?_
    rcases List.mem_append.mp hmem with hpresent | hnew
    · exact hold entry hpresent
    · obtain ⟨pair, hpair, rfl⟩ := List.mem_map.mp hnew
      have hpair := htag.pairs pair (List.mem_of_mem_filter hpair)
      exact ⟨pair.1, pair.2, hpair, rfl, Or.inl rfl⟩
  · rw [Store.label_setAttributes_of_not _ _ _ _ heq]
    exact hb.1 other

theorem moveContent (origin target : Handle) :
    (b.moveContent origin target).Within source quiet :=
  hb.of_label (fun handle => label_moveContent b target handle origin) (by rw [moveContent_eq])

/-! ## Modes -/

theorem expect (ok : Bool) : (b.expect ok).Within source quiet := by
  unfold Builder.expect
  split
  · exact hb
  · exact hb

theorem resetFrom (handles : List Handle) : (b.resetFrom handles).Within source quiet := by
  induction handles generalizing b with
  | nil => exact hb
  | cons handle outer ih =>
      cases outer with
      | nil => exact hb.expect false
      | cons next rest =>
          unfold Builder.resetFrom
          dsimp only
          split
          · exact ih (hb.expect _)
          · split
            · exact hb.expect _
            · exact ih (hb.expect _)

theorem resetMode : b.resetMode.Within source quiet := hb.resetFrom _

/-! ## The list of formatting elements -/

theorem dropFourth (handle : Handle) : (b.dropFourth handle).Within source quiet := by
  unfold Builder.dropFourth
  dsimp only
  split
  · exact hb
  · exact hb

theorem openFormatting {tag : Tag} (htag : source.Covers tag) :
    (b.openFormatting tag).Within source quiet :=
  (hb.openElement htag).dropFourth _

theorem reopen (handles : List Handle) (copies : List (Option Handle)) :
    (b.reopen handles copies).1.Within source quiet := by
  induction handles generalizing b copies with
  | nil => exact hb
  | cons handle rest ih => exact ih (hb.openLabel (hb.1 handle)) _

theorem reconstruct : b.reconstruct.Within source quiet := hb.reopen _ _

/-! ## Ends of formatting elements -/

theorem closeNamed (tag : String) (handles : List Handle) :
    (b.closeNamed tag handles).Within source quiet := by
  induction handles with
  | nil => exact hb
  | cons handle outer ih =>
      unfold Builder.closeNamed
      dsimp only
      split
      · exact hb
      · split
        · exact hb
        · exact ih

theorem endOther (tag : String) : (b.endOther tag).Within source quiet := hb.closeNamed tag _

omit hb in
theorem climb (block : Handle) (count : Nat) (between : List Handle) {chain : Chain}
    (hchain : chain.builder.Within source quiet) :
    (climb block count between chain).builder.Within source quiet := by
  induction count generalizing between chain with
  | zero => exact hchain
  | succ count ih =>
      cases between with
      | nil => exact hchain
      | cons handle outer =>
          unfold Builder.climb
          dsimp only
          split
          · exact ih outer hchain
          · exact ih outer ((hchain.create (hchain.1 handle)).attach _ _)

theorem placeIn (parent child : Handle) : (b.placeIn parent child).Within source quiet :=
  hb.of_label (fun handle => label_placeIn b handle parent child) (by rw [placeIn_eq])

theorem splitAtBlock (element block : Handle) (inner between outer : List Handle) :
    (b.splitAtBlock element block inner between outer).Within source quiet := by
  unfold Builder.splitAtBlock
  dsimp only
  generalize hclimbed : Builder.climb block 3 between _ = chain
  have hchain : chain.builder.Within source quiet := hclimbed ▸ climb block 3 between hb
  have hplaced := hchain.placeIn (outer.headD 0) chain.node
  generalize chain.builder.placeIn (outer.headD 0) chain.node = placed at hplaced ⊢
  have hcreated := hplaced.create (hplaced.1 element)
  generalize placed.create (placed.label element) = created at hcreated ⊢
  have hmoved := (hcreated.moveContent block created.2).attach block created.2
  generalize (created.1.moveContent block created.2).attach block created.2 = moved at hmoved ⊢
  exact hmoved.of_store rfl rfl

theorem endFormattingIn (tag : String) (rounds : Nat) :
    (b.endFormattingIn tag rounds).Within source quiet := by
  induction rounds generalizing b with
  | zero => exact hb
  | succ rounds ih =>
      unfold Builder.endFormattingIn
      dsimp only
      split
      · exact hb.endOther tag
      · split
        · exact hb
        · split
          · exact hb.endOther tag
          · split
            · exact hb
            · exact ih (hb.splitAtBlock _ _ _ _ _)

theorem endFormatting (tag : String) : (b.endFormatting tag).Within source quiet :=
  hb.endFormattingIn tag 8

/-! ## Moves -/

theorem endFrameset : b.endFrameset.Within source quiet := by
  unfold Builder.endFrameset
  dsimp only
  split
  · split
    · exact hb.of_store rfl rfl
    · exact hb.of_store rfl rfl
  · split
    · exact hb.of_store rfl rfl
    · exact hb.of_store rfl rfl

theorem flushTableText : b.flushTableText.Within source quiet := by
  unfold Builder.flushTableText
  dsimp only
  split
  · have hfostering : Builder.Within source quiet
        { b with tableTexts := [], mode := b.tableReturn, fosters := true } :=
      hb.of_store rfl rfl
    exact (hfostering.reconstruct.addText _).of_store rfl rfl
  · split
    · exact hb.of_store rfl rfl
    · have hreturned : Builder.Within source quiet
          { b with tableTexts := [], mode := b.tableReturn } := hb.of_store rfl rfl
      exact hreturned.addText _

theorem of_core {other : Builder} (hcore : other.core = b.core) : other.Within source quiet := by
  simp only [core, frame, Prod.mk.injEq] at hcore
  exact hb.of_store hcore.1.1 (Prod.ext hcore.2.2.2.1 hcore.2.2.1)

section Read

variable {read : Option Token} {other : Builder}
  (hread : ∀ token ∈ read, source.Yields quiet token)
include hread

theorem edit (hedit : Edit read b other) : other.Within source quiet := by
  have hcovers : ∀ {tag : Tag}, Stands read tag → source.Covers tag :=
    fun hstands => Source.covers_of_stands hread hstands
  cases hedit with
  | flags hcore => exact hb.of_core hcore
  | addText text => exact hb.addText text
  | addMissing handle htag => exact hb.addMissing handle (hcovers htag)
  | openElement htag _ => exact hb.openElement (hcovers htag)
  | openVoid htag => exact hb.openVoid (hcovers htag)
  | openForm htag _ => exact (hb.openElement (hcovers htag)).of_store rfl rfl
  | openForeign space htag _ => exact hb.openForeign space (hcovers htag)
  -- While all is quiet no tag with raw content is read.
  | ask hown htext model => exact ⟨hb.1, fun h => absurd htext ((hread _ hown).2 h), hb.2.2⟩
  | pop _ => exact hb.of_store rfl rfl
  | popImplied except => exact hb.of_store rfl rfl
  | popThrough _ _ _ _ _ => exact hb.of_store rfl rfl
  | dropForm => exact hb.of_store rfl rfl
  | closeForm _ => exact hb.of_store rfl rfl
  | mark => exact hb.of_store rfl rfl
  | clearToMarker => exact hb.of_store rfl rfl
  | openFormatting htag _ => exact hb.openFormatting (hcovers htag)
  | reconstruct => exact hb.reconstruct
  | endFormatting _ => exact hb.endFormatting _
  | endAnchor _ => exact (hb.endFormatting "a").of_store rfl rfl
  | endOther _ _ => exact hb.endOther _

theorem edits (hedits : Edits read b other) : other.Within source quiet :=
  hedits.preserves hb fun hb hedit => hb.edit hread hedit

theorem begins (hmove : Begins read b other) : other.Within source quiet := by
  have hopened : ∀ {tag : Tag}, Stands read tag → (b.openElement tag).Within source quiet :=
    fun hstands => hb.openElement (Source.covers_of_stands hread hstands)
  cases hmove with
  | declare _ _ => exact hb.of_store rfl rfl
  | openRoot _ => exact hb.openRoot
  | openHead _ htag _ => exact (hopened htag).of_store rfl rfl
  | leaveHead _ => exact hb.of_store rfl rfl
  | openNoscript _ htag _ => exact (hopened htag).of_store rfl rfl
  | leaveNoscript _ => exact hb.of_store rfl rfl
  | openBody _ htag _ => exact (hopened htag).of_store rfl rfl
  | openFrames _ hown _ => exact (hopened (.own hown)).of_store rfl rfl

theorem proceeds (hmove : Proceeds read b other) : other.Within source quiet := by
  have hopened : ∀ {tag : Tag}, Stands read tag → (b.openElement tag).Within source quiet :=
    fun hstands => hb.openElement (Source.covers_of_stands hread hstands)
  cases hmove with
  | edit _ hedit => exact hb.edit hread hedit
  | continueAfter _ => exact hb.reconstruct
  | openBlock _ htag _ _ => exact (hopened htag).of_store rfl rfl
  | @closeBlock tag _ _ _ =>
      have hclosed : (b.popThrough [tag]).Within source quiet := hb.of_store rfl rfl
      exact hclosed.resetMode
  | clear _ => exact hb.of_store rfl rfl
  | openPart _ _ htag _ _ => exact (hopened htag).of_store rfl rfl
  | closePart _ _ _ => exact hb.of_store rfl rfl
  | closeColumns _ _ => exact hb.of_store rfl rfl
  | closeSection _ _ _ => exact hb.of_store rfl rfl
  | openOption _ htag _ => exact hopened htag
  | closeOption _ _ => exact hb.of_store rfl rfl
  | startTableText _ => exact hb.of_store rfl rfl
  | endTableText _ hedits =>
      have hreturned : Builder.Within source quiet
          { b with tableTexts := [], mode := b.tableReturn } := hb.of_store rfl rfl
      exact hreturned.edits hread hedits
  | endBody _ => exact hb.of_store rfl rfl
  | endDocument _ => exact hb.of_store rfl rfl
  | reenter _ => exact hb.of_store rfl rfl
  | @replaceBody _ body _ _ tag hown _ =>
      have hdetached : Builder.Within source quiet { b with store := b.store.detach body } :=
        hb.of_label (fun _ => Store.label_detach ..) rfl
      have hclosed : Builder.Within source quiet
          (Builder.popTo { b with store := b.store.detach body } ["html"]) :=
        hdetached.of_store rfl rfl
      exact (hclosed.openElement (hread _ hown).1.covers).of_store rfl rfl
  | openFrameset _ htag _ => exact hopened htag
  | closeFrameset _ => exact hb.endFrameset
  | endFrames _ => exact hb.of_store rfl rfl
  | missBody _ _ => exact hb.expect false
  | missHolder _ _ => exact hb.expect false
  | expectInner _ => exact hb.expect _

theorem move (hmove : Move read b other) : other.Within source quiet := by
  have hcovers : ∀ {tag : Tag}, Stands read tag → source.Covers tag :=
    fun hstands => Source.covers_of_stands hread hstands
  cases hmove with
  | flags hcore => exact hb.of_core hcore
  | addText _ text => exact hb.addText text
  | addComment hown _ => exact hb.addComment _ (hread _ hown)
  | mergeRoot _ htag => exact hb.addMissing _ (hcovers htag)
  | openVoid _ htag => exact hb.openVoid (hcovers htag)
  | missEnd _ _ => exact hb.expect false
  | leaveText _ => exact hb.of_store rfl rfl
  | begins hmove => exact hb.begins hread hmove
  | proceeds hmove => exact hb.proceeds hread hmove
  | wanders hforeign hmove =>
      cases hmove with
      | openForeign space htag => exact hb.openForeign space (hcovers htag)
      | leaveForeign => exact hb.of_store rfl rfl
      | closeForeign _ _ hflushed =>
          subst hflushed
          split
          · exact hb.flushTableText.of_store rfl rfl
          · exact hb.of_store rfl rfl

theorem opensRaw (hopens : OpensRaw read b other) : other.Within source quiet := by
  cases hopens with
  | openRaw _ hown htext _ =>
      exact hb.openRaw (hread _ hown).1.covers (hread _ hown).2 htext _
  | @startIntoHead _ tag hown hname =>
      have hcovers := (hread _ hown).1.covers
      have hknown : ∀ name ∈ headNames, name ∈ headContent := by decide
      have hreopened : Builder.Within source quiet
          { b with stack := b.headElement.toList ++ b.stack } := hb.of_store rfl rfl
      have hstarted : (Builder.startInHead { b with stack := b.headElement.toList ++ b.stack }
          tag).1.Within source quiet := by
        obtain ⟨htext, model, -, heq⟩ | heq := startInHead_eq (hknown tag.name hname)
        · rw [heq]
          exact hreopened.openRaw hcovers (hread _ hown).2 htext model
        · rw [heq]
          exact hreopened.openVoid hcovers
      unfold Builder.startIntoHead
      dsimp only
      split
      · exact hstarted.of_store rfl rfl
      · exact hstarted

/-- A reply to a token makes no node but of what was read. -/
theorem reply {reply : Reply} (hreply : Replies read b reply) : reply.1.Within source quiet :=
  hreply.preserves hb (fun hb hmove => hb.move hread hmove)
    (fun hb hopens => hb.opensRaw hread hopens) fun hb hcore => hb.of_core hcore

end Read

/-! ## Tokens -/

theorem takeAll {tokens : List Token} (htokens : ∀ token ∈ tokens, source.Yields quiet token) :
    (b.takeAll tokens).Within source quiet := by
  refine takeAll_preserves (fun hmem hb hreply => hb.reply ?_ hreply) hb
  rintro token ⟨⟩
  exact htokens _ hmem

theorem finish : b.finish.Within source quiet :=
  finishIn_preserves (fun hb hmove => hb.move (fun _ hnone => by cases hnone) hmove) hb 16

end Builder.Within

/-! ## Whole texts -/

/-- Does a token ask for content that is read as text? -/
def Token.Asks : Token → Prop
  | .startTag tag => tag.name ∈ textTags
  | _ => False

/-- A token that is taken asks for nothing if it is read while all stays quiet. -/
theorem Source.Yields.of_not_asks {source : Source} {token : Token} {quiet : Prop}
    (hyields : source.Yields False token) (hasks : quiet → ¬ token.Asks) :
    source.Yields quiet token := by
  cases token with
  | startTag tag => exact ⟨hyields.1, hasks⟩
  | comment data => exact hyields
  | text data => trivial
  | space data => trivial
  | endTag name => trivial
  | doctype declaration => trivial
  | problem problem => trivial

/-- A property of lexers that steps keep while they yield what a source may say. After a tag
that asks for another content model it is kept in every model. -/
structure Source.Steady (source : Source) (p : Lexer → Prop) : Prop where
  yields : ∀ {lexer next foreign tokens}, p lexer → lexer.step foreign = .ok (tokens, next) →
    ∀ token ∈ tokens, source.Yields False token
  step : ∀ {lexer next foreign tokens}, p lexer → lexer.step foreign = .ok (tokens, next) → p next
  asked : ∀ {lexer next foreign tokens}, p lexer → lexer.step foreign = .ok (tokens, next) →
    (∃ token ∈ tokens, token.Asks) → ∀ model, p { next with model := model }

namespace Builder.Within

variable {source : Source} {b : Builder} {p : Lexer → Prop}

/-- One step of a lexer with the tokens that are taken for those it yields. -/
theorem next (hb : b.Within source True) (hsteady : source.Steady p) {lexer next : Lexer}
    {tokens taken : List Token} (hlexer : p lexer)
    (hstep : lexer.step b.inForeign = .ok (tokens, next))
    (htaken : ∀ token ∈ taken, source.Yields False token)
    (hasked : ∀ token ∈ taken, token.Asks → ∃ token ∈ tokens, token.Asks) :
    (b.takeAll taken).Within source False ∧
      p { next with model := (b.takeAll taken).request.getD next.model } := by
  by_cases hasks : ∃ token ∈ tokens, token.Asks
  · have hfree : b.Within source False := ⟨hb.1, fun h => h.elim, hb.2.2⟩
    exact ⟨hfree.takeAll htaken, hsteady.asked hlexer hstep hasks _⟩
  · -- Nobody asks, so the content model stays as the lexer left it.
    have hquiet := hb.takeAll fun token hmem =>
      (htaken token hmem).of_not_asks fun _ h => hasks (hasked token hmem h)
    refine ⟨⟨hquiet.1, fun h => h.elim, hquiet.2.2⟩, ?_⟩
    rw [hquiet.2.1 trivial]
    exact hsteady.step hlexer hstep

end Builder.Within

section Texts

variable {source : Source} {p : Lexer → Prop} (hsteady : source.Steady p)
include hsteady

theorem gives_of_construct {lexer : Lexer} {b result : Builder} (fuel : Nat) (hlexer : p lexer)
    (hb : b.Within source True) (hok : construct lexer b fuel = .ok result) (handle : Handle) :
    source.Gives (result.label handle) := by
  induction fuel generalizing lexer b with
  | zero =>
      cases hok
      exact hb.finish.1 handle
  | succ fuel ih =>
      unfold construct at hok
      split at hok
      next =>
        cases hok
        exact hb.finish.1 handle
      next =>
        split at hok
        next => cases hok
        next tokens next hstep =>
          obtain ⟨htaken, hnext⟩ := hb.next hsteady hlexer hstep
            (hsteady.yields hlexer hstep) fun token hmem hasks => ⟨token, hmem, hasks⟩
          dsimp only at hok
          split at hok
          next =>
            cases hok
            exact htaken.1 handle
          next =>
            have hreset : Builder.Within source True
                { b.takeAll tokens with request := none } :=
              ⟨htaken.1, fun _ => rfl, htaken.2.2⟩
            exact ih hnext hreset hok

omit hsteady in
theorem within_empty : Builder.empty.Within source True := by
  refine ⟨fun handle => ?_, fun _ => rfl, fun h => by cases h⟩
  change source.Gives ((Store.add {} .document).1.label handle)
  rw [Store.label_add]
  split
  · exact .document rfl
  · exact Source.gives_ofText ""

/-- The nodes of a document come from what is read of its text. -/
theorem all_gives_of_parse {text : String} {tree : Tree} (hlexer : p (Lexer.ofString text true))
    (hok : parse text = .ok tree) : tree.All source.Gives := by
  obtain ⟨b, hconstruct, hresult⟩ := Fault.exists_of_bind_eq_ok hok
  split at hresult
  next => cases hresult
  next =>
    cases hresult
    exact Store.all_treeAt (gives_of_construct hsteady _ hlexer within_empty hconstruct) _ _

end Texts

end Winnow.Html
