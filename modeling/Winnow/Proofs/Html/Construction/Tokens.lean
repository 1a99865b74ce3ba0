import Winnow.Html.Construction
import Winnow.Proofs.Html.Construction.Opening

/-!
# The moves at every token

Every token is replied to with moves, and so is the end of the input. What every move keeps is
therefore kept by any number of tokens.
-/

namespace Winnow.Html.Builder

variable {read : Option Token} {start b : Builder}

/-! ## Text, comments and declarations -/

namespace Moves

variable (hb : Moves read start b)
include hb

theorem textInBody (hmode : b.mode.takesContent = true) (text : String) :
    Moves read start (b.textInBody text) :=
  hb.edits hmode (Edits.refl.textInBody text)

theorem addText (hmode : b.mode.hasRoot = true) (text : String) :
    Moves read start (b.addText text) :=
  hb.step (.addText (Or.inl hmode) text)

theorem startTableText (hmode : b.mode ∈ [.table, .tableBody, .row]) (text : String) :
    Moves read start (b.startTableText text) := by
  have hstarted := hb.proceeds (.startTableText hmode)
  unfold Builder.startTableText
  dsimp only
  split
  · exact hstarted
  · exact hstarted.step (.flags rfl)

theorem textInSelect (hmode : b.mode.hasRoot = true) (text : String) :
    Moves read start (b.textInSelect text) := by
  unfold Builder.textInSelect
  split
  · exact hb
  · exact hb.addText hmode text

theorem takeText (text : String) : Moves read start (b.takeText text).1 := by
  unfold Builder.takeText
  cases hmode : b.mode with
  | initial => exact hb.begins (.declare hmode true)
  | beforeHtml => exact hb.begins (.openRoot hmode)
  | beforeHead => exact hb.openHead hmode
  | head => exact hb.begins (.leaveHead hmode)
  | headNoscript => exact hb.begins (.leaveNoscript hmode)
  | afterHead => exact hb.openBody hmode
  | body => exact hb.textInBody (by rw [hmode]; rfl) text
  | text => exact hb.addText (by rw [hmode]; rfl) text
  | table => exact hb.startTableText (by rw [hmode]; decide) text
  | tableText =>
      dsimp only [done]
      split
      · exact hb
      · exact hb.step (.flags rfl)
  | caption => exact hb.textInBody (by rw [hmode]; rfl) text
  | columnGroup => exact hb.leaveColumnGroup hmode
  | tableBody => exact hb.startTableText (by rw [hmode]; decide) text
  | row => exact hb.startTableText (by rw [hmode]; decide) text
  | cell => exact hb.textInBody (by rw [hmode]; rfl) text
  | select => exact hb.textInSelect (by rw [hmode]; rfl) text
  | selectInTable => exact hb.textInSelect (by rw [hmode]; rfl) text
  | afterBody => exact hb.proceeds (.reenter (by rw [hmode]; decide))
  | frameset => exact hb
  | afterFrameset => exact hb
  | afterAfterBody => exact hb.proceeds (.reenter (by rw [hmode]; decide))
  | afterAfterFrameset => exact hb

/-- White space is put inside the formatting elements that are continued, in the body and after the
end of the document. -/
theorem spaceInBody (hmode : b.mode ∈ [.body, .afterAfterBody, .afterAfterFrameset])
    (text : String) : Moves read start (b.spaceInBody text) := by
  have hknown : ∀ mode ∈ [Mode.body, .afterAfterBody, .afterAfterFrameset],
      mode.hasRoot = true := by decide
  have hput : ∀ {b : Builder}, Moves read start b →
      b.mode ∈ [.body, .afterAfterBody, .afterAfterFrameset] → ∀ text : String,
        Moves read start (b.reconstruct.addText text) := by
    intro b hb hmode text
    have hcontinued : Moves read start b.reconstruct := by
      rcases List.mem_cons.mp hmode with hbody | hafter
      · exact hb.edits (by rw [hbody]; rfl) (Edits.refl.step .reconstruct)
      · exact hb.proceeds (.continueAfter hafter)
    have hsame : b.reconstruct.mode = b.mode := congrArg Prod.fst (modes_reconstruct b)
    exact hcontinued.addText (hsame ▸ hknown _ hmode) text
  have hkept : Moves read start { b with dropNewline := false } := hb.step (.flags rfl)
  -- White space that a dropped line end leaves empty is not put anywhere.
  have hshown : ∀ shown : String, Moves read start
      (if shown.isEmpty then { b with dropNewline := false }
        else Builder.addText (Builder.reconstruct { b with dropNewline := false }) shown) := by
    intro shown
    split
    · exact hkept
    · exact hput hkept hmode shown
  unfold Builder.spaceInBody
  dsimp only
  split
  · split
    · exact hshown _
    · exact hshown _
  · exact hput hb hmode text

theorem takeSpace (text : String) : Moves read start (b.takeSpace text) := by
  unfold Builder.takeSpace
  cases hmode : b.mode with
  | initial => exact hb
  | beforeHtml => exact hb
  | beforeHead => exact hb
  | body => exact hb.spaceInBody (by rw [hmode]; decide) text
  | table => exact hb.startTableText (by rw [hmode]; decide) text
  | tableText => exact hb.step (.flags rfl)
  | tableBody => exact hb.startTableText (by rw [hmode]; decide) text
  | row => exact hb.startTableText (by rw [hmode]; decide) text
  | afterAfterBody => exact hb.spaceInBody (by rw [hmode]; decide) text
  | afterAfterFrameset => exact hb.spaceInBody (by rw [hmode]; decide) text
  | _ => exact hb.addText (by rw [hmode]; rfl) text

theorem textInForeign (hforeign : b.inForeign = true) (text : String) :
    Moves read start (b.textInForeign text) := by
  unfold Builder.textInForeign
  split
  · exact hb.step (.addText (Or.inr hforeign) _)
  · split
    · have hkept : Moves read start b.keepBody := hb.step (.flags rfl)
      have hstill : b.keepBody.inForeign = true := hforeign
      exact hkept.step (.addText (Or.inr hstill) text)
    · exact hb.step (.addText (Or.inr hforeign) text)

theorem takeComment {data : String} (hread : read = some (.comment data)) :
    Moves read start (b.takeComment data).1 := by
  have hadded : ∀ {parent : Handle}, b.mode.hasRoot = true → parent ∈ [b.current, b.root] →
      Moves read start (b.addComment parent data) := fun hmode hparent =>
    hb.step (.addComment hread (Or.inr ⟨Or.inl hmode, hparent⟩))
  have houtside : Moves read start (b.addComment 0 data) :=
    hb.step (.addComment hread (Or.inl rfl))
  unfold Builder.takeComment
  cases hmode : b.mode with
  | initial => exact houtside
  | beforeHtml => exact houtside
  | tableText => exact hb.flushTableText hmode
  | afterBody => exact hadded (by rw [hmode]; rfl) (by simp)
  | afterAfterBody => exact houtside
  | afterAfterFrameset => exact houtside
  | _ => exact hadded (by rw [hmode]; rfl) List.mem_cons_self

theorem takeDoctype (declaration : Doctype) : Moves read start (b.takeDoctype declaration) := by
  unfold Builder.takeDoctype
  split
  next hmode => exact hb.begins (.declare hmode _)
  next => exact hb

theorem finishInMode : Moves read start b.finishInMode.1 := by
  have hexpected : b.mode ∈ [.table, .columnGroup, .tableBody, .row, .select, .selectInTable,
      .frameset] → Moves read start (b.expect (b.currentName != "html")) :=
    fun hmode => hb.proceeds (.expectInner hmode)
  unfold Builder.finishInMode
  cases hmode : b.mode with
  | initial => exact hb.begins (.declare hmode true)
  | beforeHtml => exact hb.begins (.openRoot hmode)
  | beforeHead => exact hb.openHead hmode
  | head => exact hb.begins (.leaveHead hmode)
  | headNoscript => exact hb.begins (.leaveNoscript hmode)
  | afterHead => exact hb.openBody hmode
  | text => exact hb.step (.leaveText hmode)
  | tableText => exact hb.flushTableText hmode
  | columnGroup => exact hb.leaveColumnGroup hmode
  | table => exact hexpected (by rw [hmode]; decide)
  | tableBody => exact hexpected (by rw [hmode]; decide)
  | row => exact hexpected (by rw [hmode]; decide)
  | select => exact hexpected (by rw [hmode]; decide)
  | selectInTable => exact hexpected (by rw [hmode]; decide)
  | frameset => exact hexpected (by rw [hmode]; decide)
  | _ => exact hb

end Moves

/-! ## Any token -/

/-- A token that is taken by the current mode is replied to with moves. -/
theorem replies_takeInMode (b : Builder) (token : Token) :
    Replies (some token) b (b.takeInMode token) := by
  have hb : Moves (some token) b b := .refl
  cases token with
  | text data => exact .moves (hb.takeText data)
  | space data => exact .moves (hb.takeSpace data)
  | startTag tag => exact hb.startTag rfl
  | endTag name => exact .moves (hb.endTag name)
  | comment data => exact .moves (hb.takeComment rfl)
  | doctype declaration => exact .moves (hb.takeDoctype declaration)
  | problem problem => exact .moves hb

/-- A token that is taken by the rules of foreign content is replied to with moves. -/
theorem replies_takeInForeign {b : Builder} (hforeign : b.inForeign = true) (token : Token) :
    Replies (some token) b (b.takeInForeign token) := by
  have hb : Moves (some token) b b := .refl
  cases token with
  | text data => exact .moves (hb.textInForeign hforeign data)
  | space data => exact .moves (hb.step (.addText (Or.inr hforeign) data))
  | startTag tag => exact .moves (hb.startForeign rfl hforeign)
  | endTag name => exact .moves (hb.endForeign hforeign name)
  | comment data =>
      exact .moves (hb.step (.addComment rfl (Or.inr ⟨Or.inr hforeign, List.mem_cons_self⟩)))
  | doctype declaration => exact .moves hb
  | problem problem => exact .moves hb

/-- Foreign content takes a token only where the innermost element is foreign. -/
theorem inForeign_of_takesInMode {token : Token} (htakes : b.takesInMode token = false) :
    b.inForeign = true := by
  unfold takesInMode at htakes
  unfold inForeign
  cases hstack : b.stack with
  | nil =>
      rw [hstack] at htakes
      cases htakes
  | cons handle rest =>
      rw [hstack] at htakes
      dsimp only at htakes ⊢
      rw [Bool.or_eq_false_iff] at htakes
      exact decide_eq_true (of_decide_eq_false htakes.1)

section Preserves

variable {p : Builder → Prop}

/-- What every reply to a token keeps is kept when the token is taken. -/
theorem takeIn_preserves {token : Token}
    (hreply : ∀ {b reply}, p b → Replies (some token) b reply → p reply.1) (hb : p b)
    (fuel : Nat) : p (b.takeIn token fuel) := by
  induction fuel generalizing b with
  | zero => exact hb
  | succ fuel ih =>
      have htaken : p
          (if b.takesInMode token then b.takeInMode token else b.takeInForeign token).1 := by
        split
        next => exact hreply hb (replies_takeInMode b token)
        next htakes =>
          have hforeign := inForeign_of_takesInMode (Bool.eq_false_iff.mpr htakes)
          exact hreply hb (replies_takeInForeign hforeign token)
      unfold takeIn
      generalize (if b.takesInMode token then b.takeInMode token else b.takeInForeign token) =
        reply at htaken ⊢
      dsimp only
      split
      · exact ih htaken
      · exact htaken

/-- What every reply to some tokens keeps is kept when they are all taken. -/
theorem takeAll_preserves {tokens : List Token}
    (hreply : ∀ {token b reply}, token ∈ tokens → p b → Replies (some token) b reply → p reply.1)
    (hb : p b) : p (b.takeAll tokens) := by
  induction tokens generalizing b with
  | nil => exact hb
  | cons token rest ih =>
      refine ih (fun hmem => hreply (List.mem_cons_of_mem _ hmem)) ?_
      exact takeIn_preserves (hreply List.mem_cons_self) hb _

/-- What every move keeps is kept at the end of the input. -/
theorem finishIn_preserves (hmove : ∀ {b other}, p b → Move none b other → p other) (hb : p b)
    (fuel : Nat) : p (b.finishIn fuel) := by
  induction fuel generalizing b with
  | zero => exact hb
  | succ fuel ih =>
      have hfinished : p b.finishInMode.1 := Moves.refl.finishInMode.preserves hb hmove
      unfold finishIn
      dsimp only
      split
      · exact ih hfinished
      · exact hfinished

end Preserves

end Winnow.Html.Builder
