import Winnow.Proofs.Document.Tree
import Winnow.Proofs.Fault
import Winnow.Proofs.Html.Lexer.Rest
import Winnow.Proofs.Html.Rooted.Beginning

/-!
# The root of a whole document

A document is begun without a root and gets one, which is then there to stay, as are the parts in
it that every document has. What is missing at the end of the input is supplied there. So in the
end the elements of the document are the root and what is below it, and the parts are all there.
-/

namespace Winnow.Html

namespace Builder

/-! ## Runs -/

namespace Standing

variable {frames : Bool} {b : Builder} (hb : b.Standing frames)
include hb

theorem takeAll {tokens : List Token} (htokens : ∀ token ∈ tokens, token.Opens frames) :
    (b.takeAll tokens).Standing frames := by
  refine takeAll_preserves (fun hmem hb hreply => hb.reply ?_ hreply) hb
  rintro token ⟨⟩
  exact htokens _ hmem

theorem resetRequest : Standing frames { b with request := none } := by
  cases hb with
  | bare hb => exact .bare { hb with }
  | headless hb => exact .headless ⟨hb.toRooted.of_frame rfl, hb.listed, hb.mode, hb.opened⟩
  | headed hb =>
      exact .headed (hb.of_same (hb.toRooted.of_frame rfl) hb.listed rfl (fun _ _ => rfl) rfl rfl
        rfl)
  | whole hb =>
      obtain ⟨root, parts, hsupplied, hcount⟩ := hb
      exact .whole ⟨root, parts, hsupplied.of_frame rfl rfl rfl, hcount⟩

end Standing

/-! ## The end of the input -/

/-- All parts are there, or a fault was met. -/
def Complete (frames : Bool) (b : Builder) : Prop := b.fault.isSome = true ∨ b.Whole frames

section Finish

variable {frames : Bool} {b : Builder}

/-- Where the end of the input is taken once more it is up to the next mode. -/
theorem complete_of_again {next : Builder} {fuel : Nat} (hagain : b.finishInMode = next.again)
    (hnext : (next.finishIn fuel).Complete frames) :
    (b.finishIn (fuel + 1)).Complete frames := by
  unfold Builder.finishIn
  rw [hagain]
  dsimp only [again]
  cases hfault : next.fault with
  | none => exact hnext
  | some fault => exact Or.inl (by simp [hfault])

theorem Whole.finishIn (hb : b.Whole frames) (fuel : Nat) : (b.finishIn fuel).Complete frames := by
  obtain ⟨root, parts, hsupplied, hcount⟩ := hb
  refine Or.inr ⟨root, parts, finishIn_preserves (fun hb hmove => ?_) hsupplied fuel, hcount⟩
  exact hb.move (fun _ hnone => by cases hnone) hcount hmove

namespace Headed

variable {root first : Handle} (hb : b.Headed root first) (fuel : Nat)
include hb

theorem finishIn_afterHead (hmode : b.mode = .afterHead) :
    (b.finishIn (fuel + 1)).Complete frames := by
  have hagain : b.finishInMode = b.openBody.again := by rw [Builder.finishInMode, hmode]
  exact complete_of_again hagain ((hb.openBody hmode).finishIn fuel)

theorem finishIn_head (hmode : b.mode = .head) : (b.finishIn (fuel + 2)).Complete frames := by
  have hagain : b.finishInMode = b.leaveHead.again := by rw [Builder.finishInMode, hmode]
  exact complete_of_again hagain ((hb.leaveHead hmode).finishIn_afterHead fuel rfl)

theorem finishIn_headNoscript (hmode : b.mode = .headNoscript) :
    (b.finishIn (fuel + 3)).Complete frames := by
  have hagain : b.finishInMode = (b.pop.goto .head).again := by rw [Builder.finishInMode, hmode]
  exact complete_of_again hagain ((hb.leaveNoscript hmode).finishIn_head fuel rfl)

/-- Raw text in the head is left for the mode around it, which is one of the others. -/
theorem finishIn_text (hmode : b.mode = .text) : (b.finishIn (fuel + 4)).Complete frames := by
  have hagain : b.finishInMode = (b.pop.goto b.textReturn).again := by
    rw [Builder.finishInMode, hmode]
  have hleft := hb.leaveText hmode
  refine complete_of_again hagain ?_
  rcases hleft.modes with hnext | hnext | hnext | hnext
  · exact hleft.finishIn_head (fuel + 1) hnext
  · exact hleft.finishIn_headNoscript fuel hnext
  · exact hleft.finishIn_afterHead (fuel + 2) hnext
  · exact absurd hnext (hb.textReturn_ne_text hmode)

theorem finishIn : (b.finishIn (fuel + 4)).Complete frames := by
  rcases hb.modes with hmode | hmode | hmode | hmode
  · exact hb.finishIn_head (fuel + 2) hmode
  · exact hb.finishIn_headNoscript (fuel + 1) hmode
  · exact hb.finishIn_afterHead (fuel + 3) hmode
  · exact hb.finishIn_text fuel hmode

end Headed

theorem Headless.finishIn {root : Handle} (hb : b.Headless root) (fuel : Nat) :
    (b.finishIn (fuel + 5)).Complete frames := by
  have hagain : b.finishInMode = (b.openHead { name := "head" }).again := by
    rw [Builder.finishInMode, hb.mode]
  exact complete_of_again hagain ((hb.openHead rfl).finishIn fuel)

theorem Bare.finishIn_beforeHtml (hb : b.Bare) (hmode : b.mode = .beforeHtml) (fuel : Nat) :
    (b.finishIn (fuel + 6)).Complete frames := by
  have hagain : b.finishInMode = b.openRoot.again := by rw [Builder.finishInMode, hmode]
  exact complete_of_again hagain (hb.openRoot.finishIn fuel)

theorem Bare.finishIn (hb : b.Bare) (fuel : Nat) : (b.finishIn (fuel + 7)).Complete frames := by
  rcases hb.mode with hmode | hmode
  · have hagain : b.finishInMode = again { b with oldRules := true, mode := .beforeHtml } := by
      rw [Builder.finishInMode, hmode]
    exact complete_of_again hagain ((hb.goto_beforeHtml true).finishIn_beforeHtml rfl fuel)
  · exact hb.finishIn_beforeHtml hmode (fuel + 1)

/-- At the end of the input what is missing is supplied. -/
theorem Standing.finish (hb : b.Standing frames) : b.finish.Complete frames := by
  cases hb with
  | bare hb => exact hb.finishIn 9
  | headless hb => exact hb.finishIn 11
  | headed hb => exact hb.finishIn 12
  | whole hb => exact hb.finishIn 16

end Finish

theorem standing_empty (frames : Bool) : Builder.empty.Standing frames := by
  have hlabel : Builder.empty.store.label 0 = .document := by
    rw [Builder.empty, Store.label_add]
    rfl
  have hchildren : ∀ handle, Builder.empty.store.children handle = [] := by
    intro handle
    rw [Builder.empty, Store.children_add]
    simp [Store.children, Store.cell?]
  refine .bare ⟨⟨?_, ?_, ?_, ?_, ?_⟩, ?_, rfl, rfl, rfl, rfl, rfl, Or.inl rfl⟩
  · rw [hlabel]
    rfl
  · exact fun root hmem => by cases hmem
  · rw [hchildren]
    exact fun child hmem => by cases hmem
  · rw [hchildren]
    exact List.Sublist.refl _
  · exact fun handle hne => absurd (hchildren handle) hne
  · intro parent child hmem
    rw [hchildren] at hmem
    cases hmem

end Builder

/-- Every start tag that is read opens an element, and one of a frame set only where the input
mentions one. -/
theorem Lexer.opens_of_step {lexer next : Lexer} {tokens : List Token} {foreign frames : Bool}
    (hok : lexer.step foreign = .ok (tokens, next))
    (hinput : MentionsFrames lexer.input → frames = true) :
    ∀ token ∈ tokens, token.Opens frames := by
  intro token hmem
  have hyields := Lexer.yields_of_step hok token hmem
  cases token with
  | startTag tag =>
      obtain ⟨c, cs, hname, hletter, -⟩ := hyields.1.named.1
      refine ⟨?_, fun hframes => hinput (Lexer.mentionsFrames_of_step hok hmem hframes)⟩
      change Label.isElement { tag := tag.name } = true
      rw [Label.isElement, hname]
      have hne : c ≠ '#' := by
        rintro rfl
        revert hletter
        decide
      simp [hne]
  | _ => trivial

theorem complete_of_construct {lexer : Lexer} {b result : Builder} {frames : Bool} (fuel : Nat)
    (hb : b.Standing frames) (hinput : MentionsFrames lexer.input → frames = true)
    (hok : construct lexer b fuel = .ok result) : result.Complete frames := by
  induction fuel generalizing lexer b with
  | zero =>
      cases hok
      exact hb.finish
  | succ fuel ih =>
      unfold construct at hok
      split at hok
      next =>
        cases hok
        exact hb.finish
      next =>
        split at hok
        next => cases hok
        next tokens next hstep =>
          have htaken := hb.takeAll (Lexer.opens_of_step hstep hinput)
          dsimp only at hok
          split at hok
          next hfault =>
            cases hok
            exact Or.inl hfault
          next =>
            -- The rest is an end of the input, so a frame set mentioned in it is mentioned there.
            have hsuffix := Lexer.suffix_of_step hstep
            refine ih htaken.resetRequest (fun hrest => hinput ?_) hok
            exact MentionsFrames.of_suffix hrest hsuffix

/-- A document that is read has its parts, all of them unless the text mentions frame sets. -/
theorem exists_whole_of_parse {text : String} {tree : Tree} {frames : Bool}
    (hok : parse text = .ok tree) (htext : MentionsFrames text.toList → frames = true) :
    ∃ b : Builder, b.Whole frames ∧ tree = b.store.toTree 0 := by
  obtain ⟨b, hconstruct, hresult⟩ := Fault.exists_of_bind_eq_ok hok
  have hinput : MentionsFrames (Lexer.ofString text true).input → frames = true :=
    fun hunified => htext (mentionsFrames_of_unifyLineEnds hunified)
  split at hresult
  next => cases hresult
  next hfault =>
    cases hresult
    refine ⟨b, ?_, rfl⟩
    have hcomplete :=
      complete_of_construct _ (Builder.standing_empty frames) hinput hconstruct
    exact hcomplete.resolve_left (by simp [hfault])

/-- In a document that is read all elements are the root element and what is below it. -/
theorem elements_of_parse {text : String} {tree : Tree} (hok : parse text = .ok tree) :
    tree.label.tag = "#document" ∧
      tree.elements = (tree.rootElement?.map Tree.elements).getD [] := by
  obtain ⟨b, ⟨root, parts, hsupplied, -⟩, rfl⟩ :=
    exists_whole_of_parse hok fun _ => (rfl : true = true)
  exact ⟨hsupplied.grounded.tag_toTree, hsupplied.grounded.elements_toTree (Nat.le_refl 1)⟩

end Winnow.Html
