import Winnow.Proofs.Html.Source.Builder
import Winnow.Screen.Fragment

/-!
# Nodes of a fragment

A fragment is read with the tags of unknown elements left out, which adds nothing to what the
lexer yields.
-/

namespace Winnow.Screen

open Html

namespace Sieve

variable {source : Source} (sieve : Sieve)

theorem name_repair (tag : Tag) : (sieve.repair tag).name = tag.name := by
  unfold repair
  split
  · rfl
  · rfl

theorem mem_attributes_of_repair {tag : Tag} {entry : String × String}
    (hmem : entry ∈ (sieve.repair tag).attributes) : entry ∈ tag.attributes := by
  unfold repair at hmem
  split at hmem
  next => exact List.mem_of_mem_filter hmem
  next => exact hmem

variable (lexer : Lexer) {token : Token}

theorem yields_take (hyields : source.Yields False token) :
    source.Yields False (sieve.take lexer token).2 := by
  cases token with
  | startTag tag =>
      unfold take
      dsimp only
      split
      · refine ⟨⟨?_, fun entry hmem => ?_⟩, fun h => h.elim⟩
        · rw [name_repair]
          exact hyields.1.named
        · exact hyields.1.pairs entry (sieve.mem_attributes_of_repair hmem)
      · trivial
  | comment data =>
      unfold take
      dsimp only
      split
      · trivial
      · exact hyields
  | endTag name =>
      unfold take
      dsimp only
      split
      · trivial
      · trivial
  | text data => trivial
  | space data => trivial
  | doctype declaration => trivial
  | problem problem => trivial

theorem asks_of_take (hasks : (sieve.take lexer token).2.Asks) : token.Asks := by
  cases token with
  | startTag tag =>
      unfold take at hasks
      dsimp only at hasks
      split at hasks
      next =>
        change (sieve.repair tag).name ∈ textTags at hasks
        rwa [name_repair] at hasks
      next => exact hasks.elim
  | comment data =>
      unfold take at hasks
      dsimp only at hasks
      split at hasks
      next => exact hasks.elim
      next => exact hasks.elim
  | endTag name =>
      unfold take at hasks
      dsimp only at hasks
      split at hasks
      next => exact hasks.elim
      next => exact hasks.elim
  | text data => exact hasks
  | space data => exact hasks
  | doctype declaration => exact hasks
  | problem problem => exact hasks

/-- Every token that is taken is what one that was read has become. -/
theorem exists_of_mem_takeAll {tokens : List Token} :
    ∀ taken ∈ (sieve.takeAll lexer tokens).2,
      ∃ before : Sieve, ∃ token ∈ tokens, taken = (before.take lexer token).2 := by
  induction tokens generalizing sieve with
  | nil => exact fun taken hmem => by cases hmem
  | cons token rest ih =>
      intro taken hmem
      rcases List.mem_cons.mp hmem with rfl | hrest
      · exact ⟨sieve, token, List.mem_cons_self, rfl⟩
      · obtain ⟨before, token, htoken, htaken⟩ := ih _ taken hrest
        exact ⟨before, token, List.mem_cons_of_mem _ htoken, htaken⟩

theorem yields_finish : ∀ token ∈ sieve.finish lexer, source.Yields False token := by
  unfold finish
  intro token hmem
  split at hmem
  next =>
    cases List.mem_singleton.mp hmem
    trivial
  next => cases hmem

end Sieve

variable {source : Source} {p : Lexer → Prop} (hsteady : source.Steady p)
include hsteady

theorem gives_of_buildFragment {sieve : Sieve} {lexer : Lexer} {b result : Builder} (fuel : Nat)
    (hlexer : p lexer) (hb : b.Within source True)
    (hok : buildFragment sieve lexer b fuel = .ok result) (handle : Handle) :
    source.Gives (result.label handle) := by
  have hfinished : ∀ (sieve : Sieve) (lexer : Lexer) {b : Builder}, b.Within source True →
      source.Gives ((b.takeAll (sieve.finish lexer)).finish.label handle) := by
    intro sieve lexer b hb
    have hfree : b.Within source False := ⟨hb.1, fun h => h.elim, hb.2.2⟩
    exact (hfree.takeAll (sieve.yields_finish lexer)).finish.1 handle
  induction fuel generalizing sieve lexer b with
  | zero =>
      cases hok
      exact hfinished sieve lexer hb
  | succ fuel ih =>
      unfold buildFragment at hok
      split at hok
      next =>
        cases hok
        exact hfinished sieve lexer hb
      next =>
        split at hok
        next => cases hok
        next tokens next hstep =>
          have hyields := hsteady.yields hlexer hstep
          have hsieved : ∀ taken ∈ (sieve.takeAll next tokens).2, source.Yields False taken := by
            intro taken hmem
            obtain ⟨before, token, htoken, rfl⟩ := sieve.exists_of_mem_takeAll next taken hmem
            exact before.yields_take next (hyields token htoken)
          have hasked : ∀ taken ∈ (sieve.takeAll next tokens).2, taken.Asks →
              ∃ token ∈ tokens, token.Asks := by
            intro taken hmem hasks
            obtain ⟨before, token, htoken, rfl⟩ := sieve.exists_of_mem_takeAll next taken hmem
            exact ⟨token, htoken, before.asks_of_take next hasks⟩
          have htaken := hb.next hsteady hlexer hstep hsieved hasked
          have hreset : Builder.Within source True
              { b.takeAll (sieve.takeAll next tokens).2 with request := none } :=
            ⟨htaken.1.1, fun _ => rfl, htaken.1.2.2⟩
          exact ih htaken.2 hreset hok

omit hsteady in
theorem within_emptyFragment (hexpands : source.expands) :
    Builder.emptyFragment.Within source True :=
  ⟨within_empty.openRoot.1, fun _ => rfl, fun _ => hexpands⟩

/-- The nodes of a fragment come from what is read of its text. -/
theorem all_gives_of_parseFragment {tags : List String} {text : List Char} {trees : List Tree}
    (hexpands : source.expands) (hlexer : p (Lexer.ofString (String.ofList text) false))
    (hok : parseFragment tags text = .ok trees) : ∀ tree ∈ trees, tree.All source.Gives := by
  obtain ⟨b, hbuilt, hresult⟩ := Fault.exists_of_bind_eq_ok hok
  cases hresult
  intro tree hmem
  obtain ⟨handle, -, rfl⟩ := List.mem_map.mp hmem
  exact Store.all_treeAt
    (gives_of_buildFragment hsteady _ hlexer (within_emptyFragment hexpands) hbuilt) _ _

end Winnow.Screen
