import Winnow.Proofs.Config
import Winnow.Proofs.Enforcement.Answers
import Winnow.Proofs.Passes

/-!
# The pass that changes nothing

Passes are repeated until one changes nothing, which is the first to do so, or until there have
been as many as the ceiling admits. The ceiling is at least one, whatever is asked for, so that
what comes out has been through a pass. Where the passes come to rest, a higher ceiling makes no
difference.
-/

namespace Winnow

namespace Policy

variable {policy : Policy} {html text : String} {count ceiling : Nat}

/-- The first number of passes of which the last changes nothing, and the text it leaves. -/
structure SettlesAt (policy : Policy) (html : String) (count : Nat) (text : String) : Prop where
  pos : 1 ≤ count
  reached : policy.afterPasses (count - 1) html = .ok text
  rest : policy.afterPasses count html = .ok text
  first : ∀ fewer, 1 ≤ fewer → fewer < count →
    policy.afterPasses fewer html ≠ policy.afterPasses (fewer - 1) html

theorem afterPasses_succ {pass : Pass} (hpass : policy.pass html = .ok pass) (more : Nat) :
    policy.afterPasses (more + 1) html = policy.afterPasses more pass.output := by
  rw [afterPasses, hpass, Fault.ok_bind]

theorem exists_pass_of_afterPasses (hok : policy.afterPasses 1 html = .ok text) :
    ∃ pass, policy.pass html = .ok pass ∧ pass.output = text := by
  obtain ⟨pass, hpass, hresult⟩ := Fault.exists_of_bind_eq_ok hok
  cases hresult
  exact ⟨pass, hpass, rfl⟩

namespace SettlesAt

/-- A first pass that changes nothing is where the passes settle. -/
theorem of_fixed {pass : Pass} (hpass : policy.pass html = .ok pass) (hstop : pass.output = html) :
    policy.SettlesAt html 1 html where
  pos := Nat.le_refl 1
  reached := rfl
  rest := by rw [afterPasses_one hpass, hstop]
  first fewer hpos hlt := absurd hlt (Nat.not_lt.mpr hpos)

/-- After a first pass that changes something the same number of passes is one less. -/
theorem succ_iff {pass : Pass} (hpass : policy.pass html = .ok pass) (hne : pass.output ≠ html) :
    policy.SettlesAt html (count + 1) text ↔ policy.SettlesAt pass.output count text := by
  constructor
  · intro hsettles
    have hreached := hsettles.reached
    have hpos : count ≠ 0 := by
      rintro rfl
      have hrest := hsettles.rest
      rw [afterPasses_one hpass] at hrest
      rw [← Except.ok.inj hrest] at hreached
      exact hne (Except.ok.inj hreached).symm
    obtain ⟨more, rfl⟩ := Nat.exists_eq_succ_of_ne_zero hpos
    rw [Nat.add_sub_cancel, afterPasses_succ hpass] at hreached
    refine ⟨Nat.succ_pos more, hreached, ?_, fun fewer hleast hlt => ?_⟩
    · rw [← afterPasses_succ hpass]
      exact hsettles.rest
    · obtain ⟨fewer, rfl⟩ := Nat.exists_eq_succ_of_ne_zero (Nat.ne_of_gt hleast)
      have hfirst := hsettles.first (fewer + 2) (by omega) (by omega)
      rwa [afterPasses_succ hpass, Nat.add_sub_cancel (fewer + 1) 1, afterPasses_succ hpass]
        at hfirst
  · intro hsettles
    obtain ⟨more, rfl⟩ := Nat.exists_eq_succ_of_ne_zero (Nat.ne_of_gt hsettles.pos)
    refine ⟨Nat.succ_pos _, ?_, ?_, fun fewer hleast hlt => ?_⟩
    · rw [Nat.add_sub_cancel, afterPasses_succ hpass]
      exact hsettles.reached
    · rw [afterPasses_succ hpass]
      exact hsettles.rest
    · obtain ⟨fewer, rfl⟩ := Nat.exists_eq_succ_of_ne_zero (Nat.ne_of_gt hleast)
      rw [Nat.succ_eq_add_one, Nat.add_sub_cancel, afterPasses_succ hpass]
      cases fewer with
      | zero => exact fun hsame => hne (Except.ok.inj hsame)
      | succ fewer =>
          rw [afterPasses_succ hpass]
          exact hsettles.first (fewer + 1) (by omega) (by omega)

/-- The passes settle at one number only. -/
theorem unique {other : Nat} {last : String} (hsettles : policy.SettlesAt html count text)
    (hother : policy.SettlesAt html other last) : count = other := by
  rcases Nat.lt_trichotomy count other with hlt | heq | hgt
  · exact absurd (hsettles.rest.trans hsettles.reached.symm)
      (hother.first count hsettles.pos hlt)
  · exact heq
  · exact absurd (hother.rest.trans hother.reached.symm)
      (hsettles.first other hother.pos hgt)

/-- Where the passes have settled they stay. -/
theorem afterPasses (hsettles : policy.SettlesAt html count text) (hle : count - 1 ≤ ceiling) :
    policy.afterPasses ceiling html = .ok text := by
  refine afterPasses_of_rest hsettles.reached ?_ hle
  rw [Nat.sub_add_cancel hsettles.pos]
  exact hsettles.rest

/-- One more pass changes nothing. -/
theorem fixed (hsettles : policy.SettlesAt html count text) :
    ∃ pass, policy.pass text = .ok pass ∧ pass.output = text := by
  have hrest := hsettles.rest
  rw [← Nat.sub_add_cancel hsettles.pos, afterPasses_add, hsettles.reached, Fault.ok_bind] at hrest
  exact exists_pass_of_afterPasses hrest

end SettlesAt

/-- A run that ends by itself ends where the passes settle; any other run makes all the passes
that the ceiling admits, and they do not settle. -/
theorem settles_of_passes {history : History} (hok : policy.passes ceiling html = .ok history) :
    (history.settled = true → history.passes.length ≤ ceiling ∧
      policy.SettlesAt html history.passes.length (history.result html)) ∧
    (history.settled = false → history.passes.length = ceiling ∧
      ∀ count text, count ≤ ceiling → ¬ policy.SettlesAt html count text) := by
  -- The induction is on the ceiling. A pass that changes something is taken off the run, and one
  -- is taken off the number at which the passes settle, whether they do or not.
  induction ceiling generalizing html history with
  | zero =>
      cases hok
      exact ⟨fun hsettled => absurd hsettled Bool.false_ne_true,
        fun _ => ⟨rfl, fun count text hle hsettles => Nat.not_lt.mpr hle hsettles.pos⟩⟩
  | succ more ih =>
      obtain ⟨pass, hpass, hok⟩ := Fault.exists_of_bind_eq_ok hok
      split at hok
      next hstop =>
        cases hok
        refine ⟨fun _ => ⟨Nat.succ_pos more, ?_⟩, fun hsettled => by cases hsettled⟩
        change policy.SettlesAt html 1 pass.output
        rw [hstop]
        exact .of_fixed hpass hstop
      next hne =>
        obtain ⟨rest, hrest, hresult⟩ := Fault.exists_of_bind_eq_ok hok
        cases hresult
        obtain ⟨hsettled, hunsettled⟩ := ih hrest
        rw [result_cons]
        constructor
        · intro hstops
          obtain ⟨hle, hsettles⟩ := hsettled hstops
          exact ⟨Nat.succ_le_succ hle, (SettlesAt.succ_iff hpass hne).mpr hsettles⟩
        · intro hgoes
          obtain ⟨hlength, hnowhere⟩ := hunsettled hgoes
          refine ⟨congrArg (· + 1) hlength, fun count text hle hsettles => ?_⟩
          obtain ⟨count, rfl⟩ := Nat.exists_eq_succ_of_ne_zero (Nat.ne_of_gt hsettles.pos)
          exact hnowhere count text (Nat.le_of_succ_le_succ hle)
            ((SettlesAt.succ_iff hpass hne).mp hsettles)

/-- The run ends where the passes settle. -/
theorem SettlesAt.exists_passes (hsettles : policy.SettlesAt html count text)
    (hle : count ≤ ceiling) : ∃ history,
      policy.passes ceiling html = .ok history ∧ history.passes.length = count := by
  have hresult := hsettles.afterPasses (Nat.le_trans (Nat.sub_le count 1) hle)
  rw [← result_passes] at hresult
  obtain ⟨history, hhistory, -⟩ := Fault.exists_of_map_eq_ok hresult
  obtain ⟨hsettled, hunsettled⟩ := settles_of_passes hhistory
  refine ⟨history, hhistory, ?_⟩
  cases hstops : history.settled with
  | true => exact (hsettled hstops).2.unique hsettles
  | false => exact absurd hsettles ((hunsettled hstops).2 count text hle)

/-- Passes that do not settle are all made. -/
theorem length_of_not_settles {history : History}
    (hnowhere : ∀ count text, count ≤ ceiling → ¬ policy.SettlesAt html count text)
    (hok : policy.passes ceiling html = .ok history) : history.passes.length = ceiling := by
  obtain ⟨hsettled, hunsettled⟩ := settles_of_passes hok
  cases hstops : history.settled with
  | true => exact absurd (hsettled hstops).2 (hnowhere _ _ (hsettled hstops).1)
  | false => exact (hunsettled hstops).1

/-! ## Other ceilings -/

/-- The policy with another ceiling. -/
def withCeiling (policy : Policy) (ceiling : Nat) : Policy :=
  { policy with config := { policy.config with maxPasses := ceiling } }

theorem answers_withCeiling (policy : Policy) (ceiling : Nat) :
    (policy.withCeiling ceiling).Answers policy where
  forbids _ := rfl
  effectiveBudget _ := rfl
  totalBudget := rfl
  judge _ _ _ := rfl
  filterStyleText _ := rfl

/-- A single pass does not depend on the ceiling. -/
theorem pass_withCeiling (policy : Policy) (ceiling : Nat) (html : String) :
    (policy.withCeiling ceiling).pass html = policy.pass html := by
  unfold pass
  simp only [(policy.answers_withCeiling ceiling).enforce]
  rfl

theorem sanitize_withCeiling (policy : Policy) (ceiling : Nat) (html : String) :
    (policy.withCeiling ceiling).sanitize html = policy.afterPasses ceiling html := by
  rw [sanitize_eq_afterPasses, ← result_passes, passes_congr (policy.pass_withCeiling ceiling),
    result_passes]
  rfl

end Policy

/-- What comes out is the text at the first pass that changes nothing, which is the last one made
and would change nothing again under any higher ceiling; if there is none below the ceiling, it is
the text after as many passes as that. There is at least one pass whatever ceiling is asked for,
also with one that is zero or negative. -/
theorem sanitize_first_rest (policy : Policy) (html : Option String) :
    (∀ count text, count ≤ policy.config.maxPasses →
      policy.SettlesAt (html.getD "") count text →
        policy.sanitize (html.getD "") = .ok text ∧
        (∃ history, policy.history (html.getD "") = .ok history ∧
          history.passes.length = count) ∧
        (∃ pass, policy.pass text = .ok pass ∧ pass.output = text) ∧
        ∀ ceiling, policy.config.maxPasses ≤ ceiling →
          (policy.withCeiling ceiling).sanitize (html.getD "") = .ok text) ∧
    ((∀ count text, count ≤ policy.config.maxPasses →
      ¬ policy.SettlesAt (html.getD "") count text) →
        policy.sanitize (html.getD "") =
          policy.afterPasses policy.config.maxPasses (html.getD "") ∧
        ∀ history, policy.history (html.getD "") = .ok history →
          history.passes.length = policy.config.maxPasses) ∧
    (∀ commonAttributes javaScript requested,
      Config.ofValues commonAttributes javaScript requested = .ok policy.config →
        ∃ count, 1 ≤ count ∧ count ≤ policy.config.maxPasses ∧
          policy.sanitize (html.getD "") = policy.afterPasses count (html.getD "")) ∧
    ∀ commonAttributes javaScript (requested : Int), ∃ config,
      Config.ofValues commonAttributes javaScript (.int requested) = .ok config ∧
        config.maxPasses = (max 1 requested).toNat := by
  generalize html.getD "" = html
  have hsanitize := policy.sanitize_eq_afterPasses html
  refine ⟨fun count text hle hsettles => ?_, fun hnowhere => ?_, fun _ _ _ hconfig => ?_,
    fun _ _ _ => ⟨_, rfl, rfl⟩⟩
  · refine ⟨hsanitize.trans (hsettles.afterPasses (by omega)), hsettles.exists_passes hle,
      hsettles.fixed, fun ceiling hceiling => ?_⟩
    rw [policy.sanitize_withCeiling]
    exact hsettles.afterPasses (by omega)
  · exact ⟨hsanitize, fun history hok => Policy.length_of_not_settles hnowhere hok⟩
  · exact ⟨_, Config.one_le_of_ofValues hconfig, Nat.le_refl _, hsanitize⟩

/-- Paragraphs are admitted and scripting is allowed, with a ceiling. -/
def paragraphPolicy (ceiling : Nat) : Policy :=
  .ofLines ["p"] { allowJavaScript := true, maxPasses := ceiling }

/-- The second pass over a paragraph is the first to change nothing. With a ceiling below zero
there is one pass, which does change the text. -/
theorem sanitize_first_rest_paragraph :
    (paragraphPolicy 3).SettlesAt "<p>a" 2 "<html><head></head><body><p>a</p></body></html>" ∧
      (paragraphPolicy 3).sanitize "<p>a" =
        .ok "<html><head></head><body><p>a</p></body></html>" ∧
      ((paragraphPolicy 3).withCeiling 50).sanitize "<p>a" =
        .ok "<html><head></head><body><p>a</p></body></html>" ∧
      Config.ofValues (.bool false) (.bool true) (.int (-3)) = .ok (paragraphPolicy 1).config ∧
      (∀ count text, count ≤ 1 → ¬ (paragraphPolicy 1).SettlesAt "<p>a" count text) ∧
      (paragraphPolicy 1).sanitize "<p>a" = (paragraphPolicy 1).afterPasses 1 "<p>a" ∧
      ∃ count, 1 ≤ count ∧ count ≤ 1 ∧
        (paragraphPolicy 1).sanitize "<p>a" = (paragraphPolicy 1).afterPasses count "<p>a" := by
  have hsettles : (paragraphPolicy 3).SettlesAt "<p>a" 2
      "<html><head></head><body><p>a</p></body></html>" := by
    refine ⟨by decide, by decide +kernel, by decide +kernel, fun fewer hpos hlt => ?_⟩
    obtain rfl : fewer = 1 := by omega
    decide +kernel
  have hnowhere : ∀ count text, count ≤ 1 →
      ¬ (paragraphPolicy 1).SettlesAt "<p>a" count text := by
    intro count text hle hsettles
    obtain rfl : count = 1 := Nat.le_antisymm hle hsettles.pos
    have hsame := hsettles.rest.trans hsettles.reached.symm
    revert hsame
    decide +kernel
  have hconfig : Config.ofValues (.bool false) (.bool true) (.int (-3)) =
      .ok (paragraphPolicy 1).config := rfl
  obtain ⟨hresult, -, -, hhigher⟩ :=
    (sanitize_first_rest (paragraphPolicy 3) (some "<p>a")).1 2 _ (by decide) hsettles
  obtain ⟨-, hall, hpassed, -⟩ := sanitize_first_rest (paragraphPolicy 1) (some "<p>a")
  exact ⟨hsettles, hresult, hhigher 50 (by decide), hconfig, hnowhere, (hall hnowhere).1,
    hpassed _ _ _ hconfig⟩

end Winnow
