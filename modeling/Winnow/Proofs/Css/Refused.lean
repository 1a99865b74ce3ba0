import Winnow.Proofs.Css.Inline

/-!
# Styles that cannot be read

A place that cannot be read makes a text suspect as a whole, since what follows it may be read in
another way elsewhere. So nothing is kept of such a text, wherever the place is: inside brackets, in
a rule of a kind that is left out anyway, or in the declarations of a rule whose selectors are not
allowed. Of any other text every rule keeps what it keeps on its own.
-/

namespace Winnow.Css

/-- A place that cannot be read stands somewhere in a forest. -/
def Node.Flawed (nodes : List Node) : Prop := ∃ flaw, Node.Occurs (.token (.flaw flaw)) nodes

theorem Node.isFlaw_iff (node : Node) : node.isFlaw = true ↔ ∃ flaw, node = .token (.flaw flaw) := by
  constructor
  · intro hflaw
    match node, hflaw with
    | .token (.flaw flaw), _ => exact ⟨flaw, rfl⟩
  · rintro ⟨flaw, rfl⟩
    rfl

theorem Node.containsFlaw_iff (nodes : List Node) :
    Node.containsFlaw nodes = true ↔ Node.Flawed nodes := by
  rw [Node.containsFlaw, Node.any_walk_iff, Node.Flawed]
  simp only [Node.isFlaw_iff]
  constructor
  · rintro ⟨_, hoccurs, flaw, rfl⟩
    exact ⟨flaw, hoccurs⟩
  · rintro ⟨flaw, hoccurs⟩
    exact ⟨_, hoccurs, flaw, rfl⟩

/-- The declarations of one of the rules cannot be read. -/
def HasFlawedRule (nodes : List Node) : Prop :=
  ∃ subject content, Node.rule subject content ∈ nodes ∧ Node.Flawed (declarations content)

/-- What a rule keeps, whatever stands beside it. -/
def keptOf (allowance : Allowance) : Node → List Char
  | .rule subject content =>
    (selectors subject).flatMap (ruleFor allowance (declarations content))
  | _ => []

/-- A rule that cannot be read takes everything with it, also what is kept of the rules before. -/
theorem filterRules_of_flawed (allowance : Allowance) {nodes : List Node}
    (hflawed : HasFlawedRule nodes) : filterRules allowance nodes = none := by
  obtain ⟨subject, content, hmem, hcontent⟩ := hflawed
  -- The induction goes along the rules before the flawed one. Whatever they keep, the result for
  -- what follows them is none, and none it stays.
  induction hmem with
  | head rest =>
      rw [filterRules]
      dsimp only
      rw [if_pos ((Node.containsFlaw_iff _).mpr hcontent)]
  | tail first _ ih =>
      cases first with
      | rule before block =>
          rw [filterRules]
          dsimp only
          split
          next => rfl
          next => rw [ih, Option.map_none]
      | _ => exact ih

theorem filterRules_of_not_flawed (allowance : Allowance) {nodes : List Node}
    (hread : ¬ HasFlawedRule nodes) :
    filterRules allowance nodes = some (nodes.flatMap (keptOf allowance)) := by
  induction nodes with
  | nil => rfl
  | cons first rest ih =>
      have hrest := ih fun ⟨subject, content, hmem, hcontent⟩ =>
        hread ⟨subject, content, List.mem_cons_of_mem _ hmem, hcontent⟩
      cases first with
      | rule subject content =>
          have hcontent : ¬ Node.Flawed (declarations content) := fun hflawed =>
            hread ⟨subject, content, List.mem_cons_self, hflawed⟩
          rw [filterRules]
          dsimp only
          rw [if_neg (fun hcontains => hcontent ((Node.containsFlaw_iff _).mp hcontains)), hrest]
          rfl
      | _ => exact hrest

theorem filterSheet_of_parse (allowance : Allowance) {css : List Char} {nodes : List Node}
    (hparse : parseSheet false css = .ok nodes) : filterSheet allowance css =
      .ok (if Node.containsFlaw nodes then [] else (filterRules allowance nodes).getD []) := by
  rw [filterSheet, hparse, Fault.ok_bind]
  split
  next => rfl
  next => rfl

/-- Nothing is kept of a sheet with a place that cannot be read, at any depth or in the
declarations of any of its rules, and nothing of an inline style with one. Of any other text the
rules, or the declarations, keep what is allowed. -/
theorem filters_fail_closed (allowance : Allowance) (css : List Char) (nodes : List Node) :
    (parseSheet false css = .ok nodes →
      (Node.Flawed nodes ∨ HasFlawedRule nodes → filterSheet allowance css = .ok []) ∧
      (¬ Node.Flawed nodes → ¬ HasFlawedRule nodes →
        filterSheet allowance css = .ok (nodes.flatMap (keptOf allowance)))) ∧
    (parseDeclarations false css = .ok nodes → ∀ tag,
      (Node.Flawed nodes → filterInline allowance tag css = .ok []) ∧
      (¬ Node.Flawed nodes → filterInline allowance tag css =
        .ok (writeSettings (settings .inline (inlineProperties allowance tag) nodes)))) := by
  refine ⟨fun hparse => ⟨fun hflawed => ?_, fun hread hrules => ?_⟩,
    fun hparse tag => ⟨fun hflawed => ?_, fun hread => ?_⟩⟩
  · rw [filterSheet_of_parse allowance hparse]
    rcases hflawed with hflawed | hrule
    · rw [if_pos ((Node.containsFlaw_iff _).mpr hflawed)]
    · rw [filterRules_of_flawed allowance hrule, Option.getD_none, ite_self]
  · rw [filterSheet_of_parse allowance hparse, if_neg (mt (Node.containsFlaw_iff _).mp hread),
      filterRules_of_not_flawed allowance hrules, Option.getD_some]
  · rw [filterInline_of_parse hparse, keptInline, if_pos ((Node.containsFlaw_iff _).mpr hflawed)]
    rfl
  · rw [filterInline_of_parse hparse, keptInline, if_neg (mt (Node.containsFlaw_iff _).mp hread)]

/-- A rule for a color, and a rule with a property that no colon follows. -/
def colonlessSheet : List Node := [
  .rule [.token (.ident ['p'])]
    [.token (.ident "color".toList), .token (.sign [':']), .token (.ident "red".toList)],
  .rule [.token (.ident ['q'])] [.token (.ident "width".toList)]]

/-- A color, and a block with a function with a bracket that nothing opens. -/
def unopenedStyle : List Node := [
  .declaration "color".toList [.token (.ident "red".toList)] false,
  .declaration "width".toList
    [.block .square [.function ['f'] [.token (.flaw (.unmatched .curly))]]] false]

/-- The rule without a colon takes the one before it with it, although its own selector is not
allowed anything; the bracket takes the color with it. -/
theorem filters_fail_closed_unallowed_rule :
    parseSheet false "p\x7bcolor:red\x7dq\x7bwidth\x7d".toList = .ok colonlessSheet ∧
      HasFlawedRule colonlessSheet ∧
      filterSheet [("p", ["color"])] "p\x7bcolor:red\x7dq\x7bwidth\x7d".toList = .ok [] ∧
      parseDeclarations false "color:red;width:[f(\x7d)]".toList = .ok unopenedStyle ∧
      Node.Flawed unopenedStyle ∧
      filterInline [("*", ["color"])] "p" "color:red;width:[f(\x7d)]".toList = .ok [] := by
  have hsheet : parseSheet false "p\x7bcolor:red\x7dq\x7bwidth\x7d".toList = .ok colonlessSheet :=
    rfl
  have hrule : HasFlawedRule colonlessSheet :=
    ⟨_, _, .tail _ (.head _), .invalid, .here (.head _)⟩
  have hstyle : parseDeclarations false "color:red;width:[f(\x7d)]".toList = .ok unopenedStyle :=
    rfl
  have hdeep : Node.Flawed unopenedStyle :=
    ⟨_, .inside (.tail _ (.head _)) (.value ..) (.inside (.head _) (.block ..)
      (.inside (.head _) (.function ..) (.here (.head _))))⟩
  exact ⟨hsheet, hrule, ((filters_fail_closed _ _ _).1 hsheet).1 (.inr hrule), hstyle, hdeep,
    ((filters_fail_closed _ _ _).2 hstyle "p").1 hdeep⟩

end Winnow.Css
