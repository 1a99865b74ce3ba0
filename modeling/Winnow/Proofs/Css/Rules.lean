import Winnow.Css.Filter
import Winnow.Proofs.Css.Declarations

/-!
# Lists of rules

Reading a style sheet keeps every flaw, and the selectors and the block of a rule that is read are
parts of the sheet. Selectors in front of a block are read as one rule, unless they start with what
starts something else.
-/

namespace Winnow.Css

/-- Is the node a block of declarations? -/
def Node.isCurly : Node → Bool
  | block .curly _ => true
  | _ => false

/-- Does a rule start with the node? White space and the marks of comments are passed over, and a
keyword starts a rule of another kind. -/
def Node.startsRule : Node → Bool
  | token (.whitespace _) => false
  | token (.comment _) => false
  | token (.atKeyword _) => false
  | token (.sign text) => text != "<!--".toList && text != "-->".toList
  | block .curly _ => false
  | _ => true

theorem Node.isCurly_eq_false {node : Node} (hnot : ∀ content, node ≠ .block .curly content) :
    node.isCurly = false := by
  unfold isCurly
  split
  next content => exact absurd rfl (hnot content)
  next => rfl

/-! ## Rules that are read -/

/-- The nodes that have been read of a rule that is still open. -/
def OpenRule.pending : OpenRule → List Node
  | nothing => []
  | atRule _ subject => subject.reverse
  | rule selectors => selectors.reverse

theorem flawless_rule {selectors content : List Node} :
    Node.holdsAt Node.isFlaw (.rule selectors content) = false ↔
      Node.holdsIn Node.isFlaw selectors = false ∧ Node.holdsIn Node.isFlaw content = false := by
  rw [Node.holdsAt_eq, Node.inner]
  exact flawless_append

/-- Reading rules keeps every flaw. -/
theorem flawless_of_rulesFrom {item : OpenRule} {nodes : List Node}
    (hflaw : Node.holdsIn Node.isFlaw (rulesFrom item nodes) = false) :
    Node.holdsIn Node.isFlaw item.pending = false ∧ Node.holdsIn Node.isFlaw nodes = false := by
  fun_induction rulesFrom item nodes with
  | case1 => exact ⟨rfl, rfl⟩
  | case2 name subject =>
      obtain ⟨hsubject, -⟩ := flawless_atRule.mp (flawless_cons.mp hflaw).1
      exact ⟨hsubject, rfl⟩
  | case3 selectors => exact absurd hflaw (by decide)
  | case4 node nodes hblank ih =>
      obtain ⟨hnode, hrest⟩ := flawless_cons.mp hflaw
      exact ⟨rfl, flawless_cons.mpr ⟨hnode, (ih hrest).2⟩⟩
  | case5 nodes name hblank ih => exact ⟨rfl, flawless_cons.mpr ⟨rfl, (ih hflaw).2⟩⟩
  | case6 nodes content hblank ih =>
      obtain ⟨hrule, hrest⟩ := flawless_cons.mp hflaw
      exact ⟨rfl, flawless_cons.mpr
        ⟨flawless_curly.mpr (flawless_rule.mp hrule).2, (ih hrest).2⟩⟩
  | case7 nodes node hkeyword hcurly hsign hblank ih =>
      have hnode : Node.holdsAt Node.isFlaw node = false :=
        (Bool.or_eq_true_iff.mp hsign).elim flawless_sign flawless_sign
      exact ⟨rfl, flawless_cons.mpr ⟨hnode, (ih hflaw).2⟩⟩
  | case8 nodes node hkeyword hcurly hsign hblank ih =>
      obtain ⟨hpending, hrest⟩ := ih hflaw
      exact ⟨rfl, flawless_cons.mpr ⟨(flawless_cons.mp hpending).1, hrest⟩⟩
  | case9 name subject nodes content ih =>
      obtain ⟨hrule, hrest⟩ := flawless_cons.mp hflaw
      obtain ⟨hsubject, hcontent⟩ := flawless_atRule.mp hrule
      exact ⟨hsubject, flawless_cons.mpr ⟨flawless_curly.mpr hcontent, (ih hrest).2⟩⟩
  | case10 name subject nodes node hcurly hsign ih =>
      obtain ⟨hrule, hrest⟩ := flawless_cons.mp hflaw
      exact ⟨(flawless_atRule.mp hrule).1,
        flawless_cons.mpr ⟨flawless_sign hsign, (ih hrest).2⟩⟩
  | case11 name subject nodes node hcurly hsign ih =>
      obtain ⟨hpending, hrest⟩ := ih hflaw
      rw [OpenRule.pending, List.reverse_cons] at hpending
      obtain ⟨hsubject, hnode⟩ := flawless_append.mp hpending
      exact ⟨hsubject, flawless_cons.mpr ⟨(flawless_cons.mp hnode).1, hrest⟩⟩
  | case12 selectors nodes content ih =>
      obtain ⟨hrule, hrest⟩ := flawless_cons.mp hflaw
      obtain ⟨hselectors, hcontent⟩ := flawless_rule.mp hrule
      exact ⟨hselectors, flawless_cons.mpr ⟨flawless_curly.mpr hcontent, (ih hrest).2⟩⟩
  | case13 selectors nodes node hcurly ih =>
      obtain ⟨hpending, hrest⟩ := ih hflaw
      rw [OpenRule.pending, List.reverse_cons] at hpending
      obtain ⟨hselectors, hnode⟩ := flawless_append.mp hpending
      exact ⟨hselectors, flawless_cons.mpr ⟨(flawless_cons.mp hnode).1, hrest⟩⟩

theorem containsFlaw_of_rules {nodes : List Node}
    (hflaw : Node.containsFlaw (rules nodes) = false) : Node.containsFlaw nodes = false := by
  rw [Node.containsFlaw_eq] at hflaw ⊢
  exact (flawless_of_rulesFrom hflaw).2

/-- The selectors and the block of a rule that is read are parts of the nodes, and no other block
is among the selectors. -/
theorem mem_rulesFrom {item : OpenRule} {nodes subject content : List Node}
    (hmem : .rule subject content ∈ rulesFrom item nodes)
    (hitem : ∀ node ∈ item.pending, node.isCurly = false) :
    subject <:+: item.pending ++ nodes ∧ .block .curly content ∈ nodes ∧
      ∀ node ∈ subject, node.isCurly = false := by
  fun_induction rulesFrom item nodes with
  | case1 => cases hmem
  | case2 name selectors => simp at hmem
  | case3 selectors => simp [invalid] at hmem
  | case4 node nodes hblank ih =>
      rcases List.mem_cons.mp hmem with rfl | hmem
      · cases hblank
      · obtain ⟨hwithin, hblock, hcurly⟩ := ih hmem hitem
        exact ⟨List.infix_cons hwithin, List.mem_cons_of_mem _ hblock, hcurly⟩
  | case5 nodes name hblank ih =>
      obtain ⟨hwithin, hblock, hcurly⟩ := ih hmem (by simp [OpenRule.pending])
      exact ⟨List.infix_cons hwithin, List.mem_cons_of_mem _ hblock, hcurly⟩
  | case6 nodes block hblank ih =>
      rcases List.mem_cons.mp hmem with heq | hmem
      · obtain ⟨rfl, rfl⟩ := Node.rule.inj heq
        exact ⟨List.nil_infix, List.mem_cons_self, by simp⟩
      · obtain ⟨hwithin, hblock, hcurly⟩ := ih hmem hitem
        exact ⟨List.infix_cons hwithin, List.mem_cons_of_mem _ hblock, hcurly⟩
  | case7 nodes node hkeyword hnot hsign hblank ih =>
      obtain ⟨hwithin, hblock, hcurly⟩ := ih hmem hitem
      exact ⟨List.infix_cons hwithin, List.mem_cons_of_mem _ hblock, hcurly⟩
  | case8 nodes node hkeyword hnot hsign hblank ih =>
      obtain ⟨hwithin, hblock, hcurly⟩ := ih hmem
        (List.forall_mem_singleton.mpr (Node.isCurly_eq_false hnot))
      exact ⟨hwithin, List.mem_cons_of_mem _ hblock, hcurly⟩
  | case9 name selectors nodes block ih =>
      rcases List.mem_cons.mp hmem with heq | hmem
      · cases heq
      · obtain ⟨hwithin, hblock, hcurly⟩ := ih hmem (by simp [OpenRule.pending])
        exact ⟨(List.infix_cons hwithin).trans (List.suffix_append _ _).isInfix,
          List.mem_cons_of_mem _ hblock, hcurly⟩
  | case10 name selectors nodes node hnot hsign ih =>
      rcases List.mem_cons.mp hmem with heq | hmem
      · cases heq
      · obtain ⟨hwithin, hblock, hcurly⟩ := ih hmem (by simp [OpenRule.pending])
        exact ⟨(List.infix_cons hwithin).trans (List.suffix_append _ _).isInfix,
          List.mem_cons_of_mem _ hblock, hcurly⟩
  | case11 name selectors nodes node hnot hsign ih =>
      obtain ⟨hwithin, hblock, hcurly⟩ := ih hmem (by
        simp only [OpenRule.pending, List.reverse_cons, List.forall_mem_append] at hitem ⊢
        exact ⟨hitem, List.forall_mem_singleton.mpr (Node.isCurly_eq_false hnot)⟩)
      exact ⟨by simpa [OpenRule.pending] using hwithin, List.mem_cons_of_mem _ hblock, hcurly⟩
  | case12 selectors nodes block ih =>
      rcases List.mem_cons.mp hmem with heq | hmem
      · obtain ⟨rfl, rfl⟩ := Node.rule.inj heq
        exact ⟨(List.prefix_append _ _).isInfix, List.mem_cons_self, hitem⟩
      · obtain ⟨hwithin, hblock, hcurly⟩ := ih hmem (by simp [OpenRule.pending])
        exact ⟨(List.infix_cons hwithin).trans (List.suffix_append _ _).isInfix,
          List.mem_cons_of_mem _ hblock, hcurly⟩
  | case13 selectors nodes node hnot ih =>
      obtain ⟨hwithin, hblock, hcurly⟩ := ih hmem (by
        simp only [OpenRule.pending, List.reverse_cons, List.forall_mem_append] at hitem ⊢
        exact ⟨hitem, List.forall_mem_singleton.mpr (Node.isCurly_eq_false hnot)⟩)
      exact ⟨by simpa [OpenRule.pending] using hwithin, List.mem_cons_of_mem _ hblock, hcurly⟩

theorem mem_rules {nodes subject content : List Node}
    (hmem : .rule subject content ∈ rules nodes) :
    subject <:+: nodes ∧ .block .curly content ∈ nodes ∧ ∀ node ∈ subject, node.isCurly = false :=
  mem_rulesFrom hmem (by simp [OpenRule.pending])

/-! ## Rules that are written -/

theorem rulesFrom_rule {selectors : List Node} (hcurly : ∀ node ∈ selectors, node.isCurly = false)
    (before content rest : List Node) :
    rulesFrom (.rule before) (selectors ++ .block .curly content :: rest) =
      .rule (before.reverse ++ selectors) content :: rulesFrom .nothing rest := by
  induction selectors generalizing before with
  | nil => rw [List.nil_append, rulesFrom, List.append_nil]
  | cons node selectors ih =>
      obtain ⟨hnode, hothers⟩ := List.forall_mem_cons.mp hcurly
      rw [List.cons_append, rulesFrom, ih hothers, List.reverse_cons, List.append_assoc,
        List.singleton_append]
      rintro block rfl
      cases hnode

/-- Selectors in front of a block are read as a rule. -/
theorem rulesFrom_selectors {selectors : List Node} (hne : selectors ≠ [])
    (hstarts : ∀ node ∈ selectors.head?, node.startsRule = true)
    (hcurly : ∀ node ∈ selectors, node.isCurly = false) (content rest : List Node) :
    rulesFrom .nothing (selectors ++ .block .curly content :: rest) =
      .rule selectors content :: rulesFrom .nothing rest := by
  cases selectors with
  | nil => exact absurd rfl hne
  | cons node selectors =>
      have hnode : node.startsRule = true := hstarts node rfl
      have hrule := rulesFrom_rule (List.forall_mem_cons.mp hcurly).2 [node] content rest
      have hblank : node.isBlank = false := by
        unfold Node.isBlank
        split
        next => cases hnode
        next => cases hnode
        next => rfl
      have hmark : (node.isSign "<!--".toList || node.isSign "-->".toList) = false := by
        unfold Node.isSign
        split
        next text =>
          have htext : (text != "<!--".toList && text != "-->".toList) = true := hnode
          simpa [bne] using htext
        next => rfl
      rw [List.cons_append, rulesFrom, if_neg (Bool.eq_false_iff.mp hblank),
        if_neg (Bool.eq_false_iff.mp hmark), hrule]
      · rfl
      · rintro name rfl
        cases hnode
      · rintro block rfl
        cases hnode

/-! ## Selectors -/

theorem exists_splitCommas (nodes : List Node) :
    ∃ group groups, splitCommas nodes = group :: groups := by
  induction nodes with
  | nil => exact ⟨[], [], rfl⟩
  | cons node rest ih =>
      obtain ⟨group, groups, heq⟩ := ih
      rw [splitCommas, heq]
      split
      · exact ⟨[], _, rfl⟩
      · exact ⟨node :: group, groups, rfl⟩

theorem splitCommas_cons (node : Node) {rest group : List Node} {groups : List (List Node)}
    (heq : splitCommas rest = group :: groups) : splitCommas (node :: rest) =
      if node.isSign [','] then [] :: group :: groups else (node :: group) :: groups := by
  rw [splitCommas, heq]

/-- A selector is a part of the nodes in which no comma stands. -/
theorem mem_splitCommas {nodes part : List Node} (hmem : part ∈ splitCommas nodes) :
    part <:+: nodes ∧ ∀ node ∈ part, node.isSign [','] = false := by
  -- The first selector begins where the nodes do, which is what a further node needs of it.
  have hall : (∀ group ∈ (splitCommas nodes).head?, group <+: nodes) ∧
      ∀ part ∈ splitCommas nodes, part <:+: nodes ∧ ∀ node ∈ part, node.isSign [','] = false := by
    clear hmem
    induction nodes with
    | nil => simp [splitCommas]
    | cons node rest ih =>
        obtain ⟨group, groups, heq⟩ := exists_splitCommas rest
        rw [splitCommas_cons node heq]
        rw [heq] at ih
        obtain ⟨hfirst, hparts⟩ := ih
        obtain ⟨hgroup, hgroups⟩ := List.forall_mem_cons.mp hparts
        have hlater : ∀ part ∈ groups, part <:+: node :: rest ∧
            ∀ node ∈ part, node.isSign [','] = false :=
          fun part hmem => ⟨List.infix_cons (hgroups part hmem).1, (hgroups part hmem).2⟩
        split
        next hcomma =>
          refine ⟨by simp, List.forall_mem_cons.mpr ⟨⟨List.nil_infix, by simp⟩,
            List.forall_mem_cons.mpr ⟨⟨List.infix_cons hgroup.1, hgroup.2⟩, hlater⟩⟩⟩
        next hcomma =>
          have hleads : node :: group <+: node :: rest :=
            (List.prefix_cons_inj node).mpr (hfirst group rfl)
          refine ⟨by simpa using hleads, List.forall_mem_cons.mpr ⟨⟨hleads.isInfix,
            List.forall_mem_cons.mpr ⟨Bool.eq_false_iff.mpr hcomma, hgroup.2⟩⟩, hlater⟩⟩
  exact hall.2 part hmem

theorem splitCommas_eq {nodes : List Node} (hcomma : ∀ node ∈ nodes, node.isSign [','] = false) :
    splitCommas nodes = [nodes] := by
  induction nodes with
  | nil => rfl
  | cons node rest ih =>
      obtain ⟨hnode, hrest⟩ := List.forall_mem_cons.mp hcomma
      rw [splitCommas_cons node (ih hrest), if_neg (Bool.eq_false_iff.mp hnode)]

/-- Nodes without a comma are one selector. -/
theorem selectors_eq {nodes : List Node} (hcomma : ∀ node ∈ nodes, node.isSign [','] = false)
    (hfilled : valueText nodes ≠ []) : selectors nodes = [valueText nodes] := by
  rw [selectors, splitCommas_eq hcomma, List.map_singleton,
    List.filter_cons_of_pos (by simpa [valueText] using hfilled)]
  rfl

end Winnow.Css
