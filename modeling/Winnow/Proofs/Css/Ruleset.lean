import Winnow.Proofs.Css.Address
import Winnow.Proofs.Css.Refused
import Winnow.Proofs.Css.Rules

/-!
# Filtered style sheets are read back

Of a sheet the filter writes one rule for each selector that keeps a declaration. These rules are
what its output is read as, and all that stands in them is allowed, if the sheet is plain and the
keys of the allowance can stand in front of a block. An escape, a comment or a blank that is a
character of a name elsewhere can show an address once the text around it is trimmed.
-/

namespace Winnow.Css

/-! ## What may be written in front of a block -/

/-- A text that is read as a selector without an address when it stands in front of a block: it
starts neither like a rule of another kind nor with the mark that ends a comment. -/
structure IsSelector (text : List Char) : Prop where
  keyword : ¬ ['@'] <+: text
  arrow : ¬ arrow <+: text
  address : ¬ ShowsAddress text

/-- Everything that is allowed something can be a selector. -/
def Allowance.SelectsRules (allowance : Allowance) : Prop :=
  ∀ entry ∈ allowance, IsSelector entry.1.toList

/-- The text of nodes starts as their first node does. -/
theorem prefix_valueText {node : Node} {text : List Char} (hwrite : node.write = text)
    (hne : text ≠ []) (hclean : ∀ c ∈ text, IsClean c) (rest : List Node) :
    text <+: valueText (node :: rest) := by
  obtain ⟨more, hmore⟩ : text <+: write (node :: rest) := by
    rw [write, writeFrom.eq_def, ← hwrite]
    exact (List.prefix_append _ _).trans (List.prefix_append _ _)
  have hhead : ∀ c ∈ (text ++ more).head?, Text.isBlank c = false := by
    rw [List.head?_append_of_ne_nil _ hne]
    exact Lexeme.head_of_clean hclean
  rw [valueText, ← hmore, Text.strip_of_head hhead]
  by_cases hrest : Text.dropEndWhile Text.isBlank more = []
  · have hend : Text.dropEndWhile Text.isBlank (text ++ more) = text := by
      rw [Text.dropEndWhile_append_of_pos (List.rdropWhile_eq_nil_iff.mp hrest),
        Lexeme.dropEndWhile_of_clean hclean]
    exact ⟨[], by rw [List.append_nil, hend]⟩
  · rw [Text.dropEndWhile_append hrest]
    exact List.prefix_append _ _

/-- What starts a selector starts a rule. -/
theorem startsRule_of_isSelector {node : Node} {rest : List Node}
    (hselector : IsSelector (valueText (node :: rest)))
    (hbracket : '<' ∉ valueText (node :: rest)) (hplain : ∀ x ∈ node.lexemes, x.Plain)
    (hcurly : node.isCurly = false) (hspace : node.isWhitespace = false) :
    node.startsRule = true := by
  cases node with
  | token t =>
      have ht : (Lexeme.token t).Plain := hplain _ (List.mem_singleton_self _)
      cases ht with
      | whitespace => cases hspace
      | atKeyword hname =>
          have hwrite : (Node.token (.atKeyword _)).write = '@' :: _ :=
            congrArg ('@' :: ·) hname.write_eq
          have hleads := prefix_valueText hwrite (by simp) (List.forall_mem_cons.mpr
            ⟨isClean_of_range (by decide) (by decide), hname.clean⟩) rest
          exact absurd ((List.prefix_append ['@'] _).trans hleads) hselector.keyword
      | @sign text htext =>
          have hne : text ≠ [] := by
            rintro rfl
            cases htext with
            | joined hmem => exact absurd hmem (by decide)
          have hwrite : (Node.token (.sign text)).write = text := rfl
          have hleads := prefix_valueText hwrite hne htext.clean rest
          have hmark : text ≠ "<!--".toList := by
            rintro rfl
            exact hbracket (hleads.subset (by decide))
          have harrow : text ≠ "-->".toList := by
            rintro rfl
            exact hselector.arrow hleads
          simp only [Node.startsRule, Bool.and_eq_true, bne_iff_ne]
          exact ⟨hmark, harrow⟩
      | _ => rfl
  | block bracket content =>
      cases bracket with
      | curly => cases hcurly
      | _ => rfl
  | _ => rfl

/-- The nodes of a selector that can be written in front of a block and read again. -/
structure Selects (nodes : List Node) : Prop where
  natural : Lexeme.Natural (Node.lexemesAll nodes)
  trimmed : trimmed nodes = nodes
  curly : ∀ node ∈ nodes, node.isCurly = false
  comma : ∀ node ∈ nodes, node.isSign [','] = false
  starts : ∀ node ∈ nodes.head?, node.startsRule = true
  bracket : '<' ∉ valueText nodes
  filled : valueText nodes ≠ []

/-! ## Rules that are written -/

/-- A rule that is written: the nodes of its selector, and its declarations. -/
structure Ruleset where
  selector : List Node
  entries : List Entry

namespace Ruleset

/-- The text of the selector. -/
def key (ruleset : Ruleset) : List Char := valueText ruleset.selector

/-- The text of the rule. -/
def text (ruleset : Ruleset) : List Char :=
  ruleset.key ++ '\x7b' :: writeSettings (ruleset.entries.map Entry.setting) ++ ['\x7d']

/-- The rule itself. -/
def node (ruleset : Ruleset) : Node :=
  .rule ruleset.selector (Entry.nodesAll ruleset.entries)

/-- The nodes that are written for the rule. -/
def nodes (ruleset : Ruleset) : List Node :=
  ruleset.selector ++ [.block .curly (Entry.nodesAll ruleset.entries)]

/-- The rule after it has been written and read again. -/
def reread (ruleset : Ruleset) : Ruleset where
  selector := Node.recasedAll ruleset.selector
  entries := ruleset.entries.map Entry.reread

/-- A rule that the filter keeps. -/
structure Kept (allowance : Allowance) (ruleset : Ruleset) : Prop
    extends Selects ruleset.selector where
  listed : String.ofList ruleset.key ∈ allowance.names
  nonempty : ruleset.entries ≠ []
  entries : ∀ entry ∈ ruleset.entries,
    entry.Kept .sheet ((allowance.find? (String.ofList ruleset.key)).getD [])

end Ruleset

/-! ## Where rules come from -/

/-- A text of rules that the filter keeps. -/
def IsKeptText (allowance : Allowance) (out : List Char) : Prop :=
  ∃ rulesets : List Ruleset, (∀ ruleset ∈ rulesets, ruleset.Kept allowance) ∧
    rulesets.flatMap Ruleset.text = out

theorem isKeptText_nil (allowance : Allowance) : IsKeptText allowance [] := ⟨[], by simp, rfl⟩

theorem isKeptText_flatMap {α : Type} {allowance : Allowance} {items : List α}
    {textOf : α → List Char} (hitems : ∀ item ∈ items, IsKeptText allowance (textOf item)) :
    IsKeptText allowance (items.flatMap textOf) := by
  induction items with
  | nil => exact isKeptText_nil allowance
  | cons item items ih =>
      obtain ⟨hitem, hothers⟩ := List.forall_mem_cons.mp hitems
      obtain ⟨front, hfront, heq⟩ := hitem
      obtain ⟨back, hback, hrest⟩ := ih hothers
      refine ⟨front ++ back, List.forall_mem_append.mpr ⟨hfront, hback⟩, ?_⟩
      rw [List.flatMap_append, heq, hrest, List.flatMap_cons]

theorem lexemesAll_infix_of_block {nodes content : List Node} {bracket : Bracket}
    (hmem : .block bracket content ∈ nodes) :
    Node.lexemesAll content <:+: Node.lexemesAll nodes := by
  obtain ⟨front, back, rfl⟩ := List.append_of_mem hmem
  rw [Node.lexemesAll_append, Node.lexemesAll, Node.lexemes]
  refine List.IsInfix.trans ?_ (List.suffix_append _ _).isInfix
  exact ⟨[.opening bracket], .closing bracket :: Node.lexemesAll back, by simp⟩

section Origin

variable {css : List Char} (hplain : IsPlain css) {whole : List Node}
  (hread : components false css = .ok whole) (hflaw : Node.containsFlaw whole = false)
include hplain hread hflaw

/-- A selector of a sheet can be written in front of a block. -/
theorem selects_trimmed {part : List Node} (hpart : part <:+: whole)
    (hcurly : ∀ node ∈ part, node.isCurly = false)
    (hcomma : ∀ node ∈ part, node.isSign [','] = false) (hselector : IsSelector (valueText part))
    (hbracket : '<' ∉ valueText part) (hfilled : valueText part ≠ []) :
    Selects (trimmed part) ∧ valueText (trimmed part) = valueText part := by
  have hlexemes := Node.lexemesAll_infix hpart
  have hmade := Node.made_of_lexemesAll part (isFlaw_of_components hread hflaw hlexemes)
  have haddress : Node.containsUrl part = false := Bool.eq_false_iff.mpr fun hurl =>
    hselector.address (showsAddress_of_containsUrl hmade hurl)
  have hplainPart := (natural_of_components hplain hread hflaw hlexemes haddress).plain
  have hwithin := trimmed_isInfix part
  have htext : valueText (trimmed part) = valueText part := Entry.valueText_trimmed hplainPart
  have hnatural := natural_of_components hplain hread hflaw
    ((Node.lexemesAll_infix hwithin).trans hlexemes) (Entry.containsUrl_trimmed haddress)
  have hcurly : ∀ node ∈ trimmed part, node.isCurly = false :=
    fun node hmem => hcurly node (hwithin.subset hmem)
  refine ⟨⟨hnatural, Entry.trimmed_trimmed part, hcurly,
    fun node hmem => hcomma node (hwithin.subset hmem), ?_, htext ▸ hbracket,
    htext ▸ hfilled⟩, htext⟩
  have hhead := head_trimmed part
  rw [← htext] at hselector hbracket
  cases heq : trimmed part with
  | nil => simp
  | cons node rest =>
      rw [heq] at hselector hbracket hnatural hcurly hhead
      intro first hmem
      obtain rfl := Option.some.inj hmem
      exact startsRule_of_isSelector hselector hbracket
        (fun x hx => hnatural.plain x (List.mem_append_left _ hx))
        (hcurly node List.mem_cons_self) (hhead node rfl)

variable {allowance : Allowance} (hproper : allowance.IsProper)
  (hselects : allowance.SelectsRules)
include hproper hselects

/-- A selector keeps a rule of declarations, or none. -/
theorem isKeptText_ruleFor {subject content part : List Node} (hsubject : subject <:+: whole)
    (hcurly : ∀ node ∈ subject, node.isCurly = false)
    (hcontent : .block .curly content ∈ whole) (hpart : part ∈ splitCommas subject)
    (hfilled : valueText part ≠ []) :
    IsKeptText allowance (ruleFor allowance (declarations content) (valueText part)) := by
  unfold ruleFor
  dsimp only
  split
  next => exact isKeptText_nil allowance
  next hallowed =>
    split
    next => exact isKeptText_nil allowance
    next hkept =>
      simp only [Bool.or_eq_true, List.contains_eq_mem, decide_eq_true_eq, not_or] at hallowed
      obtain ⟨hallowed, hbracket⟩ := hallowed
      obtain ⟨allowed, hfind⟩ : ∃ allowed,
          allowance.find? (String.ofList (valueText part)) = some allowed := by
        cases hfind : allowance.find? (String.ofList (valueText part)) with
        | none => simp [hfind] at hallowed
        | some allowed => exact ⟨allowed, rfl⟩
      have hselector : IsSelector (valueText part) := by
        have hentry := hselects _ (Assoc.mem_of_find? hfind)
        rwa [String.toList_ofList] at hentry
      obtain ⟨hwithin, hcomma⟩ := mem_splitCommas hpart
      obtain ⟨hwritten, htext⟩ := selects_trimmed hplain hread hflaw (hwithin.trans hsubject)
        (fun node hmem => hcurly node (hwithin.subset hmem)) hcomma hselector hbracket hfilled
      have hproperties := hproper.of_find (String.ofList (valueText part))
      obtain ⟨entries, hentries, hsettings⟩ := @Entry.exists_kept_all _ hplain _ _ hread hflaw
        (lexemesAll_infix_of_block hcontent) .sheet _ hproperties
      have hnonempty : entries ≠ [] := by
        rintro rfl
        exact hkept (by rw [← hsettings]; rfl)
      refine ⟨[⟨trimmed part, entries⟩], List.forall_mem_singleton.mpr
        ⟨hwritten, ?_, hnonempty, ?_⟩, ?_⟩
      · rw [Ruleset.key, htext]
        exact Assoc.mem_names_of_find? hfind
      · rw [Ruleset.key, htext]
        exact hentries
      · rw [List.flatMap_singleton, Ruleset.text, Ruleset.key, htext, hsettings]

/-- All that the filter keeps of a sheet are rules. -/
theorem isKeptText_rules : IsKeptText allowance ((rules whole).flatMap (keptOf allowance)) := by
  refine isKeptText_flatMap fun node hnode => ?_
  cases node with
  | rule subject content =>
      obtain ⟨hsubject, hcontent, hcurly⟩ := mem_rules hnode
      refine isKeptText_flatMap fun selector hselector => ?_
      obtain ⟨hselector, hfilled⟩ := List.mem_filter.mp hselector
      obtain ⟨part, hpart, rfl⟩ := List.mem_map.mp hselector
      exact isKeptText_ruleFor hplain hread hflaw hproper hselects hsubject hcurly hcontent hpart
        (by simpa [valueText] using hfilled)
  | _ => exact isKeptText_nil allowance

end Origin

/-! ## Reading them again -/

namespace Ruleset

variable {allowance : Allowance} {ruleset : Ruleset}

theorem Kept.proper (hkept : ruleset.Kept allowance) : ∀ entry ∈ ruleset.entries, entry.Proper :=
  fun entry hmem => (hkept.entries entry hmem).toProper

/-- The text of a rule spells its nodes. -/
theorem Kept.spells (hkept : ruleset.Kept allowance) {rest : List Lexeme} {tail : List Char}
    (hrest : Lexeme.Spells rest tail) :
    Lexeme.Spells (Node.lexemesAll ruleset.nodes ++ rest) (ruleset.text ++ tail) := by
  have hclosing := Lexeme.Spells.cons_whole
    (Lexeme.gap_of_open (Lexeme.open_closing .curly) rest) hrest
  have hsettings := Entry.spells_settings hkept.proper
    ⟨hclosing, Lexeme.loose_closing .curly rest, stops_cons.mpr rfl, stops_cons.mpr rfl⟩
  have hopening := Lexeme.Spells.cons_whole
    (Lexeme.gap_of_open (Lexeme.open_opening .curly) _) hsettings
  have hselector := spells_strip hkept.natural.plain hopening (Lexeme.loose_of_shape rfl _)
    (stops_cons.mpr rfl) (stops_cons.mpr rfl)
  rw [hkept.trimmed] at hselector
  simpa [nodes, text, key, valueText, Node.lexemesAll_append, Node.lexemesAll, Node.lexemes,
    Lexeme.write, Bracket.opening, Bracket.closing] using hselector

/-- The lexemes of a rule are natural. -/
theorem Kept.natural_nodes (hkept : ruleset.Kept allowance) {rest : List Lexeme}
    (hrest : Lexeme.Natural rest) :
    Lexeme.Natural (Node.lexemesAll ruleset.nodes ++ rest) := by
  have hclosing : Lexeme.Natural (.closing .curly :: rest) :=
    ⟨.closing .curly, Lexeme.closing_not_runsInto .curly rest, hrest⟩
  have hentries := Entry.natural_nodesAll hkept.proper
    ⟨hclosing, Lexeme.harmless_closing .curly rest⟩
  have hopening : Lexeme.Natural (.opening .curly :: _) :=
    ⟨.opening .curly, Lexeme.opening_not_runsInto .curly _, hentries⟩
  simpa [nodes, Node.lexemesAll_append, Node.lexemesAll, Node.lexemes] using
    hkept.natural.append hopening (Lexeme.harmless_opening .curly _)

theorem recasedAll_nodes (ruleset : Ruleset) :
    Node.recasedAll ruleset.nodes = ruleset.reread.nodes := by
  rw [nodes, Node.recasedAll_append, Node.recasedAll, Node.recased, Entry.recasedAll_nodesAll]
  rfl

theorem isCurly_recased (node : Node) : node.recased.isCurly = node.isCurly := by
  cases node with
  | block bracket content => cases bracket <;> rfl
  | _ => rfl

theorem startsRule_recased (node : Node) : node.recased.startsRule = node.startsRule := by
  cases node with
  | token t => cases t <;> rfl
  | block bracket content => cases bracket <;> rfl
  | _ => rfl

theorem forall_mem_recasedAll {nodes : List Node} {p : Node → Prop} :
    (∀ node ∈ Node.recasedAll nodes, p node) ↔ ∀ node ∈ nodes, p node.recased := by
  rw [Node.recasedAll_eq_map, List.forall_mem_map]

section Reread

variable (hkept : ruleset.Kept allowance)
include hkept

theorem Kept.key_reread : ruleset.reread.key = ruleset.key :=
  Entry.valueText_recasedAll hkept.natural.plain

theorem Kept.selectors_reread : selectors ruleset.reread.selector = [ruleset.key] := by
  have hcomma : ∀ node ∈ ruleset.reread.selector, node.isSign [','] = false :=
    forall_mem_recasedAll.mpr fun node hmem => (isSign_recased _ node).trans (hkept.comma node hmem)
  have hkey : valueText ruleset.reread.selector = ruleset.key := hkept.key_reread
  rw [selectors_eq hcomma (by rw [hkey]; exact hkept.filled), hkey]

/-- The nodes of a rule are read as the rule. -/
theorem Kept.rulesFrom_nodes (rest : List Node) :
    rulesFrom .nothing (ruleset.reread.nodes ++ rest) =
      ruleset.reread.node :: rulesFrom .nothing rest := by
  have hne : ruleset.reread.selector ≠ [] := by
    intro hnil
    have hkey := hkept.key_reread
    rw [key, hnil] at hkey
    exact hkept.filled hkey.symm
  have hstarts : ∀ node ∈ ruleset.reread.selector.head?, node.startsRule = true := by
    intro node hmem
    rw [reread, Node.recasedAll_eq_map, List.head?_map] at hmem
    obtain ⟨first, hfirst, rfl⟩ := Option.map_eq_some_iff.mp hmem
    exact (startsRule_recased first).trans (hkept.starts first hfirst)
  have hcurly : ∀ node ∈ ruleset.reread.selector, node.isCurly = false :=
    forall_mem_recasedAll.mpr fun node hmem =>
      (isCurly_recased node).trans (hkept.curly node hmem)
  rw [nodes, List.append_assoc, List.singleton_append,
    rulesFrom_selectors hne hstarts hcurly]
  rfl

/-- The rule keeps the same text when it is read again. -/
theorem Kept.keptOf_reread : keptOf allowance ruleset.reread.node = ruleset.text := by
  have hallowed : ((allowance.find? (String.ofList ruleset.key)).getD []).isEmpty = false := by
    obtain ⟨entry, others, heq⟩ := List.exists_cons_of_ne_nil hkept.nonempty
    have hmem := (hkept.entries entry (heq ▸ List.mem_cons_self)).mem
    exact List.isEmpty_eq_false_iff.mpr (List.ne_nil_of_mem hmem)
  have hbracket : ruleset.key.contains '<' = false := by
    simpa [key] using hkept.bracket
  have hnonempty : (ruleset.entries.map Entry.setting).isEmpty = false := by
    simpa using hkept.nonempty
  have hsettings := Entry.settings_reread hkept.entries
  rw [node, keptOf, hkept.selectors_reread, Entry.declarations_nodesAll, List.flatMap_singleton,
    ruleFor]
  simp only [hallowed, hbracket, Bool.or_false, reread, hsettings, hnonempty]
  rfl

theorem Kept.plain_reread : (∀ x ∈ Node.lexemesAll ruleset.reread.selector, x.Plain) ∧
    ∀ x ∈ Node.lexemesAll (Entry.nodesAll ruleset.reread.entries), x.Plain := by
  refine ⟨Entry.plain_recasedAll hkept.natural.plain, ?_⟩
  have hentries := Entry.natural_nodesAll hkept.proper Entry.continues_nil
  rw [List.append_nil] at hentries
  rw [reread, ← Entry.recasedAll_nodesAll]
  exact Entry.plain_recasedAll hentries.plain

theorem Kept.not_isUrl_reread : Node.holdsAt Node.isUrl ruleset.reread.node = false := by
  obtain ⟨hselector, hentries⟩ := hkept.plain_reread
  have hfront := containsUrl_of_plain hselector
  have hback := containsUrl_of_plain hentries
  rw [Node.containsUrl_eq] at hfront hback
  rw [node, Node.holdsAt, hfront, hback]
  rfl

theorem Kept.not_isFlaw_reread : Node.holdsAt Node.isFlaw ruleset.reread.node = false := by
  obtain ⟨hselector, hentries⟩ := hkept.plain_reread
  rw [node, Node.holdsAt, holdsIn_isFlaw_of_plain hselector, holdsIn_isFlaw_of_plain hentries]
  rfl

end Reread

section Written

variable {rulesets : List Ruleset} (hkept : ∀ ruleset ∈ rulesets, ruleset.Kept allowance)
include hkept

theorem spells_nodes : Lexeme.Spells (Node.lexemesAll (rulesets.flatMap nodes))
    (rulesets.flatMap text) := by
  induction rulesets with
  | nil => exact .nil
  | cons ruleset others ih =>
      obtain ⟨hruleset, hothers⟩ := List.forall_mem_cons.mp hkept
      rw [List.flatMap_cons, List.flatMap_cons, Node.lexemesAll_append]
      exact hruleset.spells (ih hothers)

theorem natural_nodes : Lexeme.Natural (Node.lexemesAll (rulesets.flatMap nodes)) := by
  induction rulesets with
  | nil => trivial
  | cons ruleset others ih =>
      obtain ⟨hruleset, hothers⟩ := List.forall_mem_cons.mp hkept
      rw [List.flatMap_cons, Node.lexemesAll_append]
      exact hruleset.natural_nodes (ih hothers)

theorem rules_nodes :
    rules ((rulesets.map reread).flatMap nodes) = (rulesets.map reread).map node := by
  induction rulesets with
  | nil => rfl
  | cons ruleset others ih =>
      obtain ⟨hruleset, hothers⟩ := List.forall_mem_cons.mp hkept
      rw [List.map_cons, List.flatMap_cons, rules, hruleset.rulesFrom_nodes, ← rules, ih hothers]
      rfl

/-- The text of rules is read as the rules. -/
theorem parseSheet_text :
    parseSheet false (rulesets.flatMap text) = .ok ((rulesets.map reread).map node) := by
  have hnodes : Node.recasedAll (rulesets.flatMap nodes) =
      (rulesets.map reread).flatMap nodes := by
    rw [Node.recasedAll_eq_map, List.map_flatMap, List.flatMap_map]
    exact List.flatMap_congr fun ruleset _ => by
      rw [← Node.recasedAll_eq_map, recasedAll_nodes]
  rw [parseSheet, components_of_spells (natural_nodes hkept) (spells_nodes hkept), hnodes,
    ← rules_nodes hkept]
  rfl

/-- Filtering the text of rules keeps it. -/
theorem filterSheet_text :
    filterSheet allowance (rulesets.flatMap text) = .ok (rulesets.flatMap text) := by
  have hflaw : Node.containsFlaw ((rulesets.map reread).map node) = false := by
    rw [Node.containsFlaw_eq, Node.holdsIn_eq_false_iff, List.map_map]
    exact List.forall_mem_map.mpr fun ruleset hmem => (hkept ruleset hmem).not_isFlaw_reread
  have hrules : ¬ HasFlawedRule ((rulesets.map reread).map node) := by
    rintro ⟨subject, content, hmem, hflawed⟩
    rw [List.map_map] at hmem
    obtain ⟨ruleset, hruleset, heq⟩ := List.mem_map.mp hmem
    obtain ⟨rfl, rfl⟩ := Node.rule.inj heq
    rw [Entry.declarations_nodesAll, ← Node.containsFlaw_iff] at hflawed
    rw [reread, Entry.flawless_reread (hkept ruleset hruleset).entries] at hflawed
    cases hflawed
  rw [filterSheet_of_parse allowance (parseSheet_text hkept), if_neg (Bool.eq_false_iff.mp hflaw),
    filterRules_of_not_flawed allowance hrules, Option.getD_some, List.map_map, List.flatMap_map]
  exact congrArg Except.ok (List.flatMap_congr fun ruleset hmem =>
    (hkept ruleset hmem).keptOf_reread)

end Written

end Ruleset

/-! ## The output of the filter -/

/-- A rule in which everything is allowed: its selectors are listed, and all that stands in its
block are declarations of properties that are allowed for them. -/
def Allowance.Covers (allowance : Allowance) : Node → Prop
  | .rule subject content => ∀ selector ∈ selectors subject,
    String.ofList selector ∈ allowance.names ∧ ∀ item ∈ declarations content,
      ∃ name value important, item = .declaration name value important ∧
        String.ofList name ∈ (allowance.find? (String.ofList selector)).getD []
  | _ => False

theorem Ruleset.Kept.covers {allowance : Allowance} {ruleset : Ruleset}
    (hkept : ruleset.Kept allowance) : allowance.Covers ruleset.reread.node := by
  rw [node, Allowance.Covers, hkept.selectors_reread, Entry.declarations_nodesAll]
  refine List.forall_mem_singleton.mpr ⟨hkept.listed, ?_⟩
  rw [reread, List.map_map]
  refine List.forall_mem_map.mpr fun entry hmem => ⟨_, _, _, rfl, ?_⟩
  exact (hkept.entries entry hmem).mem

/-- A sheet without backslashes and comments, in which nothing but white space of CSS is blank,
is filtered under plain names of properties and keys that can stand in front of a block. Then the
output is read as rules without an address, in which everything is allowed, and filtering the
output again gives the output. -/
theorem filterSheet_read_back {css : List Char} {nodes : List Node} (hplain : IsPlain css)
    (hread : parseSheet false css = .ok nodes) {allowance : Allowance}
    (hproper : allowance.IsProper) (hselects : allowance.SelectsRules) :
    ∃ out again, filterSheet allowance css = .ok out ∧ parseSheet false out = .ok again ∧
      (∀ node ∈ again, allowance.Covers node) ∧ Node.containsUrl again = false ∧
      filterSheet allowance out = .ok out := by
  have hkeeps : ∃ out, filterSheet allowance css = .ok out ∧ IsKeptText allowance out := by
    rw [filterSheet_of_parse allowance hread]
    obtain ⟨whole, hwhole, hnodes⟩ := Fault.exists_of_bind_eq_ok hread
    cases hnodes
    split
    next => exact ⟨_, rfl, isKeptText_nil allowance⟩
    next hflaw =>
      have hflaw := containsFlaw_of_rules (Bool.eq_false_iff.mpr hflaw)
      by_cases hrule : HasFlawedRule (rules whole)
      · rw [filterRules_of_flawed allowance hrule]
        exact ⟨_, rfl, isKeptText_nil allowance⟩
      · rw [filterRules_of_not_flawed allowance hrule]
        exact ⟨_, rfl, isKeptText_rules hplain hwhole hflaw hproper hselects⟩
  obtain ⟨_, hout, rulesets, hkept, rfl⟩ := hkeeps
  refine ⟨_, _, hout, Ruleset.parseSheet_text hkept, ?_, ?_, Ruleset.filterSheet_text hkept⟩
  · rw [List.map_map]
    exact List.forall_mem_map.mpr fun ruleset hmem => (hkept ruleset hmem).covers
  · rw [Node.containsUrl_eq, Node.holdsIn_eq_false_iff, List.map_map]
    exact List.forall_mem_map.mpr fun ruleset hmem => (hkept ruleset hmem).not_isUrl_reread

/-- A rule with two selectors. -/
def twoSelectors : List Node := [
  .rule [.token (.ident ['p']), .token (.sign [',']), .token (.ident ['q'])]
    [.token (.ident "color".toList), .token (.sign [':']), .token (.ident "red".toList)]]

/-- The output of the filter for a rule with two selectors of which one is allowed. -/
theorem filterSheet_read_back_selectors : ∃ out again,
    filterSheet [("q", ["color"])] "p,q\x7bcolor:red\x7d".toList = .ok out ∧
      parseSheet false out = .ok again ∧
      (∀ node ∈ again, Allowance.Covers [("q", ["color"])] node) ∧
      Node.containsUrl again = false ∧ filterSheet [("q", ["color"])] out = .ok out := by
  have hread : parseSheet false "p,q\x7bcolor:red\x7d".toList = .ok twoSelectors := rfl
  have hplain : IsPlain "p,q\x7bcolor:red\x7d".toList :=
    ⟨by decide, fun hcomment => absurd (hcomment.subset (by decide : '*' ∈ ['/', '*'])) (by decide),
      List.forall_iff_forall_mem.mp (by decide)⟩
  have hproper : Allowance.IsProper [("q", ["color"])] :=
    List.forall_mem_singleton.mpr (List.forall_mem_singleton.mpr (by decide))
  have hselects : Allowance.SelectsRules [("q", ["color"])] :=
    List.forall_mem_singleton.mpr ⟨by decide, by decide, by decide⟩
  exact filterSheet_read_back hplain hread hproper hselects

/-! ## Blanks that belong to a name -/

/-- A rule for a color. -/
def colorRule (value : Node) : Node :=
  .rule [.token (.ident ['p'])] [.token (.ident "color".toList), .token (.sign [':']), value]

/-- A no-break space belongs to the name of a function, but it is trimmed off the value: the
function that is left is an address. -/
theorem filterSheet_shows_address :
    filterSheet [("p", ["color"])] "p\x7bcolor:\u00a0url(x)\x7d".toList =
        .ok "p\x7bcolor:url(x)\x7d".toList ∧
      ∃ again, parseSheet false "p\x7bcolor:url(x)\x7d".toList = .ok again ∧
        Node.containsUrl again = true := by
  constructor
  · let value : Node := .function "\u00a0url".toList [.token (.ident ['x'])]
    have hread : parseSheet false "p\x7bcolor:\u00a0url(x)\x7d".toList = .ok [colorRule value] :=
      rfl
    have hflaw : Node.containsFlaw [colorRule value] = false := by
      rw [Node.containsFlaw_eq]
      rfl
    have hrule : ¬ HasFlawedRule [colorRule value] := by
      rintro ⟨subject, content, hmem, hflawed⟩
      obtain ⟨rfl, rfl⟩ := Node.rule.inj (List.mem_singleton.mp hmem)
      rw [← Node.containsFlaw_iff, Node.containsFlaw_eq] at hflawed
      exact absurd hflawed (by decide)
    have hsettings : settings .sheet ["color"] [.declaration "color".toList [value] false] =
        [{ property := "color".toList, value := "url(x)".toList }] := by
      simp only [settings, List.filterMap_cons, settingOf?, Node.containsUrl_eq]
      rfl
    have hkept : keptOf [("p", ["color"])] (colorRule value) =
        "p\x7bcolor:url(x)\x7d".toList := by
      have hselectors : selectors [.token (.ident ['p'])] = [['p']] := rfl
      have hitems : declarations [.token (.ident "color".toList), .token (.sign [':']), value] =
          [.declaration "color".toList [value] false] := rfl
      have hallowed : (Assoc.find? [("p", ["color"])] (String.ofList ['p'])).getD [] =
          ["color"] := rfl
      rw [colorRule, keptOf, hselectors, hitems, List.flatMap_singleton, ruleFor]
      simp only [hallowed, hsettings]
      rfl
    rw [filterSheet_of_parse _ hread, hflaw, filterRules_of_not_flawed _ hrule,
      List.flatMap_singleton, hkept]
    rfl
  · refine ⟨[colorRule (.token (.url ['x'] true))], rfl, ?_⟩
    rw [Node.containsUrl_eq]
    rfl

end Winnow.Css
