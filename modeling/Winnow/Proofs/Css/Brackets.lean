import Winnow.Css.Parser
import Winnow.Proofs.Css.Lexeme
import Winnow.Proofs.Css.Walk

/-!
# Brackets and the lexemes between them

Nodes consist of lexemes. Matching the brackets of the lexemes of some nodes gives the nodes back,
and the nodes that any lexemes are matched to consist of these lexemes, but for brackets that are
closed at the end.
-/

namespace Winnow.Css

namespace Node

mutual

/-- The lexemes that a node consists of. Declarations and rules are not made of lexemes; they
count as a place that cannot be read. -/
def lexemes : Node → List Lexeme
  | token t => [.token t]
  | block bracket content => .opening bracket :: (lexemesAll content ++ [.closing bracket])
  | function name arguments => .call name :: (lexemesAll arguments ++ [.closing .round])
  | declaration _ _ _ => [.token (.flaw .invalid)]
  | rule _ _ => [.token (.flaw .invalid)]
  | atRule _ _ _ => [.token (.flaw .invalid)]

/-- The lexemes that nodes consist of. -/
def lexemesAll : List Node → List Lexeme
  | [] => []
  | node :: rest => lexemes node ++ lexemesAll rest

end

theorem lexemesAll_append (front back : List Node) :
    lexemesAll (front ++ back) = lexemesAll front ++ lexemesAll back := by
  induction front with
  | nil => rfl
  | cons node rest ih => rw [List.cons_append, lexemesAll, lexemesAll, ih, List.append_assoc]

theorem lexemesAll_singleton (node : Node) : lexemesAll [node] = lexemes node :=
  List.append_nil _

/-- The lexemes of a part of some nodes are a part of their lexemes. -/
theorem lexemesAll_infix {inner nodes : List Node} (hwithin : inner <:+: nodes) :
    lexemesAll inner <:+: lexemesAll nodes := by
  obtain ⟨front, back, rfl⟩ := hwithin
  exact ⟨lexemesAll front, lexemesAll back, by simp only [lexemesAll_append]⟩

end Node

/-! ## Brackets that match -/

/-- The lexeme that an opener stands for. -/
def Opener.lexeme : Opener → Lexeme
  | block bracket => .opening bracket
  | call name => .call name

theorem Opener.lexemes_close (opener : Opener) (content : List Node) :
    (opener.close content).lexemes =
      opener.lexeme :: (Node.lexemesAll content ++ [.closing opener.bracket]) := by
  cases opener with
  | block bracket => rfl
  | call name => rfl

theorem nest_opener (opener : Opener) (nodes : List Node) (outer : Nest) (rest : List Lexeme) :
    nest nodes outer (opener.lexeme :: rest) = nest [] ((opener, nodes) :: outer) rest := by
  cases opener with
  | block bracket => rfl
  | call name => rfl

theorem nest_closing (opener : Opener) (nodes before : List Node) (outer : Nest)
    (rest : List Lexeme) :
    nest nodes ((opener, before) :: outer) (.closing opener.bracket :: rest) =
      nest (opener.close nodes.reverse :: before) outer rest := by
  rw [nest, if_pos rfl]

mutual

/-- The lexemes of a node are matched to the node. -/
theorem nest_lexemes (node : Node) (hflaw : ∀ x ∈ node.lexemes, x.isFlaw = false)
    (before : List Node) (outer : Nest) (rest : List Lexeme) :
    nest before outer (node.lexemes ++ rest) = nest (node :: before) outer rest := by
  match node with
  | .token t => rfl
  | .block bracket content =>
      have hcontent := nest_lexemesAll content (fun x hmem => hflaw x (by simp [Node.lexemes, hmem]))
        [] ((.block bracket, before) :: outer) (.closing bracket :: rest)
      rw [List.append_nil] at hcontent
      rw [Node.lexemes, List.cons_append, List.append_assoc, List.singleton_append]
      refine (nest_opener (.block bracket) before outer _).trans (hcontent.trans ?_)
      refine (nest_closing (.block bracket) _ before outer rest).trans ?_
      rw [List.reverse_reverse]
      rfl
  | .function name arguments =>
      have harguments := nest_lexemesAll arguments
        (fun x hmem => hflaw x (by simp [Node.lexemes, hmem]))
        [] ((.call name, before) :: outer) (.closing .round :: rest)
      rw [List.append_nil] at harguments
      rw [Node.lexemes, List.cons_append, List.append_assoc, List.singleton_append]
      refine (nest_opener (.call name) before outer _).trans (harguments.trans ?_)
      refine (nest_closing (.call name) _ before outer rest).trans ?_
      rw [List.reverse_reverse]
      rfl
  | .declaration _ _ _ =>
      exact absurd (hflaw (.token (.flaw .invalid)) (by simp [Node.lexemes])) (by decide)
  | .rule _ _ =>
      exact absurd (hflaw (.token (.flaw .invalid)) (by simp [Node.lexemes])) (by decide)
  | .atRule _ _ _ =>
      exact absurd (hflaw (.token (.flaw .invalid)) (by simp [Node.lexemes])) (by decide)

theorem nest_lexemesAll (nodes : List Node) (hflaw : ∀ x ∈ Node.lexemesAll nodes, x.isFlaw = false)
    (before : List Node) (outer : Nest) (rest : List Lexeme) :
    nest before outer (Node.lexemesAll nodes ++ rest) =
      nest (nodes.reverse ++ before) outer rest := by
  match nodes with
  | [] => rfl
  | node :: nodes =>
      rw [Node.lexemesAll] at hflaw
      rw [Node.lexemesAll, List.append_assoc,
        nest_lexemes node (fun x hmem => hflaw x (List.mem_append_left _ hmem)),
        nest_lexemesAll nodes (fun x hmem => hflaw x (List.mem_append_right _ hmem)),
        List.reverse_cons, List.append_assoc, List.singleton_append]

end

/-- The lexemes of nodes are matched to the nodes. -/
theorem nest_eq {nodes : List Node} (hflaw : ∀ x ∈ Node.lexemesAll nodes, x.isFlaw = false) :
    nest [] [] (Node.lexemesAll nodes) = nodes := by
  have hnest := nest_lexemesAll nodes hflaw [] [] []
  rw [List.append_nil, List.append_nil] at hnest
  rw [hnest, nest, closeAll, List.reverse_reverse]

/-! ## Brackets that were left open -/

/-- The lexemes around what stands in the innermost open bracket. -/
def Nest.lexemes : Nest → List Lexeme
  | [] => []
  | (opener, before) :: outer =>
    Nest.lexemes outer ++ (Node.lexemesAll before.reverse ++ [opener.lexeme])

/-- Only closing brackets. -/
def Closers (lexemes : List Lexeme) : Prop := ∀ x ∈ lexemes, ∃ bracket, x = .closing bracket

theorem lexemesAll_closeAll (nodes : List Node) (outer : Nest) : ∃ closers, Closers closers ∧
    Node.lexemesAll (closeAll nodes outer) =
      Nest.lexemes outer ++ (Node.lexemesAll nodes.reverse ++ closers) := by
  induction outer generalizing nodes with
  | nil => exact ⟨[], by simp [Closers], by simp [closeAll, Nest.lexemes]⟩
  | cons entry outer ih =>
      obtain ⟨opener, before⟩ := entry
      obtain ⟨closers, hclosers, heq⟩ := ih (opener.close nodes.reverse :: before)
      refine ⟨.closing opener.bracket :: closers, ?_, ?_⟩
      · exact List.forall_mem_cons.mpr ⟨⟨_, rfl⟩, hclosers⟩
      · rw [closeAll, heq, List.reverse_cons, Node.lexemesAll_append, Node.lexemesAll_singleton,
          Opener.lexemes_close, Nest.lexemes]
        simp

/-- The nodes that lexemes are matched to consist of these lexemes and brackets that are closed
at the end. -/
theorem lexemesAll_nest {lexemes : List Lexeme} {nodes : List Node} {outer : Nest}
    (hflaw : ∀ x ∈ Node.lexemesAll (nest nodes outer lexemes), x.isFlaw = false) :
    ∃ closers, Closers closers ∧ Node.lexemesAll (nest nodes outer lexemes) =
      Nest.lexemes outer ++ (Node.lexemesAll nodes.reverse ++ (lexemes ++ closers)) := by
  have hunmatched : ∀ (bracket : Bracket) (nodes : List Node) (rest closers : List Lexeme)
      (outer : Nest), (∀ x ∈ Nest.lexemes outer ++
        (Node.lexemesAll (Node.token (.flaw (.unmatched bracket)) :: nodes).reverse ++
          (rest ++ closers)), x.isFlaw = false) → False := by
    intro bracket nodes rest closers outer hall
    refine absurd (hall (.token (.flaw (.unmatched bracket))) ?_) (by simp [Lexeme.isFlaw])
    rw [List.reverse_cons, Node.lexemesAll_append, Node.lexemesAll_singleton]
    simp [Node.lexemes]
  induction lexemes generalizing nodes outer with
  | nil =>
      obtain ⟨closers, hclosers, heq⟩ := lexemesAll_closeAll nodes outer
      exact ⟨closers, hclosers, by rw [nest, heq, List.nil_append]⟩
  | cons lexeme rest ih =>
      cases lexeme with
      | token t =>
          obtain ⟨closers, hclosers, heq⟩ := ih hflaw
          refine ⟨closers, hclosers, heq.trans ?_⟩
          rw [List.reverse_cons, Node.lexemesAll_append, Node.lexemesAll_singleton, Node.lexemes]
          simp
      | call name =>
          obtain ⟨closers, hclosers, heq⟩ := ih hflaw
          refine ⟨closers, hclosers, heq.trans ?_⟩
          simp [Nest.lexemes, Node.lexemesAll, Opener.lexeme]
      | opening bracket =>
          obtain ⟨closers, hclosers, heq⟩ := ih hflaw
          refine ⟨closers, hclosers, heq.trans ?_⟩
          simp [Nest.lexemes, Node.lexemesAll, Opener.lexeme]
      | closing bracket =>
          cases outer with
          | nil =>
              have hstep : nest nodes [] (.closing bracket :: rest) =
                  nest (.token (.flaw (.unmatched bracket)) :: nodes) [] rest := rfl
              rw [hstep] at hflaw
              obtain ⟨closers, -, heq⟩ := ih hflaw
              rw [heq] at hflaw
              exact (hunmatched _ _ _ _ _ hflaw).elim
          | cons entry outer =>
              obtain ⟨opener, before⟩ := entry
              by_cases hbracket : opener.bracket = bracket
              · subst hbracket
                rw [nest_closing] at hflaw ⊢
                obtain ⟨closers, hclosers, heq⟩ := ih hflaw
                refine ⟨closers, hclosers, heq.trans ?_⟩
                rw [List.reverse_cons, Node.lexemesAll_append, Node.lexemesAll_singleton,
                  Opener.lexemes_close, Nest.lexemes]
                simp
              · have hstep : nest nodes ((opener, before) :: outer) (.closing bracket :: rest) =
                    nest (.token (.flaw (.unmatched bracket)) :: nodes) ((opener, before) :: outer)
                      rest := if_neg hbracket
                rw [hstep] at hflaw
                obtain ⟨closers, -, heq⟩ := ih hflaw
                rw [heq] at hflaw
                exact (hunmatched _ _ _ _ _ hflaw).elim

/-! ## Searches -/

namespace Node

/-- A node that is not made of lexemes. -/
def isCompound : Node → Bool
  | declaration _ _ _ => true
  | rule _ _ => true
  | atRule _ _ _ => true
  | _ => false

/-- A property of nodes that their lexemes show. -/
structure Shown (p : Node → Bool) (q : Lexeme → Bool) : Prop where
  token : ∀ t, q (.token t) = p (.token t)
  block : ∀ bracket content, q (.opening bracket) = p (.block bracket content)
  function : ∀ name arguments, q (.call name) = p (.function name arguments)
  closing : ∀ bracket, q (.closing bracket) = false

theorem isUrl_shown : Shown isUrl Lexeme.isAddress where
  token t := by cases t <;> rfl
  block _ _ := rfl
  function _ _ := rfl
  closing _ := rfl

theorem isFlaw_shown : Shown isFlaw Lexeme.isFlaw where
  token t := by cases t <;> rfl
  block _ _ := rfl
  function _ _ := rfl
  closing _ := rfl

mutual

theorem any_lexemes {p : Node → Bool} {q : Lexeme → Bool} (hshown : Shown p q) (node : Node)
    (hmade : holdsAt isCompound node = false) :
    node.lexemes.any q = holdsAt p node := by
  match node with
  | .token t => simp [lexemes, holdsAt, hshown.token]
  | .block bracket content =>
      have hcontent := any_lexemesAll hshown content (by simpa [holdsAt, isCompound] using hmade)
      simp [lexemes, holdsAt, hshown.block bracket content, hshown.closing, hcontent]
  | .function name arguments =>
      have harguments := any_lexemesAll hshown arguments (by simpa [holdsAt, isCompound] using hmade)
      simp [lexemes, holdsAt, hshown.function name arguments, hshown.closing, harguments]
  | .declaration _ _ _ => simp [holdsAt, isCompound] at hmade
  | .rule _ _ => simp [holdsAt, isCompound] at hmade
  | .atRule _ _ _ => simp [holdsAt_eq, isCompound] at hmade

/-- A search of the lexemes of nodes finds what a search of the forest does. -/
theorem any_lexemesAll {p : Node → Bool} {q : Lexeme → Bool} (hshown : Shown p q)
    (nodes : List Node) (hmade : holdsIn isCompound nodes = false) :
    (lexemesAll nodes).any q = holdsIn p nodes := by
  match nodes with
  | [] => rfl
  | node :: rest =>
      rw [holdsIn, Bool.or_eq_false_iff] at hmade
      rw [lexemesAll, List.any_append, holdsIn, any_lexemes hshown node hmade.1,
        any_lexemesAll hshown rest hmade.2]

end

mutual

theorem made_of_lexemes (node : Node) (hflaw : ∀ x ∈ node.lexemes, x.isFlaw = false) :
    holdsAt isCompound node = false := by
  match node with
  | .token t => rfl
  | .block bracket content =>
      have hcontent := made_of_lexemesAll content fun x hmem => hflaw x (by simp [lexemes, hmem])
      simp [holdsAt, isCompound, hcontent]
  | .function name arguments =>
      have harguments := made_of_lexemesAll arguments
        fun x hmem => hflaw x (by simp [lexemes, hmem])
      simp [holdsAt, isCompound, harguments]
  | .declaration _ _ _ =>
      exact absurd (hflaw (.token (.flaw .invalid)) (by simp [lexemes])) (by decide)
  | .rule _ _ => exact absurd (hflaw (.token (.flaw .invalid)) (by simp [lexemes])) (by decide)
  | .atRule _ _ _ => exact absurd (hflaw (.token (.flaw .invalid)) (by simp [lexemes])) (by decide)

theorem made_of_lexemesAll (nodes : List Node)
    (hflaw : ∀ x ∈ lexemesAll nodes, x.isFlaw = false) : holdsIn isCompound nodes = false := by
  match nodes with
  | [] => rfl
  | node :: rest =>
      rw [lexemesAll] at hflaw
      rw [holdsIn, Bool.or_eq_false_iff]
      exact ⟨made_of_lexemes node fun x hmem => hflaw x (List.mem_append_left _ hmem),
        made_of_lexemesAll rest fun x hmem => hflaw x (List.mem_append_right _ hmem)⟩

end

/-- An address among nodes is seen in their lexemes. -/
theorem containsUrl_eq_any {nodes : List Node} (hflaw : ∀ x ∈ lexemesAll nodes, x.isFlaw = false) :
    containsUrl nodes = (lexemesAll nodes).any Lexeme.isAddress := by
  rw [containsUrl_eq, any_lexemesAll isUrl_shown nodes (made_of_lexemesAll nodes hflaw)]

end Node

/-- Are the nodes before the open brackets made of lexemes? -/
def Nest.Made (outer : Nest) : Prop :=
  ∀ entry ∈ outer, Node.holdsIn Node.isCompound entry.2 = false

theorem Opener.holdsAt_close (opener : Opener) {content : List Node}
    (hcontent : Node.holdsIn Node.isCompound content = false) :
    Node.holdsAt Node.isCompound (opener.close content) = false := by
  cases opener with
  | block bracket => simp [close, Node.holdsAt, Node.isCompound, hcontent]
  | call name => simp [close, Node.holdsAt, Node.isCompound, hcontent]

theorem closeAll_made {nodes : List Node} {outer : Nest}
    (hnodes : Node.holdsIn Node.isCompound nodes = false) (houter : outer.Made) :
    Node.holdsIn Node.isCompound (closeAll nodes outer) = false := by
  induction outer generalizing nodes with
  | nil => rw [closeAll, Node.holdsIn_reverse, hnodes]
  | cons entry outer ih =>
      obtain ⟨hbefore, houter⟩ := List.forall_mem_cons.mp houter
      refine ih ?_ houter
      rw [Node.holdsIn, Bool.or_eq_false_iff]
      exact ⟨entry.1.holdsAt_close (by rw [Node.holdsIn_reverse, hnodes]), hbefore⟩

/-- Matching brackets gives tokens, blocks and functions. -/
theorem nest_made (lexemes : List Lexeme) {nodes : List Node} {outer : Nest}
    (hnodes : Node.holdsIn Node.isCompound nodes = false) (houter : outer.Made) :
    Node.holdsIn Node.isCompound (nest nodes outer lexemes) = false := by
  induction lexemes generalizing nodes outer with
  | nil => exact closeAll_made hnodes houter
  | cons lexeme rest ih =>
      have htoken : ∀ t, Node.holdsIn Node.isCompound (.token t :: nodes) = false := fun t => by
        simp [Node.holdsIn, Node.holdsAt, Node.isCompound, hnodes]
      have hopen : ∀ opener : Opener, Nest.Made ((opener, nodes) :: outer) := fun opener =>
        List.forall_mem_cons.mpr ⟨hnodes, houter⟩
      cases lexeme with
      | token t => exact ih (htoken t) houter
      | call name => exact ih rfl (hopen (.call name))
      | opening bracket => exact ih rfl (hopen (.block bracket))
      | closing bracket =>
          cases outer with
          | nil => exact ih (htoken _) houter
          | cons entry outer =>
              obtain ⟨opener, before⟩ := entry
              obtain ⟨hbefore, hothers⟩ := List.forall_mem_cons.mp houter
              by_cases hbracket : opener.bracket = bracket
              · subst hbracket
                rw [nest_closing]
                refine ih ?_ hothers
                rw [Node.holdsIn, Bool.or_eq_false_iff]
                exact ⟨opener.holdsAt_close (by rw [Node.holdsIn_reverse, hnodes]), hbefore⟩
              · have hstep : nest nodes ((opener, before) :: outer) (.closing bracket :: rest) =
                    nest (.token (.flaw (.unmatched bracket)) :: nodes) ((opener, before) :: outer)
                      rest := if_neg hbracket
                rw [hstep]
                exact ih (htoken _) houter

theorem flawless_nest {lexemes : List Lexeme}
    (hflaw : Node.containsFlaw (nest [] [] lexemes) = false) :
    ∀ x ∈ Node.lexemesAll (nest [] [] lexemes), x.isFlaw = false := by
  have hmade : Node.holdsIn Node.isCompound (nest [] [] lexemes) = false :=
    nest_made lexemes rfl fun entry hmem => by cases hmem
  rw [Node.containsFlaw_eq, ← Node.any_lexemesAll Node.isFlaw_shown _ hmade,
    List.any_eq_false] at hflaw
  exact fun x hmem => Bool.eq_false_iff.mpr (hflaw x hmem)

/-- Where no place is unreadable, the nodes consist of the lexemes and closing brackets. -/
theorem exists_closers {lexemes : List Lexeme}
    (hflaw : Node.containsFlaw (nest [] [] lexemes) = false) : ∃ closers, Closers closers ∧
      Node.lexemesAll (nest [] [] lexemes) = lexemes ++ closers ∧
      ∀ x ∈ lexemes, x.isFlaw = false := by
  have hall := flawless_nest hflaw
  obtain ⟨closers, hclosers, heq⟩ := lexemesAll_nest hall
  have heq : Node.lexemesAll (nest [] [] lexemes) = lexemes ++ closers := heq
  refine ⟨closers, hclosers, heq, fun x hmem => hall x ?_⟩
  rw [heq]
  exact List.mem_append_left _ hmem

end Winnow.Css
