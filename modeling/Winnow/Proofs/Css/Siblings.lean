import Winnow.Proofs.Css.Refused

/-!
# Siblings in another order

A search meets every node of a forest once and asks each only what it is itself. So it finds what
stands at some depth, wherever that is, and it finds the same when siblings change places in the
forest or in any of the lists that its nodes hold. Of two forests side by side it finds what it
finds in one of them.
-/

namespace Winnow.Css.Node

/-- A node without one of the lists that it holds. -/
inductive Frame where
  | block (bracket : Bracket)
  | function (name : List Char)
  | value (name : List Char) (important : Bool)
  | ruleSelectors (content : List Node)
  | ruleContent (selectors : List Node)
  | atSubject (name : List Char) (content : Option (List Node))
  | atContent (name : List Char) (subject : List Node)

/-- The node with the list back in its place. -/
def Frame.around : Frame → List Node → Node
  | block bracket, held => .block bracket held
  | function name, held => .function name held
  | value name important, held => .declaration name held important
  | ruleSelectors content, held => .rule held content
  | ruleContent selectors, held => .rule selectors held
  | atSubject name content, held => .atRule name held content
  | atContent name subject, held => .atRule name subject (some held)

/-- Siblings have changed places, in a forest or in the lists that its nodes hold. -/
inductive Rearranged : List Node → List Node → Prop
  | siblings {nodes others} (hperm : nodes.Perm others) : Rearranged nodes others
  | inside (frame : Frame) (front back : List Node) {held others}
      (hheld : Rearranged held others) :
      Rearranged (front ++ frame.around held :: back) (front ++ frame.around others :: back)
  | trans {nodes middle others} (hfirst : Rearranged nodes middle)
      (hsecond : Rearranged middle others) : Rearranged nodes others

/-- A property that a node has whatever stands inside it. -/
def Shallow (p : Node → Bool) : Prop :=
  ∀ (frame : Frame) (held others : List Node), p (frame.around held) = p (frame.around others)

theorem isUrl_shallow : Shallow isUrl := by
  intro frame held others
  cases frame with
  | _ => rfl

theorem isFlaw_shallow : Shallow isFlaw := by
  intro frame held others
  cases frame with
  | _ => rfl

section

variable {p : Node → Bool}

/-- A frame adds the same to what is found in the list that it is around. -/
theorem Frame.holdsIn_inner (frame : Frame) {held others : List Node}
    (hheld : holdsIn p held = holdsIn p others) :
    holdsIn p (frame.around held).inner = holdsIn p (frame.around others).inner := by
  cases frame with
  | ruleSelectors | ruleContent | atSubject | atContent =>
      simp only [Frame.around, inner, Option.getD_some, holdsIn_append, hheld]
  | block | function | value => exact hheld

variable (hshallow : Shallow p)
include hshallow

theorem Shallow.holdsAt_around (frame : Frame) {held others : List Node}
    (hheld : holdsIn p held = holdsIn p others) :
    holdsAt p (frame.around held) = holdsAt p (frame.around others) := by
  rw [holdsAt_eq, holdsAt_eq, hshallow frame held others, frame.holdsIn_inner hheld]

theorem Shallow.holdsIn_rearranged {nodes others : List Node}
    (hrearranged : Rearranged nodes others) : holdsIn p nodes = holdsIn p others := by
  induction hrearranged with
  | siblings hperm => exact holdsIn_perm p hperm
  | inside frame front back _ ih =>
      rw [holdsIn_append, holdsIn_append, holdsIn, holdsIn, hshallow.holdsAt_around frame ih]
  | trans _ _ ihFirst ihSecond => exact ihFirst.trans ihSecond

end

/-- An address stands somewhere in a forest: as one that is written without quotes, or as a call
of the function that takes one. -/
def Addressed (nodes : List Node) : Prop :=
  (∃ text closed, Occurs (.token (.url text closed)) nodes) ∨
    ∃ name arguments, lowerName name = urlName ∧ Occurs (.function name arguments) nodes

theorem isUrl_iff (node : Node) : node.isUrl = true ↔
    (∃ text closed, node = .token (.url text closed)) ∨
      ∃ name arguments, lowerName name = urlName ∧ node = .function name arguments := by
  constructor
  · intro hurl
    match node, hurl with
    | .token (.url text closed), _ => exact Or.inl ⟨text, closed, rfl⟩
    | .function name arguments, hname =>
        exact Or.inr ⟨name, arguments, beq_iff_eq.mp hname, rfl⟩
  · rintro (⟨text, closed, rfl⟩ | ⟨name, arguments, hname, rfl⟩)
    · rfl
    · exact beq_iff_eq.mpr hname

theorem containsUrl_iff (nodes : List Node) : containsUrl nodes = true ↔ Addressed nodes := by
  rw [containsUrl, any_walk_iff]
  constructor
  · rintro ⟨node, hoccurs, hurl⟩
    rcases (isUrl_iff node).mp hurl with ⟨text, closed, rfl⟩ | ⟨name, arguments, hname, rfl⟩
    · exact Or.inl ⟨text, closed, hoccurs⟩
    · exact Or.inr ⟨name, arguments, hname, hoccurs⟩
  · rintro (⟨text, closed, hoccurs⟩ | ⟨name, arguments, hname, hoccurs⟩)
    · exact ⟨_, hoccurs, rfl⟩
    · exact ⟨_, hoccurs, beq_iff_eq.mpr hname⟩

/-- The walk meets every node of a forest once. So the searches for addresses and for places that
cannot be read find what the recursion over the forest finds, whatever the order of siblings is,
and in two forests what they find in one of them. -/
theorem searches_follow_recursion (nodes : List Node) :
    (walk nodes).Perm (preorderAll nodes) ∧
    (containsUrl nodes = holdsIn isUrl nodes ∧ (containsUrl nodes = true ↔ Addressed nodes)) ∧
    (containsFlaw nodes = holdsIn isFlaw nodes ∧ (containsFlaw nodes = true ↔ Flawed nodes)) ∧
    (∀ others, Rearranged nodes others →
      containsUrl others = containsUrl nodes ∧ containsFlaw others = containsFlaw nodes) ∧
    ∀ others,
      containsUrl (nodes ++ others) = (containsUrl nodes || containsUrl others) ∧
      containsFlaw (nodes ++ others) = (containsFlaw nodes || containsFlaw others) := by
  refine ⟨walk_perm nodes, ⟨containsUrl_eq nodes, containsUrl_iff nodes⟩,
    ⟨containsFlaw_eq nodes, containsFlaw_iff nodes⟩, fun others hrearranged => ?_,
    fun others => ?_⟩
  · simp only [containsUrl_eq, containsFlaw_eq]
    exact ⟨(isUrl_shallow.holdsIn_rearranged hrearranged).symm,
      (isFlaw_shallow.holdsIn_rearranged hrearranged).symm⟩
  · simp only [containsUrl_eq, containsFlaw_eq]
    exact ⟨holdsIn_append isUrl nodes others, holdsIn_append isFlaw nodes others⟩

/-- A name and a rule with a block of two nodes in the order given. -/
def nestedSheet (first second : Node) : List Node := [
  .token (.ident ['a']),
  .rule [.token (.ident ['p'])] [.block .square [first, second]]]

/-- In the block of the rule a call and a place that cannot be read change places, and then the
rule and the name. -/
theorem searches_follow_recursion_nested :
    Rearranged (nestedSheet (.function "URL".toList []) (.token (.flaw .badUrl)))
        (nestedSheet (.token (.flaw .badUrl)) (.function "URL".toList [])).reverse ∧
      containsUrl
        (nestedSheet (.token (.flaw .badUrl)) (.function "URL".toList [])).reverse = true ∧
      containsFlaw
        (nestedSheet (.token (.flaw .badUrl)) (.function "URL".toList [])).reverse = true := by
  have hrearranged : Rearranged (nestedSheet (.function "URL".toList []) (.token (.flaw .badUrl)))
      (nestedSheet (.token (.flaw .badUrl)) (.function "URL".toList [])).reverse :=
    .trans (.inside (.ruleContent [.token (.ident ['p'])]) [.token (.ident ['a'])] []
      (.inside (.block .square) [] [] (.siblings (.swap ..))))
      (.siblings (List.reverse_perm _).symm)
  obtain ⟨-, ⟨hurl, -⟩, ⟨hflaw, -⟩, hsame, -⟩ := searches_follow_recursion
    (nestedSheet (.function "URL".toList []) (.token (.flaw .badUrl)))
  refine ⟨hrearranged, ?_, ?_⟩
  · rw [(hsame _ hrearranged).1, hurl]
    decide
  · rw [(hsame _ hrearranged).2, hflaw]
    decide

end Winnow.Css.Node
