import Winnow.Proofs.Css.Brackets
import Winnow.Proofs.Css.Spelling

/-!
# What nodes are written as

Nodes are written as their lexemes are spelled. The blanks that are trimmed off at both ends are
white space, or the blank after an escape.
-/

namespace Winnow.Css

namespace Lexeme

/-- Lexemes written one after the other. -/
def spell : List Lexeme → List Char
  | [] => []
  | lexeme :: rest => lexeme.write ++ (gap lexeme rest ++ spell rest)

/-- A lexeme that nothing needs to be kept apart from. -/
def Open (lexeme : Lexeme) : Prop :=
  ∀ right, lexeme.shape.clashes right = false

theorem clashes_other (left : Shape) : left.clashes .other = false := by
  simp [Shape.clashes, Shape.startsWithName, Shape.startsWithDigit, Shape.isSignIn]

theorem open_opening (bracket : Bracket) : Open (opening bracket) := by
  intro right
  cases bracket <;> simp [shape, Shape.clashes, Shape.endsInName, Shape.isSignIn]

theorem open_call (name : List Char) : Open (call name) := by
  intro right
  simp [shape, Shape.clashes, Shape.endsInName, Shape.isSignIn]

theorem open_closing (bracket : Bracket) : Open (closing bracket) := by
  intro right
  simp [shape, Shape.clashes, Shape.endsInName, Shape.isSignIn]

theorem gap_of_open {lexeme : Lexeme} (hopen : Open lexeme) (rest : List Lexeme) :
    gap lexeme rest = [] := by
  cases rest with
  | nil => rfl
  | cons next rest => exact gap_of_not_clashes (hopen next.shape) rest

/-- Lexemes that may follow any others without a gap. -/
def Loose (lexemes : List Lexeme) : Prop := ∀ lexeme : Lexeme, gap lexeme lexemes = []

theorem loose_nil : Loose [] := fun _ => rfl

theorem loose_of_shape {next : Lexeme} (hshape : next.shape = .other) (rest : List Lexeme) :
    Loose (next :: rest) := by
  intro lexeme
  have hclash : lexeme.shape.clashes next.shape = false := by rw [hshape, clashes_other]
  exact gap_of_not_clashes hclash rest

theorem loose_closing (bracket : Bracket) (rest : List Lexeme) :
    Loose (closing bracket :: rest) :=
  loose_of_shape rfl rest

end Lexeme

/-! ## Nodes as spelled lexemes -/

/-- The first separator is all that the shape before some nodes decides. -/
theorem writeFrom_of_open {shape : Shape} (hopen : ∀ right, shape.clashes right = false)
    (hsign : shape ≠ .sign ['\\']) (nodes : List Node) :
    writeFrom (some shape) nodes = writeFrom none nodes := by
  cases nodes with
  | nil => rfl
  | cons node rest => simp [writeFrom, separator, hopen, hsign]

theorem Lexeme.Plain.shape_ne_backslash {lexeme : Lexeme} (hplain : lexeme.Plain) :
    lexeme.shape ≠ .sign ['\\'] := by
  cases hplain with
  | sign htext =>
      intro heq
      obtain rfl := Shape.sign.inj heq
      exact absurd htext.isSignChar_head (by decide)
  | opening bracket => cases bracket <;> simp [shape]
  | _ => simp [shape, Node.shape]

theorem Lexeme.Plain.not_isFlaw {lexeme : Lexeme} (hplain : lexeme.Plain) :
    lexeme.isFlaw = false := by
  cases hplain <;> rfl

theorem Lexeme.Plain.not_isAddress {lexeme : Lexeme} (hplain : lexeme.Plain) :
    lexeme.isAddress = false := by
  cases hplain with
  | call hname hurl => exact hurl
  | _ => rfl

mutual

theorem endsInString_eq_false (node : Node) (hflaw : ∀ x ∈ node.lexemes, x.isFlaw = false) :
    node.endsInString = false := by
  match node with
  | .function name arguments =>
      rw [Node.endsInString]
      exact listEndsInString_eq_false arguments fun x hmem =>
        hflaw x (by simp [Node.lexemes, hmem])
  | .token _ => rfl
  | .block _ _ => rfl
  | .declaration _ _ _ => rfl
  | .rule _ _ => rfl
  | .atRule _ _ _ => rfl

theorem listEndsInString_eq_false (nodes : List Node)
    (hflaw : ∀ x ∈ Node.lexemesAll nodes, x.isFlaw = false) : listEndsInString nodes = false := by
  match nodes with
  | [] => rfl
  | [node] =>
      rw [Node.lexemesAll_singleton] at hflaw
      unfold listEndsInString
      split
      next heq => cases heq
      next heq =>
        obtain rfl := (List.cons.inj heq).1
        exact absurd (hflaw (.token (.flaw .endInString)) (by simp [Node.lexemes])) (by decide)
      next heq =>
        obtain rfl := (List.cons.inj heq).1
        exact endsInString_eq_false node hflaw
      next hmore heq => exact (hmore (List.cons.inj heq).2.symm).elim
  | node :: next :: rest =>
      rw [Node.lexemesAll] at hflaw
      rw [listEndsInString]
      · exact listEndsInString_eq_false (next :: rest)
          fun x hmem => hflaw x (List.mem_append_right _ hmem)
      · simp
      · simp

end

theorem shape_of_lexemes {node : Node} (hflaw : ∀ x ∈ node.lexemes, x.isFlaw = false) :
    ∃ first more, node.lexemes = first :: more ∧ first.shape = node.shape := by
  cases node with
  | token t => exact ⟨_, _, rfl, rfl⟩
  | block bracket content => exact ⟨_, _, rfl, by cases bracket <;> rfl⟩
  | function name arguments => exact ⟨_, _, rfl, rfl⟩
  | declaration => exact absurd (hflaw (.token (.flaw .invalid)) (by simp [Node.lexemes])) (by decide)
  | rule => exact absurd (hflaw (.token (.flaw .invalid)) (by simp [Node.lexemes])) (by decide)
  | atRule => exact absurd (hflaw (.token (.flaw .invalid)) (by simp [Node.lexemes])) (by decide)

theorem open_block (bracket : Bracket) (content : List Node) (right : Shape) :
    (Node.block bracket content).shape.clashes right = false := by
  cases bracket <;> simp [Node.shape, Shape.clashes, Shape.endsInName, Shape.isSignIn]

theorem gap_lexemes {node : Node} (hflaw : ∀ x ∈ node.lexemes, x.isFlaw = false) {lexeme : Lexeme}
    {shape : Shape} (hshape : ∀ right, lexeme.shape.clashes right = shape.clashes right)
    (hsign : shape ≠ .sign ['\\']) (rest : List Lexeme) :
    Lexeme.gap lexeme (node.lexemes ++ rest) = separator (some shape) node := by
  obtain ⟨first, more, heq, hfirst⟩ := shape_of_lexemes hflaw
  rw [heq, List.cons_append, Lexeme.gap, separator, hshape, hfirst]
  simp [hsign]

mutual

/-- A node is written as its lexemes are spelled, the last of which decides what may follow. -/
theorem exists_spell_lexemes (node : Node) (hplain : ∀ x ∈ node.lexemes, x.Plain) :
    ∃ last : Lexeme, (∀ right, last.shape.clashes right = node.shape.clashes right) ∧
      node.shape ≠ .sign ['\\'] ∧ ∀ rest, Lexeme.spell (node.lexemes ++ rest) =
        node.write ++ (Lexeme.gap last rest ++ Lexeme.spell rest) := by
  match node with
  | .token t =>
      exact ⟨.token t, fun _ => rfl, (hplain (.token t) (by simp [Node.lexemes])).shape_ne_backslash,
        fun _ => rfl⟩
  | .block bracket content =>
      refine ⟨.closing bracket, fun right => ?_, by cases bracket <;> simp [Node.shape],
        fun rest => ?_⟩
      · rw [Lexeme.open_closing bracket, open_block]
      · have hopening := (hplain (.opening bracket) (by simp [Node.lexemes])).shape_ne_backslash
        have hcontent := spell_lexemesAll content
          (fun x hmem => hplain x (by simp [Node.lexemes, hmem]))
          (Lexeme.loose_closing bracket rest) (fun right => Eq.refl
            ((Lexeme.opening bracket).shape.clashes right)) hopening
        rw [writeFrom_of_open (Lexeme.open_opening bracket) hopening] at hcontent
        rw [Node.lexemes, List.cons_append, List.append_assoc, List.singleton_append,
          Lexeme.spell, hcontent, Lexeme.spell, Node.write]
        simp [Lexeme.write]
  | .function name arguments =>
      refine ⟨.closing .round, fun right => ?_, by simp [Node.shape], fun rest => ?_⟩
      · rw [Lexeme.open_closing .round]
        exact (Lexeme.open_call name right).symm
      · have hcall := (hplain (.call name) (by simp [Node.lexemes])).shape_ne_backslash
        have harguments := spell_lexemesAll arguments
          (fun x hmem => hplain x (by simp [Node.lexemes, hmem]))
          (Lexeme.loose_closing .round rest) (fun right => Eq.refl
            ((Lexeme.call name).shape.clashes right)) hcall
        have hend := listEndsInString_eq_false arguments
          fun x hmem => (hplain x (by simp [Node.lexemes, hmem])).not_isFlaw
        rw [writeFrom_of_open (Lexeme.open_call name) hcall] at harguments
        rw [Node.lexemes, List.cons_append, List.append_assoc, List.singleton_append,
          Lexeme.spell, harguments, Lexeme.spell, Node.write, hend]
        simp [Lexeme.write, Bracket.closing]
  | .declaration _ _ _ =>
      exact absurd (hplain (.token (.flaw .invalid)) (by simp [Node.lexemes])).not_isFlaw (by decide)
  | .rule _ _ =>
      exact absurd (hplain (.token (.flaw .invalid)) (by simp [Node.lexemes])).not_isFlaw (by decide)
  | .atRule _ _ _ =>
      exact absurd (hplain (.token (.flaw .invalid)) (by simp [Node.lexemes])).not_isFlaw (by decide)

theorem spell_lexemesAll (nodes : List Node) (hplain : ∀ x ∈ Node.lexemesAll nodes, x.Plain)
    {loose : List Lexeme} (hloose : Lexeme.Loose loose) {lexeme : Lexeme} {shape : Shape}
    (hshape : ∀ right, lexeme.shape.clashes right = shape.clashes right)
    (hsign : shape ≠ .sign ['\\']) :
    Lexeme.gap lexeme (Node.lexemesAll nodes ++ loose) ++
        Lexeme.spell (Node.lexemesAll nodes ++ loose) =
      writeFrom (some shape) nodes ++ Lexeme.spell loose := by
  match nodes with
  | [] => rw [Node.lexemesAll, List.nil_append, hloose lexeme, writeFrom]
  | node :: rest =>
      rw [Node.lexemesAll] at hplain
      have hnode : ∀ x ∈ node.lexemes, x.Plain := fun x hmem =>
        hplain x (List.mem_append_left _ hmem)
      obtain ⟨last, hlast, hne, hspell⟩ := exists_spell_lexemes node hnode
      have hrest := spell_lexemesAll rest (fun x hmem => hplain x (List.mem_append_right _ hmem))
        hloose hlast hne
      rw [Node.lexemesAll, List.append_assoc, hspell, hrest,
        gap_lexemes (fun x hmem => (hnode x hmem).not_isFlaw) hshape hsign, writeFrom]
      · simp
      · rintro name value important rfl
        exact absurd (hnode (.token (.flaw .invalid)) (by simp [Node.lexemes])).not_isFlaw
          (by decide)

end

/-- Nodes are written as their lexemes are spelled. -/
theorem write_eq_spell {nodes : List Node} (hplain : ∀ x ∈ Node.lexemesAll nodes, x.Plain) :
    write nodes = Lexeme.spell (Node.lexemesAll nodes) := by
  have hopen := Lexeme.open_opening .round
  have hspell := spell_lexemesAll nodes hplain Lexeme.loose_nil (fun right => Eq.refl
    ((Lexeme.opening .round).shape.clashes right)) (by simp [Lexeme.shape])
  rw [writeFrom_of_open hopen (by simp [Lexeme.shape]), Lexeme.gap_of_open hopen] at hspell
  simpa [write, Lexeme.spell] using hspell.symm

end Winnow.Css
