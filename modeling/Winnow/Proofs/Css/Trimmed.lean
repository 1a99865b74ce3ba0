import Winnow.Proofs.Css.Clean

/-!
# Nodes without the white space around them

Trimming the text of some nodes takes away the white space around them. The only other blank that
can go is the one after an escape at the end, and what is left is a spelling all the same.
-/

namespace Winnow.Css

namespace Lexeme

theorem spell_append_loose (front : List Lexeme) {back : List Lexeme} (hback : Loose back) :
    spell (front ++ back) = spell front ++ spell back := by
  induction front with
  | nil => rfl
  | cons lexeme rest ih =>
      have hgap : gap lexeme (rest ++ back) = gap lexeme rest := by
        cases rest with
        | nil => exact hback lexeme
        | cons next rest => rfl
      rw [List.cons_append, spell, spell, ih, hgap, List.append_assoc, List.append_assoc]

theorem open_of_isWhitespace {lexeme : Lexeme} (hwhitespace : lexeme.isWhitespace = true) :
    Open lexeme := by
  unfold isWhitespace at hwhitespace
  split at hwhitespace
  next =>
    intro right
    simp [shape, Node.shape, Shape.clashes, Shape.endsInName, Shape.isSignIn]
  next => cases hwhitespace

theorem spell_append_open {front : List Lexeme} (hfront : ∀ x ∈ front, x.isWhitespace = true)
    (back : List Lexeme) : spell (front ++ back) = spell front ++ spell back := by
  induction front with
  | nil => rfl
  | cons lexeme rest ih =>
      obtain ⟨hlexeme, hrest⟩ := List.forall_mem_cons.mp hfront
      have hopen := open_of_isWhitespace hlexeme
      rw [List.cons_append, spell, spell, ih hrest, gap_of_open hopen, gap_of_open hopen,
        List.append_assoc, List.append_assoc]

theorem loose_of_isWhitespace {lexemes : List Lexeme}
    (hwhitespace : ∀ x ∈ lexemes, x.isWhitespace = true) : Loose lexemes := by
  intro lexeme
  cases lexemes with
  | nil => rfl
  | cons next rest =>
      have hnext := hwhitespace next List.mem_cons_self
      unfold isWhitespace at hnext
      split at hnext
      next => exact loose_of_shape rfl rest lexeme
      next => cases hnext

/-- White space is spelled with blanks. -/
theorem blank_spell {lexemes : List Lexeme} (hplain : ∀ x ∈ lexemes, x.Plain)
    (hwhitespace : ∀ x ∈ lexemes, x.isWhitespace = true) :
    ∀ c ∈ spell lexemes, Text.isBlank c = true := by
  induction lexemes with
  | nil => simp [spell]
  | cons lexeme rest ih =>
      obtain ⟨hlexeme, hrest⟩ := List.forall_mem_cons.mp hplain
      obtain ⟨hblank, hblanks⟩ := List.forall_mem_cons.mp hwhitespace
      rw [spell, gap_of_open (open_of_isWhitespace hblank), List.nil_append]
      intro c hmem
      rcases List.mem_append.mp hmem with hmem | hmem
      · cases hlexeme with
        | whitespace hne htext => exact isBlank_of_isSpace (htext c hmem)
        | _ => cases hblank
      · exact ih hrest hblanks c hmem

/-- The text of lexemes without the blank that may go at its end. -/
theorem exists_spells_dropEndWhile {lexemes : List Lexeme} (hne : lexemes ≠ [])
    (hplain : ∀ x ∈ lexemes, x.Plain) (hlast : ∀ x ∈ lexemes.getLast?, x.isWhitespace = false) :
    Text.dropEndWhile Text.isBlank (spell lexemes) ≠ [] ∧ ∀ rest tail, Spells rest tail →
      Loose rest → Stops Text.isHexDigit tail → Stops isSpace tail →
      Spells (lexemes ++ rest) (Text.dropEndWhile Text.isBlank (spell lexemes) ++ tail) := by
  induction lexemes with
  | nil => exact absurd rfl hne
  | cons lexeme lexemes ih =>
      obtain ⟨hlexeme, hrest⟩ := List.forall_mem_cons.mp hplain
      cases lexemes with
      | nil =>
          obtain ⟨text, htrims⟩ := hlexeme.exists_trimsTo (hlast lexeme rfl)
          have hspell : spell [lexeme] = lexeme.write := by simp [spell, gap]
          rw [hspell, htrims.trimmed]
          refine ⟨htrims.ne_nil, fun rest tail htail hloose hdigit hspace => ?_⟩
          have hspells := Spells.cons (htrims.textOf (gap lexeme rest ++ tail) ?_ ?_) htail
          · rwa [hloose lexeme] at hspells
          · rwa [hloose lexeme]
          · rwa [hloose lexeme]
      | cons next others =>
          obtain ⟨hnil, hspells⟩ := ih (by simp) hrest hlast
          have hdrop : Text.dropEndWhile Text.isBlank (spell (lexeme :: next :: others)) =
              lexeme.write ++ (gap lexeme (next :: others) ++
                Text.dropEndWhile Text.isBlank (spell (next :: others))) := by
            rw [spell, Text.dropEndWhile_append, Text.dropEndWhile_append hnil]
            rw [Text.dropEndWhile_append hnil]
            simp [hnil]
          rw [hdrop]
          refine ⟨by simp [hnil], fun rest tail htail hloose hdigit hspace => ?_⟩
          have hmore := hspells rest tail htail hloose hdigit hspace
          rw [List.append_assoc, List.append_assoc]
          exact .cons (.whole lexeme _) hmore

end Lexeme

/-! ## Nodes -/

/-- Nodes without the white space around them. -/
def trimmed (nodes : List Node) : List Node :=
  (nodes.dropWhile Node.isWhitespace).rdropWhile Node.isWhitespace

theorem exists_around_trimmed (nodes : List Node) : ∃ front back,
    nodes = front ++ (trimmed nodes ++ back) ∧ (∀ node ∈ front, node.isWhitespace = true) ∧
      ∀ node ∈ back, node.isWhitespace = true := by
  refine ⟨nodes.takeWhile Node.isWhitespace,
    (nodes.dropWhile Node.isWhitespace).rtakeWhile Node.isWhitespace, ?_,
    fun node hmem => List.mem_takeWhile_imp hmem, fun node hmem => List.mem_rtakeWhile_imp hmem⟩
  rw [trimmed, List.rdropWhile_append_rtakeWhile, List.takeWhile_append_dropWhile]

theorem trimmed_isInfix (nodes : List Node) : trimmed nodes <:+: nodes := by
  obtain ⟨front, back, heq, -⟩ := exists_around_trimmed nodes
  exact ⟨front, back, by rw [List.append_assoc, ← heq]⟩

theorem head_trimmed (nodes : List Node) : ∀ node ∈ (trimmed nodes).head?,
    node.isWhitespace = false := by
  intro node hmem
  obtain ⟨rest, hcons⟩ := List.head?_eq_some_iff.mp (Option.mem_def.mp hmem)
  obtain ⟨more, hmore⟩ : trimmed nodes <+: nodes.dropWhile Node.isWhitespace :=
    List.rdropWhile_prefix Node.isWhitespace _
  have hnot := List.head?_dropWhile_not Node.isWhitespace nodes
  rw [← hmore, hcons] at hnot
  exact hnot

theorem getLast_trimmed {nodes : List Node} (hne : trimmed nodes ≠ []) :
    ((trimmed nodes).getLast hne).isWhitespace = false :=
  Bool.eq_false_iff.mpr (List.rdropWhile_last_not _ _ hne)

theorem Node.exists_first_lexeme (node : Node) : ∃ first more, node.lexemes = first :: more ∧
    first.isWhitespace = node.isWhitespace := by
  cases node with
  | token t => exact ⟨_, _, rfl, by cases t <;> rfl⟩
  | _ => exact ⟨_, _, rfl, rfl⟩

theorem Node.exists_last_lexeme (node : Node) : ∃ front last, node.lexemes = front ++ [last] ∧
    last.isWhitespace = node.isWhitespace := by
  cases node with
  | token t => exact ⟨[], _, rfl, by cases t <;> rfl⟩
  | block bracket content => exact ⟨_ :: _, _, rfl, rfl⟩
  | function name arguments => exact ⟨_ :: _, _, rfl, rfl⟩
  | _ => exact ⟨[], _, rfl, rfl⟩

theorem isWhitespace_lexemesAll {nodes : List Node}
    (hwhitespace : ∀ node ∈ nodes, node.isWhitespace = true) :
    ∀ x ∈ Node.lexemesAll nodes, x.isWhitespace = true := by
  induction nodes with
  | nil => simp [Node.lexemesAll]
  | cons node rest ih =>
      obtain ⟨hnode, hrest⟩ := List.forall_mem_cons.mp hwhitespace
      intro x hmem
      rcases List.mem_append.mp hmem with hmem | hmem
      · unfold Node.isWhitespace at hnode
        split at hnode
        next => rw [List.mem_singleton.mp hmem]; rfl
        next => cases hnode
      · exact ih hrest x hmem

theorem not_blank_head_spell {nodes : List Node} (hplain : ∀ x ∈ Node.lexemesAll nodes, x.Plain)
    (hhead : ∀ node ∈ nodes.head?, node.isWhitespace = false) :
    ∀ c ∈ (Lexeme.spell (Node.lexemesAll nodes)).head?, Text.isBlank c = false := by
  cases nodes with
  | nil => simp [Node.lexemesAll, Lexeme.spell]
  | cons node rest =>
      obtain ⟨first, more, heq, hwhitespace⟩ := node.exists_first_lexeme
      rw [Node.lexemesAll, heq] at hplain ⊢
      have hfirst : first.Plain := hplain first (by simp)
      obtain ⟨c, cs, hcons, -⟩ := hfirst.exists_leads (.whole first [])
      have hnot := hfirst.writtenAs.not_blank_head (hwhitespace.trans (hhead node rfl))
      rw [hcons] at hnot
      simpa [Lexeme.spell, hcons] using hnot

section Text

variable {nodes : List Node} (hplain : ∀ x ∈ Node.lexemesAll nodes, x.Plain)
include hplain

theorem plain_of_isInfix {inner : List Node} (hwithin : inner <:+: nodes) :
    ∀ x ∈ Node.lexemesAll inner, x.Plain :=
  fun x hmem => hplain x ((Node.lexemesAll_infix hwithin).subset hmem)

/-- The blanks around a text are the white space around the nodes. -/
theorem strip_write : Text.strip (write nodes) =
    Text.dropEndWhile Text.isBlank (Lexeme.spell (Node.lexemesAll (trimmed nodes))) := by
  obtain ⟨front, back, heq, hfront, hback⟩ := exists_around_trimmed nodes
  have hall := hplain
  rw [heq, Node.lexemesAll_append, Node.lexemesAll_append] at hall
  have hwrite : write nodes = Lexeme.spell (Node.lexemesAll front) ++
      (Lexeme.spell (Node.lexemesAll (trimmed nodes)) ++ Lexeme.spell (Node.lexemesAll back)) := by
    rw [write_eq_spell hplain, heq, Node.lexemesAll_append, Node.lexemesAll_append, ← heq,
      Lexeme.spell_append_open (isWhitespace_lexemesAll hfront), Lexeme.spell_append_loose _
        (Lexeme.loose_of_isWhitespace (isWhitespace_lexemesAll hback))]
  rw [hwrite, Text.strip_append]
  · refine Text.strip_of_head (not_blank_head_spell (fun x hmem => hall x (by simp [hmem])) ?_)
    exact head_trimmed nodes
  · exact Lexeme.blank_spell (fun x hmem => hall x (by simp [hmem]))
      (isWhitespace_lexemesAll hfront)
  · exact Lexeme.blank_spell (fun x hmem => hall x (by simp [hmem]))
      (isWhitespace_lexemesAll hback)

/-- The text of the nodes without the white space around them is the trimmed text. -/
theorem strip_write_trimmed : Text.strip (write (trimmed nodes)) = Text.strip (write nodes) := by
  have hinner := plain_of_isInfix hplain (trimmed_isInfix nodes)
  rw [strip_write hplain, write_eq_spell hinner]
  exact Text.strip_of_head (not_blank_head_spell hinner (head_trimmed nodes))

theorem spells_dropEndWhile (hne : trimmed nodes ≠ []) :
    Text.dropEndWhile Text.isBlank (Lexeme.spell (Node.lexemesAll (trimmed nodes))) ≠ [] ∧
      ∀ rest tail, Lexeme.Spells rest tail → Lexeme.Loose rest → Stops Text.isHexDigit tail →
        Stops isSpace tail → Lexeme.Spells (Node.lexemesAll (trimmed nodes) ++ rest)
          (Text.dropEndWhile Text.isBlank
            (Lexeme.spell (Node.lexemesAll (trimmed nodes))) ++ tail) := by
  obtain ⟨front, last, heq, hlast⟩ := ((trimmed nodes).getLast hne).exists_last_lexeme
  have hlexemes : Node.lexemesAll (trimmed nodes) =
      (Node.lexemesAll (trimmed nodes).dropLast ++ front) ++ [last] := by
    rw [List.append_assoc, ← heq, ← Node.lexemesAll_singleton, ← Node.lexemesAll_append,
      List.dropLast_append_getLast]
  refine Lexeme.exists_spells_dropEndWhile ?_ (plain_of_isInfix hplain (trimmed_isInfix nodes)) ?_
  · simp [hlexemes]
  · intro x hmem
    rw [hlexemes, List.getLast?_concat] at hmem
    obtain rfl := Option.some.inj hmem
    exact hlast.trans (getLast_trimmed hne)

/-- A trimmed text spells the nodes without the white space around them. -/
theorem spells_strip {rest : List Lexeme} {tail : List Char} (hrest : Lexeme.Spells rest tail)
    (hloose : Lexeme.Loose rest) (hdigit : Stops Text.isHexDigit tail)
    (hspace : Stops isSpace tail) :
    Lexeme.Spells (Node.lexemesAll (trimmed nodes) ++ rest) (Text.strip (write nodes) ++ tail) := by
  rw [strip_write hplain]
  by_cases hne : trimmed nodes = []
  · rw [hne]
    exact hrest
  · exact (spells_dropEndWhile hplain hne).2 rest tail hrest hloose hdigit hspace

end Text

end Winnow.Css
