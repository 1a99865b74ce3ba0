import Winnow.Proofs.Css.Value

/-!
# Lists of declarations

Reading a list of declarations keeps every flaw, and the value of a declaration that is read is a
part of the list without a semicolon. Declarations that are written one after the other with
semicolons between them are read as these declarations.
-/

namespace Winnow.Css

/-- The value of a declaration without semicolons, which says nothing about importance but what
the declaration itself does. -/
structure IsValue (value : List Node) (important : Bool) : Prop where
  semicolon : ∀ node ∈ value, node.isSign [';'] = false
  mixed : (statusOf value).mixed = false
  unmarked : (statusOf value).place ≠ .important
  place : important = true → (statusOf value).place = .value

theorem IsValue.unimportant {value : List Node} {important : Bool}
    (hvalue : IsValue value important) : IsValue value false :=
  { hvalue with place := nofun }

theorem isSign_recased (text : List Char) (node : Node) :
    node.recased.isSign text = node.isSign text := by
  cases node with
  | token t => cases t <;> rfl
  | _ => rfl

theorem IsValue.trimmed {value : List Node} {important : Bool} (hvalue : IsValue value important) :
    IsValue (trimmed value) important where
  semicolon node hmem := hvalue.semicolon node ((trimmed_isInfix value).subset hmem)
  mixed := by rw [statusOf_trimmed, hvalue.mixed]
  unmarked := by
    rw [statusOf_trimmed]
    exact hvalue.unmarked
  place himportant := by rw [statusOf_trimmed, hvalue.place himportant]

theorem IsValue.recased {value : List Node} {important : Bool} (hvalue : IsValue value important) :
    IsValue (Node.recasedAll value) important where
  semicolon node hmem := by
    rw [Node.recasedAll_eq_map] at hmem
    obtain ⟨original, horiginal, rfl⟩ := List.mem_map.mp hmem
    rw [isSign_recased, hvalue.semicolon original horiginal]
  mixed := by rw [statusOf_recasedAll, hvalue.mixed]
  unmarked := by
    rw [statusOf_recasedAll]
    exact hvalue.unmarked
  place himportant := by rw [statusOf_recasedAll, hvalue.place himportant]

/-! ## One declaration -/

/-- How the nodes that start with the first one make a declaration. -/
structure Composes (first : Node) (rest : List Node) (name : List Char) (value : List Node)
    (important : Bool) : Prop where
  first_eq : first = .token (.ident name)
  rest_eq : ∃ blanks colon mark, rest = blanks ++ colon :: (value ++ mark) ∧
    (∀ node ∈ blanks, node.isBlank = true) ∧ colon.isSign [':'] = true ∧
    Node.holdsIn Node.isFlaw mark = false
  mixed : (statusOf value).mixed = false
  unmarked : (statusOf value).place ≠ .important
  place : important = true → (statusOf value).place = .value

theorem Composes.isInfix {first : Node} {rest : List Node} {name : List Char} {value : List Node}
    {important : Bool} (hcomposes : Composes first rest name value important) :
    value <:+: first :: rest := by
  obtain ⟨blanks, colon, mark, rfl, -⟩ := hcomposes.rest_eq
  exact ⟨first :: (blanks ++ [colon]), mark, by simp⟩

/-- The declaration that the draft of its value gives. -/
def declaredBy (name : List Char) (draft : ValueDraft) : Node :=
  if draft.mixed then invalid
  else if draft.place = .important then .declaration name draft.beforeBang.reverse true
  else .declaration name draft.nodes.reverse false

theorem declarationOf_ident (name : List Char) {rest whole : List Node} {colon : Node}
    (hrest : rest.dropWhile Node.isBlank = colon :: whole) (hcolon : colon.isSign [':'] = true) :
    declarationOf (.token (.ident name)) rest = declaredBy name (draftOf whole) := by
  unfold declarationOf
  rw [hrest]
  exact if_pos hcolon

theorem declaredBy_cases {name : List Char} {rest blanks whole : List Node} {colon : Node}
    (hrest : rest = blanks ++ colon :: whole) (hblanks : ∀ node ∈ blanks, node.isBlank = true)
    (hcolon : colon.isSign [':'] = true) :
    declaredBy name (draftOf whole) = invalid ∨ ∃ value important,
      declaredBy name (draftOf whole) = .declaration name value important ∧
        Composes (.token (.ident name)) rest name value important := by
  cases hmixed : (draftOf whole).mixed with
  | true => exact .inl (if_pos hmixed)
  | false =>
      rw [declaredBy, if_neg (Bool.eq_false_iff.mp hmixed)]
      rw [mixed_draftOf] at hmixed
      by_cases himportant : (draftOf whole).place = .important
      · obtain ⟨mark, hwhole, hplace, hflaw⟩ := exists_afterBang whole (by simp [himportant])
        have hfront : (statusOf ((draftOf whole).beforeBang.reverse ++ mark)).mixed = false := by
          rw [← hwhole, hmixed]
        refine .inr ⟨_, true, if_pos himportant, rfl,
          ⟨blanks, colon, mark, ?_, hblanks, hcolon, hflaw⟩, mixed_of_append hfront,
          by simp [hplace], fun _ => hplace⟩
        rw [hrest, ← hwhole]
      · refine .inr ⟨whole, false, ?_, rfl,
          ⟨blanks, colon, [], ?_, hblanks, hcolon, rfl⟩, hmixed, ?_, nofun⟩
        · rw [if_neg himportant, nodes_draftOf, List.reverse_reverse]
        · rw [hrest, List.append_nil]
        · rwa [← place_draftOf]

theorem declarationOf_cases (first : Node) (rest : List Node) :
    declarationOf first rest = invalid ∨ ∃ name value important,
      declarationOf first rest = .declaration name value important ∧
        Composes first rest name value important := by
  cases first with
  | token t =>
      cases t with
      | ident name =>
          cases hdrop : rest.dropWhile Node.isBlank with
          | nil => exact .inl (by simp [declarationOf, hdrop])
          | cons colon whole =>
              cases hcolon : colon.isSign [':'] with
              | false => exact .inl (by simp [declarationOf, hdrop, hcolon])
              | true =>
                  have hrest : rest = rest.takeWhile Node.isBlank ++ colon :: whole := by
                    rw [← hdrop, List.takeWhile_append_dropWhile]
                  rw [declarationOf_ident name hdrop hcolon]
                  exact (declaredBy_cases hrest (fun node hmem => List.mem_takeWhile_imp hmem)
                    hcolon).imp_right fun ⟨value, important, h⟩ => ⟨name, value, important, h⟩
      | _ => exact .inl rfl
  | _ => exact .inl rfl

theorem flawless_blank {nodes : List Node} (hblank : ∀ node ∈ nodes, node.isBlank = true) :
    Node.holdsIn Node.isFlaw nodes = false := by
  induction nodes with
  | nil => rfl
  | cons node rest ih =>
      obtain ⟨hnode, hrest⟩ := List.forall_mem_cons.mp hblank
      rw [Node.holdsIn, ih hrest, Bool.or_false]
      unfold Node.isBlank at hnode
      split at hnode
      next => rfl
      next => rfl
      next => cases hnode

theorem flawless_sign {node : Node} {text : List Char} (hsign : node.isSign text = true) :
    Node.holdsAt Node.isFlaw node = false := by
  unfold Node.isSign at hsign
  split at hsign
  next => rfl
  next => cases hsign

/-- A declaration keeps the flaws of its nodes. -/
theorem flawless_of_declarationOf {first : Node} {rest : List Node}
    (hflaw : Node.holdsAt Node.isFlaw (declarationOf first rest) = false) :
    Node.holdsIn Node.isFlaw (first :: rest) = false := by
  rcases declarationOf_cases first rest with heq | ⟨name, value, important, heq, hcomposes⟩
  · rw [heq] at hflaw
    exact absurd hflaw (by decide)
  · rw [heq] at hflaw
    obtain ⟨blanks, colon, mark, rfl, hblanks, hcolon, hmark⟩ := hcomposes.rest_eq
    have hvalue : Node.holdsIn Node.isFlaw value = false := by
      rw [Node.holdsAt] at hflaw
      exact (Bool.or_eq_false_iff.mp hflaw).2
    rw [hcomposes.first_eq, Node.holdsIn, Node.holdsIn_append, Node.holdsIn, Node.holdsIn_append,
      flawless_blank hblanks, flawless_sign hcolon, hvalue, hmark]
    rfl

/-- The declaration of a name, a colon and a value. -/
theorem declarationOf_value (name : List Char) {value : List Node}
    (hvalue : IsValue value false) :
    declarationOf (.token (.ident name)) (.token (.sign [':']) :: value) =
      .declaration name value false := by
  have hmixed : (draftOf value).mixed = false := by rw [mixed_draftOf, hvalue.mixed]
  have hplace : (draftOf value).place ≠ .important := by
    rw [place_draftOf]
    exact hvalue.unmarked
  rw [declarationOf_ident name rfl rfl, declaredBy, if_neg (Bool.eq_false_iff.mp hmixed),
    if_neg hplace, nodes_draftOf, List.reverse_reverse]

/-- The mark of importance. -/
def importantNodes : List Node := [.token (.sign ['!']), .token (.ident importantName)]

/-- The declaration of a name, a colon, a value and the mark of importance. -/
theorem declarationOf_important (name : List Char) {value : List Node}
    (hvalue : IsValue value true) :
    declarationOf (.token (.ident name)) (.token (.sign [':']) :: (value ++ importantNodes)) =
      .declaration name value true := by
  have hplace : (draftOf value).place = .value := by rw [place_draftOf, hvalue.place rfl]
  have hbang : (draftOf value).add (.token (.sign ['!'])) =
      { draftOf value with
        nodes := .token (.sign ['!']) :: (draftOf value).nodes
        place := .bang
        beforeBang := (draftOf value).nodes } := by
    rw [ValueDraft.add, hplace]
    rfl
  have hdraft : draftOf (value ++ importantNodes) =
      { draftOf value with
        nodes := .token (.ident importantName) :: .token (.sign ['!']) :: (draftOf value).nodes
        place := .important
        beforeBang := (draftOf value).nodes } := by
    have happend : value ++ importantNodes =
        (value ++ [.token (.sign ['!'])]) ++ [.token (.ident importantName)] := by
      rw [List.append_assoc]
      rfl
    rw [happend, draftOf_concat, draftOf_concat, hbang]
    rfl
  have hmixed : (draftOf value).mixed = false := by rw [mixed_draftOf, hvalue.mixed]
  rw [declarationOf_ident name rfl rfl, hdraft, declaredBy]
  simp [hmixed, nodes_draftOf]

/-! ## Lists -/

/-- The nodes that have been read of an item that is still open. -/
def OpenItem.pending : OpenItem → List Node
  | nothing => []
  | atRule _ subject => subject.reverse
  | declaration first rest => first :: rest.reverse

theorem flawless_cons {node : Node} {rest : List Node} :
    Node.holdsIn Node.isFlaw (node :: rest) = false ↔
      Node.holdsAt Node.isFlaw node = false ∧ Node.holdsIn Node.isFlaw rest = false := by
  rw [Node.holdsIn, Bool.or_eq_false_iff]

theorem flawless_append {front back : List Node} :
    Node.holdsIn Node.isFlaw (front ++ back) = false ↔
      Node.holdsIn Node.isFlaw front = false ∧ Node.holdsIn Node.isFlaw back = false := by
  rw [Node.holdsIn_append, Bool.or_eq_false_iff]

theorem flawless_atRule {name : List Char} {subject : List Node}
    {content : Option (List Node)} :
    Node.holdsAt Node.isFlaw (.atRule name subject content) = false ↔
      Node.holdsIn Node.isFlaw subject = false ∧
        Node.holdsIn Node.isFlaw (content.getD []) = false := by
  rw [Node.holdsAt_eq, Node.inner]
  exact flawless_append

theorem flawless_curly {content : List Node} :
    Node.holdsAt Node.isFlaw (.block .curly content) = false ↔
      Node.holdsIn Node.isFlaw content = false := by
  simp [Node.holdsAt, Node.isFlaw]

/-- Reading declarations keeps every flaw. -/
theorem flawless_of_declarationsFrom {item : OpenItem} {nodes : List Node}
    (hflaw : Node.holdsIn Node.isFlaw (declarationsFrom item nodes) = false) :
    Node.holdsIn Node.isFlaw item.pending = false ∧ Node.holdsIn Node.isFlaw nodes = false := by
  fun_induction declarationsFrom item nodes with
  | case1 => exact ⟨rfl, rfl⟩
  | case2 name subject =>
      obtain ⟨hsubject, -⟩ := flawless_atRule.mp (flawless_cons.mp hflaw).1
      exact ⟨hsubject, rfl⟩
  | case3 first rest => exact ⟨flawless_of_declarationOf (flawless_cons.mp hflaw).1, rfl⟩
  | case4 node nodes hblank ih =>
      obtain ⟨hnode, hrest⟩ := flawless_cons.mp hflaw
      exact ⟨rfl, flawless_cons.mpr ⟨hnode, (ih hrest).2⟩⟩
  | case5 nodes name hblank ih => exact ⟨rfl, flawless_cons.mpr ⟨rfl, (ih hflaw).2⟩⟩
  | case6 nodes node hkeyword hsign hblank ih =>
      exact ⟨rfl, flawless_cons.mpr ⟨flawless_sign hsign, (ih hflaw).2⟩⟩
  | case7 nodes node hkeyword hsign hblank ih =>
      obtain ⟨hpending, hrest⟩ := ih hflaw
      exact ⟨rfl, flawless_cons.mpr ⟨(flawless_cons.mp hpending).1, hrest⟩⟩
  | case8 name subject nodes content ih =>
      obtain ⟨hrule, hrest⟩ := flawless_cons.mp hflaw
      obtain ⟨hsubject, hcontent⟩ := flawless_atRule.mp hrule
      exact ⟨hsubject, flawless_cons.mpr ⟨flawless_curly.mpr hcontent, (ih hrest).2⟩⟩
  | case9 name subject nodes node hcurly hsign ih =>
      obtain ⟨hrule, hrest⟩ := flawless_cons.mp hflaw
      exact ⟨(flawless_atRule.mp hrule).1,
        flawless_cons.mpr ⟨flawless_sign hsign, (ih hrest).2⟩⟩
  | case10 name subject nodes node hcurly hsign ih =>
      obtain ⟨hpending, hrest⟩ := ih hflaw
      rw [OpenItem.pending, List.reverse_cons] at hpending
      obtain ⟨hsubject, hnode⟩ := flawless_append.mp hpending
      exact ⟨hsubject, flawless_cons.mpr ⟨(flawless_cons.mp hnode).1, hrest⟩⟩
  | case11 first rest node nodes hsign ih =>
      obtain ⟨hitem, hrest⟩ := flawless_cons.mp hflaw
      exact ⟨flawless_of_declarationOf hitem,
        flawless_cons.mpr ⟨flawless_sign hsign, (ih hrest).2⟩⟩
  | case12 first rest node nodes hsign ih =>
      obtain ⟨hpending, hrest⟩ := ih hflaw
      rw [OpenItem.pending, List.reverse_cons, ← List.cons_append] at hpending
      obtain ⟨hfront, hnode⟩ := flawless_append.mp hpending
      exact ⟨hfront, flawless_cons.mpr ⟨(flawless_cons.mp hnode).1, hrest⟩⟩

theorem containsFlaw_of_declarations {nodes : List Node}
    (hflaw : Node.containsFlaw (declarations nodes) = false) : Node.containsFlaw nodes = false := by
  rw [Node.containsFlaw_eq] at hflaw ⊢
  exact (flawless_of_declarationsFrom hflaw).2

theorem isValue_of_declarationOf {first : Node} {rest : List Node} {name : List Char}
    {value : List Node} {important : Bool}
    (heq : .declaration name value important = declarationOf first rest)
    (hitem : ∀ node ∈ first :: rest, node.isSign [';'] = false) :
    value <:+: first :: rest ∧ IsValue value important := by
  rcases declarationOf_cases first rest with hinvalid | ⟨_, _, _, hdeclaration, hcomposes⟩
  · exact absurd (heq.trans hinvalid) (by simp [invalid])
  · obtain ⟨rfl, rfl, rfl⟩ := Node.declaration.inj (heq.trans hdeclaration)
    exact ⟨hcomposes.isInfix, fun node hmem => hitem node (hcomposes.isInfix.subset hmem),
      hcomposes.mixed, hcomposes.unmarked, hcomposes.place⟩

/-- A declaration that is read has a value, which is a part of the nodes. -/
theorem mem_declarationsFrom {item : OpenItem} {nodes : List Node} {name : List Char}
    {value : List Node} {important : Bool}
    (hmem : .declaration name value important ∈ declarationsFrom item nodes)
    (hitem : ∀ node ∈ item.pending, node.isSign [';'] = false) :
    value <:+: item.pending ++ nodes ∧ IsValue value important := by
  fun_induction declarationsFrom item nodes with
  | case1 => cases hmem
  | case2 name subject => simp at hmem
  | case3 first rest =>
      rw [List.append_nil]
      exact isValue_of_declarationOf (List.mem_singleton.mp hmem) hitem
  | case4 node nodes hblank ih =>
      rcases List.mem_cons.mp hmem with rfl | hmem
      · cases hblank
      · obtain ⟨hwithin, hvalue⟩ := ih hmem hitem
        exact ⟨List.infix_cons hwithin, hvalue⟩
  | case5 nodes name hblank ih =>
      obtain ⟨hwithin, hvalue⟩ := ih hmem (by simp [OpenItem.pending])
      exact ⟨List.infix_cons hwithin, hvalue⟩
  | case6 nodes node hkeyword hsign hblank ih =>
      obtain ⟨hwithin, hvalue⟩ := ih hmem hitem
      exact ⟨List.infix_cons hwithin, hvalue⟩
  | case7 nodes node hkeyword hsign hblank ih =>
      exact ih hmem (by simpa [OpenItem.pending] using hsign)
  | case8 name subject nodes content ih =>
      rcases List.mem_cons.mp hmem with heq | hmem
      · cases heq
      · obtain ⟨hwithin, hvalue⟩ := ih hmem (by simp [OpenItem.pending])
        exact ⟨(List.infix_cons hwithin).trans (List.suffix_append _ _).isInfix, hvalue⟩
  | case9 name subject nodes node hcurly hsign ih =>
      rcases List.mem_cons.mp hmem with heq | hmem
      · cases heq
      · obtain ⟨hwithin, hvalue⟩ := ih hmem (by simp [OpenItem.pending])
        exact ⟨(List.infix_cons hwithin).trans (List.suffix_append _ _).isInfix, hvalue⟩
  | case10 name subject nodes node hcurly hsign ih =>
      obtain ⟨hwithin, hvalue⟩ := ih hmem (by
        simp only [OpenItem.pending, List.reverse_cons, List.forall_mem_append] at hitem ⊢
        exact ⟨hitem, by simpa using hsign⟩)
      exact ⟨by simpa [OpenItem.pending] using hwithin, hvalue⟩
  | case11 first rest node nodes hsign ih =>
      rcases List.mem_cons.mp hmem with heq | hmem
      · obtain ⟨hwithin, hvalue⟩ := isValue_of_declarationOf heq hitem
        exact ⟨hwithin.trans (List.prefix_append _ _).isInfix, hvalue⟩
      · obtain ⟨hwithin, hvalue⟩ := ih hmem (by simp [OpenItem.pending])
        exact ⟨(List.infix_cons hwithin).trans (List.suffix_append _ _).isInfix, hvalue⟩
  | case12 first rest node nodes hsign ih =>
      obtain ⟨hwithin, hvalue⟩ := ih hmem (by
        simp only [OpenItem.pending, List.reverse_cons, ← List.cons_append,
          List.forall_mem_append] at hitem ⊢
        exact ⟨hitem, by simpa using hsign⟩)
      exact ⟨by simpa [OpenItem.pending] using hwithin, hvalue⟩

theorem mem_declarations {nodes : List Node} {name : List Char} {value : List Node}
    {important : Bool} (hmem : .declaration name value important ∈ declarations nodes) :
    value <:+: nodes ∧ IsValue value important :=
  mem_declarationsFrom hmem (by simp [OpenItem.pending])

/-! ## Declarations that are written -/

/-- A declaration that is written: its value is one that was read. -/
structure Entry where
  name : List Char
  value : List Node
  important : Bool
  isValue : IsValue value important

namespace Entry

/-- The declaration itself. -/
def node (entry : Entry) : Node := .declaration entry.name entry.value entry.important

/-- The nodes that are written for the declaration. -/
def nodes (entry : Entry) : List Node :=
  .token (.ident entry.name) :: .token (.sign [':']) ::
    (entry.value ++ if entry.important then importantNodes else [])

/-- The nodes that are written for declarations, with semicolons between them. -/
def nodesAll : List Entry → List Node
  | [] => []
  | [entry] => entry.nodes
  | entry :: rest => entry.nodes ++ .token (.sign [';']) :: nodesAll rest

theorem declarationsFrom_append (first : Node) (front : List Node) {nodes : List Node}
    (hnodes : ∀ node ∈ nodes, node.isSign [';'] = false) (rest : List Node) :
    declarationsFrom (.declaration first front) (nodes ++ rest) =
      declarationsFrom (.declaration first (nodes.reverse ++ front)) rest := by
  induction nodes generalizing front with
  | nil => rfl
  | cons node nodes ih =>
      obtain ⟨hnode, hothers⟩ := List.forall_mem_cons.mp hnodes
      rw [List.cons_append, declarationsFrom, if_neg (Bool.eq_false_iff.mp hnode), ih _ hothers,
        List.reverse_cons, List.append_assoc, List.singleton_append]

/-- The nodes of a declaration are read up to its end. -/
theorem declarationsFrom_nodes (entry : Entry) (rest : List Node) :
    declarationsFrom .nothing (entry.nodes ++ rest) = declarationsFrom
      (.declaration (.token (.ident entry.name)) (.token (.sign [':']) ::
        (entry.value ++ if entry.important then importantNodes else [])).reverse) rest := by
  have hvalue : ∀ node ∈ (.token (.sign [':']) ::
      (entry.value ++ if entry.important then importantNodes else []) : List Node),
        node.isSign [';'] = false := by
    refine List.forall_mem_cons.mpr ⟨rfl, List.forall_mem_append.mpr
      ⟨entry.isValue.semicolon, ?_⟩⟩
    split
    · exact List.forall_mem_cons.mpr ⟨rfl, List.forall_mem_singleton.mpr rfl⟩
    · simp
  rw [nodes, List.cons_append, declarationsFrom, if_neg (by simp [Node.isBlank]),
    if_neg (by simp [Node.isSign]), declarationsFrom_append _ _ hvalue, List.append_nil]
  simp

theorem declarationOf_nodes (entry : Entry) :
    declarationOf (.token (.ident entry.name)) (.token (.sign [':']) ::
      (entry.value ++ if entry.important then importantNodes else [])) = entry.node := by
  obtain ⟨name, value, important, hvalue⟩ := entry
  cases important with
  | true => exact declarationOf_important name hvalue
  | false =>
      rw [if_neg (by simp), List.append_nil]
      exact declarationOf_value name hvalue

/-- Declarations that are written are read. -/
theorem declarations_nodesAll (entries : List Entry) :
    declarations (nodesAll entries) = entries.map node := by
  induction entries with
  | nil => rfl
  | cons entry rest ih =>
      cases rest with
      | nil =>
          have hread := declarationsFrom_nodes entry []
          rw [List.append_nil, declarationsFrom, List.reverse_reverse, declarationOf_nodes] at hread
          exact hread
      | cons next others =>
          rw [nodesAll, declarations, declarationsFrom_nodes, declarationsFrom, if_pos (by decide),
            List.reverse_reverse, declarationOf_nodes, List.map_cons]
          · exact congrArg _ ih
          · simp

end Entry

end Winnow.Css
