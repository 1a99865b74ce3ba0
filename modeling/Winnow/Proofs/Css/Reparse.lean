import Winnow.Proofs.Css.Natural
import Winnow.Proofs.Css.Trimmed

/-!
# Text that is read again

A text without escapes and comments has natural lexemes, parts of them stay natural when they are
put together with punctuation between them, and the text they spell is read as the nodes they make.
-/

namespace Winnow.Css

/-! ## Letters that an escape makes small -/

namespace Lexeme

theorem writeUnit_recasedUnit (unit : List Char) : writeUnit (recasedUnit unit) = writeUnit unit := by
  unfold recasedUnit
  split
  · rfl
  · rfl
  · rfl

theorem write_recased (lexeme : Lexeme) : lexeme.recased.write = lexeme.write := by
  cases lexeme with
  | token t =>
      cases t with
      | dimension written unit => simp [recased, Token.recased, write, Token.write,
          writeUnit_recasedUnit]
      | _ => rfl
  | _ => rfl

theorem IsUnit.recased {parts : Parts} {unit : List Char} (hunit : IsUnit parts unit) :
    IsUnit parts (recasedUnit unit) := by
  cases hescaped : isEscaped unit with
  | false => rwa [recasedUnit_eq hescaped]
  | true =>
      obtain ⟨letter, hletter, hcases⟩ := cases_of_isEscaped hescaped
      obtain ⟨c, cs, rfl, -, hrecased⟩ := exists_of_isEscaped hescaped
      obtain rfl : c = letter := by
        rcases hcases with heq | ⟨ds, heq⟩
        all_goals exact (List.cons.inj heq).1
      obtain ⟨-, hchar⟩ := List.forall_mem_cons.mp hunit.char
      obtain ⟨-, hblank⟩ := List.forall_mem_cons.mp hunit.not_blank
      rw [hrecased]
      refine ⟨⟨⟨by simp, List.forall_mem_cons.mpr ⟨by decide, hchar⟩,
        List.forall_mem_cons.mpr ⟨by decide, hblank⟩⟩, startsName_of_isNameStart (by decide)⟩, ?_⟩
      rintro hpower d e ds heq -
      exact hunit.apart hpower c e ds (by rw [(List.cons.inj heq).2]) hletter

theorem Plain.recased {lexeme : Lexeme} (hplain : lexeme.Plain) : lexeme.recased.Plain := by
  cases hplain with
  | dimension hnumber hunit => exact .dimension hnumber hunit.recased
  | whitespace hne htext => exact .whitespace hne htext
  | sign htext => exact .sign htext
  | ident hname => exact .ident hname
  | atKeyword hname => exact .atKeyword hname
  | hash hname => exact .hash hname
  | quoted htext => exact .quoted htext
  | codePoints hfirst hlast => exact .codePoints hfirst hlast
  | number hnumber => exact .number hnumber
  | percentage hnumber => exact .percentage hnumber
  | call hname hurl => exact .call hname hurl
  | opening bracket => exact .opening bracket
  | closing bracket => exact .closing bracket

theorem shape_recased (lexeme : Lexeme) : lexeme.recased.shape = lexeme.shape := by
  cases lexeme with
  | token t => cases t <;> rfl
  | _ => rfl

theorem isFlaw_recased (lexeme : Lexeme) : lexeme.recased.isFlaw = lexeme.isFlaw := by
  cases lexeme with
  | token t => cases t <;> rfl
  | _ => rfl

theorem spell_map_recased (lexemes : List Lexeme) : spell (lexemes.map recased) = spell lexemes := by
  induction lexemes with
  | nil => rfl
  | cons lexeme rest ih =>
      have hgap : gap lexeme.recased (rest.map recased) = gap lexeme rest := by
        cases rest with
        | nil => rfl
        | cons next rest => simp [gap, shape_recased]
      rw [List.map_cons, spell, spell, write_recased, hgap, ih]

end Lexeme

namespace Node

mutual

/-- A node after it has been written and read back. -/
def recased : Node → Node
  | token t => token t.recased
  | block bracket content => block bracket (recasedAll content)
  | function name arguments => function name (recasedAll arguments)
  | node => node

/-- Nodes after they have been written and read back. -/
def recasedAll : List Node → List Node
  | [] => []
  | node :: rest => recased node :: recasedAll rest

end

theorem recasedAll_eq_map (nodes : List Node) : recasedAll nodes = nodes.map recased := by
  induction nodes with
  | nil => rfl
  | cons node rest ih => rw [recasedAll, ih, List.map_cons]

theorem recasedAll_append (front back : List Node) :
    recasedAll (front ++ back) = recasedAll front ++ recasedAll back := by
  rw [recasedAll_eq_map, recasedAll_eq_map, recasedAll_eq_map, List.map_append]

mutual

theorem lexemes_recased (node : Node) : node.recased.lexemes = node.lexemes.map Lexeme.recased := by
  match node with
  | .token t => rfl
  | .block bracket content =>
      simp [recased, lexemes, lexemesAll_recasedAll content, Lexeme.recased]
  | .function name arguments =>
      simp [recased, lexemes, lexemesAll_recasedAll arguments, Lexeme.recased]
  | .declaration _ _ _ => rfl
  | .rule _ _ => rfl
  | .atRule _ _ _ => rfl

theorem lexemesAll_recasedAll (nodes : List Node) :
    lexemesAll (recasedAll nodes) = (lexemesAll nodes).map Lexeme.recased := by
  match nodes with
  | [] => rfl
  | node :: rest =>
      rw [recasedAll, lexemesAll, lexemesAll, lexemes_recased node, lexemesAll_recasedAll rest,
        List.map_append]

end

end Node

/-! ## Texts that are read -/

/-- A text without escapes and comments, in which nothing but white space of a sheet is blank. -/
structure IsPlain (css : List Char) : Prop where
  escape : '\\' ∉ css
  comment : ¬ ['/', '*'] <:+: css
  blank : ∀ c ∈ css, Text.isBlank c = true → isSpace c = true ∨ c = '\r' ∨ c.toNat = 0x0c

theorem prepare_of_settled {cs : List Char} (hsettled : ∀ c ∈ cs, IsSettled c) :
    prepare cs = cs := by
  induction cs with
  | nil => rfl
  | cons c cs ih =>
      obtain ⟨hc, hcs⟩ := List.forall_mem_cons.mp hsettled
      rw [prepare, ih hcs]
      · simp [hc.1, hc.2.1, hc.2.2]
      · rintro ds rfl
        exact absurd rfl hc.1

/-- What a character becomes when a text is prepared. -/
def preparedChar (c : Char) : Char :=
  if c = '\r' || c.toNat = 0x0c then '\n' else if c.toNat = 0 then replacement else c

theorem preparedChar_cases (c : Char) : preparedChar c = '\n' ∨ preparedChar c = replacement ∨
    preparedChar c = c ∧ IsSettled c := by
  unfold preparedChar
  split
  next => exact .inl rfl
  next hbreak =>
    rw [Bool.or_eq_true, decide_eq_true_eq, decide_eq_true_eq, not_or] at hbreak
    split
    next => exact .inr (.inl rfl)
    next hnull => exact .inr (.inr ⟨rfl, hbreak.1, hbreak.2, hnull⟩)

theorem prepare_cons {c : Char} {cs : List Char}
    (hne : ∀ ds, c = '\r' → cs = '\n' :: ds → False) :
    prepare (c :: cs) = preparedChar c :: prepare cs := by
  rw [prepare]
  · rfl
  · exact hne

theorem mem_prepare {cs : List Char} {c : Char} (hmem : c ∈ prepare cs) :
    c = '\n' ∨ c = replacement ∨ c ∈ cs ∧ IsSettled c := by
  induction cs using prepare.induct with
  | case1 => cases hmem
  | case2 cs ih =>
      rw [prepare] at hmem
      rcases List.mem_cons.mp hmem with rfl | hmem
      · exact .inl rfl
      · exact (ih hmem).imp_right (Or.imp_right fun h => ⟨by simp [h.1], h.2⟩)
  | case3 d cs hne ih =>
      rw [prepare_cons hne] at hmem
      rcases List.mem_cons.mp hmem with heq | hmem
      · rcases preparedChar_cases d with h | h | ⟨h, hsettled⟩
        · exact .inl (heq.trans h)
        · exact .inr (.inl (heq.trans h))
        · obtain rfl := heq.trans h
          exact .inr (.inr ⟨List.mem_cons_self, hsettled⟩)
      · exact (ih hmem).imp_right (Or.imp_right fun h => ⟨List.mem_cons_of_mem d h.1, h.2⟩)

theorem eq_of_preparedChar {c d : Char} (hline : d ≠ '\n') (hreplaced : d ≠ replacement)
    (heq : preparedChar c = d) : c = d := by
  rcases preparedChar_cases c with h | h | ⟨h, -⟩
  · exact absurd (heq.symm.trans h) hline
  · exact absurd (heq.symm.trans h) hreplaced
  · exact h.symm.trans heq

theorem head_prepare {cs rest : List Char} (hcons : prepare cs = '*' :: rest) :
    ∃ ds, cs = '*' :: ds := by
  cases cs using prepare.fun_cases with
  | case1 => cases hcons
  | case2 cs =>
      rw [prepare] at hcons
      exact absurd (List.cons.inj hcons).1 (by decide)
  | case3 c cs hne =>
      rw [prepare_cons hne] at hcons
      obtain rfl := eq_of_preparedChar (by decide) (by decide) (List.cons.inj hcons).1
      exact ⟨cs, rfl⟩

/-- Preparing a text opens no comment. -/
theorem infix_prepare {cs : List Char} (hwithin : ['/', '*'] <:+: prepare cs) :
    ['/', '*'] <:+: cs := by
  induction cs using prepare.induct with
  | case1 => exact hwithin
  | case2 cs ih =>
      rw [prepare] at hwithin
      rcases List.infix_cons_iff.mp hwithin with ⟨more, heq⟩ | hwithin
      · exact absurd (List.cons.inj heq).1 (by decide)
      · exact (ih hwithin).trans ⟨['\r', '\n'], [], by simp⟩
  | case3 c cs hne ih =>
      rw [prepare_cons hne] at hwithin
      rcases List.infix_cons_iff.mp hwithin with ⟨more, heq⟩ | hwithin
      · obtain ⟨hc, hcs⟩ := List.cons.inj heq
        obtain rfl := eq_of_preparedChar (by decide) (by decide) hc.symm
        obtain ⟨ds, rfl⟩ := head_prepare hcs.symm
        exact ⟨[], ds, rfl⟩
      · exact (ih hwithin).trans (List.suffix_cons c cs).isInfix

theorem IsPlain.smooth {css : List Char} (hplain : IsPlain css) : Smooth (prepare css) where
  escape hmem := by
    rcases mem_prepare hmem with heq | heq | ⟨hmem, -⟩
    · exact absurd heq (by decide)
    · exact absurd heq (by decide)
    · exact hplain.escape hmem
  comment hwithin := hplain.comment (infix_prepare hwithin)
  blank c hmem hblank := by
    rcases mem_prepare hmem with rfl | rfl | ⟨hmem, hsettled⟩
    · decide
    · exact absurd hblank (by decide)
    · rcases hplain.blank c hmem hblank with hspace | hreturn | hfeed
      · exact hspace
      · exact absurd hreturn hsettled.1
      · exact absurd hfeed hsettled.2.1
  null c hmem := by
    rcases mem_prepare hmem with rfl | rfl | ⟨-, hsettled⟩
    · decide
    · decide
    · exact hsettled.2.2

/-! ## Parts of natural lexemes -/

namespace Lexeme

theorem RunsInto.append_right {lexeme : Lexeme} {front : List Lexeme} (hruns : lexeme.RunsInto front)
    (back : List Lexeme) : lexeme.RunsInto (front ++ back) := by
  cases hruns with
  | blanks => exact .blanks
  | percent => exact .percent
  | numberArrow => exact .numberArrow
  | hyphens hc => exact .hyphens hc
  | signArrow hc => exact .signArrow hc
  | bars => exact .bars
  | comment => exact .comment
  | mark hnext => exact .mark hnext
  | codePoints hc hnext hd => exact .codePoints hc hnext hd
  | identArrow => exact .identArrow

/-- Part of the lexemes of a text without escapes are natural if no address is among them. -/
theorem Fair.natural {lexemes part : List Lexeme} (hfair : Fair lexemes) (hpart : part <:+: lexemes)
    (haddress : ∀ x ∈ part, x.isAddress = false) : Natural part := by
  obtain ⟨front, back, heq⟩ := hpart
  rw [List.append_assoc] at heq
  subst heq
  have hfront : Fair (part ++ back) := by
    induction front with
    | nil => exact hfair
    | cons lexeme front ih => exact ih hfair.2.2
  clear hfair
  induction part with
  | nil => trivial
  | cons lexeme part ih =>
      obtain ⟨hlexeme, hothers⟩ := List.forall_mem_cons.mp haddress
      exact ⟨hfront.1 hlexeme, fun hruns => hfront.2.1 (hruns.append_right back),
        ih hothers hfront.2.2⟩

/-- Lexemes that nothing before them runs into. -/
def Harmless (lexemes : List Lexeme) : Prop :=
  ∀ (lexeme : Lexeme) (front : List Lexeme), lexeme.RunsInto (front ++ lexemes) → lexeme.RunsInto front

theorem Natural.append {front back : List Lexeme} (hfront : Natural front) (hback : Natural back)
    (hharmless : Harmless back) : Natural (front ++ back) := by
  induction front with
  | nil => exact hback
  | cons lexeme front ih =>
      exact ⟨hfront.1, fun hruns => hfront.2.1 (hharmless lexeme front hruns), ih hfront.2.2⟩

/-- Nothing runs into a lexeme that starts with an unsuspicious character. -/
theorem harmless_of_head {next : Lexeme} {rest : List Lexeme}
    (hnext : ∀ lexeme : Lexeme, ¬ lexeme.RunsInto (next :: rest))
    (hhyphens : ¬ ['-', '-'] <+: next.write)
    (hhead : ∀ d ∈ next.write.head?, Text.isHexDigit d = false ∧ d ≠ '?') :
    Harmless (next :: rest) := by
  intro lexeme front hruns
  match front with
  | [] => exact absurd hruns (hnext lexeme)
  | [x] =>
      cases hruns with
      | blanks => exact .blanks
      | percent => exact .percent
      | numberArrow => exact .numberArrow
      | hyphens hc => exact .hyphens hc
      | signArrow hc => exact .signArrow hc
      | bars => exact .bars
      | comment => exact .comment
      | mark hmark => exact absurd hmark hhyphens
      | codePoints hc hnext hd =>
          obtain ⟨hhex, hquestion⟩ := hhead _ hnext
          rcases hd with hd | hd
          · exact absurd hd (by simp [hhex])
          · exact absurd hd hquestion
      | identArrow => exact .identArrow
  | x :: y :: front =>
      cases hruns with
      | blanks => exact .blanks
      | percent => exact .percent
      | numberArrow => exact .numberArrow
      | hyphens hc => exact .hyphens hc
      | signArrow hc => exact .signArrow hc
      | bars => exact .bars
      | comment => exact .comment
      | mark hmark => exact .mark hmark
      | codePoints hc hnext hd => exact .codePoints hc hnext hd
      | identArrow => exact .identArrow

theorem not_runsInto_closing (lexeme : Lexeme) (bracket : Bracket) (rest : List Lexeme) :
    ¬ lexeme.RunsInto (closing bracket :: rest) := by
  intro hruns
  cases hruns

theorem closing_not_runsInto (bracket : Bracket) (rest : List Lexeme) :
    ¬ (closing bracket).RunsInto rest := by
  intro hruns
  cases hruns

theorem harmless_closing (bracket : Bracket) (rest : List Lexeme) :
    Harmless (closing bracket :: rest) := by
  refine harmless_of_head (fun lexeme => not_runsInto_closing lexeme bracket rest) ?_ ?_
  · cases bracket <;> decide
  · intro d hmem
    obtain rfl := Option.some.inj hmem
    cases bracket <;> decide

theorem opening_not_runsInto (bracket : Bracket) (rest : List Lexeme) :
    ¬ (opening bracket).RunsInto rest := by
  intro hruns
  cases hruns

theorem harmless_opening (bracket : Bracket) (rest : List Lexeme) :
    Harmless (opening bracket :: rest) := by
  refine harmless_of_head (fun lexeme hruns => by cases hruns) ?_ ?_
  · cases bracket <;> decide
  · intro d hmem
    obtain rfl := Option.some.inj hmem
    cases bracket <;> decide

/-- Nothing runs into a piece of punctuation that is none of a few. -/
theorem harmless_sign {c : Char} (hc : c ∉ ['%', '-', '+', '!', '>', '?'])
    (hhex : Text.isHexDigit c = false) (rest : List Lexeme) :
    Harmless (token (.sign [c]) :: rest) := by
  refine harmless_of_head (fun lexeme hruns => ?_) ?_ fun d hmem => ?_
  · cases hruns with
    | percent => exact hc (by decide)
    | hyphens => exact hc (by decide)
    | mark => exact hc (by decide)
    | codePoints => exact hc (by decide)
    | identArrow => exact hc (by decide)
  · intro hstarts
    exact absurd (hstarts.length_le) (by simp [write, Token.write])
  · obtain rfl := Option.some.inj hmem
    refine ⟨hhex, ?_⟩
    rintro rfl
    exact hc (by decide)

/-- A piece of punctuation that is none of a few runs into nothing. -/
theorem sign_not_runsInto {c : Char} (hc : c ∉ ['#', '-', '@', '|', '/', '<'])
    (rest : List Lexeme) : ¬ (token (.sign [c])).RunsInto rest := by
  intro hruns
  cases hruns with
  | hyphens hsign => rcases hsign with rfl | rfl <;> exact hc (by decide)
  | signArrow hsign => rcases hsign with rfl | rfl | rfl <;> exact hc (by decide)
  | bars => exact hc (by decide)
  | comment => exact hc (by decide)
  | mark => exact hc (by decide)

theorem Fair.append_closers {lexemes closers : List Lexeme} (hfair : Fair lexemes)
    (hclosers : Closers closers) : Fair (lexemes ++ closers) := by
  have hharmless : Harmless closers := by
    cases closers with
    | nil =>
        intro lexeme front hruns
        rwa [List.append_nil] at hruns
    | cons x closers =>
        obtain ⟨⟨bracket, rfl⟩, -⟩ := List.forall_mem_cons.mp hclosers
        exact harmless_closing bracket closers
  induction lexemes with
  | nil =>
      clear hharmless
      induction closers with
      | nil => trivial
      | cons x closers ih =>
          obtain ⟨⟨bracket, rfl⟩, hothers⟩ := List.forall_mem_cons.mp hclosers
          exact ⟨fun _ => .closing bracket, closing_not_runsInto bracket closers, ih hothers⟩
  | cons lexeme lexemes ih =>
      exact ⟨hfair.1, fun hruns => hfair.2.1 (hharmless lexeme lexemes hruns), ih hfair.2.2⟩

end Lexeme

/-! ## Reading and reading again -/

theorem Lexeme.Spells.settled {lexemes : List Lexeme} {text : List Char}
    (hspells : Spells lexemes text) (hplain : ∀ x ∈ lexemes, x.Plain) :
    ∀ c ∈ text, IsSettled c := by
  induction hspells with
  | nil => simp
  | @cons lexeme lexemes written rest htext hrest ih =>
      obtain ⟨hlexeme, hothers⟩ := List.forall_mem_cons.mp hplain
      have hwritten : ∀ c ∈ written, IsSettled c := by
        have hall := hlexeme.writtenAs.settled
        cases htext with
        | whole => exact hall
        | cut hc =>
            rw [write_letter hc] at hall
            exact fun c hmem => hall c (List.mem_append_left _ hmem)
      have hgap : ∀ c ∈ gap lexeme lexemes, IsSettled c := by
        have hcomment : ∀ c ∈ "/**/".toList, IsClean c := clean_of_all (by decide)
        rcases gap_cases lexeme lexemes with heq | heq
        · simp [heq]
        · rw [heq]
          exact fun c hmem => (hcomment c hmem).settled
      intro c hmem
      rcases List.mem_append.mp hmem with hmem | hmem
      · exact hwritten c hmem
      · exact (List.mem_append.mp hmem).elim (hgap c) (ih hothers c)

theorem length_prepare_le (cs : List Char) : (prepare cs).length ≤ cs.length := by
  induction cs using prepare.induct with
  | case1 => exact Nat.le_refl 0
  | case2 cs ih =>
      rw [prepare, List.length_cons, List.length_cons, List.length_cons]
      omega
  | case3 c cs hne ih =>
      rw [prepare_cons hne, List.length_cons, List.length_cons]
      omega

/-- The nodes of a text without escapes consist of natural lexemes and addresses. -/
theorem fair_of_components {css : List Char} (hplain : IsPlain css) {nodes : List Node}
    (hread : components false css = .ok nodes) (hflaw : Node.containsFlaw nodes = false) :
    Lexeme.Fair (Node.lexemesAll nodes) := by
  obtain ⟨lexemes, hlex, hnodes⟩ := Fault.exists_of_bind_eq_ok hread
  cases hnodes
  obtain ⟨closers, hclosers, heq, hall⟩ := exists_closers hflaw
  have hreads := Lexeme.reads_of_lexIn hlex (length_prepare_le css) hplain.smooth hall
  rw [heq]
  exact hreads.fair.append_closers hclosers

theorem isFlaw_of_components {css : List Char} {nodes part : List Node}
    (hread : components false css = .ok nodes) (hflaw : Node.containsFlaw nodes = false)
    (hpart : Node.lexemesAll part <:+: Node.lexemesAll nodes) :
    ∀ x ∈ Node.lexemesAll part, x.isFlaw = false := by
  obtain ⟨lexemes, -, hnodes⟩ := Fault.exists_of_bind_eq_ok hread
  cases hnodes
  exact fun x hmem => flawless_nest hflaw x (hpart.subset hmem)

/-- Part of the nodes of a text without escapes has natural lexemes if it has no address. -/
theorem natural_of_components {css : List Char} (hplain : IsPlain css) {nodes part : List Node}
    (hread : components false css = .ok nodes) (hflaw : Node.containsFlaw nodes = false)
    (hpart : Node.lexemesAll part <:+: Node.lexemesAll nodes)
    (haddress : Node.containsUrl part = false) : Lexeme.Natural (Node.lexemesAll part) := by
  rw [Node.containsUrl_eq_any (isFlaw_of_components hread hflaw hpart),
    List.any_eq_false] at haddress
  exact (fair_of_components hplain hread hflaw).natural hpart
    fun x hmem => Bool.eq_false_iff.mpr (haddress x hmem)

/-- Plain lexemes make no address. -/
theorem containsUrl_of_plain {nodes : List Node} (hplain : ∀ x ∈ Node.lexemesAll nodes, x.Plain) :
    Node.containsUrl nodes = false := by
  rw [Node.containsUrl_eq_any fun x hmem => (hplain x hmem).not_isFlaw, List.any_eq_false]
  exact fun x hmem => Bool.eq_false_iff.mp (hplain x hmem).not_isAddress

/-- Plain lexemes make no place that cannot be read. -/
theorem holdsIn_isFlaw_of_plain {nodes : List Node}
    (hplain : ∀ x ∈ Node.lexemesAll nodes, x.Plain) : Node.holdsIn Node.isFlaw nodes = false := by
  have hflaw : ∀ x ∈ Node.lexemesAll nodes, x.isFlaw = false :=
    fun x hmem => (hplain x hmem).not_isFlaw
  rw [← Node.any_lexemesAll Node.isFlaw_shown _ (Node.made_of_lexemesAll _ hflaw),
    List.any_eq_false]
  exact fun x hmem => Bool.eq_false_iff.mp (hflaw x hmem)

/-- A spelling is read as the nodes that its lexemes make. -/
theorem components_of_spells {nodes : List Node} {text : List Char}
    (hnatural : Lexeme.Natural (Node.lexemesAll nodes))
    (hspells : Lexeme.Spells (Node.lexemesAll nodes) text) :
    components false text = .ok (Node.recasedAll nodes) := by
  have hsettled := hspells.settled hnatural.plain
  have hlex : lex false text = .ok ((Node.lexemesAll nodes).map Lexeme.recased) := by
    rw [lex, prepare_of_settled hsettled]
    exact (hspells.cuts hnatural).lexIn_eq (Nat.le_refl _)
  have hflaw : ∀ x ∈ Node.lexemesAll (Node.recasedAll nodes), x.isFlaw = false := by
    rw [Node.lexemesAll_recasedAll]
    intro x hmem
    obtain ⟨y, hy, rfl⟩ := List.mem_map.mp hmem
    rw [Lexeme.isFlaw_recased]
    exact (hnatural.plain y hy).not_isFlaw
  rw [components, hlex, ← Node.lexemesAll_recasedAll]
  exact congrArg Except.ok (nest_eq hflaw)

end Winnow.Css
