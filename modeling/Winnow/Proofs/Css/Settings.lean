import Winnow.Css.Filter
import Winnow.Proofs.Css.Declarations
import Winnow.Proofs.Css.Property

/-!
# Settings that are read again

A filter writes the declarations that it keeps as settings. The text of the settings spells the
declarations, without the white space around their values.
-/

namespace Winnow.Css

/-! ## Punctuation that needs no gap -/

namespace Lexeme

theorem loose_sign {c : Char} (hc : c ∉ ['-', '?', '=', '|', '*']) (rest : List Lexeme) :
    Loose (token (.sign [c]) :: rest) := by
  intro lexeme
  have hclash : lexeme.shape.clashes (token (.sign [c])).shape = false := by
    simp only [List.mem_cons, List.not_mem_nil, or_false, not_or] at hc
    simp [shape, Node.shape, Shape.clashes, Shape.startsWithName, Shape.startsWithDigit,
      Shape.isSignIn, hc]
  exact gap_of_not_clashes hclash rest

theorem open_sign {c : Char}
    (hc : c ∉ ['#', '-', '@', '.', '+', '$', '*', '^', '~', '|', '/']) :
    Open (token (.sign [c])) := by
  intro right
  simp only [List.mem_cons, List.not_mem_nil, or_false, not_or] at hc
  simp [shape, Node.shape, Shape.clashes, Shape.endsInName, Shape.isSignIn, hc]

/-- A lexeme that is written as it is, before others that need no gap. -/
theorem Spells.cons_whole {lexeme : Lexeme} {rest : List Lexeme} {tail : List Char}
    (hgap : gap lexeme rest = []) (hrest : Spells rest tail) :
    Spells (lexeme :: rest) (lexeme.write ++ tail) := by
  have hspells := Spells.cons (.whole lexeme (gap lexeme rest ++ tail)) hrest
  rwa [hgap] at hspells

end Lexeme

/-! ## The text of settings -/

namespace Entry

/-- The setting that is written for a declaration. -/
def setting (entry : Entry) : Setting :=
  { property := entry.name, value := valueText entry.value ++ importantMark entry.important }

/-- A declaration of a property whose value can be written and read again. -/
structure Proper (entry : Entry) : Prop where
  name : isProperty entry.name = true
  natural : Lexeme.Natural (Node.lexemesAll entry.value)
  trimmed : trimmed entry.value = entry.value

/-- The lexemes of the mark of importance. -/
def markLexemes (important : Bool) : List Lexeme :=
  if important then [.token (.sign ['!']), .token (.ident importantName)] else []

theorem lexemesAll_nodes (entry : Entry) : Node.lexemesAll entry.nodes =
    .token (.ident entry.name) :: .token (.sign [':']) ::
      (Node.lexemesAll entry.value ++ markLexemes entry.important) := by
  rw [nodes, Node.lexemesAll, Node.lexemesAll, Node.lexemesAll_append]
  cases entry.important <;> rfl

/-- What may follow the settings. -/
structure Follows (rest : List Lexeme) (tail : List Char) : Prop where
  spells : Lexeme.Spells rest tail
  loose : Lexeme.Loose rest
  digit : Stops Text.isHexDigit tail
  space : Stops isSpace tail

theorem follows_nil : Follows [] [] where
  spells := .nil
  loose := Lexeme.loose_nil
  digit := stops_nil _
  space := stops_nil _

theorem Follows.semicolon {rest : List Lexeme} {tail : List Char}
    (hspells : Lexeme.Spells rest tail) :
    Follows (.token (.sign [';']) :: rest) (';' :: tail) where
  spells := .cons_whole (Lexeme.gap_of_open (Lexeme.open_sign (by decide)) rest) hspells
  loose := Lexeme.loose_sign (by decide) rest
  digit := stops_cons.mpr (by decide)
  space := stops_cons.mpr (by decide)

theorem Follows.important {rest : List Lexeme} {tail : List Char} (hfollows : Follows rest tail)
    (important : Bool) :
    Follows (markLexemes important ++ rest) (importantMark important ++ tail) := by
  cases important with
  | false => exact hfollows
  | true => exact {
      spells := .cons_whole (Lexeme.gap_of_open (Lexeme.open_sign (by decide)) _)
        (.cons_whole (hfollows.loose (.token (.ident importantName))) hfollows.spells)
      loose := Lexeme.loose_sign (by decide) _
      digit := stops_cons.mpr (by decide)
      space := stops_cons.mpr (by decide) }

/-- A setting spells its declaration. -/
theorem spells_setting {entry : Entry} (hproper : entry.Proper) {rest : List Lexeme}
    {tail : List Char} (hfollows : Follows rest tail) :
    Lexeme.Spells (Node.lexemesAll entry.nodes ++ rest) (entry.setting.write ++ tail) := by
  have hname : (Lexeme.token (.ident entry.name)).write = entry.name :=
    (isIdent_of_isProperty hproper.name).write_eq
  have hmark := hfollows.important entry.important
  have hvalue := spells_strip hproper.natural.plain hmark.spells hmark.loose hmark.digit hmark.space
  rw [hproper.trimmed] at hvalue
  have hcolon := Lexeme.Spells.cons_whole
    (Lexeme.gap_of_open (Lexeme.open_sign (c := ':') (by decide)) _) hvalue
  have hall := Lexeme.Spells.cons_whole (Lexeme.loose_sign (c := ':') (by decide) _
    (.token (.ident entry.name))) hcolon
  rw [hname] at hall
  rw [lexemesAll_nodes]
  simpa [setting, Setting.write, valueText, Lexeme.write, Token.write] using hall

/-- The text of settings spells the declarations. -/
theorem spells_settings {entries : List Entry} (hproper : ∀ entry ∈ entries, entry.Proper)
    {rest : List Lexeme} {tail : List Char} (hfollows : Follows rest tail) :
    Lexeme.Spells (Node.lexemesAll (nodesAll entries) ++ rest)
      (writeSettings (entries.map setting) ++ tail) := by
  induction entries with
  | nil => exact hfollows.spells
  | cons entry others ih =>
      obtain ⟨hentry, hothers⟩ := List.forall_mem_cons.mp hproper
      cases others with
      | nil => exact spells_setting hentry hfollows
      | cons next others =>
          have hall := spells_setting hentry (.semicolon (ih hothers))
          have hnodes : Node.lexemesAll (nodesAll (entry :: next :: others)) ++ rest =
              Node.lexemesAll entry.nodes ++ .token (.sign [';']) ::
                (Node.lexemesAll (nodesAll (next :: others)) ++ rest) := by
            rw [nodesAll, Node.lexemesAll_append, Node.lexemesAll]
            · simp [Node.lexemes]
            · simp
          have htext : writeSettings ((entry :: next :: others).map setting) ++ tail =
              entry.setting.write ++ ';' ::
                (writeSettings ((next :: others).map setting) ++ tail) := by
            simp [writeSettings, Text.joinWith]
          rw [hnodes, htext]
          exact hall

/-! ## Their lexemes -/

theorem harmless_mark (rest : List Lexeme) :
    Lexeme.Harmless (.token (.sign ['!']) :: .token (.ident importantName) :: rest) := by
  refine Lexeme.harmless_of_head (fun lexeme hruns => ?_) (by decide) fun d hmem => ?_
  · cases hruns with
    | mark hnext => exact absurd hnext (by decide)
  · obtain rfl := Option.some.inj hmem
    decide

theorem natural_ident {name : List Char} (hname : IsIdent name) :
    Lexeme.Natural [.token (.ident name)] :=
  ⟨.ident hname, nofun, trivial⟩

theorem natural_sign {c : Char} (hsign : isSignChar c = true)
    (hc : c ∉ ['#', '-', '@', '|', '/', '<']) {rest : List Lexeme} (hrest : Lexeme.Natural rest) :
    Lexeme.Natural (.token (.sign [c]) :: rest) :=
  ⟨.sign (.single hsign), Lexeme.sign_not_runsInto hc rest, hrest⟩

/-- What can be read after the settings. -/
structure Continues (rest : List Lexeme) : Prop where
  natural : Lexeme.Natural rest
  harmless : Lexeme.Harmless rest

theorem continues_nil : Continues [] where
  natural := trivial
  harmless lexeme front hruns := by rwa [List.append_nil] at hruns

theorem Continues.sign {c : Char} (hsign : isSignChar c = true)
    (hc : c ∉ ['#', '-', '@', '|', '/', '<', '%', '+', '!', '>', '?'])
    (hhex : Text.isHexDigit c = false) {rest : List Lexeme} (hrest : Lexeme.Natural rest) :
    Continues (.token (.sign [c]) :: rest) where
  natural := natural_sign hsign (by simp_all) hrest
  harmless := Lexeme.harmless_sign (by simp_all) hhex rest

theorem isIdent_importantName : IsIdent importantName :=
  isIdent_of_isProperty (by decide)

theorem Continues.important {rest : List Lexeme} (hrest : Continues rest) (important : Bool) :
    Continues (markLexemes important ++ rest) := by
  cases important with
  | false => exact hrest
  | true => exact {
      natural := natural_sign (by decide) (by decide)
        ((natural_ident isIdent_importantName).append hrest.natural hrest.harmless)
      harmless := harmless_mark rest }

theorem natural_nodes {entry : Entry} (hproper : entry.Proper) {rest : List Lexeme}
    (hrest : Continues rest) : Lexeme.Natural (Node.lexemesAll entry.nodes ++ rest) := by
  have hmark := hrest.important entry.important
  have hvalue := hproper.natural.append hmark.natural hmark.harmless
  have hcolon := Continues.sign (c := ':') (by decide) (by decide) (by decide) hvalue
  have hname := (natural_ident (isIdent_of_isProperty hproper.name)).append hcolon.natural
    hcolon.harmless
  rw [lexemesAll_nodes]
  simpa using hname

/-- The lexemes of settings are natural. -/
theorem natural_nodesAll {entries : List Entry} (hproper : ∀ entry ∈ entries, entry.Proper)
    {rest : List Lexeme} (hrest : Continues rest) :
    Lexeme.Natural (Node.lexemesAll (nodesAll entries) ++ rest) := by
  induction entries with
  | nil => exact hrest.natural
  | cons entry others ih =>
      obtain ⟨hentry, hothers⟩ := List.forall_mem_cons.mp hproper
      cases others with
      | nil => exact natural_nodes hentry hrest
      | cons next others =>
          have hall := natural_nodes hentry
            (.sign (c := ';') (by decide) (by decide) (by decide) (ih hothers))
          rw [nodesAll, Node.lexemesAll_append, Node.lexemesAll]
          · simpa [Node.lexemes] using hall
          · simp

end Entry

end Winnow.Css
