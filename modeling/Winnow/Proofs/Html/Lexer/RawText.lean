import Winnow.Document.Markup
import Winnow.Proofs.Html.Lexer.Name
import Winnow.Proofs.Html.Lexer.Segment
import Winnow.Proofs.Text.Lines

/-!
# Raw text up to its end tag

Raw text without opening brackets is read in one piece up to the end tag that is written behind
it, and after this tag everything is markup again.
-/

namespace Winnow.Html

/-- Is this text, as the raw content of an element of this name, closed by the end tag behind it
and by nothing before? -/
def ClosesBehind (name text : String) : Prop :=
  ∀ (lexer : Lexer) (foreign : Bool) (rest : List Char), lexer.model = .raw →
    lexer.lastStart = name →
    lexer.input = Text.unifyLineEnds (text.toList ++ ((Markup.endTag name).toList ++ rest)) →
    ∃ next,
      lexer.step foreign =
        .ok ([Lexer.textToken ((Text.unifyLineEnds text.toList).map replaceNull)], next) ∧
      next.step foreign =
        .ok ([.endTag name], { lexer with input := Text.unifyLineEnds rest, model := .markup })

namespace Lexer

variable {lexer : Lexer}

/-- Raw text is read up to the next opening bracket. -/
theorem step_raw_text {text rest : List Char} (hmodel : lexer.model = .raw) (htext : '<' ∉ text)
    (hne : text ≠ []) (hinput : lexer.input = text ++ '<' :: rest) (foreign : Bool) :
    lexer.step foreign = .ok ([textToken (text.map replaceNull)], lexer.rest ('<' :: rest)) := by
  obtain ⟨c, cs, rfl⟩ := List.exists_cons_of_ne_nil hne
  have hc : c ≠ '<' := fun heq => htext (heq ▸ List.mem_cons_self)
  have hcs : ∀ d ∈ cs, (d != '<') = true := fun d hmem =>
    bne_iff_ne.mpr fun heq => htext (heq ▸ List.mem_cons_of_mem _ hmem)
  have hstop : ('<' :: rest).takeWhile (· != '<') = [] ∧
      ('<' :: rest).dropWhile (· != '<') = '<' :: rest := ⟨rfl, rfl⟩
  unfold step
  rw [hinput, List.cons_append, hmodel]
  dsimp only
  rw [if_neg hc, List.takeWhile_append_of_pos hcs, List.dropWhile_append_of_pos hcs, hstop.1,
    hstop.2, List.append_nil]

/-- The name of the latest start tag, if it consists of letters. -/
structure NamesEnd (lexer : Lexer) (name : String) : Prop where
  lastStart : lexer.lastStart = name
  nonempty : name ≠ ""
  letters : ∀ c ∈ name.toList, Text.isAsciiLetter c = true

theorem NamesEnd.endTagAhead {name : String} (hnames : lexer.NamesEnd name) (rest : List Char) :
    endTagAhead? lexer.lastStart ('/' :: (name.toList ++ '>' :: rest)) = some ('>' :: rest) := by
  have hascii : ∀ c ∈ name.toList, c.toNat < 0x80 := by
    intro c hmem
    have hc := hnames.letters c hmem
    simp only [Text.isAsciiLetter, Bool.or_eq_true, Bool.and_eq_true, decide_eq_true_eq] at hc
    rcases hc with ⟨-, hhigh⟩ | ⟨-, hhigh⟩
    · exact Nat.lt_of_le_of_lt hhigh (by decide)
    · exact Nat.lt_of_le_of_lt hhigh (by decide)
  have hlower : String.ofList (name.toList.map Text.asciiLowerChar) = Text.lower name :=
    (Text.lower_eq_asciiLower hascii).symm
  have hne : name.toList.isEmpty = false :=
    List.isEmpty_eq_false_iff.mpr (mt String.toList_eq_nil_iff.mp hnames.nonempty)
  have htake : (name.toList ++ '>' :: rest).takeWhile Text.isAsciiLetter = name.toList := by
    rw [List.takeWhile_append_of_pos hnames.letters, List.takeWhile_cons_of_neg (by decide),
      List.append_nil]
  have hdrop : (name.toList ++ '>' :: rest).dropWhile Text.isAsciiLetter = '>' :: rest := by
    rw [List.dropWhile_append_of_pos hnames.letters, List.dropWhile_cons_of_neg (by decide)]
  rw [hnames.lastStart, endTagAhead?, htake, hdrop, hlower, hne]
  simp

/-- The end tag of the element ends its raw content. -/
theorem NamesEnd.step_raw {name : String} (hnames : lexer.NamesEnd name)
    (hmodel : lexer.model = .raw) {rest : List Char}
    (hinput : lexer.input = '<' :: '/' :: (name.toList ++ '>' :: rest)) (foreign : Bool) :
    lexer.step foreign = .ok ([.endTag name], { lexer with input := rest, model := .markup }) := by
  unfold step
  rw [hinput, hmodel]
  dsimp only
  rw [if_pos rfl, readRawBracket, hnames.endTagAhead]
  dsimp only
  rw [readTag, hnames.lastStart]
  have hrun : TagDraft.run lexer.expand true { name := name.toList.reverse } 0 ('>' :: rest) =
      .ok ([.endTag name], rest) := by
    change Except.ok ([Token.endTag (String.ofList name.toList.reverse.reverse)], rest) = _
    rw [List.reverse_reverse, String.ofList_toList]
  rw [hrun]
  rfl

end Lexer

/-- Without opening brackets in it, raw text of an element is closed by its end tag only. -/
theorem closesBehind_of_not_mem {name text : String} (hname : name ≠ "")
    (hletters : ∀ c ∈ name.toList, Text.isAsciiLetter c = true) (htext : '<' ∉ text.toList)
    (hne : text ≠ "") : ClosesBehind name text := by
  intro lexer foreign rest hmodel hstart hinput
  have hnames : lexer.NamesEnd name := ⟨hstart, hname, hletters⟩
  have htag : (Markup.endTag name).toList ++ rest = '<' :: '/' :: (name.toList ++ '>' :: rest) := by
    simp [Markup.endTag]
  have hreturn : '\r' ∉ name.toList := fun hmem => absurd (hletters _ hmem) (by decide)
  have hfront : '\r' ∉ '<' :: '/' :: (name.toList ++ ['>']) := by simp [hreturn]
  have hunified : lexer.input = Text.unifyLineEnds text.toList ++
      '<' :: '/' :: (name.toList ++ '>' :: Text.unifyLineEnds rest) := by
    have htail := Text.unifyLineEnds_append hfront rest
    rw [hinput, htag, Text.unifyLineEnds_append_of_head? (by simp)]
    simpa using htail
  have hbracket : '<' ∉ Text.unifyLineEnds text.toList := fun hmem =>
    (Text.mem_of_mem_unifyLineEnds hmem).elim htext (by decide)
  have hfilled : Text.unifyLineEnds text.toList ≠ [] :=
    Text.unifyLineEnds_ne_nil (mt String.toList_eq_nil_iff.mp hne)
  refine ⟨_, Lexer.step_raw_text hmodel hbracket hfilled hunified foreign, ?_⟩
  have hrest : (lexer.rest ('<' :: '/' :: (name.toList ++ '>' :: Text.unifyLineEnds rest))).NamesEnd
      name := ⟨hstart, hname, hletters⟩
  exact hrest.step_raw hmodel rfl foreign

end Winnow.Html
