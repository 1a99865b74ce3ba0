import Winnow.Proofs.Files
import Winnow.Proofs.Text.Lines
import Winnow.Proofs.Text.Strip
import Winnow.RuleFile

/-!
# Layouts of rule files

A file can have its rules on lines with any ends, with blanks around them, and with blank lines
and comments before, between and after them. However it is laid out, the rules that are read from
it are the ones that were written, in their order.
-/

namespace Winnow.RuleFile

/-! ## Layouts -/

/-- Blanks within a line. -/
structure Spacing where
  chars : List Char
  blank : ∀ c ∈ chars, Text.isBlank c = true
  unbroken : Text.Unbroken chars

def Spacing.none : Spacing := ⟨[], List.forall_mem_nil _, List.forall_mem_nil _⟩

def Spacing.single (c : Char) (hblank : Text.isBlank c = true)
    (hunbroken : Text.isLineBreak c = false) : Spacing :=
  ⟨[c], List.forall_mem_singleton.mpr hblank, List.forall_mem_singleton.mpr hunbroken⟩

/-- A text that a line can have as its rule. -/
structure Entry where
  text : String
  nonempty : text ≠ ""
  trimmed : Text.stripString text = text
  uncommented : text.toList.head? ≠ some '#'
  unbroken : Text.Unbroken text.toList

/-- A line without its end. -/
inductive Line where
  | blank (spacing : Spacing)
  | comment (front : Spacing) (words : List Char) (unbroken : Text.Unbroken words)
  | rule (front : Spacing) (entry : Entry) (back : Spacing)

/-- A line feed, a carriage return, or a carriage return with a line feed. -/
inductive LineEnd where
  | feed
  | carriageReturn
  | both

/-- Lines with ends, and a last line without one, which may be empty. -/
structure Layout where
  ended : List (Line × LineEnd)
  last : Line

def Line.chars : Line → List Char
  | blank spacing => spacing.chars
  | comment front words _ => front.chars ++ '#' :: words
  | rule front entry back => front.chars ++ (entry.text.toList ++ back.chars)

def Line.rule? : Line → Option Entry
  | rule _ entry _ => some entry
  | blank _ | comment _ _ _ => none

def LineEnd.chars : LineEnd → List Char
  | feed => ['\n']
  | carriageReturn => ['\r']
  | both => ['\r', '\n']

namespace Layout

def chars (layout : Layout) : List Char :=
  layout.ended.flatMap (fun line => line.1.chars ++ line.2.chars) ++ layout.last.chars

/-- The content of the file. -/
def text (layout : Layout) : String := String.ofList layout.chars

/-- The rules that are written, in their order. -/
def entries (layout : Layout) : List Entry :=
  layout.ended.filterMap (·.1.rule?) ++ layout.last.rule?.toList

end Layout

/-! ## Lines -/

theorem Line.unbroken (line : Line) : Text.Unbroken line.chars := by
  cases line with
  | blank spacing => exact spacing.unbroken
  | comment front words hwords =>
      exact front.unbroken.append (List.forall_mem_cons.mpr ⟨by decide, hwords⟩)
  | rule front entry back => exact front.unbroken.append (entry.unbroken.append back.unbroken)

/-- The rule of a line is the one that is written on it. -/
theorem Line.ruleOf?_chars (line : Line) :
    ruleOf? line.chars = line.rule?.map (·.text.toList) := by
  cases line with
  | blank spacing =>
      have hstrip := Text.strip_append [] spacing.blank (List.forall_mem_nil _)
      rw [List.append_nil, List.append_nil] at hstrip
      rw [chars, ruleOf?, hstrip]
      rfl
  | comment front words hwords =>
      -- Blanks may be at the end of the words too, but the number sign stays the first character.
      have hstrip := Text.strip_append ('#' :: words) front.blank (List.forall_mem_nil _)
      rw [List.append_nil, Text.strip_cons (by decide)] at hstrip
      rw [chars, ruleOf?, hstrip]
      rfl
  | rule front entry back =>
      have hstrip : Text.strip (front.chars ++ (entry.text.toList ++ back.chars)) =
          entry.text.toList := by
        rw [Text.strip_append _ front.blank back.blank]
        simpa [Text.stripString] using congrArg String.toList entry.trimmed
      rw [chars, ruleOf?, hstrip]
      split
      next hnil => exact absurd (String.toList_eq_nil_iff.mp hnil) entry.nonempty
      next hhash => exact absurd (by rw [hhash]; rfl) entry.uncommented
      next => rfl

/-! ## Files -/

theorem rules_of_unbroken {cs : List Char} (hcs : Text.Unbroken cs) :
    rules cs = (ruleOf? cs).toList := by
  rw [rules, Text.unifyLineEnds_of_not_mem (hcs.not_mem (by decide)), Text.lines_of_unbroken hcs]
  split
  next hnil =>
    subst hnil
    rfl
  next => cases hrule : ruleOf? cs <;> simp [hrule]

section Rest

variable {front : List Char} (hfront : Text.Unbroken front)
include hfront

/-- Only unified line ends count in what follows the start of a line. -/
theorem rules_append_congr {back other : List Char}
    (hunified : Text.unifyLineEnds back = Text.unifyLineEnds other) :
    rules (front ++ back) = rules (front ++ other) := by
  have hreturn : '\r' ∉ front := hfront.not_mem (by decide)
  rw [rules, rules, Text.unifyLineEnds_append hreturn, hunified, Text.unifyLineEnds_append hreturn]

theorem rules_feed (rest : List Char) :
    rules (front ++ '\n' :: rest) = (ruleOf? front).toList ++ rules rest := by
  rw [rules, Text.unifyLineEnds_append (hfront.not_mem (by decide)),
    Text.unifyLineEnds_cons (by decide), Text.lines_feed hfront]
  cases hrule : ruleOf? front <;> simp [hrule, rules]

/-- A line is read by itself, whatever its end is and whatever follows. -/
theorem rules_lineEnd (lineEnd : LineEnd) (rest : List Char) :
    rules (front ++ (lineEnd.chars ++ rest)) = (ruleOf? front).toList ++ rules rest := by
  have hboth : ∀ rest, rules (front ++ '\r' :: '\n' :: rest) =
      (ruleOf? front).toList ++ rules rest := by
    intro rest
    rw [← rules_feed hfront]
    apply rules_append_congr hfront
    exact (Text.unifyLineEnds_cons (by decide) rest).symm
  cases lineEnd with
  | feed => exact rules_feed hfront rest
  | both => exact hboth rest
  | carriageReturn =>
      by_cases hhead : rest.head? = some '\n'
      · -- The return and the feed are one line end. What is missing then is an empty line.
        obtain ⟨rest, rfl⟩ := List.head?_eq_some_iff.mp hhead
        have hempty := rules_feed (List.forall_mem_nil _) rest
        rw [List.nil_append] at hempty
        rw [hempty]
        exact hboth rest
      · rw [← rules_feed hfront]
        apply rules_append_congr hfront
        rw [LineEnd.chars, List.singleton_append, Text.unifyLineEnds_return hhead,
          Text.unifyLineEnds_cons (by decide)]

end Rest

theorem rules_chars (layout : Layout) :
    rules layout.chars = layout.entries.map (·.text.toList) := by
  obtain ⟨ended, last⟩ := layout
  -- What follows a line may start with any characters, even with a line feed after the return that
  -- ends the line, so the induction is on lines and not on characters.
  induction ended with
  | nil =>
      change rules last.chars = List.map _ last.rule?.toList
      rw [rules_of_unbroken last.unbroken, last.ruleOf?_chars]
      cases last.rule? <;> rfl
  | cons line ended ih =>
      obtain ⟨line, lineEnd⟩ := line
      rw [Layout.chars, List.flatMap_cons, List.append_assoc, List.append_assoc,
        rules_lineEnd line.unbroken, line.ruleOf?_chars]
      change _ ++ rules (Layout.chars ⟨ended, last⟩) = _
      rw [ih]
      cases hentry : line.rule? <;> simp [Layout.entries, hentry]

theorem read_text (layout : Layout) : read layout.text = layout.entries.map Entry.text := by
  rw [read, Layout.text, String.toList_ofList, rules_chars]
  simp

/-- Unifying line ends before leaves the rules as they are. -/
theorem read_unifyLineEnds (content : String) :
    read (String.ofList (Text.unifyLineEnds content.toList)) = read content := by
  rw [read, read, rules, String.toList_ofList,
    Text.unifyLineEnds_of_not_mem (Text.not_mem_unifyLineEnds _), ← rules]

/-- From a file that can be read and holds rules in some layout, exactly these rules are read, in
their order. -/
theorem read_layout (layout : Layout) {files : Files} {path : String}
    (hpath : Char.ofNat 0 ∉ (Files.tidyPath path).toList)
    (hbytes : files (Files.tidyPath path) = .ok layout.text.toUTF8) :
    ∃ content, files.readText path = .ok (.ok content) ∧
      read content = layout.entries.map Entry.text := by
  refine ⟨_, (Files.Reads.intro hpath hbytes).readText, ?_⟩
  rw [read_unifyLineEnds, read_text]

/-- A comment, a blank line between two rules, and all ends of lines. -/
def mixed : Layout where
  ended := [
    (.comment (.single ' ' rfl rfl) " rules".toList (by decide), .carriageReturn),
    (.rule .none ⟨"p", by decide, by decide, by decide, by decide⟩ (.single '\t' rfl rfl),
      .carriageReturn),
    (.blank .none, .feed),
    (.rule (.single '\u3000' rfl rfl)
      ⟨"a | href", by decide, by decide, by decide, by decide⟩ .none, .both)]
  last := .rule .none ⟨"style|p|color", by decide, by decide, by decide, by decide⟩ .none

/-- A return and the feed of an empty line after it are read as one line end. -/
theorem read_layout_mixed :
    mixed.text = " # rules\rp\t\r\n\u3000a | href\r\nstyle|p|color" ∧
      Char.ofNat 0 ∉ (Files.tidyPath "rules.txt").toList ∧
      ∃ content, Files.readText (fun _ => .ok mixed.text.toUTF8) "rules.txt" = .ok (.ok content) ∧
        read content = ["p", "a | href", "style|p|color"] := by
  have hpath : Char.ofNat 0 ∉ (Files.tidyPath "rules.txt").toList := by decide +kernel
  refine ⟨by decide, hpath, ?_⟩
  exact @read_layout mixed (fun _ => .ok mixed.text.toUTF8) "rules.txt" hpath rfl

end Winnow.RuleFile
