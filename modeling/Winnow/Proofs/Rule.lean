import Mathlib.Data.List.DropRight
import Winnow.Proofs.Text.Lowered
import Winnow.Proofs.Text.Split
import Winnow.Proofs.Text.Strip
import Winnow.Rule

/-!
# Names in rules

A name that holds no bar and has no blanks at its ends is read as it is written: alone it is a
tag rule, and behind another one and a bar it is an attribute rule. No other names are read from
rules.
-/

namespace Winnow.Rule

/-- May a name stand in a rule, so that it is one segment and nothing is trimmed off it? -/
def isPlainName (name : String) : Bool :=
  !name.toList.contains '|' && !name.toList.head?.any Text.isBlank &&
    !name.toList.getLast?.any Text.isBlank

variable {tag name : String}

theorem isPlainName_iff : isPlainName name = true ↔ '|' ∉ name.toList ∧
    (∀ c ∈ name.toList.head?, Text.isBlank c = false) ∧
      ∀ c ∈ name.toList.getLast?, Text.isBlank c = false := by
  have hend : ∀ found : Option Char, found.any Text.isBlank = false ↔
      ∀ c ∈ found, Text.isBlank c = false := by
    intro found
    cases found <;> simp
  simp only [isPlainName, Bool.and_eq_true, Bool.not_eq_true', and_assoc, hend,
    List.contains_eq_mem, decide_eq_false_iff_not]

theorem not_mem_of_isPlainName (hname : isPlainName name = true) : '|' ∉ name.toList :=
  (isPlainName_iff.mp hname).1

theorem strip_of_isPlainName (hname : isPlainName name = true) :
    Text.strip name.toList = name.toList := by
  obtain ⟨-, hhead, hlast⟩ := isPlainName_iff.mp hname
  exact Text.strip_eq_self hhead hlast

/-- A segment without the blanks around it. -/
def trimmed (segment : List Char) : String := String.ofList (Text.strip segment)

theorem segments_eq (line : String) :
    segments line = (Text.splitAt '|' line.toList).map trimmed := rfl

/-- Plain names with bars between them are the segments of their line. -/
theorem segments_of_joinWith {names : List String} {line : String} (hne : names ≠ [])
    (hnames : ∀ name ∈ names, isPlainName name = true)
    (hline : line.toList = Text.joinWith ['|'] (names.map String.toList)) :
    segments line = names := by
  have hbars : ∀ segment ∈ names.map String.toList, '|' ∉ segment := by
    intro segment hmem
    obtain ⟨name, hname, rfl⟩ := List.mem_map.mp hmem
    exact not_mem_of_isPlainName (hnames name hname)
  have htrimmed : ∀ name ∈ names, trimmed name.toList = name := by
    intro name hname
    rw [trimmed, strip_of_isPlainName (hnames name hname), String.ofList_toList]
  rw [segments_eq, hline, Text.splitAt_joinWith (by simpa using hne) hbars, List.map_map]
  exact (List.map_congr_left htrimmed).trans (List.map_id names)

theorem segments_of_isPlainName (hname : isPlainName name = true) : segments name = [name] :=
  segments_of_joinWith (by simp) (by simpa using hname) (by simp [Text.joinWith])

theorem segments_pair (htag : isPlainName tag = true) (hname : isPlainName name = true) :
    segments (tag ++ "|" ++ name) = [tag, name] :=
  segments_of_joinWith (by simp) (by simp [htag, hname]) (by simp [Text.joinWith])

theorem segments_style {selector property : String} (hselector : isPlainName selector = true)
    (hproperty : isPlainName property = true) :
    segments ("style|" ++ selector ++ "|" ++ property) = ["style", selector, property] := by
  have hword : isPlainName "style" = true := by decide +kernel
  exact segments_of_joinWith (by simp) (by simp [hword, hselector, hproperty])
    (by simp [Text.joinWith])

/-- A plain name in lower case, with which a rule can name what it admits. -/
structure IsName (name : String) : Prop where
  plain : isPlainName name = true
  nonempty : name ≠ ""
  lower : Text.lower name = name

/-- A name alone is read as the tag rule of this name. -/
theorem parse_tag (htag : IsName tag) : parse tag = .tag tag := by
  simp [parse, segments_of_isPlainName htag.plain, ofSegments, htag.lower, htag.nonempty]

/-- Two names with a bar between them are read as the attribute rule of the two. -/
theorem parse_pair (htag : IsName tag) (hname : IsName name) :
    parse (tag ++ "|" ++ name) = .attribute tag name := by
  simp [parse, segments_pair htag.plain hname.plain, ofSegments, htag.lower, hname.lower,
    htag.nonempty, hname.nonempty]

/-! ## Names that are read -/

theorem isPlainName_of_mem_segments {line : String} (hmem : name ∈ segments line) :
    isPlainName name = true := by
  obtain ⟨segment, hsegment, rfl⟩ := List.mem_map.mp hmem
  rw [isPlainName_iff, String.toList_ofList]
  exact ⟨fun hbar => Text.not_mem_of_mem_splitAt hsegment (Text.mem_of_mem_strip hbar),
    fun c => Text.isBlank_of_head?_strip, fun c => Text.isBlank_of_getLast?_strip⟩

/-- In lower case a plain name has no bars and no blanks at its ends either. -/
theorem isPlainName_lower (hname : isPlainName name = true) :
    isPlainName (Text.lower name) = true := by
  have hchars : (Text.lower name).toList = Text.lowerAfter [] name.toList := String.toList_ofList
  obtain ⟨hbar, hhead, hlast⟩ := isPlainName_iff.mp hname
  rw [isPlainName_iff, hchars, Text.bar_mem_lowerAfter_iff]
  exact ⟨hbar, fun d => Text.isBlank_of_head?_lowerAfter hhead,
    fun d => Text.isBlank_of_getLast?_lowerAfter hlast⟩

theorem isName_lower (hname : isPlainName name = true) (hne : Text.lower name ≠ "") :
    IsName (Text.lower name) where
  plain := isPlainName_lower hname
  nonempty := hne
  lower := Text.lower_lower name

/-- Are the parts of a rule such as are read from a line? A selector has its own case. -/
def IsNormal : Rule → Prop
  | .tag name => IsName name
  | .attribute tag name => IsName tag ∧ IsName name
  | .style selector property => isPlainName selector = true ∧ selector ≠ "" ∧ IsName property
  | .ignored _ => True

theorem isNormal_ofSegments {segments : List String}
    (hplain : ∀ segment ∈ segments, isPlainName segment = true) :
    (ofSegments segments).IsNormal := by
  unfold ofSegments
  split
  next element =>
    have helement := hplain element (by simp)
    dsimp only
    split
    · trivial
    next hne => exact isName_lower helement (by simpa using hne)
  next element attr =>
    have helement := hplain element (by simp)
    have hattr := hplain attr (by simp)
    dsimp only
    split
    · trivial
    next hne =>
      simp only [Bool.or_eq_true, String.isEmpty_iff, not_or] at hne
      exact ⟨isName_lower helement hne.1, isName_lower hattr hne.2⟩
  next word selector property =>
    have hselector := hplain selector (by simp)
    have hproperty := hplain property (by simp)
    split
    · trivial
    next =>
      dsimp only
      split
      · trivial
      next hne =>
        simp only [Bool.or_eq_true, String.isEmpty_iff, not_or] at hne
        exact ⟨hselector, hne.1, isName_lower hproperty hne.2⟩
  next => trivial

theorem isNormal_parse (line : String) : (parse line).IsNormal :=
  isNormal_ofSegments fun _ => isPlainName_of_mem_segments

/-- The names that a rule admits elements and attributes by. -/
def names : Rule → List String
  | .tag name => [name]
  | .attribute tag name => [tag, name]
  | .style _ _ | .ignored _ => []

theorem IsNormal.isName {rule : Rule} (hrule : rule.IsNormal) (hmem : name ∈ rule.names) :
    IsName name := by
  cases rule with
  | tag _ =>
      cases List.mem_singleton.mp hmem
      exact hrule
  | «attribute» tag attr =>
      rcases List.mem_pair.mp hmem with rfl | rfl
      · exact hrule.1
      · exact hrule.2
  | style _ _ => cases hmem
  | ignored _ => cases hmem

theorem isPlainName_of_mem_names {line : String} (hmem : name ∈ (parse line).names) :
    isPlainName name = true :=
  ((isNormal_parse line).isName hmem).plain

theorem lower_of_mem_names {value : Value} (hmem : name ∈ (ofValue value).names) :
    Text.lower name = name := by
  cases value with
  | text line => exact ((isNormal_parse line).isName hmem).lower
  | _ => cases hmem

/-- The items of an ordinary rule list are its lines. -/
theorem items_lines (rules : List String) : items (lines rules) = .ok (rules.map .text) := by
  cases rules with
  | nil => rfl
  | cons line rest => rfl

end Winnow.Rule
