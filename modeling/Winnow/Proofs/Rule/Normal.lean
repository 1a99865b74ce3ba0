import Mathlib.Logic.Relation
import Winnow.Proofs.Rule

/-!
# Normal forms of rules

What is read from a line can be written as a line that reads as the same rule. Every other line
that has the same segments, but for blanks around them and for the case of what is not a selector,
is read as this rule too.
-/

namespace Winnow.Rule

/-! ## Writing rules -/

/-- The line that a rule is written as, unless it is an ignored one. -/
def written? : Rule → Option String
  | .tag name => some name
  | .attribute element name => some (element ++ "|" ++ name)
  | .style selector property => some ("style|" ++ selector ++ "|" ++ property)
  | .ignored _ => none

/-- A plain selector and a name behind the word for styles are read as the style rule of the two. -/
theorem parse_style {selector property : String} (hselector : isPlainName selector = true)
    (hne : selector ≠ "") (hproperty : IsName property) :
    parse ("style|" ++ selector ++ "|" ++ property) = .style selector property := by
  have hword : Text.lower "style" = "style" := by decide +kernel
  simp [parse, segments_style hselector hproperty.plain, ofSegments, hword, hproperty.lower, hne,
    hproperty.nonempty]

theorem parse_written {rule : Rule} (hrule : rule.IsNormal) {text : String}
    (hwritten : rule.written? = some text) : parse text = rule := by
  cases rule with
  | tag name =>
      cases hwritten
      exact parse_tag hrule
  | «attribute» element name =>
      cases hwritten
      exact parse_pair hrule.1 hrule.2
  | style selector property =>
      cases hwritten
      obtain ⟨hselector, hne, hproperty⟩ := hrule
      exact parse_style hselector hne hproperty
  | ignored reason => cases hwritten

/-! ## Other ways to write a line -/

/-- One change in how a line is written. -/
inductive Respells (line : String) : String → Prop
  /-- A segment has other letters of the same lower case. The case of a selector is its own. -/
  | recase {before after : List (List Char)} {old : List Char} (new : List Char)
      (hsegments : Text.splitAt '|' line.toList = before ++ old :: after)
      (hselector : ¬(before.length = 1 ∧ after.length = 1))
      (hlower : Text.lowerChars new = Text.lowerChars old) :
      Respells line (String.ofList (Text.joinWith ['|'] (before ++ new :: after)))
  /-- A segment has more blanks around it. -/
  | pad {before after : List (List Char)} {segment : List Char} (front back : List Char)
      (hsegments : Text.splitAt '|' line.toList = before ++ segment :: after)
      (hfront : ∀ c ∈ front, Text.isBlank c = true) (hback : ∀ c ∈ back, Text.isBlank c = true) :
      Respells line
        (String.ofList (Text.joinWith ['|'] (before ++ (front ++ (segment ++ back)) :: after)))

theorem not_mem_of_segments {line : String} {parts : List (List Char)}
    (hsegments : Text.splitAt '|' line.toList = parts) : ∀ segment ∈ parts, '|' ∉ segment := by
  intro segment hmem
  rw [← hsegments] at hmem
  exact Text.not_mem_of_mem_splitAt hmem

/-- Another segment in the place of one makes no other segments different. -/
theorem segments_exchanged {line : String} {before after : List (List Char)} {old new : List Char}
    (hsegments : Text.splitAt '|' line.toList = before ++ old :: after) (hnew : '|' ∉ new) :
    segments (String.ofList (Text.joinWith ['|'] (before ++ new :: after))) =
      before.map trimmed ++ trimmed new :: after.map trimmed := by
  have hbars := not_mem_of_segments hsegments
  simp only [List.forall_mem_append, List.forall_mem_cons] at hbars
  obtain ⟨hbefore, -, hafter⟩ := hbars
  rw [segments_eq, String.toList_ofList, Text.splitAt_joinWith]
  · simp
  · simp
  · simp only [List.forall_mem_append, List.forall_mem_cons]
    exact ⟨hbefore, hnew, hafter⟩

theorem segments_of_splitAt {line : String} {before after : List (List Char)} {old : List Char}
    (hsegments : Text.splitAt '|' line.toList = before ++ old :: after) :
    segments line = before.map trimmed ++ trimmed old :: after.map trimmed := by
  simp [segments_eq, hsegments]

/-- Only the lower-case forms of segments matter, but for the selector. -/
theorem ofSegments_recase {before after : List String} {old new : String}
    (hselector : ¬(before.length = 1 ∧ after.length = 1))
    (hlower : Text.lower new = Text.lower old) :
    ofSegments (before ++ new :: after) = ofSegments (before ++ old :: after) := by
  -- The cases are the places that one of up to three segments can have. More segments are ignored
  -- whatever they are.
  match before, after with
  | [], [] | [], [_] | [], [_, _] | [_], [] | [_, _], [] => simp [ofSegments, hlower]
  | [_], [_] => exact absurd ⟨rfl, rfl⟩ hselector
  | [], _ :: _ :: _ :: _ | [_], _ :: _ :: _ | [_, _], _ :: _ => simp [ofSegments]
  | _ :: _ :: _ :: _, _ => simp [ofSegments]

theorem bar_not_mem_recased {old new : List Char}
    (hlower : Text.lowerChars new = Text.lowerChars old) (hold : '|' ∉ old) : '|' ∉ new := by
  intro hmem
  have hbar : '|' ∈ Text.lowerChars new := Text.bar_mem_lowerAfter_iff.mpr hmem
  rw [hlower] at hbar
  exact hold (Text.bar_mem_lowerAfter_iff.mp hbar)

theorem bar_not_mem_padded {front segment back : List Char}
    (hfront : ∀ c ∈ front, Text.isBlank c = true) (hsegment : '|' ∉ segment)
    (hback : ∀ c ∈ back, Text.isBlank c = true) : '|' ∉ front ++ (segment ++ back) := by
  have hbar : Text.isBlank '|' ≠ true := by decide
  simp only [List.mem_append, not_or]
  exact ⟨fun hmem => hbar (hfront _ hmem), hsegment, fun hmem => hbar (hback _ hmem)⟩

theorem lower_trimmed_recased {old new : List Char}
    (hlower : Text.lowerChars new = Text.lowerChars old) :
    Text.lower (trimmed new) = Text.lower (trimmed old) := by
  simp only [trimmed, Text.lower, String.toList_ofList, ← Text.strip_lowerChars, hlower]

theorem Respells.parse_eq {line other : String} (hrespells : Respells line other) :
    parse other = parse line := by
  cases hrespells with
  | @recase before after old new hsegments hselector hlower =>
      have hold : '|' ∉ old := not_mem_of_segments hsegments old (by simp)
      rw [parse, parse, segments_exchanged hsegments (bar_not_mem_recased hlower hold),
        segments_of_splitAt hsegments]
      exact ofSegments_recase (by simpa using hselector) (lower_trimmed_recased hlower)
  | @pad before after segment front back hsegments hfront hback =>
      have hsegment : '|' ∉ segment := not_mem_of_segments hsegments segment (by simp)
      have htrimmed : trimmed (front ++ (segment ++ back)) = trimmed segment :=
        congrArg String.ofList (Text.strip_append segment hfront hback)
      rw [parse, parse, segments_exchanged hsegments (bar_not_mem_padded hfront hsegment hback),
        segments_of_splitAt hsegments, htrimmed]

/-- A rule that was read is read again from the line that it is written as, and from every line
that comes of changes in the case of tags, attributes, properties and the word for styles, and
of blanks around segments. -/
theorem parse_normalizes (line : String) :
    (∀ text, (parse line).written? = some text → parse text = parse line) ∧
      ∀ other, Relation.ReflTransGen Respells line other → parse other = parse line := by
  refine ⟨fun text hwritten => parse_written (isNormal_parse line) hwritten, ?_⟩
  intro other hchanges
  induction hchanges with
  | refl => rfl
  | tail _ hstep ih => exact hstep.parse_eq.trans ih

/-- A sigma at the end of a tag has its final form, however the tag is written, and a dotted
capital becomes two characters. -/
theorem parse_normalizes_sigma :
    (parse " ΟΔΟΣ |İd").written? = some "οδος|i\u0307d" ∧
      parse "οδος|i\u0307d" = parse " ΟΔΟΣ |İd" ∧
      Relation.ReflTransGen Respells " ΟΔΟΣ |İd" " οδοΣ |\u3000İd\t" ∧
      parse " οδοΣ |\u3000İd\t" = parse " ΟΔΟΣ |İd" := by
  have hwritten : (parse " ΟΔΟΣ |İd").written? = some "οδος|i\u0307d" := by decide +kernel
  have hrecased : Respells " ΟΔΟΣ |İd" " οδοΣ |İd" :=
    @Respells.recase _ [] ["İd".toList] " ΟΔΟΣ ".toList " οδοΣ ".toList (by decide +kernel)
      (by decide) (by decide +kernel)
  have hpadded : Respells " οδοΣ |İd" " οδοΣ |\u3000İd\t" :=
    @Respells.pad _ [" οδοΣ ".toList] [] "İd".toList ['\u3000'] ['\t'] (by decide +kernel)
      (List.forall_mem_singleton.mpr rfl) (List.forall_mem_singleton.mpr rfl)
  obtain ⟨hagain, hsame⟩ := parse_normalizes " ΟΔΟΣ |İd"
  have hchanges := (Relation.ReflTransGen.single hrecased).tail hpadded
  exact ⟨hwritten, hagain _ hwritten, hchanges, hsame _ hchanges⟩

end Winnow.Rule
