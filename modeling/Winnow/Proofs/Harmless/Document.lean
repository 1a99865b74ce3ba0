import Winnow.Proofs.Document.Whole
import Winnow.Proofs.Enforcement.Left
import Winnow.Proofs.Harmless.Source
import Winnow.Proofs.Html.Lexer.Read
import Winnow.Proofs.Screen.Tables

/-!
# What a policy leaves is written as markup that does no harm

If a policy keeps no element whose content is read as text, and names its attributes plainly, the
document that a pass leaves is written as parts of markup that are read as they are written.
-/

namespace Winnow

open Html

namespace Policy

/-- Does a policy keep no element whose content is read as text? -/
def KeepsNoRawText (policy : Policy) : Prop :=
  ∀ name ∈ textTags, policy.forbids name = true ∨ policy.effectiveBudget name = 0

/-- Has no attribute that the rules name an equals sign or a brace in front, which would be taken
for the sign before a value or for a namespace? -/
def NamesPlainly (policy : Policy) : Prop :=
  ∀ name ∈ policy.attrAllow.flatMap (·.2),
    name.toList.head? ≠ some '=' ∧ name.toList.head? ≠ some '\x7b'

instance (policy : Policy) : Decidable policy.KeepsNoRawText :=
  inferInstanceAs (Decidable (∀ name ∈ textTags,
    policy.forbids name = true ∨ policy.effectiveBudget name = 0))

instance (policy : Policy) : Decidable policy.NamesPlainly :=
  inferInstanceAs (Decidable (∀ name ∈ policy.attrAllow.flatMap (·.2),
    name.toList.head? ≠ some '=' ∧ name.toList.head? ≠ some '\x7b'))

end Policy

/-- A node that is written as markup that does no harm. -/
inductive Label.Tame (label : Label) : Prop
  | document (htag : label.tag = "#document")
  | text (htag : label.tag = "#text")
  | comment (htag : label.tag = "#comment") (hcomment : IsComment label.text.toList)
  | element (htag : IsQuietTag label.tag)
      (hattributes : ∀ entry ∈ label.attributes,
        IsPlainName entry.1 ∧ Harmless entry.1 (entry.2.getD ""))

theorem Label.Tame.of_isElement {label : Label} (htame : label.Tame)
    (helement : label.isElement = true) : IsQuietTag label.tag ∧
      ∀ entry ∈ label.attributes, IsPlainName entry.1 ∧ Harmless entry.1 (entry.2.getD "") := by
  have hother : ∀ tag : String, tag.toList.head? = some '#' → label.tag ≠ tag := by
    rintro tag hhead rfl
    simp [Label.isElement, hhead] at helement
  cases htame with
  | document htag => exact absurd htag (hother _ (by decide))
  | text htag => exact absurd htag (hother _ (by decide))
  | comment htag => exact absurd htag (hother _ (by decide))
  | element htag hattributes => exact ⟨htag, hattributes⟩

/-! ## Nodes that are left -/

theorem Html.Source.GivesTag.isTagName {tag : String} (htag : Source.lexed.GivesTag tag) :
    IsTagName tag.toList :=
  htag.of_given (fun name (hname : Source.lexed.tag name) => hname.1)
    fun _ hmem => (isQuietTag_given _ hmem).1

theorem Html.Source.GivesAttribute.isFieldName {entry : String × Option String}
    (hentry : Source.lexed.GivesAttribute entry) : IsFieldName entry.1.toList := by
  obtain ⟨name, value, hpair, -, heq | ⟨hexpands, -⟩⟩ := hentry
  · rw [heq]
    exact hpair.of_given (p := fun name _ => IsFieldName name.toList)
      (fun name value (hname : Source.lexed.pair name value) => hname.1)
      fun _ hmem _ => (of_mem_givenNames hmem).1.field
  · exact hexpands.elim

/-- A sign in front of a name stands in front of its lower-case form. -/
theorem head?_lower {name : String} {c : Char} (hc : c.toNat < 0x80)
    (hhead : name.toList.head? = some c) :
    (Text.lower name).toList.head? = some (Text.asciiLowerChar c) := by
  obtain ⟨cs, hname⟩ := List.head?_eq_some_iff.mp hhead
  rw [Text.lower, String.toList_ofList, hname, Text.lowerChars, Text.lowerAfter_of_ascii hc,
    List.head?_cons]

namespace Policy

variable {policy : Policy}

theorem NamesPlainly.of_allowed (hnames : policy.NamesPlainly) {tag name : String}
    (hallowed : name ∈ policy.allowedAttributes tag) :
    name.toList.head? ≠ some '=' ∧ name.toList.head? ≠ some '\x7b' := by
  have hconventional : ∀ name ∈ conventionalEverywhere ++ conventionalByTag.flatMap (·.2),
      name.toList.head? ≠ some '=' ∧ name.toList.head? ≠ some '\x7b' := by decide
  rcases List.mem_append.mp (mem_namedAttributes_of_allowed hallowed) with hlisted | hmem
  · exact hnames name hlisted
  · split at hmem
    next => exact hconventional name hmem
    next => cases hmem

theorem Granted.isPlainName (hnames : policy.NamesPlainly) {tag : String}
    {attributes : Attributes} {entry : String × Option String}
    (hgranted : policy.Granted tag attributes entry) (hfield : IsFieldName entry.1.toList) :
    IsPlainName entry.1 := by
  obtain ⟨hequals, hbrace⟩ := hnames.of_allowed hgranted.allowed
  exact ⟨hfield, fun hhead => hequals (head?_lower (by decide) hhead),
    fun hhead => hbrace (head?_lower (by decide) hhead)⟩

theorem Granted.isHarmless (hscripts : policy.config.allowJavaScript = false) {tag : String}
    {attributes : Attributes} {entry : String × Option String}
    (hgranted : policy.Granted tag attributes entry) : Harmless entry.1 (entry.2.getD "") where
  handler := hgranted.harmless hscripts
  address := hgranted.safe hscripts

/-- No element that stays holds content that is read as text. -/
theorem KeepsNoRawText.not_mem (hraw : policy.KeepsNoRawText) {before after : Label}
    (hcomplies : policy.Complies before after) : Text.asciiLower after.tag ∉ textTags := by
  have hlower : ∀ name ∈ textTags, Text.lower name = name ∧ isStructural name = false := by decide
  intro hmem
  obtain ⟨hname, hstructural⟩ := hlower _ hmem
  rw [Text.lower_asciiLower] at hname
  rw [← hname] at hmem hstructural
  rcases hraw _ hmem with hforbidden | hnone
  · rw [hcomplies.allowed] at hforbidden
    cases hforbidden
  · have hbudget := hcomplies.budget hstructural
    rw [hnone] at hbudget
    cases hbudget

/-- An element that stays is tame. -/
theorem Complies.tame (hscripts : policy.config.allowJavaScript = false)
    (hraw : policy.KeepsNoRawText) (hnames : policy.NamesPlainly) {before after : Label}
    (hcomplies : policy.Complies before after) (helement : before.isElement = true)
    (hgives : Source.lexed.Gives before) : after.Tame := by
  obtain ⟨htag, hattributes⟩ := hgives.of_isElement helement
  refine .element ⟨hcomplies.tag ▸ htag.isTagName, hraw.not_mem hcomplies⟩ fun entry hmem => ?_
  obtain ⟨origin, horigin, heq⟩ := List.mem_map.mp
    (hcomplies.names.subset (List.mem_map_of_mem hmem))
  have hfield := (hattributes origin horigin).isFieldName
  rw [heq] at hfield
  have hgranted := hcomplies.granted entry hmem
  exact ⟨hgranted.isPlainName hnames hfield, hgranted.isHarmless hscripts⟩

end Policy

/-- Of a text that is read a pass leaves tame nodes. -/
theorem Tree.tame_of_enforce {policy : Policy} (hscripts : policy.config.allowJavaScript = false)
    (hraw : policy.KeepsNoRawText) (hnames : policy.NamesPlainly) {text : String}
    {tree document : Tree} {tally : Tally} (hparse : Html.parse text = .ok tree)
    (hroot : tree.label.tag = "#document")
    (henforce : tree.enforce policy = .ok (document, tally)) : document.All Label.Tame := by
  refine Tree.all_of_enforce (p := Source.lexed.Gives) (fun hother hgives => ?_)
    (fun hafter hgives hcomplies => ?_) (fun _ => .text rfl) hroot
    (all_gives_of_parse Source.steady_lexed trivial hparse) henforce
  · cases hgives with
    | text htag => exact .text htag
    | document htag => exact .document htag
    | comment htag hcomment => exact .comment htag hcomment
    | element htag hattributes =>
        -- A name that was read starts with a letter, so the node is an element after all.
        obtain ⟨c, cs, hname, hc, -⟩ := htag.isTagName
        have hhash : c ≠ '#' := Lexer.ne_of_isAsciiLetter hc (by decide)
        simp [Label.isElement, hname, hhash] at hother
  · refine hcomplies.tame hscripts hraw hnames ?_ hgives
    rwa [Label.isElement, hcomplies.tag] at hafter

/-! ## Tags and texts -/

namespace Html

/-- The attributes of a tag as they are written. -/
def Field.ofEntry (entry : String × Option String) : Field where
  name := entry.1.toList
  value := some ('"', Url.written (entry.2.getD "").toList)

/-- The start tag of an element as it is written. -/
def Segment.ofLabel (label : Label) : Segment :=
  .startTag label.tag.toList (label.attributes.map Field.ofEntry)

theorem Segment.chars_ofLabel (label : Label) :
    (Segment.ofLabel label).chars = (Markup.startTag label.tag label.attributes).toList := by
  rw [toList_startTag, ofLabel, chars, List.flatMap_map, writtenFields, List.flatMap_map]
  rfl

variable {label : Label}

theorem Field.sound_ofEntry {entry : String × Option String} (hname : IsPlainName entry.1) :
    (Field.ofEntry entry).unified.Sound where
  name := hname.field
  head := hname.equals
  value quote text hvalue := by
    cases hvalue
    refine ⟨Or.inl rfl, fun hmem => ?_⟩
    rcases Text.mem_of_mem_unifyLineEnds hmem with hquote | hfeed
    · exact Url.quote_not_mem_written _ hquote
    · cases hfeed

/-- The value is read as it is written where references are left alone, and as what it is
otherwise. -/
theorem Field.reads_ofEntry (entry : String × Option String) :
    (Field.ofEntry entry).unified.reads false =
        .ok (Url.reread (Url.written (entry.2.getD "").toList)) ∧
      (Field.ofEntry entry).unified.reads true = .ok (Url.reread (entry.2.getD "").toList) := by
  refine ⟨readValue_false '"' _, ?_⟩
  change readValue true '"' 0 (Text.unifyLineEnds (Url.written _)) = _
  rw [Url.unifyLineEnds_written]
  exact readValue_spelled isSpelling_escapeValueChar (by decide) _

/-- A start tag says what the content of its document may say. -/
theorem Segment.sound_ofLabel_unread (htag : IsQuietTag label.tag)
    (hattributes : ∀ entry ∈ label.attributes,
      IsPlainName entry.1 ∧ Harmless entry.1 (entry.2.getD "")) :
    (Segment.ofLabel label).unified.Sound Source.unread false := by
  refine ⟨htag.1, htag.lowered, fun field hmem => ?_⟩
  rw [List.map_map] at hmem
  obtain ⟨entry, hentry, rfl⟩ := List.mem_map.mp hmem
  obtain ⟨hname, hharmless⟩ := hattributes entry hentry
  refine ⟨Field.sound_ofEntry hname, fun value hvalue => ?_⟩
  rw [Function.comp_apply, (Field.reads_ofEntry entry).1] at hvalue
  cases hvalue
  exact unread_of_written hname hharmless

/-- A start tag that is read with its references does no harm. -/
theorem Segment.sound_ofLabel_harmless (htag : IsQuietTag label.tag)
    (hattributes : ∀ entry ∈ label.attributes,
      IsPlainName entry.1 ∧ Harmless entry.1 (entry.2.getD "")) :
    (Segment.ofLabel label).unified.Sound Source.harmless true := by
  refine ⟨htag.1, htag.lowered, fun field hmem => ?_⟩
  rw [List.map_map] at hmem
  obtain ⟨entry, hentry, rfl⟩ := List.mem_map.mp hmem
  obtain ⟨hname, hharmless⟩ := hattributes entry hentry
  refine ⟨Field.sound_ofEntry hname, fun value hvalue => ?_⟩
  rw [Function.comp_apply, (Field.reads_ofEntry entry).2] at hvalue
  cases hvalue
  exact harmless_of_written hharmless

theorem Segment.sound_escapeText (source : Source) (expand : Bool) (text : String) :
    (Segment.text (Markup.escapeText text).toList).unified.Sound source expand := by
  intro hmem
  rcases Text.mem_of_mem_unifyLineEnds hmem with hopening | hfeed
  · rw [toList_escapeText] at hopening
    obtain ⟨c, -, hc⟩ := List.mem_flatMap.mp hopening
    rcases escapeTextChar_cases c with ⟨hplain, -, hne⟩ | ⟨name, hwritten, hnamed⟩
    · rw [hplain, List.mem_singleton] at hc
      exact hne hc.symm
    · rw [hnamed] at hc
      cases hwritten <;> revert hc <;> decide
  · cases hfeed

end Html

/-! ## Written markup -/

/-- Is this written as parts of markup that say what a source may say? -/
def Html.IsMarkup (source : Source) (expand : Bool) (text : String) : Prop :=
  ∃ segments, text.toList = Segment.flat segments ∧
    ∀ segment ∈ segments, segment.unified.Sound source expand

namespace Html.IsMarkup

variable {source : Source} {expand : Bool}

theorem empty : IsMarkup source expand "" := ⟨[], rfl, List.forall_mem_nil _⟩

theorem segment (segment : Segment) {text : String} (hchars : segment.chars = text.toList)
    (hsound : segment.unified.Sound source expand) : IsMarkup source expand text :=
  ⟨[segment], by rw [Segment.flat_cons, hchars]; simp [Segment.flat],
    List.forall_mem_singleton.mpr hsound⟩

theorem append {front back : String} (hfront : IsMarkup source expand front)
    (hback : IsMarkup source expand back) : IsMarkup source expand (front ++ back) := by
  obtain ⟨first, hfirst, hfirsts⟩ := hfront
  obtain ⟨second, hsecond, hseconds⟩ := hback
  refine ⟨first ++ second, ?_, List.forall_mem_append.mpr ⟨hfirsts, hseconds⟩⟩
  rw [String.toList_append, hfirst, hsecond, Segment.flat, Segment.flat, Segment.flat,
    List.flatMap_append]

theorem endTag {tag : String} (htag : IsQuietTag tag) :
    IsMarkup source expand (Markup.endTag tag) :=
  segment (.endTag tag.toList) (by simp [Segment.chars, Markup.endTag]) htag.1

/-- A lexer for markup follows its parts. -/
theorem follows {text : String} (hmarkup : IsMarkup source expand text) :
    (Lexer.ofString text expand).Follows source := by
  obtain ⟨segments, htext, hsound⟩ := hmarkup
  rw [← String.ofList_toList (s := text), htext]
  exact Lexer.follows_ofString hsound

end Html.IsMarkup

/-! ## Contents -/

namespace Tree

theorem isRawText_of_quiet {label : Label} (htag : IsQuietTag label.tag) :
    label.isRawText = false := by
  have hnames : ∀ name ∈ rawTextElements, Text.asciiLower name ∈ textTags := by decide
  rw [Label.isRawText, Bool.and_eq_false_iff]
  exact Or.inr (Bool.eq_false_iff.mpr fun hmem =>
    htag.2 (hnames _ (List.contains_iff_mem.mp hmem)))

/-- A tame node is written with what is below it, if that is. -/
theorem isMarkup_render {label : Label} {children : List Tree} (htame : label.Tame)
    (hchildren : IsMarkup Source.unread false (renderAll false children)) :
    IsMarkup Source.unread false (render false (node label children)) := by
  rw [render]
  cases htame with
  | document htag => rwa [if_pos htag]
  | text htag =>
      rw [htag, if_neg (by decide), if_pos rfl, if_neg Bool.false_ne_true]
      exact .segment (.text _) rfl (Segment.sound_escapeText _ _ _)
  | comment htag hcomment =>
      rw [htag, if_neg (by decide), if_neg (by decide), if_pos rfl]
      refine .segment (.comment label.text.toList) ?_ ⟨hcomment.unified, fun _ => trivial⟩
      simp [Segment.chars]
  | element htag hattributes =>
      obtain ⟨c, cs, hname, hc, -⟩ := htag.1
      have hother : ∀ name : String, name.toList.head? = some '#' → label.tag ≠ name := by
        rintro name hhead rfl
        rw [hname] at hhead
        cases hhead
        cases hc
      have hopen : IsMarkup Source.unread false (Markup.startTag label.tag label.attributes) :=
        .segment _ (Segment.chars_ofLabel label) (Segment.sound_ofLabel_unread htag hattributes)
      rw [if_neg (hother _ (by decide)), if_neg (hother _ (by decide)),
        if_neg (hother _ (by decide)), isRawText_of_quiet htag]
      split
      next => exact hopen
      next => exact (hopen.append hchildren).append (.endTag htag)

/-- Tame trees are written as parts of markup. -/
theorem isMarkup_renderAll {forest : List Tree} (hall : ∀ tree ∈ forest, tree.All Label.Tame) :
    IsMarkup Source.unread false (renderAll false forest) := by
  induction forest using forest_induction with
  | nil => exact .empty
  | cons label children rest ihChildren ihRest =>
      obtain ⟨htree, hrest⟩ := List.forall_mem_cons.mp hall
      obtain ⟨hlabel, hchildren⟩ := all_node.mp htree
      rw [renderAll]
      exact (isMarkup_render hlabel (ihChildren hchildren)).append (ihRest hrest)

end Tree

end Winnow
