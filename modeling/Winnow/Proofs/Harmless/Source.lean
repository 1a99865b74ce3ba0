import Winnow.Attributes
import Winnow.Proofs.Html.Lexer.LineEnds
import Winnow.Proofs.Html.Lexer.Escaped
import Winnow.Proofs.Url.Written

/-!
# Names and values that do no harm

While scripting is not allowed no attribute may be an event handler or a dangerous address. That
is kept as long as markup is read as it was written, which no element may stand against whose
content is read as text. Contents are read with their references left as they are, and then an
address is one that was written.
-/

namespace Winnow

/-- May an attribute of this name have this value while scripting is not allowed? -/
structure Harmless (name value : String) : Prop where
  handler : Policy.isHandler (Text.lower name) = false
  address : Text.lower name ∈ Url.addressAttributes →
    Url.isDangerousValue (Text.lower name) value = .ok false

namespace Html

/-! ## Names of tags -/

/-- A name that a tag may have whose element holds markup. -/
def IsQuietTag (tag : String) : Prop := IsTagName tag.toList ∧ Text.asciiLower tag ∉ textTags

/-- Is this a name for a tag by the looks of its characters? -/
def looksLikeTag (tag : String) : Bool :=
  match tag.toList with
  | c :: cs => Text.isAsciiLetter c && cs.all isNameChar
  | [] => false

theorem isTagName_of_looks {tag : String} (hlooks : looksLikeTag tag = true) :
    IsTagName tag.toList := by
  unfold looksLikeTag at hlooks
  split at hlooks
  next c cs heq =>
    rw [heq]
    obtain ⟨hc, hcs⟩ := Bool.and_eq_true_iff.mp hlooks
    exact isTagName_of_all hc hcs
  next => cases hlooks

theorem isQuietTag_of_all {tags : List String}
    (hall : (tags.all fun tag => looksLikeTag tag && !textTags.contains (Text.asciiLower tag)) =
      true) : ∀ tag ∈ tags, IsQuietTag tag := by
  intro tag hmem
  obtain ⟨hlooks, hquiet⟩ := Bool.and_eq_true_iff.mp (List.all_eq_true.mp hall tag hmem)
  exact ⟨isTagName_of_looks hlooks, by simpa using hquiet⟩

/-- The names that elements get from the parser. -/
def givenTags : List String := madeTags ++ Vocabulary.svgElementNames

theorem isQuietTag_given : ∀ tag ∈ givenTags, IsQuietTag tag :=
  isQuietTag_of_all (by decide +kernel)

theorem isLower_lowered (name : List Char) : IsLower (lowered name) := by
  intro c hmem
  obtain ⟨d, -, rfl⟩ := List.mem_map.mp hmem
  exact Text.asciiLowerChar_asciiLowerChar d

theorem IsTagName.lowered {name : List Char} (hname : IsTagName name) :
    IsTagName (lowered name) := by
  obtain ⟨c, cs, rfl, hc, hcs⟩ := hname
  refine ⟨_, _, rfl, isAsciiLetter_asciiLowerChar c hc, fun d hmem => ?_⟩
  obtain ⟨e, he, rfl⟩ := List.mem_map.mp hmem
  exact isNameChar_asciiLowerChar e (hcs e he)

theorem IsFieldName.lowered {name : List Char} (hname : IsFieldName name) :
    IsFieldName (lowered name) := by
  obtain ⟨c, cs, rfl, hc, hcs⟩ := hname
  refine ⟨_, _, rfl, isNameChar_asciiLowerChar c hc, fun d hmem => ?_⟩
  obtain ⟨e, he, rfl⟩ := List.mem_map.mp hmem
  exact ⟨isNameChar_asciiLowerChar e (hcs e he).1, asciiLowerChar_ne_equals e (hcs e he).2⟩

theorem toList_asciiLower (name : String) :
    (Text.asciiLower name).toList = lowered name.toList := String.toList_ofList

/-- The name of such a tag as it is read, in lower case. -/
def IsReadTag (tag : String) : Prop := IsQuietTag tag ∧ IsLower tag.toList

theorem IsReadTag.not_mem {tag : String} (hread : IsReadTag tag) : tag ∉ textTags := by
  have hquiet := hread.1.2
  rwa [Text.asciiLower_eq_self hread.2] at hquiet

theorem IsQuietTag.lowered {tag : String} (hquiet : IsQuietTag tag) :
    IsReadTag (Text.asciiLower tag) := by
  have hlower : IsLower (Text.asciiLower tag).toList := by
    rw [toList_asciiLower]
    exact isLower_lowered _
  refine ⟨⟨?_, ?_⟩, hlower⟩
  · rw [toList_asciiLower]
    exact hquiet.1.lowered
  · rw [Text.asciiLower_eq_self hlower]
    exact hquiet.2

/-! ## Names of attributes -/

/-- A name that an attribute is written with and read under. An equals sign or a brace in front
would be taken for something else. -/
structure IsPlainName (name : String) : Prop where
  field : IsFieldName name.toList
  equals : name.toList.head? ≠ some '='
  brace : name.toList.head? ≠ some '\x7b'

/-- Is this a plain name by the looks of its characters? -/
def looksLikeField (name : String) : Bool :=
  match name.toList with
  | c :: cs => isNameChar c && c != '=' && c != '\x7b' && cs.all fun c => isNameChar c && c != '='
  | [] => false

theorem isPlainName_of_looks {name : String} (hlooks : looksLikeField name = true) :
    IsPlainName name := by
  unfold looksLikeField at hlooks
  split at hlooks
  next c cs heq =>
    simp only [Bool.and_eq_true, bne_iff_ne] at hlooks
    obtain ⟨⟨⟨hc, hequals⟩, hbrace⟩, hcs⟩ := hlooks
    refine ⟨heq ▸ isFieldName_of_all hc hcs, ?_, ?_⟩
    · simpa [heq] using hequals
    · simpa [heq] using hbrace
  next => cases hlooks

theorem head?_lowered {name : List Char} {c : Char} (hc : ∀ d, d ≠ c → Text.asciiLowerChar d ≠ c)
    (hhead : name.head? ≠ some c) : (lowered name).head? ≠ some c := by
  cases name with
  | nil => simp [lowered]
  | cons d ds =>
      have hd : d ≠ c := by simpa using hhead
      simpa [lowered] using hc d hd

theorem IsPlainName.lowered {name : String} (hname : IsPlainName name) :
    IsPlainName (Text.asciiLower name) := by
  have hbrace : ∀ c, c ≠ '\x7b' → Text.asciiLowerChar c ≠ '\x7b' := fun c =>
    Text.asciiLowerChar_cases (p := fun c d => c ≠ '\x7b' → d ≠ '\x7b') (fun _ hc => hc)
      (by decide) c
  constructor
  · rw [toList_asciiLower]
    exact hname.field.lowered
  · rw [toList_asciiLower]
    exact head?_lowered asciiLowerChar_ne_equals hname.equals
  · rw [toList_asciiLower]
    exact head?_lowered hbrace hname.brace

/-- The names that attributes get from the parser. -/
def givenNames : List String :=
  "name" :: (Vocabulary.svgAttributeNames ++ Vocabulary.mathAttributeNames)

/-- No name that is given is that of a handler or of an address. -/
theorem of_mem_givenNames {name : String} (hmem : name ∈ givenNames) :
    IsPlainName name ∧ Policy.isHandler (Text.lower name) = false ∧
      Text.lower name ∉ Url.addressAttributes := by
  have hall : (givenNames.all fun name => looksLikeField name &&
      !Policy.isHandler (Text.lower name) &&
        !Url.addressAttributes.contains (Text.lower name)) = true := by decide +kernel
  have hname := List.all_eq_true.mp hall name hmem
  simp only [Bool.and_eq_true, Bool.not_eq_true', List.contains_eq_mem,
    decide_eq_false_iff_not] at hname
  exact ⟨isPlainName_of_looks hname.1.1, hname.1.2, hname.2⟩

theorem harmless_of_given {name : String} (hmem : name ∈ givenNames) (value : String) :
    Harmless name value where
  handler := (of_mem_givenNames hmem).2.1
  address haddress := absurd haddress (of_mem_givenNames hmem).2.2

/-! ## Values that are not read -/

/-- May an attribute of this name have this value where references are left as they are? -/
structure Unread (name raw : String) : Prop where
  plain : IsPlainName name
  handler : Policy.isHandler (Text.lower name) = false
  address : Text.lower name ∈ Url.addressAttributes → ∃ value : List Char,
    raw.toList = Url.written value ∧ (∀ c ∈ value, Url.isLost c = false) ∧
      Url.isDangerousValue (Text.lower name) (String.ofList value) = .ok false

theorem unread_of_given {name : String} (hmem : name ∈ givenNames) (raw : String) :
    Unread name raw where
  plain := (of_mem_givenNames hmem).1
  handler := (of_mem_givenNames hmem).2.1
  address haddress := absurd haddress (of_mem_givenNames hmem).2.2

/-- A harmless attribute that is written is read under its name in lower case, with its value as
it was written. -/
theorem unread_of_written {name value : String} (hname : IsPlainName name)
    (hharmless : Harmless name value) :
    Unread (Text.asciiLower name) (String.ofList (Url.reread (Url.written value.toList))) where
  plain := hname.lowered
  handler := by
    rw [Text.lower_asciiLower]
    exact hharmless.handler
  address haddress := by
    rw [Text.lower_asciiLower] at haddress ⊢
    have hsafe := hharmless.address haddress
    refine ⟨Url.reread value.toList, ?_, fun c => Url.not_isLost_of_mem_reread, ?_⟩
    · rw [String.toList_ofList, Url.reread_written]
    · apply Url.isDangerousValue_reread
      rwa [String.ofList_toList]

/-- The same attribute where its references are read. -/
theorem harmless_of_written {name value : String} (hharmless : Harmless name value) :
    Harmless (Text.asciiLower name) (String.ofList (Url.reread value.toList)) where
  handler := by
    rw [Text.lower_asciiLower]
    exact hharmless.handler
  address haddress := by
    rw [Text.lower_asciiLower] at haddress ⊢
    apply Url.isDangerousValue_reread
    rw [String.ofList_toList]
    exact hharmless.address haddress

/-! ## What may be read -/

namespace Source

/-- What may be read of a document that does no harm. -/
def harmless : Source where
  tag := IsReadTag
  pair := Harmless
  comment _ := True

/-- What may be read of the contents of such a document. -/
def unread : Source where
  tag := IsReadTag
  pair := Unread
  comment _ := True
  expands := True

variable {source : Source}

/-- What is so of the tags that are read and of those with a given name is so of all elements. -/
theorem GivesTag.of_given {p : String → Prop} (hread : ∀ name, source.tag name → p name)
    (hgiven : ∀ tag ∈ givenTags, p tag) {tag : String} (htag : source.GivesTag tag) : p tag := by
  rcases htag with hmade | ⟨name, hname, rfl | rfl⟩
  · exact hgiven tag (List.mem_append_left _ hmade)
  · exact hread tag hname
  · exact Vocabulary.restoreCase_cases
      (fun known hmem => hgiven known (List.mem_append_right _ hmem)) (hread name hname)

/-- What is so of the attributes that are read and of those with a given name is so of all. -/
theorem GivesPair.of_given {p : String → String → Prop}
    (hpair : ∀ name value, source.pair name value → p name value)
    (hgiven : ∀ name ∈ givenNames, ∀ value, p name value) {name value : String}
    (hgives : source.GivesPair name value) : p name value := by
  rcases hgives with ⟨rfl, rfl⟩ | ⟨plain, hplain, hform⟩
  · exact hgiven "name" List.mem_cons_self "isindex"
  · have hsvg : ∀ name ∈ Vocabulary.svgAttributeNames, p name value := fun name hmem =>
      hgiven name (List.mem_cons_of_mem _ (List.mem_append_left _ hmem)) value
    have hmath : ∀ name ∈ Vocabulary.mathAttributeNames, p name value := fun name hmem =>
      hgiven name (List.mem_cons_of_mem _ (List.mem_append_right _ hmem)) value
    simp only [attributeForms, List.mem_cons, List.not_mem_nil, or_false] at hform
    rcases hform with rfl | rfl | rfl
    · exact hpair name value hplain
    · exact Vocabulary.restoreCase_cases (p := fun name => p name value) hsvg
        (hpair plain value hplain)
    · exact Vocabulary.restoreCase_cases (p := fun name => p name value) hmath
        (hpair plain value hplain)

/-- Nothing that is read of a harmless document does harm. -/
theorem GivesAttribute.harmless {entry : String × Option String}
    (hgives : Source.harmless.GivesAttribute entry) : Harmless entry.1 (entry.2.getD "") := by
  obtain ⟨name, value, hpair, hvalue, heq | ⟨hexpands, -⟩⟩ := hgives
  · rw [heq, hvalue]
    exact hpair.of_given (fun _ _ => id) fun _ hmem _ => harmless_of_given hmem _
  · exact hexpands.elim

/-- The attributes of a content have names and values that are read, or names with a namespace
in place of them. -/
theorem GivesAttribute.unread {entry : String × Option String}
    (hgives : Source.unread.GivesAttribute entry) :
    ∃ name, Unread name (entry.2.getD "") ∧
      (entry.1 = name ∨ entry.1 = Vocabulary.expandedName name) := by
  obtain ⟨name, value, hpair, hvalue, hname⟩ := hgives
  refine ⟨name, ?_, hname.imp_right fun hexpanded => hexpanded.2⟩
  rw [hvalue]
  exact hpair.of_given (fun _ _ => id) fun _ hmem _ => unread_of_given hmem _

end Source

end Html

end Winnow
