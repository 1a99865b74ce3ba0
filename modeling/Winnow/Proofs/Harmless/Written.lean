import Winnow.Proofs.Harmless.Pieces
import Winnow.Proofs.Screen.Bare

/-!
# What passes is written as markup that does no harm

A stream is written string by string, and some strings get their bare ampersands written as
references. That is decided by a note of being in a tag and after an equals sign, which text and
values may mislead. Names of attributes always stay as they are, and whether an address is written
anew or not it is read as one that does no harm.
-/

namespace Winnow

open Html

namespace Screen

/-! ## Strings -/

/-- Is this the text of these strings, whatever was written before? -/
def Joins (strings : List (List Char)) (text : List Char) : Prop :=
  ∃ inTag afterEquals, joinStrings inTag afterEquals strings = .ok text

namespace Joins

variable {string name text : List Char} {strings : List (List Char)}

theorem nil (hjoins : Joins [] text) : text = [] := by
  obtain ⟨inTag, afterEquals, hok⟩ := hjoins
  exact (Except.ok.inj hok).symm

/-- A string is written as it is, or with its bare ampersands as references inside a tag and after
an equals sign. -/
theorem exists_of_cons {inTag afterEquals : Bool}
    (hok : joinStrings inTag afterEquals (string :: strings) = .ok text) :
    ∃ written back, text = written ++ back ∧ Joins strings back ∧
      (written = string ∨
        (inTag && afterEquals) = true ∧ Entity.escapeBare string = .ok written) := by
  have hsame : ∀ {inTag afterEquals : Bool},
      (do return string ++ (← joinStrings inTag afterEquals strings)) = .ok text →
        ∃ written back, text = written ++ back ∧ Joins strings back ∧ written = string := by
    intro inTag afterEquals hok
    obtain ⟨back, hback, hresult⟩ := Fault.exists_of_bind_eq_ok hok
    exact ⟨string, back, (Except.ok.inj hresult).symm, ⟨_, _, hback⟩, rfl⟩
  have hplain : (∃ written back, text = written ++ back ∧ Joins strings back ∧ written = string) →
      ∃ written back, text = written ++ back ∧ Joins strings back ∧ (written = string ∨
        (inTag && afterEquals) = true ∧ Entity.escapeBare string = .ok written) := by
    rintro ⟨written, back, htext, hback, heq⟩
    exact ⟨written, back, htext, hback, .inl heq⟩
  rw [joinStrings] at hok
  split at hok
  next htag =>
    split at hok
    next => exact hplain (hsame hok)
    next =>
      split at hok
      next hequals =>
        split at hok
        next => exact hplain (hsame hok)
        next =>
          obtain ⟨written, hwritten, hok⟩ := Fault.exists_of_bind_eq_ok hok
          obtain ⟨back, hback, hresult⟩ := Fault.exists_of_bind_eq_ok hok
          refine ⟨written, back, (Except.ok.inj hresult).symm, ⟨_, _, hback⟩, .inr ⟨?_, hwritten⟩⟩
          rw [htag, hequals]
          rfl
      next => exact hplain (hsame hok)
  next => exact hplain (hsame hok)

theorem cons (hjoins : Joins (string :: strings) text) :
    ∃ written back, text = written ++ back ∧ Joins strings back ∧
      (written = string ∨ Entity.escapeBare string = .ok written) := by
  obtain ⟨inTag, afterEquals, hok⟩ := hjoins
  obtain ⟨written, back, htext, hback, hwritten⟩ := exists_of_cons hok
  exact ⟨written, back, htext, hback, hwritten.imp_right And.right⟩

/-- A string without ampersands is written as it is. -/
theorem plain (hstring : '&' ∉ string) (hjoins : Joins (string :: strings) text) :
    ∃ back, text = string ++ back ∧ Joins strings back := by
  obtain ⟨written, back, htext, hback, heq | hescaped⟩ := hjoins.cons
  · exact ⟨back, heq ▸ htext, hback⟩
  · rw [Entity.escapeBare_eq_self hstring] at hescaped
    exact ⟨back, (Except.ok.inj hescaped) ▸ htext, hback⟩

/-- The string after a blank is written as it is, since no equals sign is noted then. -/
theorem blank (hjoins : Joins ([' '] :: string :: strings) text) :
    ∃ back, text = ' ' :: (string ++ back) ∧ Joins strings back := by
  have hcalm : ∀ {inTag afterEquals : Bool} {back : List Char},
      (inTag && afterEquals) = false →
        joinStrings inTag afterEquals (string :: strings) = .ok back →
          ∃ rest, back = string ++ rest ∧ Joins strings rest := by
    intro inTag afterEquals back hcalm hok
    obtain ⟨written, rest, htext, hrest, rfl | ⟨hnoted, -⟩⟩ := exists_of_cons hok
    · exact ⟨rest, htext, hrest⟩
    · rw [hcalm] at hnoted
      cases hnoted
  obtain ⟨inTag, afterEquals, hok⟩ := hjoins
  have hblank : ∃ inTag afterEquals back, (inTag && afterEquals) = false ∧
      joinStrings inTag afterEquals (string :: strings) = .ok back ∧ text = ' ' :: back := by
    rw [joinStrings] at hok
    cases inTag with
    | false =>
        obtain ⟨back, hback, hresult⟩ := Fault.exists_of_bind_eq_ok hok
        exact ⟨false, afterEquals, back, rfl, hback, (Except.ok.inj hresult).symm⟩
    | true =>
        cases afterEquals with
        | false =>
            obtain ⟨back, hback, hresult⟩ := Fault.exists_of_bind_eq_ok hok
            exact ⟨true, false, back, rfl, hback, (Except.ok.inj hresult).symm⟩
        | true =>
            obtain ⟨written, hwritten, hok⟩ := Fault.exists_of_bind_eq_ok hok
            obtain ⟨back, hback, hresult⟩ := Fault.exists_of_bind_eq_ok hok
            rw [Entity.escapeBare_eq_self (by decide)] at hwritten
            cases hwritten
            exact ⟨true, false, back, rfl, hback, (Except.ok.inj hresult).symm⟩
  obtain ⟨inTag, afterEquals, back, hnoted, hback, rfl⟩ := hblank
  obtain ⟨rest, rfl, hrest⟩ := hcalm hnoted hback
  exact ⟨rest, rfl, hrest⟩

end Joins

/-! ## Attributes -/

theorem mem_escapeField {c : Char} {cs : List Char} (hmem : c ∈ escapeField cs) :
    c ∈ "&amp;&lt;".toList ∨ c ∈ cs := by
  obtain ⟨d, hd, hc⟩ := List.mem_flatMap.mp hmem
  split at hc
  next => exact .inl ((by decide : "&amp;".toList ⊆ "&amp;&lt;".toList) hc)
  next =>
    split at hc
    next => exact .inl ((by decide : "&lt;".toList ⊆ "&amp;&lt;".toList) hc)
    next => exact .inr (List.mem_singleton.mp hc ▸ hd)

/-- What stands between the quotes of a value. -/
structure IsQuoted (value : List Char) (quote : Char) (inner : List Char) : Prop where
  kind : quote = '"' ∨ quote = '\''
  absent : quote ∉ inner
  plain : '"' ∉ value → inner = escapeField value

theorem IsQuoted.ampersand_not_mem {value inner : List Char} {quote : Char}
    (hquoted : IsQuoted value quote inner) : '&' ∉ [quote] := by
  rcases hquoted.kind with rfl | rfl
  · decide
  · decide

theorem exists_valueStrings (value : List Char) :
    ∃ quote inner, valueStrings value = [[quote], inner, [quote]] ∧
      IsQuoted value quote inner := by
  unfold valueStrings
  dsimp only
  split
  next hquotes =>
    simp only [Bool.and_eq_true, Bool.not_eq_true', List.contains_eq_mem,
      decide_eq_false_iff_not] at hquotes
    exact ⟨'\'', _, rfl, .inr rfl, hquotes.2, fun _ => rfl⟩
  next =>
    refine ⟨'"', _, rfl, .inl rfl, ?_, fun hnone => ?_⟩
    · intro hmem
      obtain ⟨c, -, hc⟩ := List.mem_flatMap.mp hmem
      split at hc
      next => exact absurd hc (by decide)
      next hne => exact hne (List.mem_singleton.mp hc).symm
    · have hfield : '"' ∉ escapeField value := fun hmem =>
        (mem_escapeField hmem).elim (by decide) hnone
      have hsame : ∀ c ∈ escapeField value,
          (if c = '"' then "&quot;".toList else [c]) = [c] := fun c hc =>
        if_neg fun heq : c = '"' => hfield (heq ▸ hc)
      rw [Text.replaceChar, List.flatMap_congr hsame]
      simp

/-- An attribute is written with its name, and with its value between quotes unless that is left
out. -/
theorem Joins.exists_field {tag : String} {field : Key × String} {strings : List (List Char)}
    {text : List Char} (hjoins : Joins (fieldStrings tag field ++ strings) text) :
    ∃ value back, text = (Html.Field.mk field.1.name.toList value).chars ++ back ∧
      Joins strings back ∧ (isFlag tag field.1.name = true ∧ value = none ∨
        ∃ quote inner written, value = some (quote, written) ∧
          IsQuoted field.2.toList quote inner ∧
            (written = inner ∨ Entity.escapeBare inner = .ok written)) := by
  rw [fieldStrings, List.cons_append, List.cons_append] at hjoins
  obtain ⟨back, rfl, hnamed⟩ := hjoins.blank
  split at hnamed
  next hflag => exact ⟨none, back, by simp [Field.chars], hnamed, .inl ⟨hflag, rfl⟩⟩
  next =>
    obtain ⟨quote, inner, hstrings, hquoted⟩ := exists_valueStrings field.2.toList
    rw [hstrings] at hnamed
    obtain ⟨back, rfl, hopen⟩ := hnamed.plain (by decide)
    obtain ⟨back, rfl, hvalue⟩ := hopen.plain hquoted.ampersand_not_mem
    obtain ⟨written, back, rfl, hclose, hwritten⟩ := hvalue.cons
    obtain ⟨back, rfl, hrest⟩ := hclose.plain hquoted.ampersand_not_mem
    exact ⟨some (quote, written), back, by simp [Field.chars], hrest,
      .inr ⟨quote, inner, written, rfl, hquoted, hwritten⟩⟩

theorem isSpelling_escapeField : IsSpelling fun c =>
    if c = '&' then "&amp;".toList else if c = '<' then "&lt;".toList else [c] := by
  intro c
  dsimp only
  split
  next heq => exact .inr ⟨_, heq ▸ .ampersand, rfl⟩
  next hand =>
    split
    next heq => exact .inr ⟨_, heq ▸ .opening, rfl⟩
    next => exact .inl ⟨rfl, hand⟩

/-- No character of a reference is lost. -/
theorem not_isLost_of_mem_written {cs : List Char} (hkept : ∀ c ∈ cs, Url.isLost c = false) :
    ∀ c ∈ Url.written cs, Url.isLost c = false := by
  intro c hmem
  obtain ⟨d, hd, hc⟩ := List.mem_flatMap.mp hmem
  rcases escapeValueChar_cases d with ⟨hplain, -⟩ | ⟨name, hwritten, hnamed⟩
  · rw [hplain] at hc
    exact List.mem_singleton.mp hc ▸ hkept d hd
  · have hname : ('&' :: name).all (!Url.isLost ·) = true := by cases hwritten <;> decide
    simpa using List.all_eq_true.mp hname c (hnamed ▸ hc)

/-- A spelled text without lost characters is read as what it spells. -/
theorem readValue_unified {spell : Char → List Char} (hspelling : IsSpelling spell) {quote : Char}
    (hquote : Text.isAsciiLetter quote = false) {cs : List Char}
    (hkept : ∀ c ∈ cs, Url.isLost c = false) :
    readValue true quote 0 (Text.unifyLineEnds (cs.flatMap spell)) = .ok cs := by
  simp only [Url.isLost, Bool.or_eq_false_iff, decide_eq_false_iff_not] at hkept
  have hreturn : '\r' ∉ cs.flatMap spell :=
    not_mem_flatMap_return (fun hmem => (hkept _ hmem).1 rfl) fun c =>
      (hspelling c).imp_left And.left
  have hnull : cs.map replaceNull = cs := by
    have hsame : ∀ c ∈ cs, replaceNull c = id c := fun c hmem => if_neg (hkept c hmem).2
    rw [List.map_congr_left hsame, List.map_id]
  rw [Text.unifyLineEnds_of_not_mem hreturn, readValue_spelled hspelling hquote, hnull]

/-- Whether an address is written anew or not, it is read as one that does no harm. -/
theorem exists_reads_address {name : String} {raw : String} (hunread : Unread name raw)
    (haddress : Text.lower name ∈ Url.addressAttributes) {quote : Char}
    {inner written : List Char} (hquoted : IsQuoted raw.toList quote inner)
    (hwritten : written = inner ∨ Entity.escapeBare inner = .ok written) :
    ∃ read, readValue true quote 0 (Text.unifyLineEnds written) = .ok read ∧
      Url.isDangerousValue (Text.lower name) (String.ofList read) = .ok false := by
  obtain ⟨value, hraw, hkept, hsafe⟩ := hunread.address haddress
  have hletter : Text.isAsciiLetter quote = false := by
    rcases hquoted.kind with rfl | rfl
    · decide
    · decide
  have hinner : inner = escapeField (Url.written value) := by
    rw [← hraw]
    exact hquoted.plain (hraw ▸ Url.quote_not_mem_written value)
  rcases hwritten with rfl | hescaped
  · refine ⟨Url.written value, ?_, Url.isDangerousValue_written hsafe⟩
    rw [hinner]
    exact readValue_unified isSpelling_escapeField hletter (not_isLost_of_mem_written hkept)
  · rw [hinner, Url.written, Entity.escapeBare_escapeField] at hescaped
    cases hescaped
    exact ⟨value, readValue_unified Entity.isSpelling_spellField hletter hkept, hsafe⟩

/-- The quote of a value is not in it, however it is written and its line ends are read. -/
theorem IsQuoted.not_mem {value inner written : List Char} {quote : Char}
    (hquoted : IsQuoted value quote inner)
    (hwritten : written = inner ∨ Entity.escapeBare inner = .ok written) :
    quote ∉ Text.unifyLineEnds written := by
  have hothers : quote ∉ "&amp;".toList ∧ quote ≠ '\n' := by
    rcases hquoted.kind with rfl | rfl
    · decide
    · decide
  intro hmem
  rcases Text.mem_of_mem_unifyLineEnds hmem with hmem | hfeed
  · rcases hwritten with rfl | hescaped
    · exact hquoted.absent hmem
    · exact (Entity.mem_of_mem_escapeBare hescaped hmem).elim hothers.1 hquoted.absent
  · exact hothers.2 hfeed

/-- No address is written without its value. -/
theorem not_mem_of_isFlag {tag name : String} (hflag : isFlag tag name = true) :
    Text.lower name ∉ Url.addressAttributes := by
  have hflags : ∀ entry ∈ flagAttributes, ∀ name ∈ entry.2,
      Text.lower name ∉ Url.addressAttributes := by decide +kernel
  have hlisted : ∀ tag, name ∈ (flagAttributes.find? tag).getD [] →
      Text.lower name ∉ Url.addressAttributes := by
    intro tag hmem
    cases hfind : flagAttributes.find? tag with
    | none =>
        rw [hfind] at hmem
        cases hmem
    | some names =>
        rw [hfind] at hmem
        exact hflags _ (Assoc.mem_of_find? hfind) name hmem
  simp only [isFlag, Bool.or_eq_true, List.contains_iff_mem] at hflag
  exact hflag.elim (hlisted tag) (hlisted "")

/-- An attribute that may stand in a content is written as one that does no harm. -/
theorem Joins.field {tag : String} {field : Key × String} {strings : List (List Char)}
    {text : List Char} (hunread : field.1.IsUnread field.2)
    (hjoins : Joins (fieldStrings tag field ++ strings) text) :
    ∃ (written : Html.Field) (back : List Char), text = written.chars ++ back ∧
      Joins strings back ∧ written.unified.Sound ∧
        ∀ value, written.unified.reads true = .ok value →
          Harmless (String.ofList (lowered written.name)) (String.ofList value) := by
  obtain ⟨value, back, htext, hback, hvalue⟩ := hjoins.exists_field
  have hname : String.ofList (lowered field.1.name.toList) = Text.asciiLower field.1.name := rfl
  refine ⟨_, back, htext, hback, ⟨hunread.plain.field, hunread.plain.equals, ?_⟩, ?_⟩
  · intro quote text heq
    rcases hvalue with ⟨-, rfl⟩ | ⟨quote, inner, written, rfl, hquoted, hwritten⟩
    · cases heq
    · cases heq
      exact ⟨hquoted.kind, hquoted.not_mem hwritten⟩
  · intro read hread
    dsimp only
    rw [hname]
    constructor
    · rw [Text.lower_asciiLower]
      exact hunread.handler
    · rw [Text.lower_asciiLower]
      intro haddress
      rcases hvalue with ⟨hflag, -⟩ | ⟨quote, inner, written, rfl, hquoted, hwritten⟩
      · exact absurd haddress (not_mem_of_isFlag hflag)
      · obtain ⟨value, hvalue, hsafe⟩ :=
          exists_reads_address hunread haddress hquoted hwritten
        obtain rfl : value = read := Except.ok.inj (hvalue.symm.trans hread)
        exact hsafe

theorem Joins.fields {tag : String} {fields : Fields} {strings : List (List Char)}
    {text : List Char} (hunread : ∀ field ∈ fields, field.1.IsUnread field.2)
    (hjoins : Joins (fields.flatMap (fieldStrings tag) ++ strings) text) :
    ∃ (written : List Html.Field) (back : List Char),
      text = written.flatMap Field.chars ++ back ∧ Joins strings back ∧
        ∀ field ∈ written, field.unified.Sound ∧
          ∀ value, field.unified.reads true = .ok value →
            Harmless (String.ofList (lowered field.name)) (String.ofList value) := by
  induction fields generalizing text with
  | nil => exact ⟨[], text, rfl, hjoins, List.forall_mem_nil _⟩
  | cons field fields ih =>
      obtain ⟨hfield, hfields⟩ := List.forall_mem_cons.mp hunread
      rw [List.flatMap_cons, List.append_assoc] at hjoins
      obtain ⟨first, back, rfl, hrest, hfirst⟩ := hjoins.field hfield
      obtain ⟨others, back, rfl, hback, hothers⟩ := ih hfields hrest
      refine ⟨first :: others, back, ?_, hback, List.forall_mem_cons.mpr ⟨hfirst, hothers⟩⟩
      rw [List.flatMap_cons, List.append_assoc]

/-! ## Pieces -/

/-- With its bare ampersands written as references a name is still that of an element that holds
markup. -/
theorem isQuietTag_of_escapeBare {name : String} {written : List Char} (hname : IsQuietTag name)
    (hok : Entity.escapeBare name.toList = .ok written) : IsQuietTag (String.ofList written) := by
  by_cases hand : '&' ∈ written
  · obtain ⟨c, cs, heq, hc, hcs⟩ := hname.1
    rw [heq, Entity.escapeBare_cons (Lexer.ne_of_isAsciiLetter hc (by decide))] at hok
    obtain ⟨back, hback, rfl⟩ := Fault.exists_of_map_eq_ok hok
    refine ⟨⟨c, back, String.toList_ofList, hc, fun d hmem => ?_⟩, fun hmem => ?_⟩
    · rcases Entity.mem_of_mem_escapeBare hback hmem with hamp | hold
      · exact List.all_eq_true.mp (by decide : "&amp;".toList.all isNameChar = true) d hamp
      · exact hcs d hold
    · have hlower : '&' ∈ (Text.asciiLower (String.ofList (c :: back))).toList := by
        rw [toList_asciiLower, String.toList_ofList]
        exact List.mem_map.mpr ⟨'&', hand, rfl⟩
      exact (by decide : ∀ name ∈ textTags, '&' ∉ name.toList) _ hmem hlower
  · rw [(Entity.eq_of_escapeBare hok hand).2, String.ofList_toList]
    exact hname

/-- A string without brackets is written as text. -/
theorem Joins.text {string text : List Char} {strings : List (List Char)} (hstring : '<' ∉ string)
    (hjoins : Joins (string :: strings) text) :
    ∃ (segment : Segment) (back : List Char), text = segment.chars ++ back ∧
      Joins strings back ∧ segment.unified.Sound Source.harmless true := by
  obtain ⟨written, back, htext, hback, hwritten⟩ := hjoins.cons
  refine ⟨.text written, back, htext, hback, fun hmem => ?_⟩
  rcases Text.mem_of_mem_unifyLineEnds hmem with hopening | hfeed
  · rcases hwritten with rfl | hescaped
    · exact hstring hopening
    · exact (Entity.mem_of_mem_escapeBare hescaped hopening).elim (by decide) hstring
  · cases hfeed

theorem Joins.tag {name : String} {fields : Fields} {strings : List (List Char)}
    {text : List Char} (hname : IsQuietTag name)
    (hunread : ∀ field ∈ fields, field.1.IsUnread field.2)
    (hjoins : Joins (tagStrings name fields ++ strings) text) :
    ∃ (segment : Segment) (back : List Char), text = segment.chars ++ back ∧
      Joins strings back ∧ segment.unified.Sound Source.harmless true := by
  rw [tagStrings, List.cons_append, List.cons_append, List.append_assoc] at hjoins
  obtain ⟨opening, back, rfl, hopen, hopening⟩ := hjoins.cons
  obtain ⟨written, back, rfl, hclose, hwritten⟩ := hopen.fields hunread
  obtain ⟨back, rfl, hback⟩ := hclose.plain (by decide)
  have hquiet : ∃ tag : String, opening = '<' :: tag.toList ∧ IsQuietTag tag := by
    rcases hopening with rfl | hescaped
    · exact ⟨name, rfl, hname⟩
    · rw [Entity.escapeBare_cons (by decide)] at hescaped
      obtain ⟨tag, htag, rfl⟩ := Fault.exists_of_map_eq_ok hescaped
      exact ⟨String.ofList tag, by rw [String.toList_ofList], isQuietTag_of_escapeBare hname htag⟩
  obtain ⟨tag, rfl, htag⟩ := hquiet
  refine ⟨.startTag tag.toList written, back, by simp [Segment.chars], hback, htag.1,
    htag.lowered, ?_⟩
  intro field hmem
  obtain ⟨origin, horigin, rfl⟩ := List.mem_map.mp hmem
  exact hwritten origin horigin

theorem Joins.endTag {name : String} {strings : List (List Char)} {text : List Char}
    (hname : IsQuietTag name)
    (hjoins : Joins (("</".toList ++ name.toList ++ ['>']) :: strings) text) :
    ∃ (segment : Segment) (back : List Char), text = segment.chars ++ back ∧
      Joins strings back ∧ segment.unified.Sound Source.harmless true := by
  obtain ⟨closing, back, rfl, hback, hclosing⟩ := hjoins.cons
  have hquiet : ∃ tag : String, closing = '<' :: '/' :: (tag.toList ++ ['>']) ∧
      IsQuietTag tag := by
    rcases hclosing with rfl | hescaped
    · exact ⟨name, by simp, hname⟩
    · have hslash : "</".toList ++ name.toList = '<' :: '/' :: name.toList := by simp
      rw [Entity.escapeBare_append_bracket, hslash, Entity.escapeBare_cons (by decide),
        Entity.escapeBare_cons (by decide)] at hescaped
      obtain ⟨front, hfront, rfl⟩ := Fault.exists_of_map_eq_ok hescaped
      obtain ⟨inner, hinner, rfl⟩ := Fault.exists_of_map_eq_ok hfront
      obtain ⟨tag, htag, rfl⟩ := Fault.exists_of_map_eq_ok hinner
      exact ⟨String.ofList tag, by simp, isQuietTag_of_escapeBare hname htag⟩
  obtain ⟨tag, rfl, htag⟩ := hquiet
  exact ⟨.endTag tag.toList, back, by simp [Segment.chars], hback, htag.1⟩

/-- A piece that fits is written as markup that does no harm. -/
theorem Joins.piece {piece : Piece} {strings : List (List Char)} {text : List Char}
    (hfits : piece.Fits Key.IsUnread) (hjoins : Joins (piece.strings ++ strings) text) :
    ∃ (segment : Segment) (back : List Char), text = segment.chars ++ back ∧
      Joins strings back ∧ segment.unified.Sound Source.harmless true := by
  cases hfits with
  | startTag hname hfields => exact hjoins.tag hname hfields
  | emptyTag hname hfields => exact hjoins.tag hname hfields
  | endTag hname => exact hjoins.endTag hname
  | text data =>
      refine Joins.text (fun hmem => ?_) hjoins
      obtain ⟨c, -, hc⟩ := List.mem_flatMap.mp hmem
      unfold escapeChar at hc
      split at hc
      next => exact absurd hc (by decide)
      next =>
        split at hc
        next => exact absurd hc (by decide)
        next hne =>
          split at hc
          next => exact absurd hc (by decide)
          next => exact hne (List.mem_singleton.mp hc).symm
  | space hdata => exact Joins.text hdata hjoins
  | reference hname =>
      refine Joins.text (fun hmem => ?_) hjoins
      rw [Entity.write, List.mem_append, List.mem_cons] at hmem
      rcases hmem with (heq | hin) | hin
      · cases heq
      · exact hname hin
      · exact absurd hin (by decide)

theorem exists_segments_of_joins {pieces : List Piece} {text : List Char}
    (hfits : ∀ piece ∈ pieces, piece.Fits Key.IsUnread)
    (hjoins : Joins (pieces.flatMap Piece.strings) text) :
    ∃ segments, text = Segment.flat segments ∧
      ∀ segment ∈ segments, segment.unified.Sound Source.harmless true := by
  induction pieces generalizing text with
  | nil => exact ⟨[], hjoins.nil, List.forall_mem_nil _⟩
  | cons piece pieces ih =>
      obtain ⟨hpiece, hrest⟩ := List.forall_mem_cons.mp hfits
      rw [List.flatMap_cons] at hjoins
      obtain ⟨segment, back, rfl, hback, hsegment⟩ := hjoins.piece hpiece
      obtain ⟨segments, rfl, hsegments⟩ := ih hrest hback
      exact ⟨segment :: segments, (Segment.flat_cons _ _).symm,
        List.forall_mem_cons.mpr ⟨hsegment, hsegments⟩⟩

end Screen

end Winnow
