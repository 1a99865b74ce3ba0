import Mathlib.Data.List.TakeWhile
import Winnow.Html.Entity
import Winnow.Proofs.Fault

/-!
# How far a reference reaches

A reference takes no opening bracket and no quote, and what follows one of these makes no
difference to it.
-/

namespace Winnow.Html

/-- A character that ends text or a quoted value. -/
def isDelimiter (c : Char) : Bool := c = '<' || c = '"' || c = '\''

theorem isDelimiter_iff {c : Char} : isDelimiter c = true ↔ c = '<' ∨ c = '"' ∨ c = '\'' := by
  simp [isDelimiter, or_assoc]

namespace Entity

/-! ## Names -/

/-- The bytes of a character of a text are among those of the text. -/
theorem mem_bytes {s : String} {c : Char} (hmem : c ∈ s.toList) {byte : UInt8}
    (hbyte : byte ∈ String.utf8EncodeChar c) : byte ∈ s.toByteArray.data.toList := by
  rw [← String.utf8Encode_toList, List.utf8Encode, List.toList_data_toByteArray]
  exact List.mem_flatMap.mpr ⟨c, hmem, hbyte⟩

/-- Is no byte of a text that of a delimiter? -/
def isPlain (s : String) : Bool :=
  s.toByteArray.data.toList.all fun byte =>
    !(Nat.beq byte.toNat 0x22 || Nat.beq byte.toNat 0x27 || Nat.beq byte.toNat 0x3c)

theorem isPlain_of_entitiesFrom (c : Char) :
    (entitiesFrom c).all (fun entry => isPlain entry.1) = true := by
  unfold entitiesFrom
  split <;> decide +kernel

theorem not_delimiter_of_isPlain {s : String} (hplain : isPlain s = true) {c : Char}
    (hmem : c ∈ s.toList) : isDelimiter c = false := by
  rw [Bool.eq_false_iff]
  intro hdelimiter
  have hbytes := fun byte hbyte => List.all_eq_true.mp hplain byte (mem_bytes hmem hbyte)
  rcases isDelimiter_iff.mp hdelimiter with rfl | rfl | rfl
  · exact absurd (hbytes 0x3c (by decide)) (by decide)
  · exact absurd (hbytes 0x22 (by decide)) (by decide)
  · exact absurd (hbytes 0x27 (by decide)) (by decide)

/-! ## The longest name -/

/-- The rests of the names that go on with a character. -/
def advance (c : Char) (names : List (List Char × String)) : List (List Char × String) :=
  names.filterMap fun entry => match entry.1 with
    | d :: rest => if d = c then some (rest, entry.2) else none
    | [] => none

theorem mem_advance {c : Char} {names : List (List Char × String)} {entry : List Char × String}
    (hmem : entry ∈ advance c names) : ∃ before ∈ names, before.1 = c :: entry.1 := by
  obtain ⟨before, hbefore, hstep⟩ := List.mem_filterMap.mp hmem
  refine ⟨before, hbefore, ?_⟩
  split at hstep
  next d rest heq =>
    split at hstep
    next hsame =>
      cases hstep
      rw [heq, hsame]
    next => cases hstep
  next => cases hstep

/-- The longest name found when one more character has been followed. -/
def longest (read : Nat) (whole : Option (Nat × String)) (next : List (List Char × String)) :
    Option (Nat × String) :=
  match next.find? (·.1.isEmpty) with
  | some entry => some (read + 1, entry.2)
  | none => whole

theorem follow_cons (read : Nat) (whole : Option (Nat × String))
    (names : List (List Char × String)) (c : Char) (cs : List Char) :
    follow read whole names (c :: cs) =
      if (advance c names).isEmpty then ⟨read, whole⟩
      else follow (read + 1) (longest read whole (advance c names)) (advance c names) cs := rfl

/-- Following names stops at a character that is in none of them. -/
theorem follow_append {names : List (List Char × String)} {quote : Char}
    (hnames : ∀ entry ∈ names, quote ∉ entry.1) (read : Nat) (whole : Option (Nat × String))
    (cs rest : List Char) :
    follow read whole names (cs ++ quote :: rest) = follow read whole names (cs ++ [quote]) ∧
      (follow read whole names (cs ++ quote :: rest)).shared ≤ read + cs.length := by
  induction cs generalizing read whole names with
  | nil =>
      have hnone : advance quote names = [] := by
        refine List.eq_nil_iff_forall_not_mem.mpr fun entry hmem => ?_
        obtain ⟨before, hbefore, heq⟩ := mem_advance hmem
        exact hnames before hbefore (heq ▸ List.mem_cons_self)
      rw [List.nil_append, List.nil_append, follow_cons, follow_cons, hnone]
      exact ⟨rfl, Nat.le_refl _⟩
  | cons c cs ih =>
      have hnext : ∀ entry ∈ advance c names, quote ∉ entry.1 := by
        intro entry hmem hin
        obtain ⟨before, hbefore, heq⟩ := mem_advance hmem
        exact hnames before hbefore (heq ▸ List.mem_cons_of_mem _ hin)
      rw [List.cons_append, List.cons_append, follow_cons, follow_cons, List.length_cons]
      split
      · exact ⟨rfl, Nat.le_add_right _ _⟩
      · obtain ⟨hsame, hle⟩ := ih hnext (read + 1) (longest read whole (advance c names))
        exact ⟨hsame, by omega⟩

/-- A name that has been found is no longer than what has been followed. -/
theorem whole_le_shared {names : List (List Char × String)} {read : Nat}
    {whole : Option (Nat × String)} (hwhole : ∀ found ∈ whole, found.1 ≤ read) (cs : List Char) :
    ∀ found ∈ (follow read whole names cs).whole,
      found.1 ≤ (follow read whole names cs).shared := by
  induction cs generalizing names read whole with
  | nil => exact hwhole
  | cons c cs ih =>
      rw [follow_cons]
      split
      · exact hwhole
      · refine ih fun found hfound => ?_
        unfold longest at hfound
        split at hfound
        next =>
          cases hfound
          exact Nat.le_refl _
        next => exact Nat.le_succ_of_le (hwhole found hfound)

/-- No known name holds a delimiter. -/
theorem not_mem_of_entitiesFrom {quote : Char} (hquote : isDelimiter quote = true) (c : Char) :
    ∀ entry ∈ (entitiesFrom c).map fun entry => (entry.1.toList, entry.2), quote ∉ entry.1 := by
  intro entry hmem hin
  obtain ⟨known, hknown, rfl⟩ := List.mem_map.mp hmem
  have hplain := List.all_eq_true.mp (isPlain_of_entitiesFrom c) known hknown
  rw [not_delimiter_of_isPlain hplain hin] at hquote
  cases hquote

/-- A known name is no longer than what the text has in common with the names. -/
theorem reach_whole_le (text : List Char) :
    ∀ found ∈ (reach text).whole, found.1 ≤ (reach text).shared := by
  cases text with
  | nil => exact fun found hfound => by cases hfound
  | cons c cs => exact whole_le_shared (fun found hfound => by cases hfound) (c :: cs)

theorem reach_append {quote : Char} (hquote : isDelimiter quote = true) (cs rest : List Char) :
    reach (cs ++ quote :: rest) = reach (cs ++ [quote]) ∧
      (reach (cs ++ quote :: rest)).shared ≤ cs.length := by
  have hstop := fun first =>
    follow_append (not_mem_of_entitiesFrom hquote first) 0 none cs rest
  simp only [Nat.zero_add] at hstop
  cases cs with
  | nil => exact hstop quote
  | cons c cs => exact hstop c

/-! ## Whole references -/

theorem takeWhile_append_of_stop {p : Char → Bool} {quote : Char} (hstop : p quote = false)
    (cs rest : List Char) :
    (cs ++ quote :: rest).takeWhile p = cs.takeWhile p ∧
      (cs ++ quote :: rest).dropWhile p = cs.dropWhile p ++ quote :: rest := by
  induction cs with
  | nil => simp [hstop]
  | cons c cs ih =>
      rw [List.cons_append, List.takeWhile_cons, List.takeWhile_cons, List.dropWhile_cons,
        List.dropWhile_cons, ih.1, ih.2]
      split
      · exact ⟨rfl, rfl⟩
      · exact ⟨rfl, rfl⟩

/-- What a reference is read as when a delimiter follows, whatever comes after it. -/
structure Stops (inAttribute : Bool) (closing : Option Char) (cs : List Char) (quote : Char)
    (rest : List Char) : Prop where
  same : read inAttribute closing (cs ++ quote :: rest) =
    read inAttribute closing (cs ++ [quote])
  le : ∀ {text taken}, read inAttribute closing (cs ++ quote :: rest) = .ok (text, taken) →
    taken ≤ cs.length

section Stops

variable {quote : Char} (hquote : isDelimiter quote = true)
include hquote

theorem number_append (base marker : Nat) (p : Char → Bool) (cs rest : List Char) :
    number base marker (cs.takeWhile p) (cs.dropWhile p ++ quote :: rest) =
        number base marker (cs.takeWhile p) (cs.dropWhile p ++ [quote]) ∧
      ∀ {text taken}, number base marker (cs.takeWhile p) (cs.dropWhile p ++ quote :: rest) =
        .ok (text, taken) → taken ≤ marker + cs.length := by
  have hne : quote ≠ ';' := by
    rintro rfl
    cases hquote
  have hlength : (cs.takeWhile p).length + (cs.dropWhile p).length = cs.length := by
    rw [← List.length_append, List.takeWhile_append_dropWhile]
  cases hdrop : cs.dropWhile p with
  | nil =>
      refine ⟨rfl, fun {text taken} hok => ?_⟩
      unfold number at hok
      split at hok
      next => cases hok
      next =>
        rw [List.nil_append, List.head?_cons, if_neg (by simpa using hne)] at hok
        cases hok
        omega
  | cons d ds =>
      refine ⟨rfl, fun {text taken} hok => ?_⟩
      rw [hdrop, List.length_cons] at hlength
      unfold number at hok
      split at hok
      next => cases hok
      next =>
        dsimp only at hok
        split at hok
        · cases hok
          omega
        · cases hok
          omega

theorem stops_hexadecimal (inAttribute : Bool) (closing : Option Char) {marker : Char}
    (hmarker : marker = 'x' ∨ marker = 'X') (cs rest : List Char) :
    Stops inAttribute closing ('#' :: marker :: cs) quote rest := by
  have hstop : Text.isHexDigit quote = false := by
    rcases isDelimiter_iff.mp hquote with rfl | rfl | rfl <;> decide
  have hread : ∀ rest, read inAttribute closing ('#' :: marker :: cs ++ quote :: rest) =
      if (cs.takeWhile Text.isHexDigit).isEmpty then .ok (['&', '#', marker], 2)
      else number 16 2 (cs.takeWhile Text.isHexDigit)
        (cs.dropWhile Text.isHexDigit ++ quote :: rest) := by
    intro rest
    obtain ⟨htake, hdrop⟩ := takeWhile_append_of_stop hstop cs rest
    have hopen : read inAttribute closing ('#' :: marker :: cs ++ quote :: rest) =
        read.hexadecimal marker (cs ++ quote :: rest) := by
      rcases hmarker with rfl | rfl
      · rfl
      · rfl
    rw [hopen, read.hexadecimal, htake, hdrop]
  obtain ⟨hsame, hle⟩ := number_append hquote 16 2 Text.isHexDigit cs rest
  refine ⟨by rw [hread, hread, hsame], fun {text taken} hok => ?_⟩
  rw [hread] at hok
  split at hok
  next =>
    cases hok
    simp
  next =>
    refine (hle hok).trans ?_
    simp only [List.length_cons]
    omega

theorem stops_decimal (inAttribute : Bool) (closing : Option Char) {cs : List Char}
    (hx : cs.head? ≠ some 'x') (hX : cs.head? ≠ some 'X') (rest : List Char) :
    Stops inAttribute closing ('#' :: cs) quote rest := by
  have hstop : Text.isAsciiDigit quote = false := by
    rcases isDelimiter_iff.mp hquote with rfl | rfl | rfl <;> decide
  have hread : ∀ rest, read inAttribute closing ('#' :: cs ++ quote :: rest) =
      if (cs.takeWhile Text.isAsciiDigit).isEmpty then .ok (['&', '#'], 1)
      else number 10 1 (cs.takeWhile Text.isAsciiDigit)
        (cs.dropWhile Text.isAsciiDigit ++ quote :: rest) := by
    intro rest
    obtain ⟨htake, hdrop⟩ := takeWhile_append_of_stop hstop cs rest
    have hhead : ∀ marker, isDelimiter marker = false → cs.head? ≠ some marker →
        ∀ tail, cs ++ quote :: rest = marker :: tail → False := by
      intro marker hmarker hne tail heq
      cases cs with
      | nil =>
          cases heq
          rw [hmarker] at hquote
          cases hquote
      | cons c cs =>
          cases heq
          exact hne rfl
    rw [List.cons_append, read, htake, hdrop]
    · exact hhead 'x' (by decide) hx
    · exact hhead 'X' (by decide) hX
  obtain ⟨hsame, hle⟩ := number_append hquote 10 1 Text.isAsciiDigit cs rest
  refine ⟨by rw [hread, hread, hsame], fun {text taken} hok => ?_⟩
  rw [hread] at hok
  split at hok
  next =>
    cases hok
    simp
  next =>
    refine (hle hok).trans ?_
    simp only [List.length_cons]
    omega

/-- What stands behind an ampersand that no number sign follows. -/
def readName (inAttribute : Bool) (text : List Char) : List Char × Nat :=
  let found := reach text
  let shared := text.take found.shared
  match found.whole with
  | none => ('&' :: shared, found.shared)
  | some (length, meaning) =>
    let next := text[length]?
    let joined := inAttribute && text[length - 1]? != some ';' &&
      next.any fun d => Text.isAsciiLetter d || Text.isAsciiDigit d || d = '='
    if joined then ('&' :: shared, found.shared)
    else (meaning.toList ++ shared.drop length, found.shared)

omit hquote in
theorem read_of_ne_hash (inAttribute : Bool) (closing : Option Char) {c : Char} (hc : c ≠ '#')
    (cs : List Char) : read inAttribute closing (c :: cs) =
      if isSpace c || c = '<' || c = '&' || closing = some c then .ok (['&'], 0)
      else .ok (readName inAttribute (c :: cs)) := by
  rw [read]
  · split
    · rfl
    · unfold readName
      cases hfound : (reach (c :: cs)).whole with
      | none => simp only [hfound]
      | some found =>
          simp only [hfound]
          split
          · rfl
          · rfl
  · exact fun _ heq => absurd heq hc
  · exact fun _ heq => absurd heq hc
  · exact fun heq => hc heq

theorem readName_append (inAttribute : Bool) (cs rest : List Char) :
    readName inAttribute (cs ++ quote :: rest) = readName inAttribute (cs ++ [quote]) ∧
      (readName inAttribute (cs ++ quote :: rest)).2 ≤ cs.length := by
  obtain ⟨hsame, hle⟩ := reach_append hquote cs rest
  -- Nothing is looked up beyond the delimiter.
  have hlookup : ∀ n, n ≤ cs.length → (cs ++ quote :: rest)[n]? = (cs ++ [quote])[n]? := by
    intro n hn
    rw [List.getElem?_append, List.getElem?_append]
    split
    · rfl
    · rw [Nat.sub_eq_zero_of_le hn]
      rfl
  have htake : (cs ++ quote :: rest).take (reach (cs ++ quote :: rest)).shared =
      (cs ++ [quote]).take (reach (cs ++ quote :: rest)).shared := by
    rw [List.take_append_of_le_length hle, List.take_append_of_le_length hle]
  unfold readName
  rw [← hsame]
  dsimp only
  rw [htake]
  cases hfound : (reach (cs ++ quote :: rest)).whole with
  | none => exact ⟨rfl, hle⟩
  | some found =>
      have hlength : found.1 ≤ cs.length := by
        refine Nat.le_trans (reach_whole_le _ found ?_) hle
        exact hfound
      dsimp only
      rw [hlookup _ hlength, hlookup (found.1 - 1) (by omega)]
      split
      · exact ⟨rfl, hle⟩
      · exact ⟨rfl, hle⟩

theorem stops_name (inAttribute : Bool) (closing : Option Char) {cs : List Char}
    (hhash : cs.head? ≠ some '#') (rest : List Char) :
    Stops inAttribute closing cs quote rest := by
  have hne : quote ≠ '#' := by
    rintro rfl
    cases hquote
  obtain ⟨hsame, hle⟩ := readName_append hquote inAttribute cs rest
  cases cs with
  | nil =>
      have hread := fun rest => read_of_ne_hash inAttribute closing hne rest
      refine ⟨?_, fun {text taken} hok => ?_⟩
      · rw [List.nil_append, List.nil_append, hread, hread, ← List.nil_append (quote :: rest),
          hsame]
        rfl
      · rw [List.nil_append, hread] at hok
        split at hok
        next =>
          cases hok
          exact Nat.le_refl _
        next =>
          rw [List.nil_append, Except.ok.inj hok] at hle
          exact hle
  | cons c cs =>
      have hc : c ≠ '#' := fun heq => hhash (heq ▸ rfl)
      have hread := fun rest => read_of_ne_hash inAttribute closing hc (cs ++ quote :: rest)
      refine ⟨?_, fun {text taken} hok => ?_⟩
      · rw [List.cons_append, List.cons_append, hread, hread, ← List.cons_append, hsame]
        rfl
      · rw [List.cons_append, hread] at hok
        split at hok
        next =>
          cases hok
          exact Nat.zero_le _
        next =>
          rw [List.cons_append, Except.ok.inj hok] at hle
          exact hle

/-- A reference stops at a delimiter. -/
theorem stops (inAttribute : Bool) (closing : Option Char) (cs rest : List Char) :
    Stops inAttribute closing cs quote rest := by
  cases cs with
  | nil => exact stops_name hquote inAttribute closing (by simp) rest
  | cons c cs =>
      by_cases hc : c = '#'
      · subst hc
        by_cases hx : cs.head? = some 'x' ∨ cs.head? = some 'X'
        · obtain ⟨marker, hmarker, hhead⟩ : ∃ marker, (marker = 'x' ∨ marker = 'X') ∧
              cs.head? = some marker := by
            rcases hx with hx | hX
            · exact ⟨'x', Or.inl rfl, hx⟩
            · exact ⟨'X', Or.inr rfl, hX⟩
          obtain ⟨ds, rfl⟩ := List.head?_eq_some_iff.mp hhead
          exact stops_hexadecimal hquote inAttribute closing hmarker ds rest
        · exact stops_decimal hquote inAttribute closing (fun h => hx (Or.inl h))
            (fun h => hx (Or.inr h)) rest
      · exact stops_name hquote inAttribute closing (by simpa using hc) rest

end Stops

end Entity

end Winnow.Html
