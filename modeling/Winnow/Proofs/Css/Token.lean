import Mathlib.Data.List.Induction
import Mathlib.Tactic.IntervalCases
import Winnow.Css.Lexer
import Winnow.Proofs.Css.Name

/-!
# Strings and ranges of code points that are read back

A string is written between double quotes, and a range of code points with capital digits and
without leading zeros, whatever they looked like when they were read.
-/

namespace Winnow.Css

/-! ## Hexadecimal numbers -/

theorem hexText_eq (n : Nat) : Text.hexText n =
    if n < 16 then [(Nat.digitChar n).toUpper]
    else Text.hexText (n / 16) ++ [(Nat.digitChar (n % 16)).toUpper] := by
  unfold Text.hexText
  rw [Nat.toDigits_eq_if (by decide)]
  split
  · rfl
  · rw [List.map_append, List.map_singleton]

theorem hexDigit?_digitChar {n : Nat} (hn : n < 16) :
    Text.hexDigit? (Nat.digitChar n).toUpper = some n := by
  interval_cases n <;> decide

theorem isHexDigit_of_mem_hexText (n : Nat) : ∀ c ∈ Text.hexText n, Text.isHexDigit c = true := by
  induction n using Nat.strong_induction_on with
  | _ n ih =>
      rw [hexText_eq]
      split
      next hn =>
        intro c hmem
        rw [List.mem_singleton.mp hmem, Text.isHexDigit, hexDigit?_digitChar hn]
        rfl
      next hn =>
        intro c hmem
        rcases List.mem_append.mp hmem with hfront | hlast
        · exact ih (n / 16) (by omega) c hfront
        · rw [List.mem_singleton.mp hlast, Text.isHexDigit, hexDigit?_digitChar (by omega)]
          rfl

theorem hexText_ne_nil (n : Nat) : Text.hexText n ≠ [] := by
  rw [hexText_eq]
  split <;> simp

theorem ofDigits_snoc (base : Nat) (digits : List Nat) (digit : Nat) :
    Text.ofDigits base (digits ++ [digit]) = Text.ofDigits base digits * base + digit := by
  simp [Text.ofDigits]

theorem hexNumber_hexText (n : Nat) : hexNumber (Text.hexText n) = n := by
  induction n using Nat.strong_induction_on with
  | _ n ih =>
      rw [hexText_eq]
      split
      next hn =>
        simp [hexNumber, hexDigit?_digitChar hn, Text.ofDigits]
      next hn =>
        have hfront := ih (n / 16) (by omega)
        unfold hexNumber at hfront ⊢
        rw [List.filterMap_append, List.filterMap_cons, hexDigit?_digitChar (by omega)]
        simp only [List.filterMap_nil, ofDigits_snoc, hfront]
        omega

/-- Numbers with at most six hexadecimal digits. -/
def codePointBound : Nat := 16 ^ 6

theorem length_hexText_le {n : Nat} (hn : n < codePointBound) : (Text.hexText n).length ≤ 6 := by
  unfold Text.hexText
  rw [List.length_map]
  exact (Nat.length_toDigits_le_iff (by decide) (by decide)).mpr hn

theorem ofDigits_lt (digits : List Nat) (hdigits : ∀ d ∈ digits, d < 16) :
    Text.ofDigits 16 digits < 16 ^ digits.length := by
  induction digits using List.reverseRecOn with
  | nil => decide
  | append_singleton digits digit ih =>
      have hfront := ih fun d hmem => hdigits d (by simp [hmem])
      have hlast := hdigits digit (by simp)
      rw [ofDigits_snoc, List.length_append, List.length_singleton, Nat.pow_succ]
      omega

theorem hexDigit?_lt {c : Char} {n : Nat} (hdigit : Text.hexDigit? c = some n) : n < 16 := by
  have hle : ∀ {d : Char}, c ≤ d → c.toNat ≤ d.toNat := fun h => h
  unfold Text.hexDigit? at hdigit
  split at hdigit
  next h =>
    have := hle h.2
    cases hdigit
    simp only [Char.reduceToNat] at this ⊢
    omega
  next =>
    split at hdigit
    next h =>
      have := hle h.2
      cases hdigit
      simp only [Char.reduceToNat] at this ⊢
      omega
    next =>
      split at hdigit
      next h =>
        have := hle h.2
        cases hdigit
        simp only [Char.reduceToNat] at this ⊢
        omega
      next => cases hdigit

theorem hexNumber_lt {digits : List Char} (hlength : digits.length ≤ 6) :
    hexNumber digits < codePointBound := by
  have hlt := ofDigits_lt (digits.filterMap Text.hexDigit?) fun d hmem => by
    obtain ⟨c, -, hc⟩ := List.mem_filterMap.mp hmem
    exact hexDigit?_lt hc
  refine lt_of_lt_of_le hlt (Nat.pow_le_pow_right (by decide) ?_)
  exact (List.length_filterMap_le _ _).trans hlength

/-! ## Ranges of code points -/

theorem readHex_append {n : Nat} {rest : List Char} (hn : n < codePointBound)
    (hrest : Stops Text.isHexDigit rest) :
    readHex (Text.hexText n ++ rest) = (Text.hexText n, rest) := by
  simp only [readHex, List.take_append, List.take_of_length_le (length_hexText_le hn),
    takeWhile_run (isHexDigit_of_mem_hexText n) (hrest.take _), List.drop_left]

/-- The end of a range, unless the range is a single code point. -/
def rangeEnd (first last : Nat) : List Char :=
  if first = last then [] else '-' :: Text.hexText last

/-- What may follow a range of code points. -/
structure EndsRange (first last : Nat) (rest : List Char) : Prop where
  digit : Stops Text.isHexDigit rest
  mark : Stops (· = '?') rest
  single : first = last → ∀ c cs, rest = '-' :: c :: cs → Text.isHexDigit c = false

theorem stops_rangeEnd {p : Char → Bool} {first last : Nat} {rest : List Char}
    (hhyphen : p '-' = false) (hrest : Stops p rest) : Stops p (rangeEnd first last ++ rest) := by
  unfold rangeEnd
  split
  · exact hrest
  · exact stops_cons.mpr hhyphen

theorem readCodePoints_append {first last : Nat} {rest : List Char}
    (hfirst : first < codePointBound) (hlast : last < codePointBound)
    (hrest : EndsRange first last rest) :
    readCodePoints (Text.hexText first ++ (rangeEnd first last ++ rest)) =
      (.codePoints first last, rest) := by
  have hdigit : Stops Text.isHexDigit (rangeEnd first last ++ rest) :=
    stops_rangeEnd (by decide) hrest.digit
  have hmark : Stops (· = '?') (rangeEnd first last ++ rest) :=
    stops_rangeEnd (by decide) hrest.mark
  have hmarks : (((Text.hexText first ++ (rangeEnd first last ++ rest)).take 6).drop
      (Text.hexText first).length).takeWhile (· = '?') = [] := by
    rw [List.take_append, List.take_of_length_le (length_hexText_le hfirst), List.drop_left]
    exact (hmark.take _).takeWhile_eq_nil
  unfold readCodePoints
  simp only [readHex_append hfirst hdigit, hmarks, List.isEmpty_nil, Bool.not_true,
    Bool.false_eq_true, if_false, hexNumber_hexText]
  by_cases heq : first = last
  · have hend : rangeEnd first last ++ rest = rest := by simp [rangeEnd, heq]
    rw [hend]
    split
    next c cs => rw [if_neg (by simp [hrest.single heq c cs rfl]), heq]
    next => rw [heq]
  · obtain ⟨c, cs, htext⟩ := List.exists_cons_of_ne_nil (hexText_ne_nil last)
    have hc := isHexDigit_of_mem_hexText last c (by simp [htext])
    have hread := readHex_append hlast hrest.digit
    have hend : rangeEnd first last ++ rest = '-' :: c :: (cs ++ rest) := by
      simp [rangeEnd, heq, htext]
    rw [htext, List.cons_append] at hread
    rw [hend]
    simp only [hc, if_true, List.drop_succ_cons, List.drop_zero, hread]
    rw [← htext, hexNumber_hexText]

theorem length_readHex_le (cs : List Char) : (readHex cs).1.length ≤ 6 := by
  refine (List.takeWhile_prefix _).length_le.trans ?_
  exact List.length_take_le 6 cs

/-- A range that was read has bounds of at most six digits. -/
theorem exists_of_readCodePoints {cs rest : List Char} {token : Token}
    (hread : readCodePoints cs = (token, rest)) :
    rest <:+ cs ∧ ∃ first last, token = .codePoints first last ∧ first < codePointBound ∧
      last < codePointBound := by
  have hcut : (readHex cs).2 <:+ cs := List.drop_suffix _ cs
  have hlength := length_readHex_le cs
  unfold readCodePoints at hread
  dsimp only at hread
  split at hread
  next =>
    obtain ⟨rfl, rfl⟩ := Prod.mk.inj hread
    have hmarks : ((readHex cs).1.length + (((cs.take 6).drop (readHex cs).1.length).takeWhile
        (· = '?')).length) ≤ 6 := by
      have hle := (List.takeWhile_prefix (l := (cs.take 6).drop (readHex cs).1.length)
        (fun c : Char => decide (c = '?'))).length_le
      rw [List.length_drop, List.length_take] at hle
      omega
    refine ⟨(List.drop_suffix _ _).trans hcut, _, _, rfl, hexNumber_lt ?_, hexNumber_lt ?_⟩
    · rwa [List.length_append, List.length_map]
    · rwa [List.length_append, List.length_map]
  next =>
    split at hread
    next c ds heq =>
      split at hread
      next =>
        obtain ⟨rfl, rfl⟩ := Prod.mk.inj hread
        refine ⟨?_, _, _, rfl, hexNumber_lt hlength, hexNumber_lt (length_readHex_le _)⟩
        exact (List.drop_suffix _ _).trans ((List.drop_suffix _ _).trans hcut)
      next =>
        obtain ⟨rfl, rfl⟩ := Prod.mk.inj hread
        exact ⟨hcut, _, _, rfl, hexNumber_lt hlength, hexNumber_lt hlength⟩
    next =>
      obtain ⟨rfl, rfl⟩ := Prod.mk.inj hread
      exact ⟨hcut, _, _, rfl, hexNumber_lt hlength, hexNumber_lt hlength⟩

/-! ## Strings -/

/-- A character that stays as it is when a text is prepared. -/
def IsSettled (c : Char) : Prop := c ≠ '\r' ∧ c.toNat ≠ 0x0c ∧ c.toNat ≠ 0

/-- A text that needs no escape in a string but for its quotes. -/
def IsLine (text : List Char) : Prop := ∀ c ∈ text, c ≠ '\\' ∧ c ≠ '\n' ∧ IsSettled c

theorem readString_append {text : List Char} (htext : IsLine text) (rest : List Char) :
    readString '"' 0 (writeQuoted text ++ '"' :: rest) = (text, .closed, rest) := by
  induction text with
  | nil => rfl
  | cons c cs ih =>
      obtain ⟨⟨hescape, hline, hreturn, hfeed, -⟩, hcs⟩ := List.forall_mem_cons.mp htext
      have hread := ih hcs
      rw [writeQuoted] at hread ⊢
      rw [List.flatMap_cons, List.append_assoc]
      by_cases hquote : c = '"'
      · subst hquote
        change readString '"' 0 ('\\' :: '"' :: _) = _
        simp [readString, isEscape, readEscape, Text.isHexDigit, Text.hexDigit?, hread]
      · have hwrite : writeQuotedChar c = [c] := by
          simp [writeQuotedChar, hquote, hescape, lineEscape?, hline, hreturn, hfeed]
        rw [hwrite, List.singleton_append, readString]
        simp [hquote, hline, hescape, hread]

/-- Where no escape occurs, a string holds characters of the text and no line end. -/
theorem of_readString {quote : Char} {cs text rest : List Char} {ending : Ending}
    (hescape : '\\' ∉ cs) (hread : readString quote 0 cs = (text, ending, rest)) :
    rest <:+ cs ∧ (∀ c ∈ text, c ∈ cs ∧ c ≠ '\n') := by
  induction cs generalizing text with
  | nil =>
      cases hread
      exact ⟨List.suffix_refl _, fun c hmem => by cases hmem⟩
  | cons c cs ih =>
      rw [List.mem_cons, not_or] at hescape
      rw [readString] at hread
      simp only [Ne.symm hescape.1, if_false] at hread
      split at hread
      next =>
        cases hread
        exact ⟨List.suffix_cons _ _, fun c hmem => by cases hmem⟩
      next =>
        split at hread
        next =>
          cases hread
          exact ⟨List.suffix_refl _, fun c hmem => by cases hmem⟩
        next hline =>
          obtain ⟨rfl, hrest⟩ := Prod.mk.inj hread
          obtain ⟨rfl, rfl⟩ := Prod.mk.inj hrest
          obtain ⟨hsuffix, hchars⟩ := ih hescape.2 rfl
          refine ⟨hsuffix.trans (List.suffix_cons _ _), List.forall_mem_cons.mpr ⟨?_, ?_⟩⟩
          · exact ⟨List.mem_cons_self, hline⟩
          · exact fun d hmem => ⟨List.mem_cons_of_mem _ (hchars d hmem).1, (hchars d hmem).2⟩

end Winnow.Css
