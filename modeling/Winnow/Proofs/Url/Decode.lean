import Winnow.Proofs.Url.Reread

/-!
# Decoded values

A value is decoded piece by piece: a numeric reference gives its character, in either notation
and with any leading zeros, and what follows it does not matter. What can keep a value from being
decoded is a decimal reference with more digits than are read.
-/

namespace Winnow.Url

/-! ## Decoding step by step -/

/-- A text is empty, or it starts with a reference, or with a character that starts none. -/
theorem reference_induction {motive : List Char → Prop} (nil : motive [])
    (plain : ∀ c cs, (c = '&' → reference? cs = none) → motive cs → motive (c :: cs))
    (reference : ∀ cs base digits rest, reference? cs = some (base, digits, rest) →
      motive rest → motive ('&' :: cs)) (cs : List Char) : motive cs := by
  induction hlength : cs.length using Nat.strong_induction_on generalizing cs with
  | _ length ih =>
      subst hlength
      cases cs with
      | nil => exact nil
      | cons c cs =>
          by_cases hfound : c = '&' ∧ ∃ found, reference? cs = some found
          · obtain ⟨rfl, ⟨base, digits, rest⟩, hfound⟩ := hfound
            exact reference cs base digits rest hfound
              (ih _ (Nat.lt_succ_of_le (length_le_of_reference? hfound)) rest rfl)
          · refine plain c cs (fun hc => ?_) (ih _ (Nat.lt_succ_self _) cs rfl)
            exact Option.eq_none_iff_forall_ne_some.mpr fun found h => hfound ⟨hc, found, h⟩

/-- Fuel beyond the length of a text makes no difference. -/
theorem decodeFrom_eq_decode {fuel : Nat} {cs : List Char} (hfuel : cs.length ≤ fuel) :
    decodeFrom fuel cs = decode cs := by
  induction cs using reference_induction generalizing fuel with
  | nil => rw [decodeFrom_nil, decode, decodeFrom_nil]
  | plain c cs hnone ih =>
      obtain ⟨more, rfl⟩ := Nat.exists_eq_succ_of_ne_zero (Nat.ne_zero_of_lt hfuel)
      rw [decode, List.length_cons, decodeFrom_of_none hnone, decodeFrom_of_none hnone,
        ih (Nat.le_of_succ_le_succ hfuel)]
      rfl
  | reference cs base digits rest hfound ih =>
      obtain ⟨more, rfl⟩ := Nat.exists_eq_succ_of_ne_zero (Nat.ne_zero_of_lt hfuel)
      have hle := length_le_of_reference? hfound
      rw [decode, List.length_cons, decodeFrom_of_some hfound, decodeFrom_of_some hfound,
        ih (hle.trans (Nat.le_of_succ_le_succ hfuel)), ih hle]

theorem decode_cons {c : Char} {cs : List Char} (hnone : c = '&' → reference? cs = none) :
    decode (c :: cs) = do return c :: (← decode cs) := by
  rw [decode, List.length_cons, decodeFrom_of_none hnone]
  rfl

theorem decode_reference {cs rest : List Char} {base : Nat} {digits : List Nat}
    (hfound : reference? cs = some (base, digits, rest)) :
    decode ('&' :: cs) = do
      return (← resolve ('&' :: cs) base digits rest) ++ (← decode rest) := by
  rw [decode, List.length_cons, decodeFrom_of_some hfound,
    decodeFrom_eq_decode (length_le_of_reference? hfound)]

/-! ## Values that cannot be read -/

/-- Do more decimal digits than are read stand behind a number sign? -/
def isOverlong : List Char → Bool
  | '#' :: cs => decide (Text.maxDecimalDigits < (cs.takeWhile Text.isAsciiDigit).length)
  | _ => false

/-- Does a value hold a decimal reference with more digits than are read? -/
def holdsOverlong : List Char → Bool
  | [] => false
  | c :: cs => (c == '&' && isOverlong cs) || holdsOverlong cs

theorem takeWhile_of_isHexadecimal {cs : List Char} (hhex : isHexadecimal cs = true) :
    cs.takeWhile Text.isAsciiDigit = [] := by
  simp only [isHexadecimal, Bool.and_eq_true, Bool.or_eq_true, decide_eq_true_eq] at hhex
  rcases hhex.1 with hx | hX
  · obtain ⟨rest, rfl⟩ := List.head?_eq_some_iff.mp hx
    exact List.takeWhile_cons_of_neg (by decide)
  · obtain ⟨rest, rfl⟩ := List.head?_eq_some_iff.mp hX
    exact List.takeWhile_cons_of_neg (by decide)

/-- A number is too long if it is decimal and has too many digits. -/
theorem isOverlong_eq (cs : List Char) : isOverlong ('#' :: cs) =
    decide ((digitsOf cs).1 = 10 ∧ Text.maxDecimalDigits < (digitsOf cs).2.1.length) := by
  have hlength : ((cs.takeWhile Text.isAsciiDigit).filterMap Text.asciiDigit?).length =
      (cs.takeWhile Text.isAsciiDigit).length :=
    List.filterMap_length_eq_length.mpr fun d hmem =>
      List.mem_takeWhile_imp (p := Text.isAsciiDigit) hmem
  rw [isOverlong, digitsOf]
  split
  next hhex => simp [takeWhile_of_isHexadecimal hhex]
  next => simp [hlength]

theorem isOverlong_of_reference? {cs rest : List Char} {base : Nat} {digits : List Nat}
    (hfound : reference? cs = some (base, digits, rest)) :
    isOverlong cs = decide (base = 10 ∧ Text.maxDecimalDigits < digits.length) := by
  by_cases hhead : cs.head? = some '#'
  · obtain ⟨ds, rfl⟩ := List.head?_eq_some_iff.mp hhead
    rw [reference?_eq] at hfound
    split at hfound
    · cases hfound
    · cases hfound
      exact isOverlong_eq ds
  · rw [reference?_of_head?_ne hhead] at hfound
    cases hfound

theorem isOverlong_of_reference?_eq_none {cs : List Char} (hnone : reference? cs = none) :
    isOverlong cs = false := by
  by_cases hhead : cs.head? = some '#'
  · obtain ⟨ds, rfl⟩ := List.head?_eq_some_iff.mp hhead
    rw [reference?_eq] at hnone
    split at hnone
    next hempty => simp [isOverlong_eq, List.isEmpty_iff.mp hempty]
    next => cases hnone
  · unfold isOverlong
    split
    next => exact absurd rfl hhead
    next => rfl

theorem holdsOverlong_append_right {back : List Char} (hback : holdsOverlong back = true)
    (front : List Char) : holdsOverlong (front ++ back) = true := by
  induction front with
  | nil => exact hback
  | cons c front ih => rw [List.cons_append, holdsOverlong, ih, Bool.or_true]

theorem isOverlong_append {front : List Char} (hfront : isOverlong front = true)
    (back : List Char) : isOverlong (front ++ back) = true := by
  unfold isOverlong at hfront
  split at hfront
  next cs =>
    rw [decide_eq_true_eq] at hfront
    rw [List.cons_append, isOverlong, decide_eq_true_eq, List.takeWhile_append]
    split
    next hall =>
      rw [List.length_append, ← hall]
      exact Nat.lt_add_right _ hfront
    next => exact hfront
  next => cases hfront

theorem holdsOverlong_append_left {front : List Char} (hfront : holdsOverlong front = true)
    (back : List Char) : holdsOverlong (front ++ back) = true := by
  induction front with
  | nil => cases hfront
  | cons c front ih =>
      rw [holdsOverlong, Bool.or_eq_true, Bool.and_eq_true] at hfront
      rw [List.cons_append, holdsOverlong, Bool.or_eq_true, Bool.and_eq_true]
      exact hfront.imp (And.imp_right fun h => isOverlong_append h back) ih

/-- The parts of a value that can be read can be read. -/
theorem holdsOverlong_of_isInfix {part value : List Char} (hpart : part <:+: value)
    (hvalue : holdsOverlong value = false) : holdsOverlong part = false := by
  obtain ⟨front, back, rfl⟩ := hpart
  rw [← Bool.not_eq_true] at hvalue ⊢
  exact fun hlong =>
    hvalue (holdsOverlong_append_left (holdsOverlong_append_right hlong front) back)

theorem holdsOverlong_append_of_reference {front : List Char}
    (hfront : ∀ c ∈ front, isReferenceChar c = true) (rest : List Char) :
    holdsOverlong (front ++ rest) = holdsOverlong rest := by
  induction front with
  | nil => rfl
  | cons c front ih =>
      have hc : c ≠ '&' := by
        rintro rfl
        exact absurd (hfront _ List.mem_cons_self) (by decide)
      rw [List.cons_append, holdsOverlong, ih fun d hmem => hfront d (List.mem_cons_of_mem c hmem),
        beq_eq_false_iff_ne.mpr hc, Bool.false_and, Bool.false_or]

/-- A value can be decoded unless it holds a decimal reference with too many digits. -/
theorem exists_decode_eq (cs : List Char) : ∃ decoded,
    decode cs = if holdsOverlong cs then .error .numeralTooLong else .ok decoded := by
  induction cs using reference_induction with
  | nil => exact ⟨[], rfl⟩
  | plain c cs hnone ih =>
      obtain ⟨decoded, hdecoded⟩ := ih
      have hfirst : (c == '&' && isOverlong cs) = false := by
        rw [Bool.and_eq_false_imp, beq_iff_eq]
        exact fun hc => isOverlong_of_reference?_eq_none (hnone hc)
      refine ⟨c :: decoded, ?_⟩
      rw [decode_cons hnone, hdecoded, holdsOverlong, hfirst, Bool.false_or]
      split
      · rfl
      · rfl
  | reference cs base digits rest hfound ih =>
      obtain ⟨decoded, hdecoded⟩ := ih
      obtain ⟨front, hcut, hfront⟩ := exists_front_of_reference? hfound
      have hrest : holdsOverlong cs = holdsOverlong rest := by
        rw [hcut, holdsOverlong_append_of_reference hfront]
      rw [decode_reference hfound, holdsOverlong, beq_self_eq_true, Bool.true_and, hrest,
        isOverlong_of_reference? hfound, hdecoded]
      unfold resolve
      by_cases hlong : base = 10 ∧ Text.maxDecimalDigits < digits.length
      · refine ⟨[], ?_⟩
        rw [if_pos hlong, decide_eq_true hlong]
        rfl
      · rw [if_neg hlong, decide_eq_false hlong, Bool.false_or]
        generalize ('&' :: cs).take _ = source
        refine ⟨(if 0x10ffff < Text.ofDigits base digits then source
          else [referenced (Text.ofDigits base digits)]) ++ decoded, ?_⟩
        dsimp only
        split
        all_goals
          split
          · rfl
          · rfl

/-! ## Ways to write a character -/

/-- The two notations of numbers in references. -/
inductive Radix where
  | decimal
  | hexadecimal
  deriving DecidableEq, Repr

namespace Radix

/-- The number of digits that there are. -/
def base : Radix → Nat
  | decimal => 10
  | hexadecimal => 16

/-- The value of a digit. -/
def digit? : Radix → Char → Option Nat
  | decimal => Text.asciiDigit?
  | hexadecimal => Text.hexDigit?

/-- Is this a digit? -/
def isDigit (radix : Radix) (c : Char) : Bool := (radix.digit? c).isSome

/-- What stands between the ampersand and the digits. -/
def markers : Radix → List (List Char)
  | decimal => [['#']]
  | hexadecimal => [['#', 'x'], ['#', 'X']]

/-- The number that digits write. -/
def value (radix : Radix) (digits : List Char) : Nat :=
  Text.ofDigits radix.base (digits.filterMap radix.digit?)

/-- May this end a reference in front of a rest? If it is no semicolon, what follows must not
read as a part of the reference. -/
def Closes (radix : Radix) (closing rest : List Char) : Prop :=
  closing = [';'] ∨ closing = [] ∧ ∀ c ∈ rest.head?, radix.isDigit c = false ∧ c ≠ ';'

end Radix

/-- The ways to write a character in front of a rest: as it is, or as a numeric reference with
any leading zeros. -/
inductive Writes (c : Char) : List Char → List Char → Prop
  | plain (rest : List Char) : Writes c [c] rest
  | reference (radix : Radix) (marker digits closing : List Char) {rest : List Char}
    (hmarker : marker ∈ radix.markers) (hne : digits ≠ [])
    (hdigits : ∀ d ∈ digits, radix.isDigit d = true) (hvalue : radix.value digits = c.toNat)
    (hlength : radix = .decimal → digits.length ≤ Text.maxDecimalDigits)
    (hclosing : radix.Closes closing rest) :
    Writes c ('&' :: (marker ++ (digits ++ closing))) rest

theorem Radix.Closes.stops {radix : Radix} {closing rest : List Char}
    (hcloses : radix.Closes closing rest) :
    ∀ c ∈ (closing ++ rest).head?, radix.isDigit c = false := by
  rcases hcloses with rfl | ⟨rfl, hrest⟩
  · rintro c hmem
    cases hmem
    cases radix <;> decide
  · exact fun c hmem => (hrest c hmem).1

theorem Radix.Closes.afterSemicolon_eq {radix : Radix} {closing rest : List Char}
    (hcloses : radix.Closes closing rest) : afterSemicolon (closing ++ rest) = rest := by
  rcases hcloses with rfl | ⟨rfl, hrest⟩
  · rfl
  · rw [List.nil_append]
    unfold afterSemicolon
    split
    next => exact absurd rfl (hrest ';' rfl).2
    next => rfl

theorem takeWhile_digits {p : Char → Bool} {digits back : List Char}
    (hdigits : ∀ d ∈ digits, p d = true) (hback : ∀ c ∈ back.head?, p c = false) :
    (digits ++ back).takeWhile p = digits ∧ (digits ++ back).dropWhile p = back := by
  rw [List.takeWhile_append_of_pos hdigits, List.dropWhile_append_of_pos hdigits]
  cases back with
  | nil => simp
  | cons c cs =>
      have hc : ¬ p c = true := by simp [hback c rfl]
      rw [List.takeWhile_cons_of_neg hc, List.dropWhile_cons_of_neg hc]
      simp

/-- A reference is found as it is written. -/
theorem reference?_written {radix : Radix} {marker digits closing rest : List Char}
    (hmarker : marker ∈ radix.markers) (hne : digits ≠ [])
    (hdigits : ∀ d ∈ digits, radix.isDigit d = true) (hcloses : radix.Closes closing rest) :
    reference? (marker ++ (digits ++ (closing ++ rest))) =
      some (radix.base, digits.filterMap radix.digit?, rest) := by
  obtain ⟨htake, hdrop⟩ := takeWhile_digits hdigits hcloses.stops
  have hvalues : (digits.filterMap radix.digit?).isEmpty = false := by
    rw [List.isEmpty_eq_false_iff, ← List.length_pos_iff_ne_nil,
      List.filterMap_length_eq_length.mpr hdigits]
    exact List.length_pos_iff_ne_nil.mpr hne
  have hfound : ∀ cs, digitsOf cs = (radix.base, digits.filterMap radix.digit?, closing ++ rest) →
      reference? ('#' :: cs) = some (radix.base, digits.filterMap radix.digit?, rest) := by
    intro cs heq
    rw [reference?_eq, heq, hvalues, hcloses.afterSemicolon_eq]
    rfl
  have hfirst : digits.length ≠ 0 := fun h => hne (List.eq_nil_of_length_eq_zero h)
  cases radix with
  | decimal =>
      obtain rfl := List.mem_singleton.mp hmarker
      refine hfound (digits ++ (closing ++ rest)) ?_
      obtain ⟨d, ds, rfl⟩ := List.exists_cons_of_ne_nil hne
      have hd : Text.isAsciiDigit d = true := hdigits d List.mem_cons_self
      have hnot : isHexadecimal ((d :: ds) ++ (closing ++ rest)) = false := by
        have hx : d ≠ 'x' := by
          rintro rfl
          exact absurd hd (by decide)
        have hX : d ≠ 'X' := by
          rintro rfl
          exact absurd hd (by decide)
        simp [isHexadecimal, hx, hX]
      rw [digitsOf, hnot, if_neg Bool.false_ne_true]
      exact congrArg₂ (fun front back => (10, List.filterMap Text.asciiDigit? front, back))
        htake hdrop
  | hexadecimal =>
      have htaken : (digits ++ (closing ++ rest)).takeWhile Text.isHexDigit = digits := htake
      have hhex : ∀ c, c = 'x' ∨ c = 'X' →
          reference? ('#' :: c :: (digits ++ (closing ++ rest))) =
            some (Radix.hexadecimal.base, digits.filterMap Radix.hexadecimal.digit?, rest) := by
        intro c hc
        refine hfound _ ?_
        have hmarked : isHexadecimal (c :: (digits ++ (closing ++ rest))) = true := by
          simp only [isHexadecimal, List.head?_cons, Option.some.injEq, List.drop_one,
            List.tail_cons, htaken]
          simp [hc, hfirst]
        rw [digitsOf, hmarked, if_pos rfl]
        exact congrArg₂ (fun front back => (16, List.filterMap Text.hexDigit? front, back))
          htake hdrop
      rcases List.mem_cons.mp hmarker with rfl | hmarker
      · exact hhex 'x' (Or.inl rfl)
      · obtain rfl := List.mem_singleton.mp hmarker
        exact hhex 'X' (Or.inr rfl)

theorem referenced_toNat (c : Char) : referenced c.toNat = c := by
  have hvalid : c.toNat.isValidChar := c.valid
  rw [referenced, dif_pos hvalid]
  exact Char.ext (UInt32.ofNat_toNat)

/-- However a character is written, it is decoded. -/
theorem Writes.decode_append {c : Char} {text rest : List Char} (hwrites : Writes c text rest)
    (hc : c ≠ '&') : decode (text ++ rest) = do return c :: (← decode rest) := by
  cases hwrites with
  | plain => exact decode_cons fun h => absurd h hc
  | reference radix marker digits closing hmarker hne hdigits hvalue hlength hclosing =>
      rw [List.cons_append, List.append_assoc, List.append_assoc,
        decode_reference (reference?_written hmarker hne hdigits hclosing)]
      have hshort : ¬ (radix.base = 10 ∧ Text.maxDecimalDigits <
          (digits.filterMap radix.digit?).length) := by
        rw [List.filterMap_length_eq_length.mpr hdigits]
        rintro ⟨hbase, hlong⟩
        cases radix with
        | decimal => exact absurd (hlength rfl) (Nat.not_le_of_lt hlong)
        | hexadecimal => cases hbase
      have hsmall : ¬ 0x10ffff < c.toNat := by
        have hvalid : c.toNat.isValidChar := c.valid
        rcases hvalid with hlow | ⟨-, hhigh⟩ <;> omega
      rw [resolve, if_neg hshort]
      dsimp only
      rw [← Radix.value, hvalue, if_neg hsmall, referenced_toNat]
      rfl

end Winnow.Url
