import Winnow.Css.Lexer
import Winnow.Proofs.Css.Name

/-!
# Numbers that are read back

A number consists of a sign, digits, a fraction and a power of ten. Reading splits it into these
parts, and takes a number of such parts back when what follows cannot belong to it.
-/

namespace Winnow.Css

/-- A sign, or none. -/
def IsSignPart (sign : List Char) : Prop := sign = [] ∨ sign = ['+'] ∨ sign = ['-']

/-- A run of digits. -/
def IsDigits (digits : List Char) : Prop := ∀ c ∈ digits, Text.isAsciiDigit c = true

/-- The parts of a number. -/
structure Parts where
  sign : List Char
  digits : List Char
  fraction : List Char
  power : List Char

namespace Parts

/-- The number as it is written. -/
def written (parts : Parts) : List Char :=
  parts.sign ++ (parts.digits ++ (parts.fraction ++ parts.power))

/-- Has the number neither a fraction nor a power? -/
def whole (parts : Parts) : Bool := parts.fraction.isEmpty && parts.power.isEmpty

/-- Parts that make a number. -/
structure Valid (parts : Parts) : Prop where
  sign : IsSignPart parts.sign
  digits : IsDigits parts.digits
  fraction : parts.fraction = [] ∨
    ∃ ds, parts.fraction = '.' :: ds ∧ ds ≠ [] ∧ IsDigits ds
  power : parts.power = [] ∨ ∃ c sign ds, parts.power = c :: (sign ++ ds) ∧
    (c = 'e' ∨ c = 'E') ∧ IsSignPart sign ∧ ds ≠ [] ∧ IsDigits ds
  filled : parts.digits ≠ [] ∨ parts.fraction ≠ []

/-- What may follow a number of these parts. -/
structure Ends (parts : Parts) (rest : List Char) : Prop where
  digits : Stops Text.isAsciiDigit rest
  fraction : parts.whole = true → readFraction rest = ([], rest)
  power : parts.power = [] → readPower rest = ([], rest)

end Parts

/-! ## The parts one by one -/

theorem isAsciiDigit_ne {c d : Char} (hc : Text.isAsciiDigit c = true)
    (hd : Text.isAsciiDigit d = false) : c ≠ d := by
  rintro rfl
  rw [hc] at hd
  cases hd

theorem readSign_append {sign cs : List Char} (hsign : IsSignPart sign)
    (hnext : Stops (fun c => c = '+' || c = '-') cs) : readSign (sign ++ cs) = (sign, cs) := by
  rcases hsign with rfl | rfl | rfl
  · cases cs with
    | nil => rfl
    | cons c cs =>
        have hc := stops_cons.mp hnext
        simp only [Bool.or_eq_false_iff, decide_eq_false_iff_not] at hc
        simp [readSign, hc.1, hc.2]
  · rfl
  · rfl

theorem readSign_spec (cs : List Char) :
    IsSignPart (readSign cs).1 ∧ cs = (readSign cs).1 ++ (readSign cs).2 := by
  cases cs with
  | nil => exact ⟨.inl rfl, rfl⟩
  | cons c cs =>
      by_cases hc : c = '+' ∨ c = '-'
      · rcases hc with rfl | rfl
        · exact ⟨.inr (.inl rfl), rfl⟩
        · exact ⟨.inr (.inr rfl), rfl⟩
      · have hread : readSign (c :: cs) = ([], c :: cs) := by simp_all [readSign]
        rw [hread]
        exact ⟨.inl rfl, rfl⟩

theorem readFraction_of_ne {c : Char} {cs : List Char} (hc : c ≠ '.') :
    readFraction (c :: cs) = ([], c :: cs) := by
  rw [readFraction]
  rintro ds heq
  exact hc (List.cons.inj heq).1

theorem readFraction_append {ds rest : List Char} (hne : ds ≠ []) (hds : IsDigits ds)
    (hrest : Stops Text.isAsciiDigit rest) :
    readFraction ('.' :: (ds ++ rest)) = ('.' :: ds, rest) := by
  simp [readFraction, takeWhile_run hds hrest, dropWhile_run hds hrest, hne]

theorem readFraction_spec (cs : List Char) :
    cs = (readFraction cs).1 ++ (readFraction cs).2 ∧ ((readFraction cs).1 = [] ∨
      ∃ ds, (readFraction cs).1 = '.' :: ds ∧ ds ≠ [] ∧ IsDigits ds) := by
  unfold readFraction
  split
  next ds =>
    dsimp only
    split
    · exact ⟨rfl, .inl rfl⟩
    next hfilled =>
      refine ⟨by simp, .inr ⟨_, rfl, by simpa using hfilled, ?_⟩⟩
      exact fun c hmem => List.mem_takeWhile_imp hmem
  next => exact ⟨rfl, .inl rfl⟩

theorem readPower_of_ne {c : Char} {cs : List Char} (hlower : c ≠ 'e') (hupper : c ≠ 'E') :
    readPower (c :: cs) = ([], c :: cs) := by
  simp [readPower, hlower, hupper]

theorem digits_stop_sign {ds : List Char} (hne : ds ≠ []) (hds : IsDigits ds) (rest : List Char) :
    Stops (fun c => c = '+' || c = '-') (ds ++ rest) := by
  obtain ⟨d, ds, rfl⟩ := List.exists_cons_of_ne_nil hne
  have hd := hds d List.mem_cons_self
  have hplus := isAsciiDigit_ne hd (d := '+') (by decide)
  have hminus := isAsciiDigit_ne hd (d := '-') (by decide)
  simp [stops_cons, hplus, hminus]

theorem readPower_append {c : Char} {sign ds rest : List Char} (hc : c = 'e' ∨ c = 'E')
    (hsign : IsSignPart sign) (hne : ds ≠ []) (hds : IsDigits ds)
    (hrest : Stops Text.isAsciiDigit rest) :
    readPower (c :: (sign ++ (ds ++ rest))) = (c :: (sign ++ ds), rest) := by
  have hread := readSign_append hsign (digits_stop_sign hne hds rest)
  rcases hc with rfl | rfl
  all_goals
    simp [readPower, hread, takeWhile_run hds hrest, dropWhile_run hds hrest, hne]

theorem readPower_spec (cs : List Char) :
    cs = (readPower cs).1 ++ (readPower cs).2 ∧ ((readPower cs).1 = [] ∨
      ∃ c sign ds, (readPower cs).1 = c :: (sign ++ ds) ∧ (c = 'e' ∨ c = 'E') ∧
        IsSignPart sign ∧ ds ≠ [] ∧ IsDigits ds) := by
  unfold readPower
  split
  next c cs =>
    split
    next hc =>
      obtain ⟨hsign, hcut⟩ := readSign_spec cs
      dsimp only
      split
      · exact ⟨rfl, .inl rfl⟩
      next hfilled =>
        refine ⟨?_, .inr ⟨c, _, _, rfl, by simpa using hc, hsign, by simpa using hfilled, ?_⟩⟩
        · have hrest := List.takeWhile_append_dropWhile
            (p := Text.isAsciiDigit) (l := (readSign cs).2)
          simp only [List.cons_append, List.append_assoc, hrest, ← hcut]
        · exact fun c hmem => List.mem_takeWhile_imp hmem
    next => exact ⟨rfl, .inl rfl⟩
  next => exact ⟨rfl, .inl rfl⟩

/-! ## Whole numbers -/

/-- The parts of a number that was read. -/
theorem exists_parts {cs : List Char} {numeral : Numeral} (hread : readNumeral? cs = some numeral) :
    ∃ parts : Parts, parts.Valid ∧ cs = parts.written ++ numeral.rest ∧
      numeral.written = parts.written ∧ numeral.whole = parts.whole ∧
      numeral.digits = parts.digits.length ∧
      (parts.power = [] → readPower numeral.rest = ([], numeral.rest)) := by
  unfold readNumeral? at hread
  obtain ⟨hsign, hcut⟩ := readSign_spec cs
  generalize hafter : (readSign cs).2.dropWhile Text.isAsciiDigit = after at hread
  obtain ⟨hfractionCut, hfraction⟩ := readFraction_spec after
  obtain ⟨hpowerCut, hpower⟩ := readPower_spec (readFraction after).2
  simp only [hafter] at hread
  split at hread
  next => cases hread
  next hfilled =>
    cases Option.some.inj hread
    refine ⟨⟨(readSign cs).1, (readSign cs).2.takeWhile Text.isAsciiDigit, (readFraction after).1,
      (readPower (readFraction after).2).1⟩, ⟨hsign, ?_, hfraction, hpower, ?_⟩, ?_, ?_, rfl, rfl,
      ?_⟩
    · exact fun c hmem => List.mem_takeWhile_imp hmem
    · simp only [Bool.and_eq_true, List.isEmpty_iff, not_and] at hfilled
      by_cases hdigits : (readSign cs).2.takeWhile Text.isAsciiDigit = []
      · exact .inr (hfilled hdigits)
      · exact .inl hdigits
    · simp only [Parts.written, List.append_assoc]
      rw [← hpowerCut, ← hfractionCut, ← hafter, List.takeWhile_append_dropWhile, ← hcut]
    · simp only [Parts.written, List.append_assoc]
    · intro hnone
      dsimp only at hnone ⊢
      rw [hnone, List.nil_append] at hpowerCut
      rw [← hpowerCut]
      exact Prod.ext hnone hpowerCut.symm

namespace Parts

variable {parts : Parts} (hvalid : parts.Valid)
include hvalid

theorem Valid.stops_sign (rest : List Char) : Stops (fun c => c = '+' || c = '-')
    (parts.digits ++ (parts.fraction ++ (parts.power ++ rest))) := by
  by_cases hdigits : parts.digits = []
  · rcases hvalid.fraction with hnone | ⟨ds, hfraction, -⟩
    · exact absurd hnone (hvalid.filled.resolve_left (fun h => h hdigits))
    · rw [hdigits, hfraction]
      simp [stops_cons]
  · exact digits_stop_sign hdigits hvalid.digits _

theorem Valid.readPower_eq {rest : List Char} (hends : parts.Ends rest) :
    readPower (parts.power ++ rest) = (parts.power, rest) := by
  rcases hvalid.power with hnone | ⟨c, sign, ds, hpower, hc, hsign, hne, hds⟩
  · rw [hnone]
    exact hends.power hnone
  · rw [hpower, List.cons_append, List.append_assoc]
    exact readPower_append hc hsign hne hds hends.digits

theorem Valid.stops_digits_power {rest : List Char} (hends : parts.Ends rest) :
    Stops Text.isAsciiDigit (parts.power ++ rest) := by
  rcases hvalid.power with hnone | ⟨c, sign, ds, hpower, hc, -⟩
  · rw [hnone]
    exact hends.digits
  · rw [hpower]
    rcases hc with rfl | rfl
    · exact stops_cons.mpr (by decide)
    · exact stops_cons.mpr (by decide)

theorem Valid.readFraction_eq {rest : List Char} (hends : parts.Ends rest) :
    readFraction (parts.fraction ++ (parts.power ++ rest)) =
      (parts.fraction, parts.power ++ rest) := by
  rcases hvalid.fraction with hnone | ⟨ds, hfraction, hne, hds⟩
  · rw [hnone, List.nil_append]
    rcases hvalid.power with hzero | ⟨c, sign, ds, hpower, hc, -⟩
    · rw [hzero]
      exact hends.fraction (by simp [whole, hnone, hzero])
    · rw [hpower]
      exact readFraction_of_ne (by rcases hc with rfl | rfl <;> decide)
  · rw [hfraction]
    exact readFraction_append hne hds (hvalid.stops_digits_power hends)

theorem Valid.stops_digits {rest : List Char} (hends : parts.Ends rest) :
    Stops Text.isAsciiDigit (parts.fraction ++ (parts.power ++ rest)) := by
  rcases hvalid.fraction with hnone | ⟨ds, hfraction, -⟩
  · rw [hnone]
    exact hvalid.stops_digits_power hends
  · rw [hfraction]
    exact stops_cons.mpr (by decide)

/-- A number is taken back as a whole. -/
theorem Valid.readNumeral_append {rest : List Char} (hends : parts.Ends rest) :
    readNumeral? (parts.written ++ rest) = some {
      written := parts.written
      whole := parts.whole
      digits := parts.digits.length
      rest := rest } := by
  have hsign := readSign_append hvalid.sign (hvalid.stops_sign rest)
  have htake := takeWhile_run hvalid.digits (hvalid.stops_digits hends)
  have hdrop := dropWhile_run hvalid.digits (hvalid.stops_digits hends)
  have hfilled : (parts.digits.isEmpty && parts.fraction.isEmpty) = false := by
    rcases hvalid.filled with h | h <;> simp [h]
  simp only [readNumeral?, written, List.append_assoc, hsign, htake, hdrop,
    hvalid.readFraction_eq hends, hvalid.readPower_eq hends, hfilled, whole]
  rfl

end Parts

end Winnow.Css
