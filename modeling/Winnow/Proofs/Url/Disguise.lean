import Winnow.Proofs.Url.Decode

/-!
# Disguised schemes

A scheme may be written in capitals, with characters between its letters that clients pass over,
and with numeric references in place of characters. However it is written, the address counts as
dangerous, and so does a list of candidates with such an address among them, unless the value
cannot be decoded.
-/

namespace Winnow.Url

/-! ## Ways to write a scheme -/

/-- The ways to write a scheme in front of a rest: every letter in either case, and characters
that clients pass over before any of them. -/
inductive Spells : List Char → List Char → List Char → Prop
  | done (rest : List Char) : Spells [] [] rest
  | ignorable {c : Char} {front scheme text rest : List Char} (hc : isIgnorable c = true)
    (hfront : Writes c front (text ++ rest)) (htext : Spells scheme text rest) :
    Spells scheme (front ++ text) rest
  | letter {c letter : Char} {front scheme text rest : List Char}
    (hc : Text.asciiLowerChar c = letter) (hfront : Writes c front (text ++ rest))
    (htext : Spells scheme text rest) : Spells (letter :: scheme) (front ++ text) rest

/-- Does an address start with a dangerous scheme, however it is written? -/
def HidesScheme (address : List Char) : Prop :=
  ∃ scheme ∈ dangerousSchemes, ∃ text rest, address = text ++ rest ∧ Spells scheme text rest

/-- Is there a candidate in a list whose address starts with a dangerous scheme? -/
def HidesCandidate (value : List Char) : Prop :=
  ∃ candidate ∈ Text.splitAt ',' value, ∃ address,
    (Text.words candidate).head? = some address ∧ HidesScheme address

/-- A character that may be part of a scheme. -/
def isSchemeChar (c : Char) : Bool := c != '&' && !isIgnorable c

theorem isSchemeChar_of_mem : ∀ scheme ∈ dangerousSchemes, scheme.all isSchemeChar = true := by
  decide

theorem isSchemeChar_asciiLowerChar (c : Char) :
    isSchemeChar (Text.asciiLowerChar c) = isSchemeChar c :=
  Text.asciiLowerChar_cases (p := fun c d => isSchemeChar d = isSchemeChar c) (fun _ => rfl)
    (by decide) c

theorem ne_of_isIgnorable {c : Char} (hc : isIgnorable c = true) : c ≠ '&' := by
  rintro rfl
  exact absurd hc (by decide)

/-- A character in front of what has been decoded is decoded. -/
theorem Writes.decode_front {c : Char} {front text rest decoded : List Char}
    (hfront : Writes c front (text ++ rest)) (hc : c ≠ '&')
    (hdecode : decode (text ++ rest) = do return decoded ++ (← decode rest)) :
    decode (front ++ text ++ rest) = do return c :: decoded ++ (← decode rest) := by
  rw [List.append_assoc, hfront.decode_append hc, hdecode]
  cases decode rest with
  | error fault => rfl
  | ok after => rfl

/-- What is written as a scheme is decoded to its letters and to characters that clients pass
over. -/
theorem Spells.exists_decode {scheme text rest : List Char} (hspells : Spells scheme text rest)
    (hscheme : scheme.all isSchemeChar = true) :
    ∃ decoded, (seen decoded).map Text.asciiLowerChar = scheme ∧
      decode (text ++ rest) = do return decoded ++ (← decode rest) := by
  induction hspells with
  | done rest => exact ⟨[], rfl, (bind_pure _).symm⟩
  | @ignorable c front scheme text rest hc hfront htext ih =>
      obtain ⟨decoded, hseen, hdecode⟩ := ih hscheme
      exact ⟨c :: decoded, by rw [seen_cons_of_ignorable hc, hseen],
        hfront.decode_front (ne_of_isIgnorable hc) hdecode⟩
  | @letter c letter front scheme text rest hc hfront htext ih =>
      rw [List.all_cons, Bool.and_eq_true] at hscheme
      obtain ⟨decoded, hseen, hdecode⟩ := ih hscheme.2
      have hletter : isSchemeChar c = true := by
        rw [← isSchemeChar_asciiLowerChar, hc]
        exact hscheme.1
      simp only [isSchemeChar, Bool.and_eq_true, bne_iff_ne, Bool.not_eq_true'] at hletter
      have hfirst : seen (c :: decoded) = c :: seen decoded :=
        List.filter_cons_of_pos (by simp [hletter.2])
      exact ⟨c :: decoded, by rw [hfirst, List.map_cons, hc, hseen],
        hfront.decode_front hletter.1 hdecode⟩

/-! ## Addresses that are found dangerous -/

theorem isDangerous_of_holdsOverlong {cs : List Char} (hlong : holdsOverlong cs = true) :
    isDangerous cs = .error .numeralTooLong := by
  obtain ⟨decoded, hdecode⟩ := exists_decode_eq cs
  rw [if_pos hlong] at hdecode
  rw [isDangerous, normalize, hdecode]
  rfl

/-- An address that can be decoded is judged. -/
theorem exists_isDangerous {cs : List Char} (hlong : holdsOverlong cs = false) :
    ∃ dangerous, isDangerous cs = .ok dangerous := by
  obtain ⟨decoded, hdecode⟩ := exists_decode_eq cs
  rw [hlong, if_neg Bool.false_ne_true] at hdecode
  exact ⟨_, isDangerous_eq hdecode⟩

/-- An address with a dangerous scheme is found dangerous if what follows the scheme can be
decoded. -/
theorem Spells.isDangerous {scheme text rest : List Char} (hspells : Spells scheme text rest)
    (hmem : scheme ∈ dangerousSchemes) :
    isDangerous (text ++ rest) =
      if holdsOverlong rest then .error .numeralTooLong else .ok true := by
  obtain ⟨decoded, hseen, hdecode⟩ := hspells.exists_decode (isSchemeChar_of_mem scheme hmem)
  obtain ⟨after, hafter⟩ := exists_decode_eq rest
  rw [hafter] at hdecode
  split
  next hlong =>
    rw [if_pos hlong] at hdecode
    rw [Url.isDangerous, normalize, hdecode]
    rfl
  next hlong =>
    rw [if_neg hlong] at hdecode
    rw [isDangerous_eq hdecode]
    refine congrArg Except.ok (decide_eq_true ⟨scheme, hmem, ?_⟩)
    rw [seen, List.filter_append, List.map_append, ← seen, hseen]
    exact List.prefix_append _ _

/-- One dangerous address among candidates that can be judged is enough. -/
theorem anyCandidateDangerous_eq_true {candidates : List (List Char)}
    (hjudged : ∀ candidate ∈ candidates, ∀ address ∈ (Text.words candidate).head?,
      ∃ dangerous, isDangerous address = .ok dangerous)
    (hdangerous : ∃ candidate ∈ candidates, ∃ address ∈ (Text.words candidate).head?,
      isDangerous address = .ok true) :
    anyCandidateDangerous candidates = .ok true := by
  induction candidates with
  | nil =>
      obtain ⟨candidate, hmem, -⟩ := hdangerous
      cases hmem
  | cons first rest ih =>
      have hrest := ih fun candidate hmem => hjudged candidate (List.mem_cons_of_mem _ hmem)
      obtain ⟨candidate, hmem, address, hhead, hfound⟩ := hdangerous
      unfold anyCandidateDangerous
      cases hwords : Text.words first with
      | nil =>
          rcases List.mem_cons.mp hmem with rfl | hmem
          · rw [hwords] at hhead
            cases hhead
          · exact hrest ⟨candidate, hmem, address, hhead, hfound⟩
      | cons word words =>
          obtain ⟨dangerous, hword⟩ := hjudged first List.mem_cons_self word (by rw [hwords]; rfl)
          dsimp only
          rw [hword, Fault.ok_bind]
          cases dangerous with
          | true => rfl
          | false =>
              rcases List.mem_cons.mp hmem with rfl | hmem
              · rw [hwords] at hhead
                cases hhead
                rw [hword] at hfound
                cases hfound
              · exact hrest ⟨candidate, hmem, address, hhead, hfound⟩

theorem HidesCandidate.isDangerousCandidates {value : List Char} (hhides : HidesCandidate value) :
    isDangerousCandidates value =
      if holdsOverlong value then .error .numeralTooLong else .ok true := by
  split
  next hlong => rw [Url.isDangerousCandidates, isDangerous_of_holdsOverlong hlong]; rfl
  next hlong =>
    rw [Bool.not_eq_true] at hlong
    have hpart : ∀ candidate ∈ Text.splitAt ',' value, ∀ address ∈ (Text.words candidate).head?,
        address <:+: value := fun candidate hmem address hhead =>
      (Text.isInfix_of_head?_words hhead).trans (Text.isInfix_of_mem_splitAt hmem)
    have hcandidates : anyCandidateDangerous (Text.splitAt ',' value) = .ok true := by
      refine anyCandidateDangerous_eq_true (fun candidate hmem address hhead =>
        exists_isDangerous (holdsOverlong_of_isInfix (hpart candidate hmem address hhead) hlong)) ?_
      obtain ⟨candidate, hmem, address, hhead, scheme, hscheme, text, rest, rfl, hspells⟩ := hhides
      refine ⟨candidate, hmem, text ++ rest, hhead, ?_⟩
      have hrest : holdsOverlong rest = false :=
        holdsOverlong_of_isInfix ((List.suffix_append text rest).isInfix.trans
          (hpart candidate hmem _ hhead)) hlong
      rw [hspells.isDangerous hscheme, hrest, if_neg Bool.false_ne_true]
    obtain ⟨dangerous, hwhole⟩ := exists_isDangerous hlong
    rw [Url.isDangerousCandidates, hwhole, Fault.ok_bind]
    cases dangerous with
    | true => rfl
    | false => exact hcandidates

/-- However a dangerous scheme is written, and whatever follows it, a value that starts with it is
found dangerous, and so is a list of candidates with such an address among them. The one
exception is a value with a decimal reference that has more digits than are read. -/
theorem dangerous_of_disguise (value : List Char) :
    (∀ scheme ∈ dangerousSchemes, ∀ text rest, value = text ++ rest → Spells scheme text rest →
      isDangerous value = if holdsOverlong rest then .error .numeralTooLong else .ok true) ∧
      (HidesCandidate value → isDangerousCandidates value =
        if holdsOverlong value then .error .numeralTooLong else .ok true) := by
  refine ⟨?_, fun hhides => hhides.isDangerousCandidates⟩
  rintro scheme hmem text rest rfl hspells
  exact hspells.isDangerous hmem

/-- A scheme in both cases, with a tab and with references of both notations. -/
def disguisedScheme : List Char :=
  ['d', '&', '#', 'X', '0', '0', '4', '1', ';', '&', '#', '9', ';', 'T', '&', '#', '9', '7', ':']

theorem spells_disguisedScheme (rest : List Char) :
    Spells ['d', 'a', 't', 'a', ':'] disguisedScheme rest := by
  have hcolon : Spells [':'] [':'] rest :=
    .letter (c := ':') (by decide) (.plain rest) (.done rest)
  have hletter : Writes 'a' ['&', '#', '9', '7'] (':' :: rest) := by
    refine .reference .decimal ['#'] ['9', '7'] [] (by decide) (by decide)
      (List.all_eq_true.mp (by decide)) (by decide) (by decide) (Or.inr ⟨rfl, ?_⟩)
    rintro c ⟨⟩
    decide
  have htab : ∀ more, Writes '\t' ['&', '#', '9', ';'] more := fun more =>
    .reference .decimal ['#'] ['9'] [';'] (by decide) (by decide)
      (List.all_eq_true.mp (by decide)) (by decide) (by decide) (Or.inl rfl)
  have hcapital : ∀ more, Writes 'A' ['&', '#', 'X', '0', '0', '4', '1', ';'] more := fun more =>
    .reference .hexadecimal ['#', 'X'] ['0', '0', '4', '1'] [';'] (by decide) (by decide)
      (List.all_eq_true.mp (by decide)) (by decide) (by decide) (Or.inl rfl)
  exact .letter (c := 'd') (by decide) (.plain _) <| .letter (c := 'A') (by decide) (hcapital _) <|
    .ignorable (c := '\t') (by decide) (htab _) <| .letter (c := 'T') (by decide) (.plain _) <|
    .letter (c := 'a') (by decide) hletter hcolon

theorem dangerous_of_disguise_data :
    isDangerous (disguisedScheme ++ ['x']) = .ok true ∧
      isDangerousCandidates ('a' :: ',' :: '\n' :: (disguisedScheme ++ ['x', ' ', '2'])) =
        .ok true := by
  refine ⟨?_, ?_⟩
  · exact (dangerous_of_disguise _).1 _ (by decide) disguisedScheme ['x'] rfl
      (spells_disguisedScheme _)
  · exact (dangerous_of_disguise _).2 ⟨'\n' :: (disguisedScheme ++ ['x', ' ', '2']), by decide,
      disguisedScheme ++ ['x'], by decide, _, by decide, disguisedScheme, ['x'], rfl,
      spells_disguisedScheme _⟩

/-- A reference with one digit too many behind a scheme keeps the address from being judged. -/
theorem isDangerous_overlong :
    isDangerous ("javascript:&#".toList ++ List.replicate 4301 '1') = .error .numeralTooLong := by
  have hlong : isOverlong ('#' :: List.replicate 4301 '1') = true := by
    have hdigit : Text.isAsciiDigit '1' = true := by decide
    rw [isOverlong, List.takeWhile_replicate, if_pos hdigit, List.length_replicate]
    decide
  have hback : holdsOverlong ('&' :: '#' :: List.replicate 4301 '1') = true := by
    rw [holdsOverlong, hlong]
    rfl
  exact isDangerous_of_holdsOverlong (holdsOverlong_append_right hback "javascript:".toList)

end Winnow.Url
