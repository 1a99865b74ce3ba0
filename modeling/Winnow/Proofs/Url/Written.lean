import Winnow.Document.Markup
import Winnow.Proofs.Url.Decode

/-!
# Addresses that are written again

A harmless value stays harmless when it is written and read again, and also when the references
that it is written with are taken for its own text: a reference of that kind is no number, and no
scheme goes on behind an ampersand.
-/

namespace Winnow.Url

open Html

/-! ## Lists of candidates -/

/-- The first word of a text, or nothing if the text is blank. -/
def firstWord (cs : List Char) : List Char :=
  (cs.dropWhile Text.isBlank).takeWhile (!Text.isBlank ·)

theorem head?_words (cs : List Char) :
    (Text.words cs).head?.getD [] = firstWord cs := by
  induction cs with
  | nil => rfl
  | cons c cs ih =>
      cases hc : Text.isBlank c with
      | true =>
          rw [Text.words_cons_of_blank hc, ih, firstWord, firstWord, List.dropWhile_cons_of_pos hc]
      | false =>
          have hstay : firstWord (c :: cs) = c :: cs.takeWhile (!Text.isBlank ·) := by
            rw [firstWord, List.dropWhile_cons_of_neg (by simp [hc]),
              List.takeWhile_cons_of_pos (by simp [hc])]
          rw [hstay, Text.words.eq_def]
          dsimp only
          rw [if_neg (by simp [hc])]
          cases cs with
          | nil => rfl
          | cons d ds =>
              cases hd : Text.isBlank d with
              | true => simp [hd]
              | false =>
                  obtain ⟨word, rest, hwords, -⟩ := Text.exists_words_of_not_blank hd ds
                  rw [hwords, firstWord, List.dropWhile_cons_of_neg (by simp [hd])] at ih
                  rw [hwords]
                  dsimp only
                  rw [if_neg (by simp [hd]), ← ih]
                  rfl

theorem isDangerous_nil : isDangerous [] = .ok false := by decide +kernel

/-- Two tests in a row find nothing if neither of them does. -/
theorem bind_test_eq_false_iff {first second : Except Fault Bool} :
    (do if ← first then return true else second) = .ok false ↔
      first = .ok false ∧ second = .ok false := by
  cases first with
  | error fault => exact ⟨fun h => (by cases h), fun h => (by cases h.1)⟩
  | ok found =>
      cases found with
      | true => exact ⟨fun h => (by cases h), fun h => (by cases h.1)⟩
      | false => exact ⟨fun hsecond => ⟨rfl, hsecond⟩, fun hboth => hboth.2⟩

theorem anyCandidateDangerous_eq_false_iff {candidates : List (List Char)} :
    anyCandidateDangerous candidates = .ok false ↔
      ∀ candidate ∈ candidates, isDangerous (firstWord candidate) = .ok false := by
  induction candidates with
  | nil => simp [anyCandidateDangerous]
  | cons candidate rest ih =>
      rw [anyCandidateDangerous, List.forall_mem_cons, ← ih, ← head?_words candidate]
      cases Text.words candidate with
      | nil =>
          rw [List.head?_nil, Option.getD_none, isDangerous_nil]
          exact ⟨fun hrest => ⟨rfl, hrest⟩, fun hboth => hboth.2⟩
      | cons address others => exact bind_test_eq_false_iff

/-- A list of candidates is harmless if the whole and the first word of each candidate are. -/
theorem isDangerousCandidates_eq_false_iff {value : List Char} :
    isDangerousCandidates value = .ok false ↔ isDangerous value = .ok false ∧
      ∀ candidate ∈ Text.splitAt ',' value, isDangerous (firstWord candidate) = .ok false := by
  rw [← anyCandidateDangerous_eq_false_iff]
  exact bind_test_eq_false_iff

/-- A change of texts keeps values harmless if it does so for addresses, goes through lists
candidate by candidate, and keeps their first words harmless. -/
theorem isDangerousValue_of_change {change : List Char → List Char}
    (haddress : ∀ {cs}, isDangerous cs = .ok false → isDangerous (change cs) = .ok false)
    (hsplit : ∀ cs, Text.splitAt ',' (change cs) = (Text.splitAt ',' cs).map change)
    (hword : ∀ {cs}, isDangerous (firstWord cs) = .ok false →
      isDangerous (firstWord (change cs)) = .ok false)
    {name : String} {value : List Char}
    (hsafe : isDangerousValue name (String.ofList value) = .ok false) :
    isDangerousValue name (String.ofList (change value)) = .ok false := by
  unfold isDangerousValue at hsafe ⊢
  rw [String.toList_ofList] at hsafe ⊢
  split
  next hcandidates =>
    rw [if_pos hcandidates, isDangerousCandidates_eq_false_iff] at hsafe
    refine isDangerousCandidates_eq_false_iff.mpr ⟨haddress hsafe.1, fun candidate hmem => ?_⟩
    rw [hsplit] at hmem
    obtain ⟨before, hbefore, rfl⟩ := List.mem_map.mp hmem
    exact hword (hsafe.2 before hbefore)
  next hcandidates =>
    rw [if_neg hcandidates] at hsafe
    exact haddress hsafe

/-! ## Values that are read again -/

theorem reread_cons_of_ne {c : Char} (hc : c ≠ '\r') (cs : List Char) :
    reread (c :: cs) = replaceNull c :: reread cs := by
  rw [reread, Text.unifyLineEnds_cons hc]
  rfl

theorem reread_return {cs : List Char} (hhead : cs.head? ≠ some '\n') :
    reread ('\r' :: cs) = '\n' :: reread cs := by
  rw [reread, Text.unifyLineEnds_return hhead]
  rfl

theorem splitAt_reread (cs : List Char) :
    Text.splitAt ',' (reread cs) = (Text.splitAt ',' cs).map reread := by
  -- A character that is no comma goes to the front of the first candidate, as what it is read as.
  have hfront : ∀ (front : List Char) (shown : Char) (cs : List Char), ',' ∉ front → shown ≠ ',' →
      reread (front ++ cs) = shown :: reread cs →
      (∀ candidate, candidate <+: cs → reread (front ++ candidate) = shown :: reread candidate) →
      Text.splitAt ',' (reread cs) = (Text.splitAt ',' cs).map reread →
      Text.splitAt ',' (reread (front ++ cs)) = (Text.splitAt ',' (front ++ cs)).map reread := by
    intro front shown cs hnone hshown hread hcandidates hrest
    obtain ⟨candidate, others, hsplit⟩ := Text.exists_splitAt ',' cs
    rw [hsplit, List.map_cons] at hrest
    rw [hread, Text.splitAt_cons_of_ne hshown hrest, Text.splitAt_append hnone hsplit,
      List.map_cons, hcandidates candidate (Text.parts_of_splitAt hsplit).1]
  induction cs using Text.lineEnds_induction with
  | nil => rfl
  | pair cs ih =>
      exact hfront ['\r', '\n'] '\n' cs (by decide) (by decide) rfl (fun _ _ => rfl) ih
  | alone cs hhead ih =>
      refine hfront ['\r'] '\n' cs (by decide) (by decide) (reread_return hhead)
        (fun candidate hpart => reread_return fun hfeed => hhead ?_) ih
      obtain ⟨rest, rfl⟩ := List.head?_eq_some_iff.mp hfeed
      obtain ⟨back, rfl⟩ := hpart
      rfl
  | other c cs hc ih =>
      by_cases hcomma : c = ','
      · subst hcomma
        rw [reread_cons_of_ne hc, Text.splitAt_cons_self, List.map_cons, ← ih]
        exact Text.splitAt_cons_self _
      · have hshown : replaceNull c ≠ ',' := by
          unfold replaceNull
          split
          · decide
          · exact hcomma
        exact hfront [c] (replaceNull c) cs (by simpa using fun h => hcomma h.symm) hshown
          (reread_cons_of_ne hc cs) (fun candidate _ => reread_cons_of_ne hc candidate) ih

/-- Nothing is lost of what has been read again. -/
theorem not_isLost_of_mem_reread {cs : List Char} {c : Char} (hmem : c ∈ reread cs) :
    isLost c = false := by
  obtain ⟨d, hd, rfl⟩ := List.mem_map.mp hmem
  have hreturn : d ≠ '\r' := fun heq => Text.not_mem_unifyLineEnds cs (heq ▸ hd)
  unfold replaceNull
  split
  next => decide
  next hnull => simp [isLost, hreturn, hnull]

theorem isBlank_replaceNull (c : Char) : Text.isBlank (replaceNull c) = Text.isBlank c := by
  unfold replaceNull
  split
  next hnull =>
    subst hnull
    decide
  next => rfl

theorem firstWord_reread (cs : List Char) : firstWord (reread cs) = reread (firstWord cs) := by
  have hdrop : ∀ cs : List Char,
      (reread cs).dropWhile Text.isBlank = reread (cs.dropWhile Text.isBlank) := by
    intro cs
    induction cs using Text.lineEnds_induction with
    | nil => rfl
    | pair cs ih => exact ih
    | alone cs hhead ih =>
        rw [reread_return hhead]
        exact ih
    | other c cs hc ih =>
        rw [reread_cons_of_ne hc, List.dropWhile_cons, List.dropWhile_cons, isBlank_replaceNull]
        split
        next => exact ih
        next => exact (reread_cons_of_ne hc cs).symm
  have htake : ∀ cs : List Char,
      (reread cs).takeWhile (!Text.isBlank ·) = reread (cs.takeWhile (!Text.isBlank ·)) := by
    intro cs
    induction cs using Text.lineEnds_induction with
    | nil => rfl
    | pair cs ih => rfl
    | alone cs hhead ih =>
        rw [reread_return hhead]
        rfl
    | other c cs hc ih =>
        rw [reread_cons_of_ne hc, List.takeWhile_cons, List.takeWhile_cons, isBlank_replaceNull]
        split
        next => rw [ih, reread_cons_of_ne hc]
        next => rfl
  rw [firstWord, hdrop, htake, firstWord]

theorem isDangerousValue_reread {name : String} {value : List Char}
    (hsafe : isDangerousValue name (String.ofList value) = .ok false) :
    isDangerousValue name (String.ofList (reread value)) = .ok false := by
  refine isDangerousValue_of_change isDangerous_reread splitAt_reread (fun hword => ?_) hsafe
  rw [firstWord_reread]
  exact isDangerous_reread hword

/-! ## References that are not read -/

/-- How a value is written between quotes. -/
def written (cs : List Char) : List Char := cs.flatMap Markup.escapeValueChar

/-- The name of a reference that begins no number and holds no part of an address. -/
structure IsInert (name : List Char) : Prop where
  head : ∃ first rest, name = first :: rest ∧ first ≠ '#'
  ampersand : '&' ∉ name
  comma : ',' ∉ name
  blank : name.all (!Text.isBlank ·) = true
  null : nullChar ∉ name
  quote : '"' ∉ name

theorem IsInert.isBlank_eq_false {name : List Char} (hinert : IsInert name) {c : Char}
    (hmem : c ∈ name) : Text.isBlank c = false := by
  simpa using List.all_eq_true.mp hinert.blank c hmem

/-- A character is written as it is, or as a reference. The only blank among those is the one
that does not break a line. -/
theorem escapeValueChar_inert (c : Char) :
    (Markup.escapeValueChar c = [c] ∧ c ≠ '&' ∧ c ≠ '"' ∧ c ≠ '\u00a0') ∨
      (c ≠ ',' ∧ (Text.isBlank c = true → c = '\u00a0') ∧
        ∃ name, Markup.escapeValueChar c = '&' :: name ∧ IsInert name) := by
  unfold Markup.escapeValueChar
  split
  next heq =>
    subst heq
    exact Or.inr ⟨by decide, by decide, _, rfl, ⟨_, _, rfl, by decide⟩, by decide, by decide,
      by decide, by decide, by decide⟩
  next hand =>
    split
    next heq =>
      obtain rfl : c = '\u00a0' := Char.toNat_inj.mp heq
      exact Or.inr ⟨by decide, fun _ => rfl, _, rfl, ⟨_, _, rfl, by decide⟩, by decide, by decide,
        by decide, by decide, by decide⟩
    next hblank =>
      split
      next heq =>
        subst heq
        exact Or.inr ⟨by decide, by decide, _, rfl, ⟨_, _, rfl, by decide⟩, by decide, by decide,
          by decide, by decide, by decide⟩
      next hquote => exact Or.inl ⟨rfl, hand, hquote, fun heq => hblank (by rw [heq]; rfl)⟩

theorem written_cons (c : Char) (cs : List Char) :
    written (c :: cs) = Markup.escapeValueChar c ++ written cs := List.flatMap_cons

theorem quote_not_mem_written (cs : List Char) : '"' ∉ written cs := by
  intro hmem
  obtain ⟨c, -, hc⟩ := List.mem_flatMap.mp hmem
  rcases escapeValueChar_inert c with ⟨hplain, -, hquote, -⟩ | ⟨-, -, name, hnamed, hinert⟩
  · rw [hplain, List.mem_singleton] at hc
    exact hquote hc.symm
  · rw [hnamed, List.mem_cons] at hc
    rcases hc with heq | hname
    · cases heq
    · exact hinert.quote hname

/-- The line ends of a value are written as they are. -/
theorem unifyLineEnds_written (cs : List Char) :
    Text.unifyLineEnds (written cs) = written (Text.unifyLineEnds cs) := by
  induction cs using Text.lineEnds_induction with
  | nil => rfl
  | pair cs ih =>
      change '\n' :: Text.unifyLineEnds (written cs) = '\n' :: written (Text.unifyLineEnds cs)
      rw [ih]
  | alone cs hhead ih =>
      have hfeed : (written cs).head? ≠ some '\n' := by
        cases cs with
        | nil => simp [written]
        | cons c cs =>
            rw [written_cons]
            rcases escapeValueChar_inert c with ⟨hplain, -⟩ | ⟨-, -, name, hnamed, -⟩
            · rw [hplain]
              simpa using hhead
            · rw [hnamed]
              simp
      change Text.unifyLineEnds ('\r' :: written cs) = _
      rw [Text.unifyLineEnds_return hfeed, ih, Text.unifyLineEnds_return hhead]
      rfl
  | other c cs hc ih =>
      have hnone : '\r' ∉ Markup.escapeValueChar c := by
        rcases escapeValueChar_inert c with ⟨hplain, -⟩ | ⟨-, -, name, hnamed, hinert⟩
        · rw [hplain]
          simpa using fun heq => hc heq.symm
        · rw [hnamed, List.mem_cons, not_or]
          exact ⟨by decide, fun hmem => absurd (hinert.isBlank_eq_false hmem) (by decide)⟩
      rw [written_cons, Text.unifyLineEnds_append hnone, ih, Text.unifyLineEnds_cons hc,
        written_cons]

theorem map_replaceNull_written (cs : List Char) :
    (written cs).map replaceNull = written (cs.map replaceNull) := by
  induction cs with
  | nil => rfl
  | cons c cs ih =>
      rw [written_cons, List.map_append, ih, List.map_cons, written_cons, List.append_left_inj]
      by_cases hnull : c = nullChar
      · subst hnull
        decide
      · have hsame : replaceNull c = c := if_neg hnull
        rw [hsame]
        rcases escapeValueChar_inert c with ⟨hplain, -⟩ | ⟨-, -, name, hnamed, hinert⟩
        · rw [hplain, List.map_singleton, hsame]
        · have hname : name.map replaceNull = name := by
            have hsame : ∀ d ∈ name, replaceNull d = d := fun d hmem =>
              if_neg fun (heq : d = nullChar) => hinert.null (heq ▸ hmem)
            rw [List.map_congr_left hsame, List.map_id']
          rw [hnamed, List.map_cons, hname]
          rfl

/-- What is read of a written value, with the references left as they are, is what is written of
the value that is read. -/
theorem reread_written (cs : List Char) : reread (written cs) = written (reread cs) := by
  rw [reread, unifyLineEnds_written, map_replaceNull_written, reread]

theorem decode_append {front : List Char} (hfront : '&' ∉ front) (cs : List Char) :
    decode (front ++ cs) = do return front ++ (← decode cs) := by
  induction front with
  | nil => exact (bind_pure _).symm
  | cons c front ih =>
      have hc : c = '&' → reference? (front ++ cs) = none := fun heq =>
        absurd (heq ▸ List.mem_cons_self) hfront
      rw [List.cons_append, decode_cons hc, ih fun hmem => hfront (List.mem_cons_of_mem _ hmem)]
      cases decode cs with
      | error fault => rfl
      | ok decoded => rfl

section Starts

variable {p : Char → Bool} (hp : ∀ c, Text.isBlank c = false → p c = true)
include hp

/-- The start of what is written up to a blank is its own decoded form. -/
theorem decode_takeWhile_written (cs : List Char) :
    decode ((written cs).takeWhile p) = .ok ((written cs).takeWhile p) := by
  induction cs with
  | nil => exact decodeFrom_nil 0
  | cons c cs ih =>
      rw [written_cons]
      rcases escapeValueChar_inert c with ⟨hplain, hand, -⟩ | ⟨-, -, name, hnamed, hinert⟩
      · rw [hplain, List.singleton_append, List.takeWhile_cons]
        split
        next => rw [decode_cons fun heq => absurd heq hand, ih]; rfl
        next => exact decodeFrom_nil 0
      · obtain ⟨first, rest, hname, hhash⟩ := hinert.head
        have hall : ∀ d ∈ '&' :: name, p d = true := by
          intro d hmem
          rcases List.mem_cons.mp hmem with rfl | hmem
          · exact hp '&' (by decide)
          · exact hp d (hinert.isBlank_eq_false hmem)
        have hnone : reference? (name ++ (written cs).takeWhile p) = none :=
          reference?_of_head?_ne (by simpa [hname] using hhash)
        rw [hnamed, List.takeWhile_append_of_pos hall, List.cons_append,
          decode_cons fun _ => hnone, decode_append hinert.ampersand, ih]
        rfl

/-- A scheme at the start of what is written is the start of the value itself. -/
theorem prefix_of_written {scheme : List Char} (hscheme : '&' ∉ scheme) {cs decoded : List Char}
    (hbegins : scheme <+: (seen ((written cs).takeWhile p)).map Text.asciiLowerChar)
    (hdecoded : decode (cs.takeWhile p) = .ok decoded) :
    scheme <+: (seen decoded).map Text.asciiLowerChar := by
  induction cs generalizing scheme decoded with
  | nil =>
      cases hdecoded
      exact hbegins
  | cons c cs ih =>
      rw [written_cons] at hbegins
      rcases escapeValueChar_inert c with ⟨hplain, hand, -⟩ | ⟨-, -, name, hnamed, -⟩
      · rw [hplain, List.singleton_append, List.takeWhile_cons] at hbegins
        rw [List.takeWhile_cons] at hdecoded
        split at hbegins
        next hc =>
          rw [if_pos hc, decode_cons fun heq => absurd heq hand] at hdecoded
          obtain ⟨rest, hrest, hresult⟩ := Fault.exists_of_bind_eq_ok hdecoded
          cases hresult
          cases hignored : isIgnorable c with
          | true =>
              rw [seen_cons_of_ignorable hignored] at hbegins ⊢
              exact ih hscheme hbegins hrest
          | false =>
              have hseen : ∀ cs, seen (c :: cs) = c :: seen cs := fun cs =>
                List.filter_cons_of_pos (by simp [hignored])
              rw [hseen, List.map_cons] at hbegins ⊢
              cases scheme with
              | nil => exact List.nil_prefix
              | cons a scheme =>
                  obtain ⟨rfl, hlater⟩ := List.cons_prefix_cons.mp hbegins
                  exact List.cons_prefix_cons.mpr
                    ⟨rfl, ih (fun hmem => hscheme (List.mem_cons_of_mem _ hmem)) hlater hrest⟩
        next => exact (List.prefix_nil.mp hbegins) ▸ List.nil_prefix
      · -- The reference starts with an ampersand, which is no part of a scheme.
        have hseen : ∀ cs, seen ('&' :: cs) = '&' :: seen cs := fun cs =>
          List.filter_cons_of_pos (by decide)
        rw [hnamed, List.cons_append, List.takeWhile_cons_of_pos (hp '&' (by decide)), hseen,
          List.map_cons] at hbegins
        cases scheme with
        | nil => exact List.nil_prefix
        | cons a scheme =>
            obtain ⟨rfl, -⟩ := List.cons_prefix_cons.mp hbegins
            exact absurd List.mem_cons_self hscheme

theorem isDangerous_takeWhile_written {cs : List Char}
    (hsafe : isDangerous (cs.takeWhile p) = .ok false) :
    isDangerous ((written cs).takeWhile p) = .ok false := by
  obtain ⟨decoded, hdecoded⟩ := exists_decode_of_isDangerous hsafe
  rw [isDangerous_eq hdecoded] at hsafe
  rw [isDangerous_eq (decode_takeWhile_written hp cs)]
  have hnone := of_decide_eq_false (Except.ok.inj hsafe)
  have hschemes : ∀ scheme ∈ dangerousSchemes, '&' ∉ scheme := by decide
  refine congrArg Except.ok (decide_eq_false ?_)
  rintro ⟨scheme, hmem, hbegins⟩
  exact hnone ⟨scheme, hmem, prefix_of_written hp (hschemes scheme hmem) hbegins hdecoded⟩

end Starts

theorem isDangerous_written {cs : List Char} (hsafe : isDangerous cs = .ok false) :
    isDangerous (written cs) = .ok false := by
  have hall : ∀ cs : List Char, cs.takeWhile (fun _ => true) = cs := by simp
  have htaken : isDangerous (cs.takeWhile fun _ => true) = .ok false := by rwa [hall]
  have hwritten := isDangerous_takeWhile_written (fun _ _ => rfl) htaken
  rwa [hall] at hwritten

theorem splitAt_written (cs : List Char) :
    Text.splitAt ',' (written cs) = (Text.splitAt ',' cs).map written := by
  induction cs with
  | nil => rfl
  | cons c cs ih =>
      obtain ⟨candidate, others, hsplit⟩ := Text.exists_splitAt ',' cs
      rw [hsplit, List.map_cons] at ih
      rw [written_cons]
      by_cases hcomma : c = ','
      · subst hcomma
        rw [Text.splitAt_cons_self, hsplit, List.map_cons, List.map_cons, ← ih]
        exact Text.splitAt_cons_self _
      · have hnone : ',' ∉ Markup.escapeValueChar c := by
          rcases escapeValueChar_inert c with ⟨hplain, -⟩ | ⟨-, -, name, hnamed, hinert⟩
          · rw [hplain]
            simpa using fun heq => hcomma heq.symm
          · rw [hnamed, List.mem_cons, not_or]
            exact ⟨by decide, hinert.comma⟩
        rw [Text.splitAt_append hnone ih, Text.splitAt_cons_of_ne hcomma hsplit, List.map_cons,
          written_cons]

/-- Is this a blank that is written as it is? -/
def isBareBlank (c : Char) : Bool := Text.isBlank c && c != '\u00a0'

theorem dropWhile_written (cs : List Char) :
    (written cs).dropWhile Text.isBlank = written (cs.dropWhile isBareBlank) := by
  induction cs with
  | nil => rfl
  | cons c cs ih =>
      rw [written_cons, List.dropWhile_cons]
      rcases escapeValueChar_inert c with ⟨hplain, -, -, hbreak⟩ | ⟨-, hblank, name, hnamed, -⟩
      · have hbare : isBareBlank c = Text.isBlank c := by simp [isBareBlank, hbreak]
        rw [hplain, List.singleton_append, List.dropWhile_cons, hbare]
        split
        next => exact ih
        next => rw [written_cons, hplain, List.singleton_append]
      · have hbare : isBareBlank c = false := by
          rw [isBareBlank, Bool.and_eq_false_iff]
          cases hc : Text.isBlank c with
          | true => exact Or.inr (by rw [hblank hc]; rfl)
          | false => exact Or.inl rfl
        rw [hbare, if_neg Bool.false_ne_true, written_cons, hnamed, List.cons_append,
          List.dropWhile_cons_of_neg (by decide)]

theorem isDangerous_firstWord_written {cs : List Char}
    (hsafe : isDangerous (firstWord cs) = .ok false) :
    isDangerous (firstWord (written cs)) = .ok false := by
  rw [firstWord, dropWhile_written]
  apply isDangerous_takeWhile_written fun c hc => by simp [hc]
  induction cs with
  | nil => exact isDangerous_nil
  | cons c cs ih =>
      rw [List.dropWhile_cons]
      split
      next hbare =>
        have hblank : Text.isBlank c = true := (Bool.and_eq_true_iff.mp hbare).1
        rw [firstWord, List.dropWhile_cons_of_pos hblank] at hsafe
        exact ih hsafe
      next hbare =>
        cases hblank : Text.isBlank c with
        | true =>
            rw [List.takeWhile_cons_of_neg (by simp [hblank])]
            exact isDangerous_nil
        | false =>
            rwa [firstWord, List.dropWhile_cons_of_neg (by simp [hblank])] at hsafe

/-- A harmless value is harmless also as it is written. -/
theorem isDangerousValue_written {name : String} {value : List Char}
    (hsafe : isDangerousValue name (String.ofList value) = .ok false) :
    isDangerousValue name (String.ofList (written value)) = .ok false :=
  isDangerousValue_of_change isDangerous_written splitAt_written isDangerous_firstWord_written hsafe

end Winnow.Url
