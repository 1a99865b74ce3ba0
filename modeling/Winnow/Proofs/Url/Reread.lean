import Mathlib.Data.List.TakeWhile
import Winnow.Html.Entity
import Winnow.Proofs.Fault
import Winnow.Proofs.Text.Lines
import Winnow.Proofs.Text.Lowercase
import Winnow.Proofs.Text.Split
import Winnow.Url

/-!
# Addresses that are read again

A value that is written and read again has its line ends unified and shows the replacement
character for the null character. It is no more dangerous than it was: the first characters of
its address are the same but for characters that clients pass over.
-/

namespace Winnow.Url

open Html

/-- A text after it was written and read again. -/
def reread (cs : List Char) : List Char := (Text.unifyLineEnds cs).map replaceNull

/-- The characters that are not read again as they were. -/
def isLost (c : Char) : Bool := c = '\r' || c = nullChar

/-- What they are read as. -/
def isGained (c : Char) : Bool := c = '\n' || c = replacement

theorem reread_cons {c : Char} (hc : isLost c = false) (cs : List Char) :
    reread (c :: cs) = c :: reread cs := by
  simp only [isLost, Bool.or_eq_false_iff, decide_eq_false_iff_not] at hc
  rw [reread, Text.unifyLineEnds_cons hc.1, List.map_cons, replaceNull, if_neg hc.2]
  rfl

theorem reread_append {front : List Char} (hfront : ∀ c ∈ front, isLost c = false)
    (back : List Char) : reread (front ++ back) = front ++ reread back := by
  induction front with
  | nil => rfl
  | cons c front ih =>
      rw [List.cons_append, reread_cons (hfront c List.mem_cons_self),
        ih fun d hmem => hfront d (List.mem_cons_of_mem _ hmem)]
      rfl

theorem exists_reread_of_lost {c : Char} (hc : isLost c = true) (cs : List Char) :
    ∃ d ds, reread (c :: cs) = d :: ds ∧ isGained d = true := by
  simp only [isLost, Bool.or_eq_true, decide_eq_true_eq] at hc
  rcases hc with rfl | rfl
  · cases cs with
    | nil => exact ⟨'\n', [], rfl, rfl⟩
    | cons d ds =>
        by_cases hd : d = '\n'
        · subst hd
          exact ⟨'\n', reread ds, rfl, rfl⟩
        · have hhead : (d :: ds).head? ≠ some '\n' := by simpa using hd
          refine ⟨'\n', reread (d :: ds), ?_, rfl⟩
          rw [reread, Text.unifyLineEnds_return hhead]
          rfl
  · exact ⟨replacement, reread cs, by rw [reread, Text.unifyLineEnds_cons (by decide)]; rfl, rfl⟩

/-- A kind of characters that is read again as it was. -/
structure Keeps (p : Char → Bool) : Prop where
  lost : ∀ c, isLost c = true → p c = false
  gained : ∀ c, isGained c = true → p c = false

theorem keeps_of {p : Char → Bool} (hreturn : p '\r' = false) (hnull : p nullChar = false)
    (hfeed : p '\n' = false) (hshown : p replacement = false) : Keeps p where
  lost c hc := by
    simp only [isLost, Bool.or_eq_true, decide_eq_true_eq] at hc
    rcases hc with rfl | rfl
    · exact hreturn
    · exact hnull
  gained c hc := by
    simp only [isGained, Bool.or_eq_true, decide_eq_true_eq] at hc
    rcases hc with rfl | rfl
    · exact hfeed
    · exact hshown

namespace Keeps

variable {p : Char → Bool} (hp : Keeps p)
include hp

theorem split_reread (cs : List Char) : (reread cs).takeWhile p = cs.takeWhile p ∧
    (reread cs).dropWhile p = reread (cs.dropWhile p) := by
  induction cs with
  | nil => exact ⟨rfl, rfl⟩
  | cons c cs ih =>
      cases hc : isLost c with
      | true =>
          obtain ⟨d, ds, hread, hd⟩ := exists_reread_of_lost hc cs
          have hpc : ¬ p c = true := by simp [hp.lost c hc]
          have hpd : ¬ p d = true := by simp [hp.gained d hd]
          rw [List.takeWhile_cons_of_neg hpc, List.dropWhile_cons_of_neg hpc, hread,
            List.takeWhile_cons_of_neg hpd, List.dropWhile_cons_of_neg hpd]
          exact ⟨rfl, rfl⟩
      | false =>
          rw [reread_cons hc, List.takeWhile_cons, List.takeWhile_cons, List.dropWhile_cons,
            List.dropWhile_cons, ih.1, ih.2]
          split
          · exact ⟨rfl, rfl⟩
          · exact ⟨rfl, (reread_cons hc cs).symm⟩

end Keeps

/-! ## References -/

theorem keeps_isHexDigit : Keeps Text.isHexDigit :=
  keeps_of (by decide) (by decide) (by decide) (by decide)

theorem keeps_isAsciiDigit : Keeps Text.isAsciiDigit :=
  keeps_of (by decide) (by decide) (by decide) (by decide)

theorem head?_reread {c : Char} (hlost : isLost c = false) (hgained : isGained c = false)
    (cs : List Char) : (reread cs).head? = some c ↔ cs.head? = some c := by
  cases cs with
  | nil => rfl
  | cons d ds =>
      cases hd : isLost d with
      | true =>
          obtain ⟨e, es, hread, he⟩ := exists_reread_of_lost hd ds
          rw [hread]
          refine iff_of_false ?_ ?_
          · rintro ⟨⟩
            rw [hgained] at he
            cases he
          · rintro ⟨⟩
            rw [hlost] at hd
            cases hd
      | false =>
          rw [reread_cons hd]
          rfl

/-- What follows the digits of a reference. -/
def afterSemicolon : List Char → List Char
  | ';' :: rest => rest
  | rest => rest

/-- Is this a hexadecimal reference, given what follows the number sign? -/
def isHexadecimal (cs : List Char) : Bool :=
  (cs.head? = some 'x' || cs.head? = some 'X') &&
    ((cs.drop 1).takeWhile Text.isHexDigit).length != 0

/-- The digits of a reference and what follows them. -/
def digitsOf (cs : List Char) : Nat × List Nat × List Char :=
  if isHexadecimal cs then
    (16, ((cs.drop 1).takeWhile Text.isHexDigit).filterMap Text.hexDigit?,
      (cs.drop 1).dropWhile Text.isHexDigit)
  else
    (10, (cs.takeWhile Text.isAsciiDigit).filterMap Text.asciiDigit?,
      cs.dropWhile Text.isAsciiDigit)

theorem reference?_eq (cs : List Char) : reference? ('#' :: cs) =
    if (digitsOf cs).2.1.isEmpty then none
    else some ((digitsOf cs).1, (digitsOf cs).2.1, afterSemicolon (digitsOf cs).2.2) := by
  cases cs with
  | nil => rfl
  | cons c ds =>
      have hdigits : digitsOf (c :: ds) =
          if (c = 'x' || c = 'X') && (ds.takeWhile Text.isHexDigit).length != 0 then
            (16, (ds.takeWhile Text.isHexDigit).filterMap Text.hexDigit?,
              ds.dropWhile Text.isHexDigit)
          else
            (10, ((c :: ds).takeWhile Text.isAsciiDigit).filterMap Text.asciiDigit?,
              (c :: ds).dropWhile Text.isAsciiDigit) := by
        simp [digitsOf, isHexadecimal]
      have hfound : ∀ found : Nat × List Nat × List Char,
          (if found.2.1.isEmpty then none
            else match found.2.2 with
              | ';' :: rest => some (found.1, found.2.1, rest)
              | rest => some (found.1, found.2.1, rest)) =
          if found.2.1.isEmpty then none
          else some (found.1, found.2.1, afterSemicolon found.2.2) := by
        intro found
        unfold afterSemicolon
        split
        · rfl
        · split
          · rfl
          · rfl
      rw [hdigits]
      exact hfound _

theorem reference?_of_head?_ne {cs : List Char} (hcs : cs.head? ≠ some '#') :
    reference? cs = none := by
  unfold reference?
  split
  next => exact absurd rfl hcs
  next => rfl

theorem drop_one_reread {c : Char} (hc : isLost c = false) (cs : List Char)
    (hhead : cs.head? = some c) : (reread cs).drop 1 = reread (cs.drop 1) := by
  obtain ⟨ds, rfl⟩ := List.head?_eq_some_iff.mp hhead
  rw [reread_cons hc]
  rfl

/-- The marker of a hexadecimal reference. -/
theorem exists_marker {cs : List Char} (hhead : cs.head? = some 'x' ∨ cs.head? = some 'X') :
    ∃ c, isLost c = false ∧ cs.head? = some c := by
  rcases hhead with hx | hX
  · exact ⟨'x', by decide, hx⟩
  · exact ⟨'X', by decide, hX⟩

theorem isHexadecimal_reread (cs : List Char) : isHexadecimal (reread cs) = isHexadecimal cs := by
  have hx := head?_reread (c := 'x') (by decide) (by decide) cs
  have hX := head?_reread (c := 'X') (by decide) (by decide) cs
  unfold isHexadecimal
  simp only [hx, hX]
  by_cases hhead : cs.head? = some 'x' ∨ cs.head? = some 'X'
  · obtain ⟨c, hc, hfirst⟩ := exists_marker hhead
    rw [drop_one_reread hc cs hfirst, (keeps_isHexDigit.split_reread _).1]
  · obtain ⟨hnot, hnot'⟩ := not_or.mp hhead
    simp [hnot, hnot']

theorem digitsOf_reread (cs : List Char) : digitsOf (reread cs) =
    ((digitsOf cs).1, (digitsOf cs).2.1, reread (digitsOf cs).2.2) := by
  unfold digitsOf
  rw [isHexadecimal_reread]
  cases hhex : isHexadecimal cs with
  | true =>
      simp only [isHexadecimal, Bool.and_eq_true, Bool.or_eq_true, decide_eq_true_eq] at hhex
      obtain ⟨c, hc, hhead⟩ := exists_marker hhex.1
      obtain ⟨htake, hdrop⟩ := keeps_isHexDigit.split_reread (cs.drop 1)
      rw [if_pos rfl, if_pos rfl, drop_one_reread hc cs hhead, htake, hdrop]
  | false =>
      obtain ⟨htake, hdrop⟩ := keeps_isAsciiDigit.split_reread cs
      rw [if_neg (by simp), if_neg (by simp), htake, hdrop]

theorem afterSemicolon_reread (cs : List Char) :
    afterSemicolon (reread cs) = reread (afterSemicolon cs) := by
  by_cases hhead : cs.head? = some ';'
  · obtain ⟨ds, rfl⟩ := List.head?_eq_some_iff.mp hhead
    rw [reread_cons (by decide)]
    rfl
  · have hsame : ∀ es : List Char, es.head? ≠ some ';' → afterSemicolon es = es := by
      intro es hes
      unfold afterSemicolon
      split
      next => exact absurd rfl hes
      next => rfl
    rw [hsame cs hhead, hsame (reread cs)]
    exact fun h => hhead ((head?_reread (by decide) (by decide) cs).mp h)

theorem reference?_reread (cs : List Char) : reference? (reread cs) =
    (reference? cs).map fun found => (found.1, found.2.1, reread found.2.2) := by
  by_cases hhead : cs.head? = some '#'
  · obtain ⟨ds, rfl⟩ := List.head?_eq_some_iff.mp hhead
    rw [reread_cons (by decide), reference?_eq, reference?_eq, digitsOf_reread]
    dsimp only
    rw [afterSemicolon_reread]
    split
    · rfl
    · rfl
  · rw [reference?_of_head?_ne hhead, reference?_of_head?_ne]
    · rfl
    · exact fun h => hhead ((head?_reread (by decide) (by decide) cs).mp h)

/-- The characters that stand in a reference behind its ampersand. -/
def isReferenceChar (c : Char) : Bool :=
  c = '#' || c = 'x' || c = 'X' || c = ';' || Text.isHexDigit c

theorem isHexDigit_of_isAsciiDigit {c : Char} (hc : Text.isAsciiDigit c = true) :
    Text.isHexDigit c = true := by
  simp only [Text.isAsciiDigit, Text.asciiDigit?] at hc
  split at hc
  next hrange => rw [Text.isHexDigit, Text.hexDigit?, if_pos hrange, Option.isSome_some]
  next => cases hc

theorem isReferenceChar_of_isHexDigit {c : Char} (hc : Text.isHexDigit c = true) :
    isReferenceChar c = true := by
  rw [isReferenceChar, hc, Bool.or_true]

theorem isLost_of_isReferenceChar {c : Char} (hc : isReferenceChar c = true) :
    isLost c = false := by
  cases hlost : isLost c with
  | false => rfl
  | true =>
      simp only [isLost, Bool.or_eq_true, decide_eq_true_eq] at hlost
      rcases hlost with rfl | rfl
      · exact absurd hc (by decide)
      · exact absurd hc (by decide)

/-- The digits of a reference stand in front of what follows them. -/
theorem exists_digits_of_digitsOf (cs : List Char) :
    ∃ front, cs = front ++ (digitsOf cs).2.2 ∧ ∀ c ∈ front, isReferenceChar c = true := by
  have hfront : ∀ (p : Char → Bool), (∀ c, p c = true → isReferenceChar c = true) →
      ∀ es : List Char, ∃ front, es = front ++ es.dropWhile p ∧
        ∀ c ∈ front, isReferenceChar c = true := fun p hp es =>
    ⟨es.takeWhile p, List.takeWhile_append_dropWhile.symm,
      fun c hmem => hp c (List.mem_takeWhile_imp hmem)⟩
  unfold digitsOf
  split
  next hhex =>
    simp only [isHexadecimal, Bool.and_eq_true, Bool.or_eq_true, decide_eq_true_eq] at hhex
    obtain ⟨c, es, rfl, hc⟩ : ∃ c es, cs = c :: es ∧ isReferenceChar c = true := by
      rcases hhex.1 with hx | hX
      · obtain ⟨es, rfl⟩ := List.head?_eq_some_iff.mp hx
        exact ⟨'x', es, rfl, by decide⟩
      · obtain ⟨es, rfl⟩ := List.head?_eq_some_iff.mp hX
        exact ⟨'X', es, rfl, by decide⟩
    obtain ⟨front, hcut, hall⟩ := hfront _ (fun _ => isReferenceChar_of_isHexDigit) es
    exact ⟨c :: front, congrArg (c :: ·) hcut, List.forall_mem_cons.mpr ⟨hc, hall⟩⟩
  next =>
    exact hfront _ (fun _ h => isReferenceChar_of_isHexDigit (isHexDigit_of_isAsciiDigit h)) cs

/-- A reference stands in front of what follows it. -/
theorem exists_front_of_reference? {cs rest : List Char} {base : Nat} {digits : List Nat}
    (hfound : reference? cs = some (base, digits, rest)) :
    ∃ front, cs = front ++ rest ∧ ∀ c ∈ front, isReferenceChar c = true := by
  by_cases hhead : cs.head? = some '#'
  · obtain ⟨ds, rfl⟩ := List.head?_eq_some_iff.mp hhead
    rw [reference?_eq] at hfound
    split at hfound
    · cases hfound
    · cases hfound
      have hsemicolon : ∀ es : List Char, ∃ front, es = front ++ afterSemicolon es ∧
          ∀ c ∈ front, isReferenceChar c = true := by
        intro es
        unfold afterSemicolon
        split
        next => exact ⟨[';'], rfl, List.forall_mem_singleton.mpr (by decide)⟩
        next => exact ⟨[], rfl, by simp⟩
      obtain ⟨front, hcut, hfront⟩ := exists_digits_of_digitsOf ds
      obtain ⟨closing, hclosed, hclosing⟩ := hsemicolon (digitsOf ds).2.2
      refine ⟨'#' :: front ++ closing, ?_, ?_⟩
      · rw [List.append_assoc, ← hclosed, List.cons_append, ← hcut]
      · intro c hmem
        rcases List.mem_append.mp hmem with hopen | hclose
        · exact (List.forall_mem_cons.mpr ⟨by decide, hfront⟩ : ∀ c ∈ '#' :: front, _) c hopen
        · exact hclosing c hclose
  · rw [reference?_of_head?_ne hhead] at hfound
    cases hfound

theorem length_le_of_reference? {cs rest : List Char} {base : Nat} {digits : List Nat}
    (hfound : reference? cs = some (base, digits, rest)) : rest.length ≤ cs.length := by
  obtain ⟨front, hcut, -⟩ := exists_front_of_reference? hfound
  rw [hcut, List.length_append]
  exact Nat.le_add_left _ _

/-! ## Decoded values -/

/-- The second text is the first with replacement characters put in. -/
inductive Inserted : List Char → List Char → Prop
  | nil : Inserted [] []
  | same {cs ds : List Char} (c : Char) (h : Inserted cs ds) : Inserted (c :: cs) (c :: ds)
  | extra {cs ds : List Char} (h : Inserted cs ds) : Inserted cs (replacement :: ds)

theorem Inserted.append_left {cs ds : List Char} (h : Inserted cs ds) (front : List Char) :
    Inserted (front ++ cs) (front ++ ds) := by
  induction front with
  | nil => exact h
  | cons c front ih => exact .same c ih

theorem Inserted.isPrefix {cs ds : List Char} (h : Inserted cs ds) {f : Char → Char}
    {start : List Char} (hstart : f replacement ∉ start) (hstarts : start <+: ds.map f) :
    start <+: cs.map f := by
  induction h generalizing start with
  | nil => exact hstarts
  | @same cs ds c h ih =>
      cases start with
      | nil => exact List.nil_prefix
      | cons a start =>
          rw [List.map_cons, List.cons_prefix_cons] at hstarts ⊢
          exact ⟨hstarts.1, ih (fun hmem => hstart (List.mem_cons_of_mem _ hmem)) hstarts.2⟩
  | @extra cs ds h ih =>
      cases start with
      | nil => exact List.nil_prefix
      | cons a start =>
          rw [List.map_cons, List.cons_prefix_cons] at hstarts
          exact absurd (hstarts.1 ▸ List.mem_cons_self) hstart

/-- What clients see of an address. -/
def seen (cs : List Char) : List Char := cs.filter (!isIgnorable ·)

theorem seen_cons_of_ignorable {c : Char} (hc : isIgnorable c = true) (cs : List Char) :
    seen (c :: cs) = seen cs :=
  List.filter_cons_of_neg (by simp [hc])

theorem Inserted.seen_cons {cs ds : List Char} (h : Inserted (seen cs) (seen ds)) (c : Char) :
    Inserted (seen (c :: cs)) (seen (c :: ds)) := by
  unfold seen at h ⊢
  rw [List.filter_cons, List.filter_cons]
  split
  · exact .same c h
  · exact h

theorem decodeFrom_of_none {fuel : Nat} {c : Char} {cs : List Char}
    (hnone : c = '&' → reference? cs = none) :
    decodeFrom (fuel + 1) (c :: cs) = do return c :: (← decodeFrom fuel cs) := by
  have hfound : (if c = '&' then reference? cs else none) = none := by
    split
    next hc => exact hnone hc
    next => rfl
  rw [decodeFrom, hfound]

theorem decodeFrom_of_some {fuel : Nat} {cs rest : List Char} {base : Nat} {digits : List Nat}
    (hfound : reference? cs = some (base, digits, rest)) :
    decodeFrom (fuel + 1) ('&' :: cs) = do
      return (← resolve ('&' :: cs) base digits rest) ++ (← decodeFrom fuel rest) := by
  rw [decodeFrom, if_pos rfl, hfound]

theorem decodeFrom_nil (fuel : Nat) : decodeFrom fuel [] = .ok [] := by
  cases fuel with
  | zero => rfl
  | succ fuel => rfl

theorem take_source (front rest : List Char) :
    ('&' :: (front ++ rest)).take (('&' :: (front ++ rest)).length - rest.length) =
      '&' :: front := by
  rw [← List.cons_append, List.length_append, Nat.add_sub_cancel, List.take_left]

theorem resolve_reread {cs rest : List Char} {base : Nat} {digits : List Nat}
    (hfound : reference? cs = some (base, digits, rest)) :
    resolve ('&' :: reread cs) base digits (reread rest) =
      resolve ('&' :: cs) base digits rest := by
  obtain ⟨front, rfl, hfront⟩ := exists_front_of_reference? hfound
  unfold resolve
  rw [reread_append fun c hmem => isLost_of_isReferenceChar (hfront c hmem), take_source,
    take_source]

/-- Is a value that is read again seen as it was, up to replacement characters? -/
def Returns (cs out : List Char) : Prop :=
  ∀ fuel, (reread cs).length ≤ fuel →
    ∃ again, decodeFrom fuel (reread cs) = .ok again ∧ Inserted (seen out) (seen again)

theorem Returns.cons {c : Char} {cs out : List Char} (h : Returns cs out)
    (hnone : c = '&' → reference? cs = none) : Returns (c :: cs) (c :: out) := by
  intro fuel hfuel
  -- What stands for the character is no reference either, and clients pass over it or it is new.
  have hread : ∀ d, reread (c :: cs) = d :: reread cs → (d = '&' → reference? cs = none) →
      (∀ again, Inserted (seen out) (seen again) →
        Inserted (seen (c :: out)) (seen (d :: again))) →
      ∃ again, decodeFrom fuel (reread (c :: cs)) = .ok again ∧
        Inserted (seen (c :: out)) (seen again) := by
    intro d hcons hplain hseen
    rw [hcons] at hfuel ⊢
    cases fuel with
    | zero => exact absurd hfuel (Nat.not_succ_le_zero _)
    | succ fuel =>
        obtain ⟨again, hagain, hinserted⟩ := h fuel (Nat.le_of_succ_le_succ hfuel)
        have hother : d = '&' → reference? (reread cs) = none := fun hd => by
          rw [reference?_reread, hplain hd]
          rfl
        refine ⟨d :: again, ?_, hseen again hinserted⟩
        rw [decodeFrom_of_none hother, hagain]
        rfl
  cases hc : isLost c with
  | false => exact hread c (reread_cons hc cs) hnone fun again hinserted => hinserted.seen_cons c
  | true =>
      simp only [isLost, Bool.or_eq_true, decide_eq_true_eq] at hc
      rcases hc with rfl | rfl
      · by_cases hhead : cs.head? = some '\n'
        · obtain ⟨ds, rfl⟩ := List.head?_eq_some_iff.mp hhead
          exact h fuel hfuel
        · refine hread '\n' ?_ (fun hd => absurd hd (by decide)) fun again hinserted => ?_
          · rw [reread, Text.unifyLineEnds_return hhead]
            rfl
          · rw [seen_cons_of_ignorable (by decide), seen_cons_of_ignorable (by decide)]
            exact hinserted
      · refine hread replacement ?_ (fun hd => absurd hd (by decide)) fun again hinserted => ?_
        · rw [reread, Text.unifyLineEnds_cons (by decide)]
          rfl
        · rw [seen_cons_of_ignorable (by decide)]
          have hshown : seen (replacement :: again) = replacement :: seen again :=
            List.filter_cons_of_pos (by decide)
          rw [hshown]
          exact .extra hinserted

theorem Returns.of_reference {cs rest out here : List Char} {base : Nat} {digits : List Nat}
    (h : Returns rest out) (hfound : reference? cs = some (base, digits, rest))
    (hhere : resolve ('&' :: cs) base digits rest = .ok here) :
    Returns ('&' :: cs) (here ++ out) := by
  intro fuel hfuel
  obtain ⟨front, hcut, hfront⟩ := exists_front_of_reference? hfound
  have hagain : reference? (reread cs) = some (base, digits, reread rest) := by
    rw [reference?_reread, hfound]
    rfl
  rw [reread_cons (by decide)] at hfuel ⊢
  cases fuel with
  | zero => exact absurd hfuel (Nat.not_succ_le_zero _)
  | succ fuel =>
      have hlength : (reread rest).length ≤ fuel := by
        rw [hcut, reread_append fun c hmem => isLost_of_isReferenceChar (hfront c hmem),
          List.length_cons, List.length_append] at hfuel
        omega
      obtain ⟨again, hdecoded, hinserted⟩ := h fuel hlength
      refine ⟨here ++ again, ?_, ?_⟩
      · rw [decodeFrom_of_some hagain, resolve_reread hfound, hhere, hdecoded]
        rfl
      · unfold seen
        rw [List.filter_append, List.filter_append]
        exact hinserted.append_left _

theorem returns_of_decodeFrom {fuel : Nat} {cs out : List Char} (hfuel : cs.length ≤ fuel)
    (hok : decodeFrom fuel cs = .ok out) : Returns cs out := by
  have hnil : Returns [] [] := fun more _ => ⟨[], decodeFrom_nil more, .nil⟩
  induction fuel generalizing cs out with
  | zero =>
      obtain rfl := List.eq_nil_of_length_eq_zero (Nat.le_zero.mp hfuel)
      cases hok
      exact hnil
  | succ fuel ih =>
      cases cs with
      | nil =>
          cases hok
          exact hnil
      | cons c cs =>
          have hle : cs.length ≤ fuel := Nat.le_of_succ_le_succ hfuel
          by_cases hreference : c = '&' ∧ ∃ found, reference? cs = some found
          · obtain ⟨rfl, ⟨base, digits, rest⟩, hfound⟩ := hreference
            rw [decodeFrom_of_some hfound] at hok
            obtain ⟨here, hhere, hrest⟩ := Fault.exists_of_bind_eq_ok hok
            obtain ⟨after, hafter, hresult⟩ := Fault.exists_of_bind_eq_ok hrest
            cases hresult
            exact (ih ((length_le_of_reference? hfound).trans hle) hafter).of_reference hfound hhere
          · have hnone : c = '&' → reference? cs = none := fun hc =>
              Option.eq_none_iff_forall_ne_some.mpr fun found h => hreference ⟨hc, found, h⟩
            rw [decodeFrom_of_none hnone] at hok
            obtain ⟨after, hafter, hresult⟩ := Fault.exists_of_bind_eq_ok hok
            cases hresult
            exact (ih hle hafter).cons hnone

/-! ## Dangerous addresses -/

theorem isStart_of_mem : ∀ scheme ∈ dangerousSchemes, Text.IsStart scheme := by decide

/-- An address is dangerous by the letters that clients see first. -/
theorem isDangerous_eq {cs decoded : List Char} (hdecoded : decode cs = .ok decoded) :
    isDangerous cs = .ok (decide (∃ scheme ∈ dangerousSchemes,
      scheme <+: (seen decoded).map Text.asciiLowerChar)) := by
  have hnormalized : normalize cs = .ok (Text.lowerChars (seen decoded)) := by
    rw [normalize, hdecoded]
    rfl
  rw [isDangerous, hnormalized]
  refine congrArg Except.ok ?_
  rw [Bool.eq_iff_iff, List.any_eq_true, decide_eq_true_eq]
  refine exists_congr fun scheme => and_congr_right fun hmem => ?_
  rw [List.isPrefixOf_iff_prefix]
  exact Text.isPrefix_lowerAfter_iff (isStart_of_mem scheme hmem) [] _

theorem exists_decode_of_isDangerous {cs : List Char} {dangerous : Bool}
    (hok : isDangerous cs = .ok dangerous) : ∃ decoded, decode cs = .ok decoded := by
  obtain ⟨normalized, hnormalized, -⟩ := Fault.exists_of_bind_eq_ok hok
  obtain ⟨decoded, hdecoded, -⟩ := Fault.exists_of_bind_eq_ok hnormalized
  exact ⟨decoded, hdecoded⟩

theorem isDangerous_reread {cs : List Char} (hsafe : isDangerous cs = .ok false) :
    isDangerous (reread cs) = .ok false := by
  obtain ⟨decoded, hdecoded⟩ := exists_decode_of_isDangerous hsafe
  obtain ⟨again, hagain, hinserted⟩ :=
    returns_of_decodeFrom (Nat.le_refl _) hdecoded _ (Nat.le_refl _)
  rw [isDangerous_eq hdecoded] at hsafe
  rw [isDangerous_eq hagain]
  have hnone := of_decide_eq_false (Except.ok.inj hsafe)
  refine congrArg Except.ok (decide_eq_false fun hsome => hnone ?_)
  obtain ⟨scheme, hmem, hstarts⟩ := hsome
  have hshown : ∀ scheme ∈ dangerousSchemes, Text.asciiLowerChar replacement ∉ scheme := by
    decide
  exact ⟨scheme, hmem, hinserted.isPrefix (hshown scheme hmem) hstarts⟩

end Winnow.Url
