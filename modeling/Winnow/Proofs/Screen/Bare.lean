import Winnow.Proofs.Html.Lexer.Escaped
import Winnow.Proofs.Text.Split
import Winnow.Screen.Writer

/-!
# Bare ampersands

Ampersands that start no reference are written as references. Nothing else of a text changes, and
a text in which all references are those that markup is written with stays as it is.
-/

namespace Winnow.Screen.Entity

open Html Html.Entity

/-! ## References in parts -/

theorem after_append (name : List Char) (c : Char) (tail : List Char) :
    after name (name ++ c :: tail) = tail := by
  induction name with
  | nil => rfl
  | cons d name ih => exact ih

/-- The name of a reference stands at the start of its part, and a semicolon closes it, with at
most one character between. -/
theorem exists_of_name? {part name : List Char} (hname : name? part = some name) :
    ∃ c, part = name ++ c :: after name part := by
  have hcut : ∀ {c : Char} {tail : List Char}, part = name ++ c :: tail →
      ∃ c, part = name ++ c :: after name part := by
    intro c tail hpart
    refine ⟨c, ?_⟩
    have hafter : after name part = tail := hpart ▸ after_append name c tail
    rwa [hafter]
  have hnumber : ∀ {marker cs : List Char} {p : Char → Bool}, part = marker ++ cs →
      number? marker p cs = some name → ∃ c, part = name ++ c :: after name part := by
    intro marker cs p hpart hnumber
    rw [← List.takeWhile_append_dropWhile (p := p) (l := cs), ← List.append_assoc] at hpart
    unfold number? at hnumber
    dsimp only at hnumber
    split at hnumber
    next heq =>
      cases hnumber
      exact hcut (heq ▸ hpart)
    next heq =>
      split at hnumber
      next => cases hnumber
      next =>
        cases hnumber
        exact hcut (heq ▸ hpart)
    next => cases hnumber
  unfold name? at hname
  split at hname
  next => exact hnumber rfl hname
  next => exact hnumber rfl hname
  next => exact hnumber rfl hname
  next =>
    dsimp only at hname
    split at hname
    next => cases hname
    next hclosed =>
      simp only [Bool.or_eq_true, not_or, bne_iff_ne, ne_eq, Decidable.not_not] at hclosed
      obtain ⟨tail, htail⟩ := List.head?_eq_some_iff.mp hclosed.2
      cases hname
      have hpart : part = part.takeWhile (!endsName ·) ++ ';' :: tail := by
        rw [← htail, List.takeWhile_append_dropWhile]
      exact hcut hpart

theorem number?_append_bracket {p : Char → Bool} (hp : p '>' = false) (marker cs : List Char) :
    number? marker p (cs ++ ['>']) = number? marker p cs := by
  obtain ⟨htake, hdrop⟩ := takeWhile_append_of_stop hp cs []
  unfold number?
  dsimp only
  rw [htake, hdrop]
  rcases cs.dropWhile p with _ | ⟨c, _ | ⟨d, ds⟩⟩
  · rfl
  · by_cases hc : c = ';'
    · subst hc
      rfl
    · simp [hc]
  · by_cases hc : c = ';'
    · subst hc
      rfl
    · by_cases hd : d = ';'
      · subst hd
        simp
      · simp [hc, hd]

theorem name?_of_ne_hash {c : Char} (hc : c ≠ '#') (cs : List Char) :
    name? (c :: cs) =
      if ((c :: cs).takeWhile (!endsName ·)).isEmpty ||
          !beginsName ((c :: cs).takeWhile (!endsName ·)) ||
          ((c :: cs).dropWhile (!endsName ·)).head? != some ';' then none
      else some ((c :: cs).takeWhile (!endsName ·)) := by
  unfold name?
  split
  next heq => exact absurd (List.cons.inj heq).1 hc
  next heq => exact absurd (List.cons.inj heq).1 hc
  next heq => exact absurd (List.cons.inj heq).1 hc
  next => rfl

/-- A closing bracket behind a part changes nothing about its reference. -/
theorem name?_append_bracket (part : List Char) : name? (part ++ ['>']) = name? part := by
  rcases part with _ | ⟨c, cs⟩
  · rfl
  · by_cases hc : c = '#'
    · subst hc
      rcases cs with _ | ⟨d, ds⟩
      · rfl
      · by_cases hlower : d = 'x'
        · subst hlower
          exact number?_append_bracket (by decide) _ _
        · by_cases hupper : d = 'X'
          · subst hupper
            exact number?_append_bracket (by decide) _ _
          · have hnumber : ∀ tail, name? ('#' :: d :: tail) =
                number? ['#'] Text.isAsciiDigit (d :: tail) := by
              intro tail
              rw [name?]
              · exact fun _ heq => hlower (List.cons.inj heq).1
              · exact fun _ heq => hupper (List.cons.inj heq).1
            rw [List.cons_append, List.cons_append, hnumber, hnumber, ← List.cons_append]
            exact number?_append_bracket (by decide) _ _
    · rw [List.cons_append, name?_of_ne_hash hc, name?_of_ne_hash hc, ← List.cons_append]
      have hcut := List.takeWhile_append_dropWhile (p := (!endsName ·)) (l := c :: cs)
      cases hdrop : (c :: cs).dropWhile (!endsName ·) with
      | nil =>
          have hdropped : ((c :: cs) ++ ['>']).dropWhile (!endsName ·) = [] := by
            rw [List.dropWhile_append, hdrop]
            rfl
          rw [hdropped]
          simp
      | cons d ds =>
          have htake : ((c :: cs).takeWhile (!endsName ·)).length ≠ (c :: cs).length := by
            intro hlength
            have hboth := congrArg List.length hcut
            rw [hdrop, List.length_append, hlength, List.length_cons (a := d)] at hboth
            omega
          rw [List.takeWhile_append, if_neg htake, List.dropWhile_append, hdrop]
          rfl

/-! ## Texts -/

theorem bareAmpersands_of_ne {c : Char} (hc : c ≠ '&') (cs : List Char) :
    bareAmpersands (c :: cs) = c :: bareAmpersands cs := by
  rw [bareAmpersands]
  exact fun _ heq => (hc heq).elim

theorem bareAmpersands_append_bracket (cs : List Char) :
    bareAmpersands (cs ++ ['>']) = bareAmpersands cs ++ ['>'] := by
  fun_induction bareAmpersands cs with
  | case1 => rfl
  | case2 cs ih => exact congrArg ('&' :: ·) ih
  | case3 c cs hother ih =>
      rw [List.cons_append, bareAmpersands, ih]
      · rfl
      · rintro tail rfl heq
        rcases cs with _ | ⟨d, _ | ⟨e, _ | ⟨f, _ | ⟨g, cs⟩⟩⟩⟩
        all_goals simp at heq
        obtain ⟨rfl, rfl, rfl, rfl, -⟩ := heq
        exact hother cs rfl rfl

theorem mem_of_mem_bareAmpersands {c : Char} {cs : List Char} (hmem : c ∈ bareAmpersands cs) :
    c ∈ cs := by
  fun_induction bareAmpersands cs with
  | case1 => exact hmem
  | case2 cs ih => 
      rcases List.mem_cons.mp hmem with rfl | hrest
      · exact List.mem_cons_self
      · simp [ih hrest]
  | case3 d cs hother ih =>
      rcases List.mem_cons.mp hmem with rfl | hrest
      · exact List.mem_cons_self
      · exact List.mem_cons_of_mem _ (ih hrest)

theorem mem_bareAmpersands {cs : List Char} (hmem : '&' ∈ cs) : '&' ∈ bareAmpersands cs := by
  fun_induction bareAmpersands cs with
  | case1 => exact hmem
  | case2 cs ih => exact List.mem_cons_self
  | case3 d cs hother ih =>
      rcases List.mem_cons.mp hmem with rfl | hrest
      · exact List.mem_cons_self
      · exact List.mem_cons_of_mem _ (ih hrest)

theorem bareAmpersands_eq_self {cs : List Char} (hcs : '&' ∉ cs) : bareAmpersands cs = cs := by
  induction cs with
  | nil => rfl
  | cons c cs ih =>
      obtain ⟨hc, hrest⟩ := List.ne_and_not_mem_of_not_mem_cons hcs
      rw [bareAmpersands_of_ne (Ne.symm hc), ih hrest]

/-- What is written of a part and the ampersand in front: its reference, or a reference to the
ampersand and the part. -/
def escapePart (part : List Char) : Except Fault (List Char) :=
  match name? part with
  | some name => do
    return if (← meaning? name).isSome then write name ++ after name part
      else "&amp;".toList ++ part
  | none => .ok ("&amp;".toList ++ part)

theorem escapeParts_cons (part : List Char) (parts : List (List Char)) :
    escapeParts (part :: parts) = do
      return (← escapePart part) ++ (← escapeParts parts) := by
  rw [escapeParts, escapePart]
  cases name? part with
  | none => rfl
  | some name =>
      dsimp only
      cases meaning? name with
      | error fault => rfl
      | ok meaning => cases meaning <;> rfl

theorem exists_of_escapePart {part written : List Char} (hok : escapePart part = .ok written) :
    ∃ front, written = '&' :: front ∧ (front = "amp;".toList ++ part ∨
      ∃ name, name? part = some name ∧ front = name ++ ';' :: after name part) := by
  unfold escapePart at hok
  split at hok
  next name hname =>
    obtain ⟨meaning, -, hresult⟩ := Fault.exists_of_bind_eq_ok hok
    cases meaning with
    | none =>
        cases hresult
        exact ⟨_, rfl, .inl rfl⟩
    | some meaning =>
        cases hresult
        refine ⟨_, ?_, .inr ⟨name, hname, rfl⟩⟩
        simp [write]
  next =>
    cases hok
    exact ⟨_, rfl, .inl rfl⟩

theorem exists_of_escapeParts_cons {part : List Char} {parts : List (List Char)}
    {written : List Char} (hok : escapeParts (part :: parts) = .ok written) :
    ∃ front back, escapePart part = .ok front ∧ escapeParts parts = .ok back ∧
      written = front ++ back := by
  rw [escapeParts_cons] at hok
  obtain ⟨front, hfront, hok⟩ := Fault.exists_of_bind_eq_ok hok
  obtain ⟨back, hback, hresult⟩ := Fault.exists_of_bind_eq_ok hok
  exact ⟨front, back, hfront, hback, (Except.ok.inj hresult).symm⟩

theorem mem_of_mem_escapePart {part written : List Char} (hok : escapePart part = .ok written)
    {c : Char} (hmem : c ∈ written) : c ∈ "&amp;".toList ∨ c ∈ part := by
  obtain ⟨front, rfl, hfront⟩ := exists_of_escapePart hok
  rcases List.mem_cons.mp hmem with rfl | hmem
  · exact .inl (by decide)
  rcases hfront with rfl | ⟨name, hname, rfl⟩
  · exact (List.mem_append.mp hmem).imp_left (List.mem_cons_of_mem _)
  · obtain ⟨d, hpart⟩ := exists_of_name? hname
    rcases List.mem_append.mp hmem with hmem | hmem
    · exact .inr (hpart ▸ List.mem_append_left _ hmem)
    rcases List.mem_cons.mp hmem with rfl | hmem
    · exact .inl (by decide)
    · rw [hpart]
      exact .inr (List.mem_append_right _ (List.mem_cons_of_mem _ hmem))

theorem mem_of_mem_escapeParts {parts : List (List Char)} {written : List Char}
    (hok : escapeParts parts = .ok written) {c : Char} (hmem : c ∈ written) :
    c ∈ "&amp;".toList ∨ ∃ part ∈ parts, c ∈ part := by
  induction parts generalizing written with
  | nil =>
      cases hok
      cases hmem
  | cons part parts ih =>
      obtain ⟨front, back, hfront, hback, rfl⟩ := exists_of_escapeParts_cons hok
      rcases List.mem_append.mp hmem with hmem | hmem
      · exact (mem_of_mem_escapePart hfront hmem).imp_right fun hc =>
          ⟨part, List.mem_cons_self, hc⟩
      · refine (ih hback hmem).imp_right ?_
        rintro ⟨other, hother, hc⟩
        exact ⟨other, List.mem_cons_of_mem _ hother, hc⟩

theorem exists_of_escapeBare {cs written : List Char} (hok : escapeBare cs = .ok written) :
    ∃ start parts back, Text.splitAt '&' (bareAmpersands cs) = start :: parts ∧
      escapeParts parts = .ok back ∧ written = start ++ back := by
  obtain ⟨start, parts, hsplit⟩ := Text.exists_splitAt '&' (bareAmpersands cs)
  rw [escapeBare, hsplit] at hok
  obtain ⟨back, hback, hresult⟩ := Fault.exists_of_bind_eq_ok hok
  exact ⟨start, parts, back, hsplit, hback, (Except.ok.inj hresult).symm⟩

/-- No characters come in but those of the reference to an ampersand. -/
theorem mem_of_mem_escapeBare {cs written : List Char} (hok : escapeBare cs = .ok written)
    {c : Char} (hmem : c ∈ written) : c ∈ "&amp;".toList ∨ c ∈ cs := by
  obtain ⟨start, parts, back, hsplit, hback, rfl⟩ := exists_of_escapeBare hok
  have hsegment : ∀ segment ∈ start :: parts, c ∈ segment → c ∈ cs := by
    intro segment hsegment hc
    rw [← hsplit] at hsegment
    exact mem_of_mem_bareAmpersands ((Text.isInfix_of_mem_splitAt hsegment).subset hc)
  rcases List.mem_append.mp hmem with hstart | hback'
  · exact .inr (hsegment start List.mem_cons_self hstart)
  · refine (mem_of_mem_escapeParts hback hback').imp_right ?_
    rintro ⟨part, hpart, hc⟩
    exact hsegment part (List.mem_cons_of_mem _ hpart) hc

/-- A text that is written without ampersands had none, and is written as it is. -/
theorem eq_of_escapeBare {cs written : List Char} (hok : escapeBare cs = .ok written)
    (hnone : '&' ∉ written) : '&' ∉ cs ∧ written = cs := by
  obtain ⟨start, parts, back, hsplit, hback, rfl⟩ := exists_of_escapeBare hok
  cases parts with
  | cons part parts =>
      obtain ⟨front, rest, hfront, -, rfl⟩ := exists_of_escapeParts_cons hback
      obtain ⟨tail, rfl, -⟩ := exists_of_escapePart hfront
      simp at hnone
  | nil =>
      cases hback
      have hjoin : Text.joinWith ['&'] _ = bareAmpersands cs := Text.join_splitAt _
      rw [hsplit, Text.joinWith] at hjoin
      rw [List.append_nil] at hnone ⊢
      rw [hjoin] at hnone ⊢
      have hcs : '&' ∉ cs := fun hmem => hnone (mem_bareAmpersands hmem)
      exact ⟨hcs, bareAmpersands_eq_self hcs⟩

theorem escapeBare_cons {c : Char} (hc : c ≠ '&') (cs : List Char) :
    escapeBare (c :: cs) = (c :: ·) <$> escapeBare cs := by
  obtain ⟨start, parts, hsplit⟩ := Text.exists_splitAt '&' (bareAmpersands cs)
  rw [escapeBare, escapeBare, bareAmpersands_of_ne hc, Text.splitAt_cons_of_ne hc hsplit, hsplit]
  dsimp only
  cases escapeParts parts with
  | error fault => rfl
  | ok back => rfl

theorem escapeBare_eq_self {cs : List Char} (hcs : '&' ∉ cs) : escapeBare cs = .ok cs := by
  induction cs with
  | nil => rfl
  | cons c cs ih =>
      obtain ⟨hc, hrest⟩ := List.ne_and_not_mem_of_not_mem_cons hcs
      rw [escapeBare_cons (Ne.symm hc), ih hrest]
      rfl

/-! ## Brackets at the end -/

theorem joinWith_concat (sep : List Char) (front : List (List Char)) (last back : List Char) :
    Text.joinWith sep (front ++ [last ++ back]) =
      Text.joinWith sep (front ++ [last]) ++ back := by
  induction front with
  | nil => rfl
  | cons segment front ih =>
      rw [List.cons_append, List.cons_append, Text.joinWith, ih, Text.joinWith]
      · simp only [List.append_assoc]
      · simp
      · simp

/-- What holds no separator at the end of a text belongs to the last segment. -/
theorem splitAt_concat {sep : Char} {back : List Char} (hback : sep ∉ back) {cs last : List Char}
    (front : List (List Char)) (hsplit : Text.splitAt sep cs = front ++ [last]) :
    Text.splitAt sep (cs ++ back) = front ++ [last ++ back] := by
  have hnone : ∀ segment ∈ front ++ [last], sep ∉ segment := fun segment hmem =>
    Text.not_mem_of_mem_splitAt (hsplit ▸ hmem)
  obtain ⟨hfront, hlast⟩ := List.forall_mem_append.mp hnone
  have hjoin : Text.joinWith [sep] _ = cs := Text.join_splitAt cs
  rw [hsplit] at hjoin
  rw [← hjoin, ← joinWith_concat]
  refine Text.splitAt_joinWith (by simp) (List.forall_mem_append.mpr ⟨hfront, ?_⟩)
  refine List.forall_mem_singleton.mpr fun hmem => ?_
  exact (List.mem_append.mp hmem).elim (hlast last (List.mem_singleton_self _)) hback

theorem escapePart_append_bracket (part : List Char) :
    escapePart (part ++ ['>']) = (· ++ ['>']) <$> escapePart part := by
  rw [escapePart, escapePart, name?_append_bracket]
  cases hname : name? part with
  | none => rfl
  | some name =>
      obtain ⟨c, hpart⟩ := exists_of_name? hname
      have hlength : name.length + 1 ≤ part.length := by
        rw [hpart]
        simp
      have hafter : after name (part ++ ['>']) = after name part ++ ['>'] :=
        List.drop_append_of_le_length hlength
      dsimp only
      rw [hafter]
      cases meaning? name with
      | error fault => rfl
      | ok meaning =>
          cases meaning with
          | none => rfl
          | some meaning => simp

theorem escapeParts_append_bracket (front : List (List Char)) (last : List Char) :
    escapeParts (front ++ [last ++ ['>']]) = (· ++ ['>']) <$> escapeParts (front ++ [last]) := by
  induction front with
  | nil =>
      rw [List.nil_append, List.nil_append, escapeParts_cons, escapeParts_cons,
        escapePart_append_bracket]
      cases escapePart last with
      | error fault => rfl
      | ok written => simp [escapeParts]; rfl
  | cons part front ih =>
      rw [List.cons_append, List.cons_append, escapeParts_cons, escapeParts_cons, ih]
      cases escapePart part with
      | error fault => rfl
      | ok written =>
        cases escapeParts (front ++ [last]) with
        | error fault => rfl
        | ok back => simp

/-- A closing bracket at the end of a text stays there. -/
theorem escapeBare_append_bracket (cs : List Char) :
    escapeBare (cs ++ ['>']) = (· ++ ['>']) <$> escapeBare cs := by
  obtain ⟨start, parts, hsplit⟩ := Text.exists_splitAt '&' (bareAmpersands cs)
  rw [escapeBare, escapeBare, bareAmpersands_append_bracket, hsplit]
  rcases List.eq_nil_or_concat parts with rfl | ⟨front, last, rfl⟩
  · rw [splitAt_concat (by decide) [] hsplit]
    simp [escapeParts]
  · rw [List.concat_eq_append] at hsplit ⊢
    rw [splitAt_concat (by decide) (start :: front) hsplit, List.cons_append]
    dsimp only
    rw [escapeParts_append_bracket]
    cases escapeParts (front ++ [last]) with
    | error fault => rfl
    | ok back => simp

/-! ## Spelled texts -/

theorem escapePart_named (c : Char) (cs : List Char) (hhash : c ≠ '#')
    (hends : (c :: cs).all (!endsName ·) = true) (hbegins : beginsName (c :: cs) = true)
    (hmeaning : (named? (c :: cs)).isSome = true) (tail : List Char) :
    escapePart (c :: cs ++ ';' :: tail) = .ok ('&' :: (c :: cs ++ ';' :: tail)) := by
  have hstop : (!endsName ';') = false := by decide
  obtain ⟨htake, hdrop⟩ := takeWhile_append_of_stop (p := (!endsName ·)) hstop (c :: cs) tail
  have hall : ∀ d ∈ c :: cs, (!endsName d) = true := List.all_eq_true.mp hends
  rw [List.takeWhile_eq_self_iff.mpr hall] at htake
  rw [List.dropWhile_eq_nil_iff.mpr hall] at hdrop
  have hfound : name? (c :: cs ++ ';' :: tail) = some (c :: cs) := by
    rw [List.cons_append] at htake hdrop ⊢
    rw [name?_of_ne_hash hhash, htake, hdrop, hbegins]
    rfl
  have hstands : meaning? (c :: cs) = .ok ((named? (c :: cs)).map String.toList) := by
    rw [meaning?]
    all_goals
      intros
      simp_all
  rw [escapePart, hfound]
  dsimp only
  rw [hstands, after_append, Fault.ok_bind, Option.isSome_map, hmeaning, if_pos rfl, write,
    List.append_assoc]
  rfl

/-- A reference that markup is written with has a meaning, so it stays. -/
theorem escapePart_written {name : List Char} {c : Char} (hwritten : Written name c)
    (tail : List Char) : escapePart (name ++ tail) = .ok ('&' :: (name ++ tail)) := by
  cases hwritten with
  | ampersand =>
      exact escapePart_named 'a' ['m', 'p'] (by decide) (by decide) (by decide +kernel)
        (by decide +kernel) tail
  | blank =>
      exact escapePart_named 'n' ['b', 's', 'p'] (by decide) (by decide) (by decide +kernel)
        (by decide +kernel) tail
  | opening =>
      exact escapePart_named 'l' ['t'] (by decide) (by decide) (by decide +kernel)
        (by decide +kernel) tail
  | closing =>
      exact escapePart_named 'g' ['t'] (by decide) (by decide) (by decide +kernel)
        (by decide +kernel) tail
  | quote =>
      exact escapePart_named 'q' ['u', 'o', 't'] (by decide) (by decide) (by decide +kernel)
        (by decide +kernel) tail

/-- A text that is written character by character is split in front of its references. -/
theorem exists_splitAt_spelled {spell : Char → List Char} (hspelling : IsSpelling spell)
    (cs : List Char) : ∃ start parts back, Text.splitAt '&' (cs.flatMap spell) = start :: parts ∧
      escapeParts parts = .ok back ∧ cs.flatMap spell = start ++ back := by
  induction cs with
  | nil => exact ⟨[], [], [], rfl, rfl, rfl⟩
  | cons c cs ih =>
      obtain ⟨start, parts, back, hsplit, hback, htext⟩ := ih
      rw [List.flatMap_cons]
      rcases hspelling c with ⟨hplain, hand⟩ | ⟨name, hwritten, hnamed⟩
      · refine ⟨c :: start, parts, back, ?_, hback, ?_⟩
        · rw [hplain]
          exact Text.splitAt_cons_of_ne hand hsplit
        · rw [hplain, htext]
          rfl
      · have hnone : '&' ∉ name := by cases hwritten <;> decide
        refine ⟨[], (name ++ start) :: parts, '&' :: (name ++ start) ++ back, ?_, ?_, ?_⟩
        · rw [hnamed, List.cons_append, Text.splitAt_cons_self,
            Text.splitAt_append hnone hsplit]
        · rw [escapeParts_cons, escapePart_written hwritten, hback]
          rfl
        · rw [hnamed, htext]
          simp

/-- An ampersand that was written as a reference is written as one once, and a bracket stays a
reference. -/
theorem bareAmpersands_escapeField (cs : List Char) :
    bareAmpersands (escapeField cs) =
      cs.flatMap fun c => if c = '<' then "&lt;".toList else [c] := by
  induction cs with
  | nil => rfl
  | cons c cs ih =>
      rw [escapeField, List.flatMap_cons, List.flatMap_cons, ← ih]
      by_cases hand : c = '&'
      · subst hand
        rfl
      · by_cases hopening : c = '<'
        · subst hopening
          rfl
        · rw [if_neg hand, if_neg hopening]
          exact bareAmpersands_of_ne hand _

/-- How a character of a value is written when brackets are written as references, too. -/
def spellField (c : Char) : List Char :=
  if c = '<' then "&lt;".toList else Markup.escapeValueChar c

theorem isSpelling_spellField : IsSpelling spellField := by
  intro c
  unfold spellField
  split
  next heq => exact .inr ⟨_, heq ▸ .opening, rfl⟩
  next => exact isSpelling_escapeValueChar c

/-- A value as markup is written with stays so but for its brackets, which are written as
references. -/
theorem escapeBare_escapeField (cs : List Char) :
    escapeBare (escapeField (cs.flatMap Markup.escapeValueChar)) = .ok (cs.flatMap spellField) := by
  have hbrackets : (cs.flatMap Markup.escapeValueChar).flatMap
      (fun c => if c = '<' then "&lt;".toList else [c]) = cs.flatMap spellField := by
    rw [List.flatMap_assoc]
    refine congrArg (cs.flatMap ·) (funext fun c => ?_)
    unfold spellField
    by_cases hopening : c = '<'
    · subst hopening
      rfl
    · rw [if_neg hopening]
      rcases escapeValueChar_cases c with ⟨hplain, -⟩ | ⟨name, hwritten, hnamed⟩
      · rw [hplain, List.flatMap_cons, if_neg hopening]
        rfl
      · rw [hnamed]
        cases hwritten <;> rfl
  obtain ⟨start, parts, back, hsplit, hback, htext⟩ :=
    exists_splitAt_spelled isSpelling_spellField cs
  rw [escapeBare, bareAmpersands_escapeField, hbrackets, hsplit]
  dsimp only
  rw [hback, htext]
  rfl

end Winnow.Screen.Entity
