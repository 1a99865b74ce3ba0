import Winnow.Document.Store

/-!
# Stacks with a last entry that stays

The outermost open element is the last entry of a stack. Entries are closed from the inside,
up to or including one that has been looked for, so the last one stays if the search is for
another.
-/

namespace Winnow.Html

/-- Does a stack end in this entry, with entries of some kind inside it? -/
def EndsIn (root : Handle) (p : Handle → Prop) (stack : List Handle) : Prop :=
  ∃ inner, stack = inner ++ [root] ∧ ∀ handle ∈ inner, p handle

namespace EndsIn

variable {root handle : Handle} {p q : Handle → Prop} {stack : List Handle}

theorem single : EndsIn root p [root] := ⟨[], rfl, fun _ hmem => by cases hmem⟩

theorem append {front : List Handle} (hfront : ∀ handle ∈ front, p handle)
    (hends : EndsIn root p stack) : EndsIn root p (front ++ stack) := by
  obtain ⟨inner, rfl, hinner⟩ := hends
  refine ⟨front ++ inner, by simp, fun handle hmem => ?_⟩
  rcases List.mem_append.mp hmem with hnew | hold
  · exact hfront handle hnew
  · exact hinner handle hold

theorem cons (hhandle : p handle) (hends : EndsIn root p stack) :
    EndsIn root p (handle :: stack) := by
  have happended : EndsIn root p ([handle] ++ stack) :=
    hends.append fun _ hmem => List.mem_singleton.mp hmem ▸ hhandle
  exact happended

theorem imp (hends : EndsIn root p stack) (himp : ∀ handle, p handle → q handle) :
    EndsIn root q stack := by
  obtain ⟨inner, hstack, hinner⟩ := hends
  exact ⟨inner, hstack, fun handle hmem => himp handle (hinner handle hmem)⟩

theorem of_mem (hends : EndsIn root p stack) (hmem : handle ∈ stack) :
    handle = root ∨ p handle := by
  obtain ⟨inner, rfl, hinner⟩ := hends
  rcases List.mem_append.mp hmem with hmem | hmem
  · exact Or.inr (hinner handle hmem)
  · exact Or.inl (List.mem_singleton.mp hmem)

theorem ne_nil (hends : EndsIn root p stack) : stack ≠ [] := by
  obtain ⟨inner, rfl, -⟩ := hends
  simp

theorem getLastD (hends : EndsIn root p stack) : stack.getLastD 0 = root := by
  obtain ⟨inner, rfl, -⟩ := hends
  simp

theorem headD (hends : EndsIn root p stack) : stack.headD 0 = root ∨ p (stack.headD 0) := by
  refine hends.of_mem ?_
  obtain ⟨first, rest, rfl⟩ := List.exists_cons_of_ne_nil hends.ne_nil
  exact List.mem_cons_self

/-- Entries are closed from the inside up to one that is not the last. -/
theorem drop_dropWhile {closes : Handle → Bool} (hends : EndsIn root p stack)
    (hmem : handle ∈ stack) (hstops : closes handle = false) (hne : handle ≠ root) :
    EndsIn root p ((stack.dropWhile closes).drop 1) := by
  obtain ⟨inner, rfl, hinner⟩ := hends
  replace hmem : handle ∈ inner :=
    (List.mem_append.mp hmem).resolve_right fun hlast => hne (List.mem_singleton.mp hlast)
  induction inner with
  | nil => cases hmem
  | cons first rest ih =>
      have hrest : ∀ handle ∈ rest, p handle :=
        fun handle hmem => hinner handle (List.mem_cons_of_mem _ hmem)
      cases hfirst : closes first with
      | true =>
          rw [List.cons_append, List.dropWhile_cons_of_pos hfirst]
          refine ih hrest ((List.mem_cons.mp hmem).resolve_left ?_)
          rintro rfl
          rw [hstops] at hfirst
          cases hfirst
      | false =>
          rw [List.cons_append, List.dropWhile_cons_of_neg (by simp [hfirst])]
          exact ⟨rest, rfl, hrest⟩

theorem dropWhile {closes : Handle → Bool} (hends : EndsIn root p stack)
    (hstops : closes root = false) : EndsIn root p (stack.dropWhile closes) := by
  obtain ⟨inner, rfl, hinner⟩ := hends
  induction inner with
  | nil =>
      rw [List.nil_append, List.dropWhile_cons_of_neg (by simp [hstops])]
      exact single
  | cons first rest ih =>
      cases hfirst : closes first with
      | true =>
          rw [List.cons_append, List.dropWhile_cons_of_pos hfirst]
          exact ih fun handle hmem => hinner handle (List.mem_cons_of_mem _ hmem)
      | false =>
          rw [List.cons_append, List.dropWhile_cons_of_neg (by simp [hfirst])]
          exact ⟨first :: rest, rfl, hinner⟩

/-- The innermost entry is closed while others stay. -/
theorem drop_one (hends : EndsIn root p stack) (hmem : handle ∈ stack.head?) (hne : handle ≠ root) :
    EndsIn root p (stack.drop 1) := by
  obtain ⟨first, rest, rfl⟩ := List.exists_cons_of_ne_nil hends.ne_nil
  cases hmem
  have hclosed : EndsIn root p (((handle :: rest).dropWhile fun _ => false).drop 1) :=
    hends.drop_dropWhile List.mem_cons_self rfl hne
  exact hclosed

/-- What is inside an entry that is not the last is not the last either. -/
theorem of_mem_takeWhile (hends : EndsIn root p stack) (hmem : handle ∈ stack)
    (hne : handle ≠ root) : ∀ other ∈ stack.takeWhile (· != handle), p other := by
  obtain ⟨inner, rfl, hinner⟩ := hends
  replace hmem : handle ∈ inner :=
    (List.mem_append.mp hmem).resolve_right fun hlast => hne (List.mem_singleton.mp hlast)
  obtain ⟨front, back, rfl⟩ := List.append_of_mem hmem
  intro other hother
  rw [List.append_assoc, List.cons_append, List.takeWhile_append] at hother
  split at hother
  next =>
    rw [List.takeWhile_cons_of_neg (by simp), List.append_nil] at hother
    exact hinner other (List.mem_append_left _ hother)
  next => exact hinner other (List.mem_append_left _ ((List.takeWhile_sublist _).subset hother))

/-- What a search through the stack has come to. -/
theorem of_dropWhile_eq_cons {closes : Handle → Bool} {rest : List Handle}
    (hends : EndsIn root p stack) (hsearch : stack.dropWhile closes = handle :: rest)
    (hne : handle ≠ root) : closes handle = false ∧ p handle ∧ EndsIn root p rest := by
  have hstops : closes handle = false := by
    have hhead := List.head?_dropWhile_not closes stack
    rw [hsearch] at hhead
    exact hhead
  have hmem : handle ∈ stack :=
    (List.dropWhile_suffix closes).subset (hsearch ▸ List.mem_cons_self)
  refine ⟨hstops, (hends.of_mem hmem).resolve_left hne, ?_⟩
  have hrest := hends.drop_dropWhile hmem hstops hne
  rwa [hsearch] at hrest

theorem erase (hends : EndsIn root p stack) (hne : handle ≠ root) :
    EndsIn root p (stack.erase handle) := by
  obtain ⟨inner, rfl, hinner⟩ := hends
  rw [List.erase_append]
  split
  next => exact ⟨_, rfl, fun other hmem => hinner other (List.mem_of_mem_erase hmem)⟩
  next =>
    rw [List.erase_of_not_mem fun hmem => hne (List.mem_singleton.mp hmem)]
    exact ⟨inner, rfl, hinner⟩

/-- One entry is replaced by another wherever it stands. -/
theorem replace {copy : Handle} (hends : EndsIn root p stack) (hne : handle ≠ root)
    (hcopy : p copy) :
    EndsIn root p (stack.map fun other => if other = handle then copy else other) := by
  obtain ⟨inner, rfl, hinner⟩ := hends
  refine ⟨inner.map fun other => if other = handle then copy else other, ?_, ?_⟩
  · rw [List.map_append, List.map_singleton, if_neg hne.symm]
  · intro other hmem
    obtain ⟨old, hold, rfl⟩ := List.mem_map.mp hmem
    split
    · exact hcopy
    · exact hinner old hold

end EndsIn

/-- Are these entries at most directly inside the last one, wherever they stand? -/
def Shallow (parts : List Handle) (stack : List Handle) : Prop :=
  ∀ part ∈ parts, ∀ front rest, stack = front ++ part :: rest → rest.length ≤ 1

namespace Shallow

variable {parts stack : List Handle} (hshallow : Shallow parts stack)

theorem of_length_le (parts : List Handle) {stack : List Handle} (hlength : stack.length ≤ 2) :
    Shallow parts stack := by
  rintro part - front rest rfl
  rw [List.length_append, List.length_cons] at hlength
  omega

include hshallow

/-- Entries are closed. -/
theorem of_sublist {fewer : List Handle} (hsublist : fewer.Sublist stack) :
    Shallow parts fewer := by
  rintro part hpart front rest rfl
  obtain ⟨before, after, rfl, -, hafter⟩ := List.append_sublist_iff.mp hsublist
  obtain ⟨middle, last, rfl, hmem, hlast⟩ := List.cons_sublist_iff.mp hafter
  obtain ⟨first, second, rfl⟩ := List.append_of_mem hmem
  have hdeep := hshallow part hpart (before ++ first) (second ++ last) (by simp)
  rw [List.length_append] at hdeep
  exact Nat.le_trans hlast.length_le (Nat.le_of_add_left_le hdeep)

/-- Other entries are opened. -/
theorem append {front : List Handle} (hfront : ∀ handle ∈ front, handle ∉ parts) :
    Shallow parts (front ++ stack) := by
  intro part hpart before rest hstack
  induction front generalizing before with
  | nil => exact hshallow part hpart before rest hstack
  | cons handle others ih =>
      rw [List.cons_append] at hstack
      cases before with
      | nil =>
          cases (List.cons.inj hstack).1
          exact absurd hpart (hfront _ List.mem_cons_self)
      | cons first before =>
          exact ih (fun other hmem => hfront other (List.mem_cons_of_mem _ hmem)) before
            (List.cons.inj hstack).2

theorem cons {handle : Handle} (hhandle : handle ∉ parts) : Shallow parts (handle :: stack) := by
  have happended : Shallow parts ([handle] ++ stack) :=
    hshallow.append fun _ hmem => List.mem_singleton.mp hmem ▸ hhandle
  exact happended

/-- One entry is replaced by another wherever it stands. -/
theorem replace {handle copy : Handle} (hcopy : copy ∉ parts) :
    Shallow parts (stack.map fun other => if other = handle then copy else other) := by
  intro part hpart front rest hstack
  obtain ⟨before, after, rfl, -, hafter⟩ := List.map_eq_append_iff.mp hstack
  obtain ⟨entry, last, rfl, hentry, rfl⟩ := List.map_eq_cons_iff.mp hafter
  split at hentry
  next => exact absurd (hentry ▸ hpart) hcopy
  next =>
    subst hentry
    rw [List.length_map]
    exact hshallow entry hpart before last rfl

/-- What is inside an entry that is neither the last nor a part is no part either. -/
theorem not_mem_of_mem_takeWhile {root handle : Handle} {p : Handle → Prop}
    (hends : EndsIn root p stack) (hmem : handle ∈ stack) (hne : handle ≠ root) :
    ∀ other ∈ stack.takeWhile (· != handle), other ∉ parts := by
  intro other hother hpart
  have hrest : EndsIn root p ((stack.dropWhile (· != handle)).drop 1) :=
    hends.drop_dropWhile hmem (by simp) hne
  have houter := List.length_pos_iff.mpr hrest.ne_nil
  obtain ⟨first, second, hsplit⟩ := List.append_of_mem hother
  have hstack : stack = first ++ other :: (second ++ stack.dropWhile (· != handle)) := by
    rw [← List.cons_append, ← List.append_assoc, ← hsplit, List.takeWhile_append_dropWhile]
  have hdeep := hshallow other hpart first _ hstack
  rw [List.length_drop] at houter
  rw [List.length_append] at hdeep
  omega

end Shallow

theorem sublist_drop_dropWhile (closes : Handle → Bool) (stack : List Handle) :
    ((stack.dropWhile closes).drop 1).Sublist stack :=
  (List.drop_sublist 1 _).trans (List.dropWhile_sublist _)

/-- Entries that are not counted may be closed. -/
theorem countP_le_dropWhile {counted closes : Handle → Bool} {stack : List Handle}
    (hnone : ∀ handle, closes handle = true → counted handle = false) :
    stack.countP counted ≤ (stack.dropWhile closes).countP counted := by
  have hclosed : (stack.takeWhile closes).countP counted = 0 := by
    refine List.countP_eq_zero.mpr fun handle hmem => ?_
    rw [hnone handle (List.all_eq_true.mp List.all_takeWhile handle hmem)]
    exact Bool.false_ne_true
  refine Nat.le_of_eq ?_
  calc stack.countP counted
      = (stack.takeWhile closes ++ stack.dropWhile closes).countP counted := by
        rw [List.takeWhile_append_dropWhile]
    _ = (stack.dropWhile closes).countP counted := by
        rw [List.countP_append, hclosed, Nat.zero_add]

/-- Closing the entries up to the first occurrence of one keeps what is after another. -/
theorem suffix_drop_dropWhile (front : List Handle) (handle : Handle) (outer : List Handle) :
    outer <:+ ((front ++ handle :: outer).dropWhile (· != handle)).drop 1 := by
  induction front with
  | nil =>
      rw [List.nil_append, List.dropWhile_cons_of_neg (by simp)]
      exact List.suffix_rfl
  | cons first rest ih =>
      by_cases heq : first = handle
      · subst heq
        rw [List.cons_append, List.dropWhile_cons_of_neg (by simp)]
        exact (List.suffix_cons first outer).trans (List.suffix_append rest _)
      · rw [List.cons_append, List.dropWhile_cons_of_pos (by simpa using heq)]
        exact ih

end Winnow.Html
