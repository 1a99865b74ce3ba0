import Mathlib.Data.List.Basic
import Winnow.Assoc

/-! # Tables after an entry is put, and lists without repetitions -/

namespace Winnow.Assoc

variable {β : Type}

@[simp] theorem find?_nil (name : String) : find? ([] : Assoc β) name = none := rfl

theorem find?_cons (entry : String × β) (rest : Assoc β) (name : String) :
    find? (entry :: rest) name = if entry.1 = name then some entry.2 else find? rest name := by
  unfold find?
  rw [List.find?_cons]
  by_cases heq : entry.1 = name
  · rw [if_pos heq, beq_iff_eq.mpr heq]
    rfl
  · rw [if_neg heq, beq_eq_false_iff_ne.mpr heq]

theorem find?_put (table : Assoc β) (name other : String) (value : β) :
    find? (put name value table) other =
      if other = name then some value else find? table other := by
  induction table with
  | nil =>
      rw [put, find?_cons]
      simp only [eq_comm]
  | cons entry rest ih =>
      unfold put
      split
      next heq =>
        rw [find?_cons, find?_cons, heq]
        by_cases hother : other = name
        · rw [if_pos hother.symm, if_pos hother]
        · rw [if_neg (Ne.symm hother), if_neg hother, if_neg (Ne.symm hother)]
      next hne =>
        rw [find?_cons, find?_cons, ih]
        by_cases hother : other = name
        · rw [if_pos hother, if_pos hother, if_neg (fun heq => hne (heq.trans hother))]
        · rw [if_neg hother, if_neg hother]

/-- A name without a value is no name of the table. -/
theorem mem_names_of_find? {table : Assoc β} {name : String} {value : β}
    (hfind : find? table name = some value) : name ∈ names table := by
  induction table with
  | nil => cases hfind
  | cons entry rest ih =>
      rw [find?_cons] at hfind
      unfold names at ih ⊢
      rw [List.map_cons, List.mem_cons]
      split at hfind
      next heq => exact Or.inl heq.symm
      next => exact Or.inr (ih hfind)

theorem mem_of_find? {table : Assoc β} {name : String} {value : β}
    (hfind : find? table name = some value) : (name, value) ∈ table := by
  unfold find? at hfind
  obtain ⟨entry, hentry, rfl⟩ := Option.map_eq_some_iff.mp hfind
  have hname : entry.1 = name := by simpa using List.find?_some hentry
  exact hname ▸ List.mem_of_find?_eq_some hentry

/-- The members under a name are those of an entry. -/
theorem exists_of_mem_getD {α : Type} {table : Assoc (List α)} {name : String} {member : α}
    (hmem : member ∈ (find? table name).getD []) : ∃ entry ∈ table, member ∈ entry.2 := by
  cases hfind : find? table name with
  | none =>
      rw [hfind] at hmem
      cases hmem
  | some members =>
      rw [hfind] at hmem
      exact ⟨_, mem_of_find? hfind, hmem⟩

theorem mem_of_mem_put {table : Assoc β} {name : String} {value : β} {entry : String × β}
    (hmem : entry ∈ put name value table) : entry = (name, value) ∨ entry ∈ table := by
  induction table with
  | nil => exact Or.inl (List.mem_singleton.mp hmem)
  | cons first rest ih =>
      unfold put at hmem
      split at hmem
      next =>
        rcases List.mem_cons.mp hmem with heq | hrest
        · exact Or.inl heq
        · exact Or.inr (List.mem_cons_of_mem _ hrest)
      next =>
        rcases List.mem_cons.mp hmem with heq | hrest
        · exact Or.inr (heq ▸ List.mem_cons_self)
        · exact (ih hrest).imp_right (List.mem_cons_of_mem _)

/-- What a fold of steps that add one entry each has gathered. -/
theorem mem_of_mem_foldl {α : Type} {step : Assoc β → α → Assoc β} {make : α → String × β}
    (hstep : ∀ table item entry, entry ∈ step table item → entry ∈ table ∨ entry = make item)
    {items : List α} {table : Assoc β} {entry : String × β}
    (hmem : entry ∈ items.foldl step table) :
    entry ∈ table ∨ ∃ item ∈ items, entry = make item := by
  induction items generalizing table with
  | nil => exact Or.inl hmem
  | cons item rest ih =>
      rcases ih hmem with hstepped | ⟨other, hother, heq⟩
      · rcases hstep _ _ _ hstepped with htable | heq
        · exact Or.inl htable
        · exact Or.inr ⟨item, List.mem_cons_self, heq⟩
      · exact Or.inr ⟨other, List.mem_cons_of_mem _ hother, heq⟩

/-- The entries of a table that is made by putting pairs are among the pairs. -/
theorem mem_of_mem_ofPairs {pairs : List (String × β)} {entry : String × β}
    (hmem : entry ∈ ofPairs pairs) : entry ∈ pairs := by
  have hput : ∀ (table : Assoc β) (pair entry : String × β),
      entry ∈ put pair.1 pair.2 table → entry ∈ table ∨ entry = id pair :=
    fun _ _ _ hmem => (mem_of_mem_put hmem).symm
  obtain ⟨pair, hpair, rfl⟩ := (mem_of_mem_foldl hput hmem).resolve_left List.not_mem_nil
  exact hpair

theorem put_of_not_mem {table : Assoc β} {name : String} (hnew : name ∉ names table) (value : β) :
    put name value table = table ++ [(name, value)] := by
  induction table with
  | nil => rfl
  | cons first rest ih =>
      rw [names, List.map_cons, List.mem_cons, not_or] at hnew
      rw [put, if_neg (Ne.symm hnew.1), ih hnew.2]
      rfl

theorem names_put (table : Assoc β) (name : String) (value : β) :
    names (put name value table) =
      if name ∈ names table then names table else names table ++ [name] := by
  split
  next hold =>
    induction table with
    | nil => cases hold
    | cons first rest ih =>
        unfold put
        split
        next heq => rw [names, names, List.map_cons, List.map_cons, heq]
        next hne =>
          have hrest : name ∈ names rest := (List.mem_cons.mp hold).resolve_left (Ne.symm hne)
          rw [names, List.map_cons, ← names, ih hrest]
          rfl
  next hnew =>
    rw [put_of_not_mem hnew, names, List.map_append, List.map_singleton]
    rfl

/-- A name stays in its place when a value is put under it, so that it occurs once. -/
theorem nodup_names_put {table : Assoc β} (hnodup : (names table).Nodup) (name : String)
    (value : β) : (names (put name value table)).Nodup := by
  rw [names_put]
  split
  next => exact hnodup
  next hnew =>
    refine List.nodup_append.mpr ⟨hnodup, by simp, ?_⟩
    intro other hother last hlast heq
    obtain rfl := List.mem_singleton.mp hlast
    exact hnew (heq ▸ hother)

/-- Where every name occurs once, each entry is found under its name. -/
theorem find?_of_mem {table : Assoc β} (hnodup : (names table).Nodup) {entry : String × β}
    (hmem : entry ∈ table) : find? table entry.1 = some entry.2 := by
  induction table with
  | nil => cases hmem
  | cons first rest ih =>
      obtain ⟨hnew, hrest⟩ := List.nodup_cons.mp hnodup
      rw [find?_cons]
      rcases List.mem_cons.mp hmem with rfl | hmem
      · rw [if_pos rfl]
      · have hlisted : entry.1 ∈ rest.map (·.1) := List.mem_map_of_mem hmem
        rw [if_neg (ne_of_mem_of_not_mem hlisted hnew).symm, ih hrest hmem]

theorem has_eq_decide (table : Assoc β) (name : String) :
    has table name = decide (name ∈ names table) := by
  unfold has names
  rw [Bool.eq_iff_iff, List.any_eq_true, decide_eq_true_iff, List.mem_map]
  simp only [beq_iff_eq]

/-- A table that is made of pairs with distinct names holds them as they are. -/
theorem ofPairsFirst_of_nodup {pairs : List (String × β)} (hnodup : (names pairs).Nodup) :
    ofPairsFirst pairs = pairs := by
  have hfold : ∀ (back front : List (String × β)), (names (front ++ back)).Nodup →
      List.foldl (fun table (entry : String × β) =>
        if has table entry.1 then table else put entry.1 entry.2 table) front back =
        front ++ back := by
    intro back
    induction back with
    | nil => exact fun front _ => (List.append_nil front).symm
    | cons entry back ih =>
        intro front hdistinct
        have hnew : entry.1 ∉ names front := by
          intro hmem
          rw [names, List.map_append, List.nodup_append] at hdistinct
          exact hdistinct.2.2 _ hmem _ List.mem_cons_self rfl
        rw [List.foldl_cons, has_eq_decide, if_neg (by simpa using hnew), put_of_not_mem hnew,
          ih _ (by simpa using hdistinct), List.append_assoc]
        rfl
  exact hfold pairs [] hnodup

/-- The entries of a table that keeps the first of equal names are among the pairs. -/
theorem mem_of_mem_ofPairsFirst {pairs : List (String × β)} {entry : String × β}
    (hmem : entry ∈ ofPairsFirst pairs) : entry ∈ pairs := by
  have hput : ∀ (table : Assoc β) (pair entry : String × β),
      entry ∈ (if has table pair.1 then table else put pair.1 pair.2 table) →
        entry ∈ table ∨ entry = id pair := by
    intro table pair entry hmem
    split at hmem
    next => exact Or.inl hmem
    next => exact (mem_of_mem_put hmem).symm
  obtain ⟨pair, hpair, rfl⟩ := (mem_of_mem_foldl hput hmem).resolve_left List.not_mem_nil
  exact hpair

end Winnow.Assoc

namespace Winnow

variable {α : Type} [DecidableEq α] {x : α}

theorem mem_addMember {member : α} {members : List α} :
    x ∈ addMember member members ↔ x ∈ members ∨ x = member := by
  unfold addMember
  split
  next hmem =>
    refine ⟨Or.inl, fun hor => hor.elim id ?_⟩
    rintro rfl
    exact List.contains_iff_mem.mp hmem
  next => simp

theorem mem_distinct {members : List α} : x ∈ distinct members ↔ x ∈ members := by
  have hfold : ∀ kept : List α, x ∈ members.foldl (fun kept member => addMember member kept) kept ↔
      x ∈ kept ∨ x ∈ members := by
    induction members with
    | nil => simp
    | cons member rest ih =>
        intro kept
        rw [List.foldl_cons, ih, mem_addMember, or_assoc, List.mem_cons]
  unfold distinct
  simpa using hfold []

end Winnow
