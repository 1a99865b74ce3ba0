import Mathlib.Data.List.Induction
import Winnow.Html.Construction.Builder
import Winnow.Proofs.Assoc
import Winnow.Proofs.Document.Joined

/-!
# Attributes with the same local name

Of the attributes of a start tag that have no namespace, an element keeps the latest for each
local name, the part of the name after its first colon. So it has the attributes of its tag
exactly if their local names are different.
-/

namespace Winnow.Html

open Builder

/-- The attributes that an element has when a start tag writes these. -/
def settle (attributes : Attributes) : Attributes :=
  attributes.foldl (fun table entry => setLocal .html table entry.1 (entry.2.getD "")) []

/-- Is no local name that of two attributes? -/
def Apart (attributes : Attributes) : Prop := (attributes.names.map localName).Nodup

instance (attributes : Attributes) : Decidable (Apart attributes) :=
  inferInstanceAs (Decidable (List.Nodup _))

/-- May an entry stay where an attribute of this name is set? -/
def staysBeside (name : String) (entry : String × Option String) : Bool :=
  entry.1 == name || localName entry.1 != localName name

theorem setLocal_html (table : Attributes) (name value : String) :
    setLocal .html table name value =
      Assoc.put name (some value) (table.filter (staysBeside name)) := by
  have hstays : (fun entry : String × Option String => entry.1 == name || false ||
      localName entry.1 != localName name) = staysBeside name := by
    funext entry
    rw [staysBeside, Bool.or_false]
  rw [← hstays]
  rfl

theorem settle_append_singleton (front : Attributes) (entry : String × Option String) :
    settle (front ++ [entry]) = Assoc.put entry.1 (some (entry.2.getD ""))
      ((settle front).filter (staysBeside entry.1)) := by
  rw [settle, List.foldl_append, ← setLocal_html]
  rfl

theorem length_put_le (table : Attributes) (name : String) (value : Option String) :
    (Assoc.put name value table).length ≤ table.length + 1 := by
  have hnames := congrArg List.length (Assoc.names_put table name value)
  split at hnames
  · simp only [Assoc.names, List.length_map] at hnames
    omega
  · simp only [Assoc.names, List.length_map, List.length_append, List.length_singleton] at hnames
    omega

/-- An element has at most as many attributes as its tag. -/
theorem length_settle_le (attributes : Attributes) :
    (settle attributes).length ≤ attributes.length := by
  induction attributes using List.reverseRecOn with
  | nil => exact Nat.le_refl _
  | append_singleton front entry ih =>
      have hfilter := List.length_filter_le (staysBeside entry.1) (settle front)
      have hput := length_put_le ((settle front).filter (staysBeside entry.1)) entry.1
        (some (entry.2.getD ""))
      rw [settle_append_singleton, List.length_append, List.length_singleton]
      omega

theorem mem_names_of_mem_settle {attributes : Attributes} {entry : String × Option String}
    (hmem : entry ∈ settle attributes) : entry.1 ∈ attributes.names := by
  have hset : ∀ (table : Attributes) (item kept : String × Option String),
      kept ∈ setLocal .html table item.1 (item.2.getD "") →
        kept ∈ table ∨ kept = (item.1, some (item.2.getD "")) := by
    intro table item kept hkept
    rw [setLocal_html] at hkept
    exact (Assoc.mem_of_mem_put hkept).symm.imp_left List.mem_of_mem_filter
  obtain ⟨item, hitem, rfl⟩ := (Assoc.mem_of_mem_foldl hset hmem).resolve_left List.not_mem_nil
  exact List.mem_map.mpr ⟨item, hitem, rfl⟩

theorem apart_append_singleton (front : Attributes) (entry : String × Option String) :
    Apart (front ++ [entry]) ↔
      Apart front ∧ ∀ other ∈ front, localName other.1 ≠ localName entry.1 := by
  rw [Apart, Assoc.names, List.map_append, List.map_append, List.nodup_append]
  refine and_congr_right fun _ => ?_
  simp only [List.map_map, List.forall_mem_map, List.map_cons, List.map_nil,
    List.forall_mem_singleton]
  exact and_iff_right (List.pairwise_singleton _ _)

/-- An element has the attributes of its tag exactly if no local name comes twice. -/
theorem settle_eq_self_iff {attributes : Attributes}
    (hsome : ∀ entry ∈ attributes, ∃ value, entry.2 = some value)
    (hnodup : attributes.names.Nodup) : settle attributes = attributes ↔ Apart attributes := by
  induction attributes using List.reverseRecOn with
  | nil => exact iff_of_true rfl List.nodup_nil
  | append_singleton front entry ih =>
      obtain ⟨name, value⟩ := entry
      obtain ⟨value, rfl⟩ := hsome (name, value) (by simp)
      have hfront := ih (fun other hmem => hsome other (List.mem_append_left _ hmem))
        (by
          rw [Assoc.names, List.map_append] at hnodup
          exact (List.nodup_append.mp hnodup).1)
      have hnew : name ∉ Assoc.names front := by
        rw [Assoc.names, List.map_append] at hnodup
        exact fun hmem => (List.nodup_append.mp hnodup).2.2 name hmem name (by simp) rfl
      have hkept : name ∉ Assoc.names ((settle front).filter (staysBeside name)) := by
        intro hmem
        obtain ⟨kept, hkept, rfl⟩ := List.mem_map.mp hmem
        exact hnew (mem_names_of_mem_settle (List.mem_of_mem_filter hkept))
      rw [settle_append_singleton, Assoc.put_of_not_mem hkept, apart_append_singleton, ← hfront]
      dsimp only [Option.getD_some]
      rw [List.append_cancel_right_eq]
      constructor
      · intro hfilter
        have hlength := length_settle_le front
        have hbound := List.length_filter_le (staysBeside name) (settle front)
        have hall := List.length_filter_eq_length_iff.mp
          (show ((settle front).filter (staysBeside name)).length = (settle front).length by
            rw [hfilter] at hbound ⊢
            omega)
        rw [List.filter_eq_self.mpr hall] at hfilter
        refine ⟨hfilter, fun other hmem hlocal => ?_⟩
        have hstays := hall other (by rwa [hfilter])
        rw [staysBeside, hlocal] at hstays
        obtain rfl : other.1 = name := by simpa using hstays
        exact hnew (List.mem_map_of_mem hmem)
      · rintro ⟨hsettle, hlocal⟩
        rw [hsettle]
        refine List.filter_eq_self.mpr fun other hmem => ?_
        rw [staysBeside, bne_iff_ne.mpr (hlocal other hmem), Bool.or_true]

end Winnow.Html
