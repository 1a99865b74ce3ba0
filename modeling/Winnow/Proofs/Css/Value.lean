import Mathlib.Data.List.Induction
import Winnow.Proofs.Css.Reparse

/-!
# Values of declarations

Whether a value is important and whether it is well-formed depends neither on the white space
around it nor on the letters that escapes make small.
-/

namespace Winnow.Css

namespace ValueDraft

/-- The part of a draft that decides whether a value is important and well-formed. -/
structure Status where
  place : ValuePlace := .value
  filled : Bool := false
  mixed : Bool := false

/-- The status of a draft. -/
def status (draft : ValueDraft) : Status :=
  { place := draft.place, filled := draft.filled, mixed := draft.mixed }

/-- The status after a further node. -/
def Status.add (status : Status) : Node → Status
  | .token (.sign text) =>
    if text == ['!'] && status.place = .value then { status with place := .bang }
    else { status with place := .value, filled := true }
  | .token (.ident name) =>
    if status.place = .bang && Node.lowerName name == importantName then
      { status with place := .important }
    else { status with place := .value, filled := true }
  | .token (.whitespace _) => status
  | .token (.comment _) => status
  | .block .curly _ => { place := .value, filled := true, mixed := status.mixed || status.filled }
  | _ => { status with place := .value, filled := true }

theorem status_add (draft : ValueDraft) (node : Node) :
    (draft.add node).status = draft.status.add node := by
  cases node with
  | token t =>
      cases t with
      | sign text =>
          rw [add, Status.add]
          by_cases hbang : (text == ['!'] && draft.place = .value) = true
          · rw [if_pos hbang, if_pos (show (text == ['!'] && draft.status.place = .value) = true
              from hbang)]
            rfl
          · rw [if_neg hbang, if_neg (show ¬ (text == ['!'] && draft.status.place = .value) = true
              from hbang)]
            rfl
      | ident name =>
          rw [add, Status.add]
          by_cases hmark : (draft.place = .bang && Node.lowerName name == importantName) = true
          · rw [if_pos hmark, if_pos (show (draft.status.place = .bang &&
              Node.lowerName name == importantName) = true from hmark)]
            rfl
          · rw [if_neg hmark, if_neg (show ¬ (draft.status.place = .bang &&
              Node.lowerName name == importantName) = true from hmark)]
            rfl
      | _ => rfl
  | block bracket content => cases bracket <;> rfl
  | _ => rfl

theorem nodes_add (draft : ValueDraft) (node : Node) :
    (draft.add node).nodes = node :: draft.nodes := by
  cases node with
  | token t =>
      cases t with
      | sign text =>
          simp only [add]
          split
          · rfl
          · rfl
      | ident name =>
          simp only [add]
          split
          · rfl
          · rfl
      | _ => rfl
  | block bracket content => cases bracket <;> rfl
  | _ => rfl

end ValueDraft

open ValueDraft (Status)

/-- The draft of a whole value. -/
def draftOf (value : List Node) : ValueDraft := value.foldl ValueDraft.add {}

/-- The status of a whole value. -/
def statusOf (value : List Node) : Status := value.foldl Status.add {}

theorem draftOf_concat (value : List Node) (node : Node) :
    draftOf (value ++ [node]) = (draftOf value).add node := by
  rw [draftOf, List.foldl_append]
  rfl

theorem statusOf_concat (value : List Node) (node : Node) :
    statusOf (value ++ [node]) = (statusOf value).add node := by
  rw [statusOf, List.foldl_append]
  rfl

theorem status_draftOf (value : List Node) : (draftOf value).status = statusOf value := by
  induction value using List.reverseRecOn with
  | nil => rfl
  | append_singleton value node ih =>
      rw [draftOf_concat, statusOf_concat, ValueDraft.status_add, ih]

theorem place_draftOf (value : List Node) : (draftOf value).place = (statusOf value).place := by
  rw [← status_draftOf]
  rfl

theorem mixed_draftOf (value : List Node) : (draftOf value).mixed = (statusOf value).mixed := by
  rw [← status_draftOf]
  rfl

theorem nodes_draftOf (value : List Node) : (draftOf value).nodes = value.reverse := by
  induction value using List.reverseRecOn with
  | nil => rfl
  | append_singleton value node ih =>
      rw [draftOf_concat, ValueDraft.nodes_add, ih, List.reverse_concat]

/-! ## White space and letters -/

theorem ValueDraft.Status.add_whitespace (status : Status) {node : Node}
    (hwhitespace : node.isWhitespace = true) : status.add node = status := by
  unfold Node.isWhitespace at hwhitespace
  split at hwhitespace
  next => rfl
  next => cases hwhitespace

theorem foldl_add_whitespace (status : Status) {nodes : List Node}
    (hwhitespace : ∀ node ∈ nodes, node.isWhitespace = true) :
    nodes.foldl Status.add status = status := by
  induction nodes with
  | nil => rfl
  | cons node rest ih =>
      obtain ⟨hnode, hrest⟩ := List.forall_mem_cons.mp hwhitespace
      rw [List.foldl_cons, status.add_whitespace hnode, ih hrest]

theorem statusOf_trimmed (value : List Node) : statusOf (trimmed value) = statusOf value := by
  obtain ⟨front, back, heq, hfront, hback⟩ := exists_around_trimmed value
  have hstatus : statusOf value = statusOf (front ++ (trimmed value ++ back)) :=
    congrArg statusOf heq
  rw [hstatus, statusOf, statusOf, List.foldl_append, List.foldl_append,
    foldl_add_whitespace _ hfront, foldl_add_whitespace _ hback]

theorem ValueDraft.Status.add_recased (status : Status) (node : Node) :
    status.add node.recased = status.add node := by
  cases node with
  | token t => cases t <;> rfl
  | block bracket content => cases bracket <;> rfl
  | _ => rfl

theorem statusOf_recasedAll (value : List Node) :
    statusOf (Node.recasedAll value) = statusOf value := by
  induction value using List.reverseRecOn with
  | nil => rfl
  | append_singleton value node ih =>
      rw [Node.recasedAll_eq_map] at ih ⊢
      rw [List.map_append, List.map_singleton, statusOf_concat, statusOf_concat, ih,
        Status.add_recased]

theorem mixed_add {status : Status} {node : Node} (hmixed : (status.add node).mixed = false) :
    status.mixed = false := by
  unfold ValueDraft.Status.add at hmixed
  split at hmixed
  next =>
    split at hmixed
    · exact hmixed
    · exact hmixed
  next =>
    split at hmixed
    · exact hmixed
    · exact hmixed
  next => exact hmixed
  next => exact hmixed
  next => exact (Bool.or_eq_false_iff.mp hmixed).1
  next => exact hmixed

/-- The front of a well-formed value is well-formed. -/
theorem mixed_of_append {front back : List Node} (hmixed : (statusOf (front ++ back)).mixed = false) :
    (statusOf front).mixed = false := by
  induction back using List.reverseRecOn with
  | nil => rwa [List.append_nil] at hmixed
  | append_singleton back node ih =>
      rw [← List.append_assoc, statusOf_concat] at hmixed
      exact ih (mixed_add hmixed)

/-! ## Importance -/

theorem beforeBang_add {draft : ValueDraft} {node : Node}
    (hplace : (draft.add node).place ≠ .value) :
    Node.holdsAt Node.isFlaw node = false ∧
      (draft.place = .value ∧ (draft.add node).beforeBang = draft.nodes ∨
        draft.place ≠ .value ∧ (draft.add node).beforeBang = draft.beforeBang) := by
  cases node with
  | token t =>
      refine ⟨by cases t <;> first | rfl | exact absurd rfl hplace, ?_⟩
      cases t with
      | sign text =>
          rw [ValueDraft.add] at hplace ⊢
          by_cases hbang : (text == ['!'] && draft.place = .value) = true
          · rw [if_pos hbang]
            exact .inl ⟨of_decide_eq_true (Bool.and_eq_true_iff.mp hbang).2, rfl⟩
          · rw [if_neg hbang] at hplace
            exact absurd rfl hplace
      | ident name =>
          rw [ValueDraft.add] at hplace ⊢
          by_cases hmark : (draft.place = .bang && Node.lowerName name == importantName) = true
          · rw [if_pos hmark]
            have hbang : draft.place = .bang :=
              of_decide_eq_true (Bool.and_eq_true_iff.mp hmark).1
            exact .inr ⟨by simp [hbang], rfl⟩
          · rw [if_neg hmark] at hplace
            exact absurd rfl hplace
      | whitespace text => exact .inr ⟨hplace, rfl⟩
      | comment text => exact .inr ⟨hplace, rfl⟩
      | _ => exact absurd rfl hplace
  | block bracket content => cases bracket <;> exact absurd rfl hplace
  | _ => exact absurd rfl hplace

/-- What follows the last exclamation mark is a word and blanks. -/
theorem exists_afterBang (value : List Node) (hplace : (draftOf value).place ≠ .value) :
    ∃ mark, value = (draftOf value).beforeBang.reverse ++ mark ∧
      (statusOf (draftOf value).beforeBang.reverse).place = .value ∧
      Node.holdsIn Node.isFlaw mark = false := by
  induction value using List.reverseRecOn with
  | nil => exact absurd rfl hplace
  | append_singleton value node ih =>
      rw [draftOf_concat] at hplace ⊢
      obtain ⟨hflaw, ⟨hvalue, hbefore⟩ | ⟨hmarked, hbefore⟩⟩ := beforeBang_add hplace
      · rw [hbefore, nodes_draftOf, List.reverse_reverse]
        exact ⟨[node], rfl, (place_draftOf value).symm.trans hvalue, by simp [Node.holdsIn, hflaw]⟩
      · obtain ⟨mark, heq, hfront, hclean⟩ := ih hmarked
        rw [hbefore]
        refine ⟨mark ++ [node], by rw [← List.append_assoc, ← heq], hfront, ?_⟩
        rw [Node.holdsIn_append, hclean]
        simp [Node.holdsIn, hflaw]

end Winnow.Css
