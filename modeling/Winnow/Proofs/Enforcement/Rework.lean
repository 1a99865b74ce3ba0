import Winnow.Proofs.Enforcement.Visit
import Winnow.Proofs.Store.Layout

/-!
# Reworked forests

A pass works through the forest below a host and leaves another one in its
place. The two stores differ only in the nodes of the forest and in the children
of the host, and every node that stays either was there, with what the policy
lets it keep, or is a new text.
-/

namespace Winnow.Store

open Layout

/-- Nothing has changed outside a region, except for the children of a host. -/
structure Confined (before after : Store) (region : List Handle) (host : Option Handle) :
    Prop where
  isForest : after.IsForest
  size_le : before.cells.size ≤ after.cells.size
  label : ∀ other, other < before.cells.size → other ∉ region →
    after.label other = before.label other
  parent : ∀ other, other < before.cells.size → other ∉ region →
    after.parent other = before.parent other
  children : ∀ other, other < before.cells.size → other ∉ region → host ≠ some other →
    after.children other = before.children other

namespace Confined

variable {before middle after : Store} {region wider : List Handle} {host outer : Option Handle}

theorem refl (hforest : before.IsForest) (region : List Handle) (host : Option Handle) :
    Confined before before region host where
  isForest := hforest
  size_le := Nat.le_refl _
  label _ _ _ := rfl
  parent _ _ _ := rfl
  children _ _ _ _ := rfl

/-- A wider region may take in the host. -/
theorem widen (hconfined : Confined before after region host)
    (hregion : ∀ other ∈ region, other ∈ wider)
    (hhost : ∀ other, host = some other → other ∈ wider ∨ outer = some other) :
    Confined before after wider outer where
  isForest := hconfined.isForest
  size_le := hconfined.size_le
  label other hlt hout := hconfined.label other hlt fun hin => hout (hregion other hin)
  parent other hlt hout := hconfined.parent other hlt fun hin => hout (hregion other hin)
  children other hlt hout hne := by
    refine hconfined.children other hlt (fun hin => hout (hregion other hin)) ?_
    intro heq
    exact (hhost other heq).elim hout hne

theorem trans (hfirst : Confined before middle region host)
    (hsecond : Confined middle after region host) : Confined before after region host where
  isForest := hsecond.isForest
  size_le := hfirst.size_le.trans hsecond.size_le
  label other hlt hout := by
    rw [hsecond.label other (hlt.trans_le hfirst.size_le) hout, hfirst.label other hlt hout]
  parent other hlt hout := by
    rw [hsecond.parent other (hlt.trans_le hfirst.size_le) hout, hfirst.parent other hlt hout]
  children other hlt hout hne := by
    rw [hsecond.children other (hlt.trans_le hfirst.size_le) hout hne,
      hfirst.children other hlt hout hne]

/-- A node is connected as before if neither it nor a node above it is in the region. -/
theorem isConnected_eq (hconfined : Confined before after region host)
    (hforest : before.IsForest) {handle : Handle} (hlt : handle < before.cells.size)
    (hself : handle ∉ region) (habove : ∀ upper, before.Above handle upper → upper ∉ region) :
    after.isConnected handle = before.isConnected handle := by
  induction hcard : (before.ancestors handle).card using Nat.strong_induction_on
    generalizing handle with
  | _ count ih =>
      have hsame := hconfined.parent handle hlt hself
      cases hparent : before.parent handle with
      | none =>
          rw [hparent] at hsame
          rw [IsForest.isConnected_of_parent_eq_none hsame,
            IsForest.isConnected_of_parent_eq_none hparent,
            hconfined.label handle hlt hself]
      | some parent =>
          rw [hparent] at hsame
          rw [hconfined.isForest.isConnected_of_parent hsame,
            hforest.isConnected_of_parent hparent]
          refine ih _ ?_ (hforest.linked.lt_size_of_parent_eq hparent)
            (habove parent (Above.of_parent hparent)) ?_ rfl
          · rw [← hcard]
            exact hforest.card_ancestors_lt hparent
          · exact fun upper hupper => habove upper ((Above.of_parent hparent).trans hupper)

/-- A forest outside the region is held as before. -/
theorem holdsAll (hconfined : Confined before after region host) {forest : List Layout}
    (hholds : before.HoldsAll forest)
    (hlt : ∀ handle ∈ handlesAll forest, handle < before.cells.size)
    (hout : ∀ handle ∈ handlesAll forest, handle ∉ region)
    (hhost : ∀ handle ∈ handlesAll forest, host ≠ some handle) : after.HoldsAll forest :=
  hholds.congr fun handle hmem =>
    hconfined.children handle (hlt handle hmem) (hout handle hmem) (hhost handle hmem)

/-- A forest outside the region reads as before. -/
theorem readAll_eq (hconfined : Confined before after region host) {forest : List Layout}
    (hlt : ∀ handle ∈ handlesAll forest, handle < before.cells.size)
    (hout : ∀ handle ∈ handlesAll forest, handle ∉ region) :
    after.readAll forest = before.readAll forest :=
  readAll_congr fun handle hmem => hconfined.label handle (hlt handle hmem) (hout handle hmem)

/-- A forest outside the region has the same elements. -/
theorem elementsOf_eq (hconfined : Confined before after region host) {forest : List Layout}
    (hlt : ∀ handle ∈ handlesAll forest, handle < before.cells.size)
    (hout : ∀ handle ∈ handlesAll forest, handle ∉ region) :
    after.elementsOf forest = before.elementsOf forest := by
  unfold elementsOf
  refine List.filter_congr fun handle hmem => ?_
  rw [hconfined.label handle (hlt handle hmem) (hout handle hmem)]

end Confined

/-! ## Forests in place -/

/-- A forest that stands among the children of a host. -/
structure Placed (store : Store) (host : Handle) (front : List Handle) (forest : List Layout)
    (back : List Handle) : Prop where
  isForest : store.IsForest
  children : store.children host = front ++ forest.map Layout.handle ++ back
  holds : store.HoldsAll forest

namespace Placed

variable {store : Store} {host : Handle} {front back : List Handle} {forest : List Layout}

section

variable (hplaced : Placed store host front forest back)
include hplaced

theorem parent : ∀ tree ∈ forest, store.parent tree.handle = some host := by
  intro tree htree
  apply hplaced.isForest.linked.parent_of_mem
  rw [hplaced.children]
  exact List.mem_append_left _ (List.mem_append_right _ (List.mem_map_of_mem htree))

theorem lt_size : ∀ handle ∈ handlesAll forest, handle < store.cells.size :=
  hplaced.isForest.lt_size_of_mem_handlesAll hplaced.holds hplaced.parent

theorem host_not_mem : host ∉ handlesAll forest :=
  hplaced.isForest.parent_not_mem hplaced.holds hplaced.parent

theorem nodup : (handlesAll forest).Nodup := by
  refine hplaced.isForest.nodup_handlesAll hplaced.holds hplaced.parent ?_
  have hnodup := hplaced.isForest.linked.nodup_children host
  rw [hplaced.children, List.nodup_append, List.nodup_append] at hnodup
  exact hnodup.1.2.1

/-- Nothing above the host is part of the forest. -/
theorem above_not_mem {upper : Handle} (habove : store.Above host upper) :
    upper ∉ handlesAll forest := by
  intro hmem
  obtain ⟨tree, htree, hin⟩ := hplaced.isForest.linked.eq_or_above_of_mem hplaced.holds hmem
  have hup := Above.of_parent (hplaced.parent tree htree)
  rcases hin with rfl | hbelow
  · exact hplaced.isForest.acyclic host (habove.trans hup)
  · exact hplaced.isForest.acyclic host (habove.trans (hbelow.trans hup))

/-- A host with a forest below it is in the store. -/
theorem host_lt_size {tree : Layout} (htree : tree ∈ forest) : host < store.cells.size :=
  hplaced.isForest.linked.lt_size_of_parent_eq (hplaced.parent tree htree)

end

/-- The parts of a placed tree are placed below its top. -/
theorem parts {handle : Handle} {parts : List Layout}
    (hplaced : Placed store host front [.node handle parts] back) :
    Placed store handle [] parts [] where
  isForest := hplaced.isForest
  children := by
    have hholds := hplaced.holds
    rw [holdsAll_cons, holds_node] at hholds
    rw [hholds.1.1, List.nil_append, List.append_nil]
  holds := by
    have hholds := hplaced.holds
    rw [holdsAll_cons, holds_node] at hholds
    exact hholds.1.2

/-- The first tree of a placed forest, with the others standing after it. -/
theorem head {tree : Layout} {rest : List Layout}
    (hplaced : Placed store host front (tree :: rest) back) :
    Placed store host front [tree] (rest.map Layout.handle ++ back) where
  isForest := hplaced.isForest
  children := by
    rw [hplaced.children]
    simp
  holds := (holdsAll_cons _ _).mpr ⟨((holdsAll_cons _ _).mp hplaced.holds).1, trivial⟩

end Placed

/-- What is below a node is connected exactly when the node is. -/
theorem IsForest.isConnected_of_mem {store : Store} (hforest : store.IsForest)
    {forest : List Layout} (hholds : store.HoldsAll forest) {connected : Bool}
    (htops : ∀ tree ∈ forest, store.isConnected tree.handle = connected) :
    ∀ handle ∈ handlesAll forest, store.isConnected handle = connected := by
  induction forest using forest_induction with
  | nil => exact fun _ hmem => by cases hmem
  | cons top parts rest ihParts ihRest =>
      rw [holdsAll_cons, holds_node] at hholds
      have htop : store.isConnected top = connected := htops _ List.mem_cons_self
      intro handle hmem
      rw [handlesAll_cons, handles_node, List.mem_append, List.mem_cons] at hmem
      rcases hmem with (rfl | hparts) | hrest
      · exact htop
      · refine ihParts hholds.1.2 ?_ handle hparts
        intro tree htree
        rw [hforest.isConnected_of_parent (hforest.parent_of_parts hholds.1.1 tree htree), htop]
      · exact ihRest hholds.2 (fun tree htree => htops tree (List.mem_cons_of_mem _ htree))
          handle hrest

/-! ## Reworked forests -/

/-- Where a node that a pass has left comes from: the forest it worked on, or a new text. -/
def Originates (policy : Policy) (before after : Store) (forest : List Layout)
    (handle : Handle) : Prop :=
  (handle ∈ handlesAll forest ∧ policy.Keeps (before.label handle) (after.label handle)) ∨
    (before.cells.size ≤ handle ∧ (after.label handle).isElement = false)

/-- A forest below a host for which a pass has put another one in its place. -/
structure Reworked (policy : Policy) (before after : Store) (host : Handle)
    (front : List Handle) (forest results : List Layout) (back : List Handle) : Prop where
  confined : Confined before after (handlesAll forest) (some host)
  placed : Placed after host front results back
  origin : ∀ handle ∈ handlesAll results, Originates policy before after forest handle

namespace Reworked

variable {policy : Policy} {before middle after : Store} {host : Handle}
  {front back : List Handle} {forest results : List Layout}

theorem nil (hplaced : Placed before host front [] back) :
    Reworked policy before before host front [] [] back where
  confined := Confined.refl hplaced.isForest _ _
  placed := hplaced
  origin _ hmem := by cases hmem

/-- What is left of the first tree is out of the way when the rest is worked on. -/
theorem not_mem_rest {tree : Layout} {rest : List Layout}
    (hplaced : Placed before host front (tree :: rest) back)
    (hfirst : Reworked policy before middle host front [tree] results
      (rest.map Layout.handle ++ back)) :
    ∀ handle ∈ handlesAll results, handle ∉ handlesAll rest := by
  intro handle hmem hrest
  have hold : handle ∈ handlesAll (tree :: rest) := List.mem_append_right _ hrest
  rcases hfirst.origin handle hmem with ⟨htree, -⟩ | ⟨hnew, -⟩
  · have hnodup := hplaced.nodup
    rw [handlesAll_cons, List.nodup_append] at hnodup
    rw [handlesAll_cons, handlesAll_nil, List.append_nil] at htree
    exact hnodup.2.2 handle htree handle hrest rfl
  · exact Nat.lt_irrefl _ ((hplaced.lt_size handle hold).trans_le hnew)

/-- The rest of a forest is still in place when its first tree has been worked on. -/
theorem placed_rest {tree : Layout} {rest : List Layout}
    (hplaced : Placed before host front (tree :: rest) back)
    (hfirst : Reworked policy before middle host front [tree] results
      (rest.map Layout.handle ++ back)) :
    Placed middle host (front ++ results.map Layout.handle) rest back ∧
      middle.readAll rest = before.readAll rest ∧
      middle.elementsOf rest = before.elementsOf rest := by
  have hlt : ∀ handle ∈ handlesAll rest, handle < before.cells.size :=
    fun handle hmem => hplaced.lt_size handle (List.mem_append_right _ hmem)
  have hout : ∀ handle ∈ handlesAll rest, handle ∉ handlesAll [tree] := by
    intro handle hmem htree
    have hnodup := hplaced.nodup
    rw [handlesAll_cons, List.nodup_append] at hnodup
    rw [handlesAll_cons, handlesAll_nil, List.append_nil] at htree
    exact hnodup.2.2 handle htree handle hmem rfl
  have hhost : ∀ handle ∈ handlesAll rest, some host ≠ some handle := by
    intro handle hmem heq
    apply hplaced.host_not_mem
    rw [Option.some.inj heq]
    exact List.mem_append_right _ hmem
  have hholds := ((holdsAll_cons _ _).mp hplaced.holds).2
  refine ⟨⟨hfirst.confined.isForest, ?_, hfirst.confined.holdsAll hholds hlt hout hhost⟩,
    hfirst.confined.readAll_eq hlt hout, hfirst.confined.elementsOf_eq hlt hout⟩
  rw [hfirst.placed.children]
  simp

/-- A host is as connected as before when the forest below it has been worked on. -/
theorem isConnected_host (hplaced : Placed before host front forest back)
    (hreworked : Reworked policy before after host front forest results back)
    (hlt : host < before.cells.size) :
    after.isConnected host = before.isConnected host :=
  hreworked.confined.isConnected_eq hplaced.isForest hlt hplaced.host_not_mem
    fun _ => hplaced.above_not_mem

/-- Working on the first tree and then on the rest is working on the forest. -/
theorem append {tree : Layout} {rest others : List Layout}
    (hplaced : Placed before host front (tree :: rest) back)
    (hfirst : Reworked policy before middle host front [tree] results
      (rest.map Layout.handle ++ back))
    (hsecond : Reworked policy middle after host (front ++ results.map Layout.handle) rest
      others back) :
    Reworked policy before after host front (tree :: rest) (results ++ others) back ∧
      after.readAll results = middle.readAll results := by
  have hout := hfirst.not_mem_rest hplaced
  have hlt := hfirst.placed.lt_size
  have hhost : ∀ handle ∈ handlesAll results, some host ≠ some handle := by
    intro handle hmem heq
    apply hfirst.placed.host_not_mem
    rwa [Option.some.inj heq]
  refine ⟨⟨?_, ⟨hsecond.confined.isForest, ?_, ?_⟩, ?_⟩, hsecond.confined.readAll_eq hlt hout⟩
  · refine (hfirst.confined.widen ?_ fun _ heq => Or.inr heq).trans
      (hsecond.confined.widen ?_ fun _ heq => Or.inr heq)
    · intro other hmem
      rw [handlesAll_cons, handlesAll_nil, List.append_nil] at hmem
      exact List.mem_append_left _ hmem
    · exact fun other hmem => List.mem_append_right _ hmem
  · rw [hsecond.placed.children]
    simp
  · exact (holdsAll_append _ _).mpr
      ⟨hsecond.confined.holdsAll hfirst.placed.holds hlt hout hhost, hsecond.placed.holds⟩
  · intro handle hmem
    rw [handlesAll_append, List.mem_append] at hmem
    rcases hmem with hmem | hmem
    · have hlabel := hsecond.confined.label handle (hlt handle hmem) (hout handle hmem)
      unfold Originates
      rw [hlabel]
      refine (hfirst.origin handle hmem).imp_left fun hold => ⟨?_, hold.2⟩
      have htree := hold.1
      rw [handlesAll_cons, handlesAll_nil, List.append_nil] at htree
      exact List.mem_append_left _ htree
    · rcases hsecond.origin handle hmem with ⟨hin, hkeeps⟩ | ⟨hnew, htext⟩
      · refine Or.inl ⟨List.mem_append_right _ hin, ?_⟩
        rwa [hfirst.confined.label handle
          (hplaced.lt_size handle (List.mem_append_right _ hin)) ?_] at hkeeps
        have hnodup := hplaced.nodup
        rw [handlesAll_cons, List.nodup_append] at hnodup
        rw [handlesAll_cons, handlesAll_nil, List.append_nil]
        exact fun htree => hnodup.2.2 handle htree handle hin rfl
      · exact Or.inr ⟨hfirst.confined.size_le.trans hnew, htext⟩

/-- A step within the forest before a part of it is worked on below the host. -/
theorem of_step {inner : List Layout}
    (hstep : Confined before middle (handlesAll forest) (some host))
    (hinner : ∀ handle ∈ handlesAll inner, handle ∈ handlesAll forest)
    (hlabel : ∀ handle ∈ handlesAll results, middle.label handle = before.label handle)
    (hreworked : Reworked policy middle after host front inner results back) :
    Reworked policy before after host front forest results back where
  confined := hstep.trans (hreworked.confined.widen hinner fun _ heq => Or.inr heq)
  placed := hreworked.placed
  origin handle hmem := by
    rcases hreworked.origin handle hmem with ⟨hin, hkeeps⟩ | ⟨hnew, htext⟩
    · rw [hlabel handle hmem] at hkeeps
      exact Or.inl ⟨hinner handle hin, hkeeps⟩
    · exact Or.inr ⟨hstep.size_le.trans hnew, htext⟩

/-- A node that stays under a label it may keep, with its parts worked on below it. -/
theorem of_node {handle : Handle} {parts : List Layout}
    (hplaced : Placed before host front [.node handle parts] back)
    (hstep : Confined before middle [handle] none)
    (hkeeps : policy.Keeps (before.label handle) (middle.label handle))
    (hinner : Reworked policy middle after handle [] parts results []) :
    Reworked policy before after host front [.node handle parts] [.node handle results] back ∧
      after.read (.node handle results) = .node (middle.label handle) (after.readAll results) := by
  have hlt : handle < before.cells.size := hplaced.lt_size handle (by simp)
  have hparts := hplaced.parts
  have hltMiddle := hlt.trans_le hstep.size_le
  have hself : after.label handle = middle.label handle :=
    hinner.confined.label handle hltMiddle hparts.host_not_mem
  have hhost : host ≠ handle := fun heq =>
    hplaced.host_not_mem (by simp [heq])
  have hhostParts : host ∉ handlesAll parts := fun hmem =>
    hplaced.host_not_mem (by simp [hmem])
  have hhostLt : host < before.cells.size := hplaced.host_lt_size List.mem_cons_self
  refine ⟨⟨?_, ⟨hinner.confined.isForest, ?_, ?_⟩, ?_⟩, ?_⟩
  · refine (hstep.widen ?_ ?_).trans (hinner.confined.widen ?_ ?_)
    · intro other hmem
      simp [List.mem_singleton.mp hmem]
    · exact fun _ heq => by cases heq
    · intro other hmem
      simp [hmem]
    · rintro other heq
      cases heq
      simp
  · rw [hinner.confined.children host (hhostLt.trans_le hstep.size_le) hhostParts
      (fun heq => hhost (Option.some.inj heq).symm),
      hstep.children host hhostLt (by simpa using hhost) (by simp), hplaced.children]
    rfl
  · refine (holdsAll_cons _ _).mpr ⟨(holds_node _ _).mpr ⟨?_, hinner.placed.holds⟩, trivial⟩
    rw [hinner.placed.children, List.nil_append, List.append_nil]
  · intro other hmem
    rw [handlesAll_cons, handles_node, handlesAll_nil, List.append_nil, List.mem_cons] at hmem
    rcases hmem with rfl | hmem
    · refine Or.inl ⟨by simp, ?_⟩
      rwa [hself]
    · rcases hinner.origin other hmem with ⟨hin, hkeeps⟩ | ⟨hnew, htext⟩
      · refine Or.inl ⟨by simp [hin], ?_⟩
        rwa [hstep.label other (hparts.lt_size other hin) ?_] at hkeeps
        intro heq
        rw [List.mem_singleton.mp heq] at hin
        exact hparts.host_not_mem hin
      · exact Or.inr ⟨hstep.size_le.trans hnew, htext⟩
  · rw [read, hself]

end Reworked

end Winnow.Store
