import Winnow.Proofs.Enforcement.Steps

/-!
# A pass is the recursion

On a forest below a connected host a pass over the listed elements agrees with
the recursion over the trees: it fails with the same fault, or it leaves the
trees of the recursion in place and has used the same budgets. The induction
runs over the layout of the forest. It carries, for each tree, the agreement on
what is below its top, since that is what a loose document needs.
-/

namespace Winnow.Store

open Layout

/-- What a pass leaves below a host: the given trees, in place of the forest. -/
def Leaves (policy : Policy) (store : Store) (host : Handle) (front : List Handle)
    (forest : List Layout) (back : List Handle) (after : Store) (trees : List Tree) : Prop :=
  ∃ results, Reworked policy store after host front forest results back ∧
    after.readAll results = trees

/-- Wherever the forest stands below a connected host, the pass agrees with the recursion. -/
def Simulates (policy : Policy) (forest : List Layout) : Prop :=
  ∀ ⦃store : Store⦄ ⦃tally : Tally⦄ ⦃host : Handle⦄ ⦃front back : List Handle⦄,
    Placed store host front forest back → store.isConnected host = true →
    tally.Sound policy →
    Agree policy (Leaves policy store host front forest back)
      (visitAll policy (store.elementsOf forest) store tally)
      (Tree.trimLooseAll policy tally.usage (store.readAll forest))

/-- The same of a single tree. -/
def SimulatesTree (policy : Policy) (tree : Layout) : Prop :=
  ∀ ⦃store : Store⦄ ⦃tally : Tally⦄ ⦃host : Handle⦄ ⦃front back : List Handle⦄,
    Placed store host front [tree] back → store.isConnected host = true →
    tally.Sound policy →
    Agree policy (Leaves policy store host front [tree] back)
      (visitAll policy (store.elementsOf [tree]) store tally)
      (Tree.trimLoose policy tally.usage (store.read tree))

section Elements

variable {store : Store}

theorem mem_handlesAll_of_mem_elementsOf {forest : List Layout} {handle : Handle}
    (hmem : handle ∈ store.elementsOf forest) : handle ∈ handlesAll forest :=
  (List.mem_filter.mp hmem).1

theorem map_label_readAll (parts : List Layout) :
    (store.readAll parts).map Tree.label = (parts.map Layout.handle).map store.label := by
  induction parts with
  | nil => rfl
  | cons tree rest ih =>
      obtain ⟨handle, below⟩ := tree
      rw [readAll, List.map_cons, List.map_cons, List.map_cons, ih]
      rfl

/-- The text of a node is that of the tree below it. -/
theorem directText_eq {handle : Handle} {parts : List Layout}
    (hchildren : store.children handle = parts.map Layout.handle) (label : Label) :
    store.directText handle = (Tree.node label (store.readAll parts)).directText := by
  have hstore : ((store.children handle).filter fun child => (store.label child).isText).map
      (fun child => (store.label child).text) =
      (((store.children handle).map store.label).filter Label.isText).map Label.text := by
    rw [List.filter_map, List.map_map]
    rfl
  have htree : ((store.readAll parts).filter fun tree => tree.label.isText).map
      (fun tree => tree.label.text) =
      (((store.readAll parts).map Tree.label).filter Label.isText).map Label.text := by
    rw [List.filter_map, List.map_map]
    rfl
  unfold directText Tree.directText
  rw [hstore, Tree.children, htree, map_label_readAll, hchildren]

end Elements

variable {policy : Policy}

theorem Simulates.nil : Simulates policy [] := by
  intro store tally host front back hplaced _ hsound
  rw [show store.elementsOf [] = [] from rfl, visitAll, readAll, Tree.trimLooseAll]
  exact .done hsound ⟨[], Reworked.nil hplaced, rfl⟩

/-- Agreement on the first tree and on the rest is agreement on the forest. -/
theorem SimulatesTree.cons {tree : Layout} {rest : List Layout}
    (htree : SimulatesTree policy tree) (hrest : Simulates policy rest) :
    Simulates policy (tree :: rest) := by
  intro store tally host front back hplaced hconnected hsound
  rw [elementsOf_cons, visitAll_append, readAll, Tree.trimLooseAll]
  refine (htree hplaced.head hconnected hsound).bind ?_
  rintro middle reached trees hreached ⟨results, hfirst, rfl⟩
  obtain ⟨hplacedRest, hread, helements⟩ := hfirst.placed_rest hplaced
  have hhost := hfirst.isConnected_host hplaced.head (hplaced.host_lt_size List.mem_cons_self)
  dsimp only
  rw [← hread, ← helements]
  refine (hrest hplacedRest (hhost.trans hconnected) hreached).map ?_
  rintro after usage trees ⟨others, hsecond, rfl⟩
  obtain ⟨hwhole, hsame⟩ := hfirst.append hplaced hsecond
  refine ⟨_, rfl, results ++ others, hwhole, ?_⟩
  rw [readAll_append, hsame]

/-! ## Loose documents -/

/-- On content that has been cut off the pass visits what is below documents. -/
theorem Freed.agree_countLoose {store : Store} {tally : Tally} {parts : List Layout}
    (hfreed : Freed store parts) (hinner : ∀ tree ∈ parts, Simulates policy tree.parts)
    (hsound : tally.Sound policy) :
    Agree policy (fun after (_ : Unit) => Confined store after (handlesAll parts) none)
      (visitAll policy (store.elementsOf parts) store tally)
      (Tree.countLoose policy tally.usage (store.readAll parts) >>= fun usage =>
        .ok ((), usage)) := by
  induction parts generalizing store tally with
  | nil =>
      rw [show store.elementsOf [] = [] from rfl, visitAll, readAll, Tree.countLoose]
      exact .done hsound (Confined.refl hfreed.isForest _ _)
  | cons tree rest ih =>
      obtain ⟨top, parts⟩ := tree
      have hinnerRest : ∀ tree ∈ rest, Simulates policy tree.parts :=
        fun tree htree => hinner tree (List.mem_cons_of_mem _ htree)
      have hconnected : store.isConnected top = (store.label top).isDocument :=
        hfreed.isConnected_eq
      have hafterRest : ∀ {middle after : Store},
          Confined store middle (handlesAll [.node top parts]) none →
          Confined middle after (handlesAll rest) none →
          Confined store after (handlesAll (.node top parts :: rest)) none := by
        intro middle after hfirst hsecond
        refine (hfirst.widen ?_ fun _ heq => Or.inr heq).trans
          (hsecond.widen ?_ fun _ heq => Or.inr heq)
        · intro other hother
          rw [handlesAll_cons, handlesAll_nil, List.append_nil] at hother
          exact List.mem_append_left _ hother
        · exact fun other hother => List.mem_append_right _ hother
      rw [elementsOf_cons, visitAll_append, readAll, Tree.countLoose, read, Tree.label]
      cases hdocument : (store.label top).isDocument with
      | true =>
          have hother := Label.isElement_of_isDocument hdocument
          rw [if_pos rfl, elementsOf_node_of_not_isElement hother, Tree.trimLoose, hother]
          simp only [Bool.not_false, if_true, bind_assoc]
          have hparts : Simulates policy parts := hinner _ List.mem_cons_self
          refine (hparts hfreed.placed (hconnected.trans hdocument) hsound).bind ?_
          rintro middle reached trees hreached ⟨results, hworked, -⟩
          have hconfined : Confined store middle (handlesAll [.node top parts]) none := by
            refine hworked.confined.widen ?_ ?_
            · intro other hmem
              simp [hmem]
            · rintro other heq
              cases heq
              simp
          obtain ⟨hfreedRest, hread, helements⟩ := hfreed.tail_of_confined hconfined
          rw [← hread, ← helements]
          exact (ih hfreedRest hinnerRest hreached).mono fun _ _ => hafterRest hconfined
      | false =>
          have hskipped : visitAll policy (store.elementsOf [.node top parts]) store tally =
              .ok (store, tally) := by
            have htree : store.HoldsAll [.node top parts] :=
              (holdsAll_cons _ _).mpr ⟨((holdsAll_cons _ _).mp hfreed.holds).1, trivial⟩
            refine visitAll_disconnected (fun other hother => ?_) tally
            refine hfreed.isForest.isConnected_of_mem htree (fun tree hmem => ?_) other
              (mem_handlesAll_of_mem_elementsOf hother)
            rw [List.mem_singleton.mp hmem]
            exact hconnected.trans hdocument
          rw [hskipped]
          exact (ih hfreed.tail hinnerRest hsound).mono fun _ _ =>
            hafterRest (Confined.refl hfreed.isForest _ _)

/-! ## One tree -/

section Tree

variable {store middle : Store} {tally : Tally} {host handle : Handle}
  {front back : List Handle} {parts : List Layout}

/-- After a change of the top alone its parts are where they were. -/
theorem Confined.of_top (hplaced : Placed store host front [.node handle parts] back)
    (hstep : Confined store middle [handle] none) :
    middle.readAll parts = store.readAll parts ∧
      middle.elementsOf parts = store.elementsOf parts := by
  have hout : ∀ other ∈ handlesAll parts, other ∉ [handle] := by
    intro other hmem heq
    rw [List.mem_singleton.mp heq] at hmem
    exact hplaced.parts.host_not_mem hmem
  exact ⟨hstep.readAll_eq hplaced.parts.lt_size hout,
    hstep.elementsOf_eq hplaced.parts.lt_size hout⟩

/-- A node that stays with its parts worked on. -/
theorem Simulates.agree_node (hparts : Simulates policy parts)
    (hplaced : Placed store host front [.node handle parts] back)
    (hconnected : store.isConnected host = true) (hsound : tally.Sound policy)
    (hmiddle : Placed middle host front [.node handle parts] back)
    (hstep : Confined store middle [handle] none)
    (hkeeps : policy.Keeps (store.label handle) (middle.label handle)) :
    Agree policy (Leaves policy store host front [.node handle parts] back)
      (visitAll policy (store.elementsOf parts) middle tally)
      (Tree.trimLooseAll policy tally.usage (store.readAll parts) >>= fun reached =>
        .ok ([.node (middle.label handle) reached.1], reached.2)) := by
  obtain ⟨hread, helements⟩ := hstep.of_top hplaced
  have hhost : middle.isConnected host = store.isConnected host := by
    refine hstep.isConnected_eq hplaced.isForest (hplaced.host_lt_size List.mem_cons_self) ?_ ?_
    · intro hmem
      exact hplaced.host_not_mem (by simp [List.mem_singleton.mp hmem])
    · intro upper hupper hmem
      exact hplaced.above_not_mem hupper (by simp [List.mem_singleton.mp hmem])
  have hparent : middle.parent handle = some host := hmiddle.parent _ List.mem_cons_self
  have htop : middle.isConnected handle = true := by
    rw [hmiddle.isForest.isConnected_of_parent hparent, hhost, hconnected]
  rw [← hread, ← helements]
  refine (hparts hmiddle.parts htop hsound).map ?_
  rintro after usage trees ⟨results, hworked, rfl⟩
  obtain ⟨hnode, hnodeRead⟩ := Reworked.of_node hplaced hstep hkeeps hworked
  refine ⟨_, rfl, [.node handle results], hnode, ?_⟩
  rw [readAll, readAll, hnodeRead]

/-- An element that goes with everything below it. -/
theorem Placed.agree_remove (hsound : tally.Sound policy)
    (hmiddle : Placed middle host front [.node handle parts] back)
    (hstep : Confined store middle [handle] none)
    (helement : (middle.label handle).isElement = true) :
    Agree policy (Leaves policy store host front [.node handle parts] back)
      (visitAll policy (store.elementsOf parts) (middle.detach handle) tally)
      (.ok ([], tally.usage)) := by
  rw [hmiddle.visitAll_detach helement tally fun _ => mem_handlesAll_of_mem_elementsOf]
  refine .done hsound ⟨[], Reworked.of_step ?_ (fun _ hmem => hmem) (fun _ hmem => by cases hmem)
    hmiddle.reworked_detach, rfl⟩
  refine hstep.widen ?_ fun _ heq => by cases heq
  intro other hmem
  simp [List.mem_singleton.mp hmem]

/-- An element in whose place its content comes. -/
theorem Simulates.agree_unwrap (hparts : Simulates policy parts)
    (hplaced : Placed store host front [.node handle parts] back)
    (hconnected : store.isConnected host = true) (hsound : tally.Sound policy) :
    Agree policy (Leaves policy store host front [.node handle parts] back)
      (visitAll policy (store.elementsOf parts) (store.unwrap handle).1 tally)
      (Tree.trimLooseAll policy tally.usage (store.readAll parts)) := by
  obtain ⟨hunwrapped, hstep, hlabel⟩ := hplaced.exists_unwrap
  generalize (store.unwrap handle).1 = middle at hunwrapped hstep hlabel ⊢
  have hhost : middle.isConnected host = store.isConnected host :=
    hstep.isConnected_eq hplaced.isForest (hplaced.host_lt_size List.mem_cons_self)
      hplaced.host_not_mem fun _ => hplaced.above_not_mem
  have hread : middle.readAll parts = store.readAll parts := readAll_congr fun other _ => hlabel other
  have helements : middle.elementsOf parts = store.elementsOf parts := by
    unfold elementsOf
    exact List.filter_congr fun other _ => by rw [hlabel]
  rw [← hread, ← helements]
  refine (hparts hunwrapped (hhost.trans hconnected) hsound).mono ?_
  rintro after trees ⟨results, hworked, hresult⟩
  refine ⟨results, Reworked.of_step hstep ?_ (fun other _ => hlabel other) hworked, hresult⟩
  intro other hmem
  simp [hmem]

/-- The text that stays in a style element is not empty. -/
theorem ne_empty_of_filterStyleText {content text : String}
    (htext : policy.filterStyleText content = .ok (some text)) : text ≠ "" := by
  rintro rfl
  unfold Policy.filterStyleText at htext
  cases hfiltered : Css.filterSheet policy.styleAllow content.toList with
  | error fault => rw [hfiltered] at htext; cases htext
  | ok filtered =>
      rw [hfiltered] at htext
      simp only [bind, Except.bind, pure, Except.pure] at htext
      split at htext
      next => cases htext
      next hnot =>
        simp only [Except.ok.injEq, Option.some.injEq, String.ofList_eq_empty_iff] at htext
        rw [htext] at hnot
        exact hnot rfl

/-- A style element whose text is filtered: the text stays alone, or the element goes. -/
theorem Placed.agree_style (hmiddle : Placed middle host front [.node handle parts] back)
    (hplaced : Placed store host front [.node handle parts] back) (hsound : tally.Sound policy)
    (hstep : Confined store middle [handle] none)
    (hkeeps : policy.Keeps (store.label handle) (middle.label handle))
    (helement : (middle.label handle).isElement = true)
    (hinner : ∀ tree ∈ parts, Simulates policy tree.parts) :
    Agree policy (Leaves policy store host front [.node handle parts] back)
      (middle.filterStyle policy handle >>= fun after =>
        visitAll policy (store.elementsOf parts) after tally)
      (policy.filterStyleText
          (Tree.node (middle.label handle) (store.readAll parts)).directText >>= fun
        | some text => Tree.countLoose policy tally.usage (store.readAll parts) >>= fun usage =>
          .ok ([.node (middle.label handle) [.ofText text]], usage)
        | none => .ok ([], tally.usage)) := by
  obtain ⟨hread, helements⟩ := hstep.of_top hplaced
  have hinside : middle.children handle = parts.map Layout.handle := by
    rw [hmiddle.parts.children, List.nil_append, List.append_nil]
  unfold filterStyle
  rw [directText_eq hinside (middle.label handle), hread]
  cases hfiltered : policy.filterStyleText
      (Tree.node (middle.label handle) (store.readAll parts)).directText with
  | error fault => exact .fault fault
  | ok filtered =>
      cases filtered with
      | none => exact hmiddle.agree_remove hsound hstep helement
      | some text =>
          have hlt : handle < middle.cells.size := hmiddle.lt_size handle (by simp)
          have hsheeted := hmiddle.parts.sheeted hlt (ne_empty_of_filterStyleText hfiltered)
          change Agree policy _ (visitAll policy (store.elementsOf parts)
            (middle.setText handle text) tally) _
          generalize middle.setText handle text = sheeted at hsheeted ⊢
          have hlabels : sheeted.readAll parts = store.readAll parts := by
            rw [← hread]
            exact readAll_congr hsheeted.label
          have hvisited : sheeted.elementsOf parts = store.elementsOf parts := by
            rw [← helements]
            exact List.filter_congr fun other hmem => by rw [hsheeted.label other hmem]
          have hform : (Tree.countLoose policy tally.usage (store.readAll parts) >>= fun usage =>
              Except.ok ([Tree.node (middle.label handle) [.ofText text]], usage)) =
              (Tree.countLoose policy tally.usage (store.readAll parts) >>= fun usage =>
                .ok ((), usage)) >>= fun reached =>
                  .ok ([.node (middle.label handle) [.ofText text]], reached.2) := by
            rw [bind_assoc]
            rfl
          change Agree policy _ _ (Tree.countLoose policy tally.usage (store.readAll parts) >>=
            fun usage => .ok ([Tree.node (middle.label handle) [Tree.ofText text]], usage))
          rw [hform, ← hlabels, ← hvisited]
          refine (hsheeted.freed.agree_countLoose hinner hsound).map ?_
          intro after usage _ hloose
          exact ⟨_, rfl, _, Reworked.of_sheet hplaced hstep hkeeps hsheeted hloose⟩

/-- A visit of an element and what follows below it agree with the recursion. -/
theorem Simulates.agree_element (hparts : Simulates policy parts)
    (hinner : ∀ tree ∈ parts, Simulates policy tree.parts)
    (hplaced : Placed store host front [.node handle parts] back)
    (hconnected : store.isConnected host = true) (hsound : tally.Sound policy)
    (helement : (store.label handle).isElement = true) :
    Agree policy (Leaves policy store host front [.node handle parts] back)
      (store.visitConnected policy tally handle >>= fun reached =>
        visitAll policy (store.elementsOf parts) reached.1 reached.2)
      (Tree.trimLoose policy tally.usage (store.read (.node handle parts))) := by
  rw [visitConnected_eq store hsound, read, Tree.trimLoose, helement]
  simp only [Bool.not_true, Bool.false_eq_true, if_false]
  cases htreatment : policy.treatment tally.usage (Text.lower (store.label handle).tag) with
  | remove =>
      exact hplaced.agree_remove hsound (Confined.refl hplaced.isForest _ _) helement
  | unwrap => exact hparts.agree_unwrap hplaced hconnected hsound
  | keep counted =>
      dsimp only
      unfold keepElement
      cases hattributes : policy.filterAttributes (Text.lower (store.label handle).tag)
          (store.label handle).attributes with
      | error fault => exact .fault fault
      | ok attributes =>
          have hlt : handle < store.cells.size := hplaced.lt_size handle (by simp)
          have hlabel := label_setAttributes_self store handle attributes hlt
          have hstep := hplaced.isForest.confined_setAttributes handle attributes
          have hmiddle := hplaced.setAttributes handle attributes
          have hkept := hsound.keep htreatment
          obtain ⟨hallowed, hbudget⟩ := Policy.of_treatment_eq_keep htreatment
          have hkeeps : policy.Keeps (store.label handle)
              ((store.setAttributes handle attributes).label handle) := by
            rw [hlabel]
            refine .element _ attributes helement hallowed ?_ hattributes
            exact hbudget.imp (fun hfree => hfree.2) fun hcounted => Nat.zero_lt_of_lt hcounted.2.2
          by_cases hstyle : Text.lower (store.label handle).tag = "style"
          · have hagree := hmiddle.agree_style hplaced hkept hstep hkeeps
              (by rw [hlabel]; exact helement) hinner
            rw [hlabel, Tally.usage_keep] at hagree
            simp only [if_pos hstyle, Fault.ok_bind, bind_assoc]
            exact hagree
          · have hagree := hparts.agree_node hplaced hconnected hkept hmiddle hstep hkeeps
            rw [hlabel, Tally.usage_keep] at hagree
            simp only [if_neg hstyle]
            exact hagree

end Tree

theorem Simulates.tree {handle : Handle} {parts : List Layout} (hparts : Simulates policy parts)
    (hinner : ∀ tree ∈ parts, Simulates policy tree.parts) :
    SimulatesTree policy (.node handle parts) := by
  intro store tally host front back hplaced hconnected hsound
  cases helement : (store.label handle).isElement with
  | true =>
      have htop : store.isConnected handle = true := by
        have hparent : store.parent handle = some host := hplaced.parent _ List.mem_cons_self
        rw [hplaced.isForest.isConnected_of_parent hparent, hconnected]
      rw [elementsOf_node_of_isElement helement, visitAll_cons_connected htop]
      exact hparts.agree_element hinner hplaced hconnected hsound helement
  | false =>
      rw [elementsOf_node_of_not_isElement helement, read, Tree.trimLoose, helement]
      exact hparts.agree_node hplaced hconnected hsound hplaced
        (Confined.refl hplaced.isForest _ _) (.other _ helement)

/-- On every forest below a connected host the pass agrees with the recursion. -/
theorem simulates (policy : Policy) (forest : List Layout) : Simulates policy forest := by
  have hboth : Simulates policy forest ∧ ∀ tree ∈ forest, Simulates policy tree.parts := by
    induction forest using forest_induction with
    | nil => exact ⟨Simulates.nil, fun _ hmem => by cases hmem⟩
    | cons handle parts rest ihParts ihRest =>
        refine ⟨(ihParts.1.tree ihParts.2).cons ihRest.1, ?_⟩
        intro tree hmem
        rcases List.mem_cons.mp hmem with rfl | hrest
        · exact ihParts.1
        · exact ihRest.2 tree hrest
  exact hboth.1

/-! ## A document -/

/-- What a pass over a document leaves, if it does not fail. -/
structure Enforced (policy : Policy) (store after : Store) (root : Handle)
    (parts results : List Layout) : Prop where
  placed : Placed store root [] parts []
  reworked : Reworked policy store after root [] parts results []
  label : after.label root = store.label root
  lt_size : root < store.cells.size

/-- A pass over a document agrees with the recursion over its tree. -/
theorem IsForest.agree_enforce {store : Store} (hforest : store.IsForest) {root : Handle}
    (htop : store.parent root = none) (hdocument : (store.label root).tag = "#document")
    (policy : Policy) :
    Agree policy (fun after trees => ∃ parts results,
        Enforced policy store after root parts results ∧
          trees = [.node (after.label root) (after.readAll results)])
      (store.enforce policy root) (Tree.trimLoose policy {} (store.toTree root)) := by
  obtain ⟨parts, hchildren, hholds⟩ := hforest.exists_parts root
  have hlt : root < store.cells.size := by
    by_contra hge
    rw [label, cell?_eq_none store root (Nat.le_of_not_lt hge)] at hdocument
    exact absurd hdocument (by decide)
  have hplaced : Placed store root [] parts [] := ⟨hforest, by simpa using hchildren, hholds⟩
  have hother : (store.label root).isElement = false :=
    Label.isElement_of_isDocument (by rw [Label.isDocument, hdocument]; rfl)
  have hconnected : store.isConnected root = true := by
    rw [isConnected_of_parent_eq_none htop, hdocument]
    rfl
  rw [hforest.toTree_eq hchildren hholds hlt, Tree.trimLoose, hother, enforce,
    hforest.elements_eq hchildren hholds hlt, elementsOf_node_of_not_isElement hother]
  refine (simulates policy parts hplaced hconnected (Tally.sound_start policy)).map ?_
  rintro after usage trees ⟨results, hworked, rfl⟩
  have hlabel := hworked.confined.label root hlt hplaced.host_not_mem
  exact ⟨_, rfl, parts, results, ⟨hplaced, hworked, hlabel, hlt⟩, by rw [hlabel]⟩

end Winnow.Store
