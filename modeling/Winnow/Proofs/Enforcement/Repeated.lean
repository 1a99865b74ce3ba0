import Winnow.Proofs.Enforcement.Guarantee

/-!
# A second pass

Without style rules a pass over its own result changes nothing and counts the
same. No style element is left then, and an attribute that has been kept once is
kept again. So what the first pass has left is, element by element, what the
second one keeps: it meets the same names in the same order, and its counters go
through the same values, although the elements that the first pass took out are
no longer there.
-/

namespace Winnow

namespace Policy

variable {policy : Policy}

/-! ## Attributes that are kept again -/

/-- Without style rules every style attribute is dropped. -/
theorem judgeValue_style (hstyles : policy.styleAllow = []) (tag value : String) :
    policy.judgeValue tag "style" value = .ok .drop := by
  have hnothing : Css.inlineProperties policy.styleAllow tag = [] := by
    rw [hstyles]
    rfl
  unfold judgeValue Css.filterInline
  rw [if_pos rfl, hnothing]
  rfl

/-- Without style rules an attribute is dropped or kept as it is. -/
theorem judge_ne_change (hstyles : policy.styleAllow = []) {tag name : String}
    {value : Option String} {verdict : Verdict} (hok : policy.judge tag name value = .ok verdict)
    (filtered : String) : verdict ≠ .change filtered := by
  rintro rfl
  obtain ⟨-, -, hvalue⟩ := of_judge_ne_drop hok (by simp)
  have hstyle := (of_judgeValue_eq_change hvalue).1
  rw [hstyle, judgeValue_style hstyles] at hvalue
  cases hvalue

/-- The attributes that have been kept are all kept again. -/
theorem filterAttributes_of_filterAttributes (hstyles : policy.styleAllow = []) {tag : String}
    {attributes kept : Attributes} (hok : policy.filterAttributes tag attributes = .ok kept) :
    policy.filterAttributes tag kept = .ok kept := by
  induction attributes generalizing kept with
  | nil =>
      rw [filterAttributes] at hok
      cases hok
      rfl
  | cons first rest ih =>
      obtain ⟨name, value⟩ := first
      obtain ⟨verdict, others, hjudge, hothers, rfl⟩ := exists_of_filterAttributes_cons hok
      have hagain := ih hothers
      cases verdict with
      | drop => exact hagain
      | keep =>
          dsimp only
          rw [filterAttributes, hjudge, Fault.ok_bind, hagain]
          rfl
      | change filtered => exact absurd rfl (judge_ne_change hstyles hjudge filtered)

theorem forbids_style (hstyles : policy.styleAllow = []) : policy.forbids "style" = true := by
  simp [forbids, allowsStyleElement, hstyles]

/-! ## Elements that are kept again -/

/-- Elements met in this order are all kept as they are, and counting them leads from one
usage to another. -/
inductive Stays (policy : Policy) : Usage → List Label → Usage → Prop
  | nil (usage : Usage) : Stays policy usage [] usage
  | cons {usage after : Usage} {label : Label} {rest : List Label} {counted : Bool}
      (htreatment : policy.treatment usage (Text.lower label.tag) = .keep counted)
      (hstyle : Text.lower label.tag ≠ "style")
      (hattributes : policy.filterAttributes (Text.lower label.tag) label.attributes =
        .ok label.attributes)
      (hrest : Stays policy (usage.keep (Text.lower label.tag) counted) rest after) :
      Stays policy usage (label :: rest) after

theorem Stays.append {usage middle after : Usage} {front back : List Label}
    (hfront : Stays policy usage front middle) (hback : Stays policy middle back after) :
    Stays policy usage (front ++ back) after := by
  induction hfront with
  | nil => exact hback
  | cons htreatment hstyle hattributes _ ih =>
      exact .cons htreatment hstyle hattributes (ih hback)

end Policy

namespace Tree

/-- The labels of the elements of a forest in document order. -/
def elementLabels (forest : List Tree) : List Label :=
  ((preorderAll forest).map Tree.label).filter Label.isElement

theorem elementLabels_append (front back : List Tree) :
    elementLabels (front ++ back) = elementLabels front ++ elementLabels back := by
  unfold elementLabels
  rw [preorderAll_append, List.map_append, List.filter_append]

theorem elementLabels_node (label : Label) (children : List Tree) :
    elementLabels [.node label children] =
      if label.isElement then label :: elementLabels children else elementLabels children := by
  unfold elementLabels
  rw [preorderAll, preorderAll, List.append_nil, preorder, List.map_cons, List.filter_cons]
  rfl

variable {policy : Policy}

/-- What the recursion leaves stays, and counting it uses the same budgets. -/
theorem stays_of_trimLooseAll (hstyles : policy.styleAllow = []) (forest : List Tree) :
    ∀ {usage after : Usage} {trees : List Tree},
      trimLooseAll policy usage forest = .ok (trees, after) →
        policy.Stays usage (elementLabels trees) after := by
  induction forest using forest_induction with
  | nil =>
      intro usage after trees hok
      rw [trimLooseAll] at hok
      cases hok
      exact .nil usage
  | cons label children rest ihChildren ihRest =>
      intro usage after trees hok
      obtain ⟨front, middle, back, hfirst, hsecond, rfl⟩ := exists_of_trimLooseAll_cons hok
      rw [elementLabels_append]
      refine Policy.Stays.append ?_ (ihRest hsecond)
      -- Style elements are forbidden, so a kept element is none.
      have hnoSheet : ∀ {counted : Bool},
          policy.treatment usage (Text.lower label.tag) = .keep counted →
            Text.lower label.tag ≠ "style" := by
        intro counted htreatment hstyle
        have hallowed := (Policy.of_treatment_eq_keep htreatment).1
        rw [hstyle, Policy.forbids_style hstyles] at hallowed
        cases hallowed
      cases trimmed_of_trimLoose hfirst with
      | other hother hbelow =>
          rw [elementLabels_node, if_neg (by simp [hother])]
          exact ihChildren hbelow
      | remove helement htreatment => exact .nil usage
      | unwrap helement htreatment hbelow => exact ihChildren hbelow
      | keep helement htreatment hattributes hstyle hbelow =>
          rw [elementLabels_node, if_pos (by exact helement)]
          exact .cons htreatment hstyle
            (Policy.filterAttributes_of_filterAttributes hstyles hattributes) (ihChildren hbelow)
      | sheet helement htreatment hattributes hstyle htext hloose =>
          exact absurd hstyle (hnoSheet htreatment)
      | blank helement htreatment hattributes hstyle htext =>
          exact absurd hstyle (hnoSheet htreatment)

end Tree

/-- Sound tallies that have counted the same are the same. -/
theorem Tally.Sound.eq_of_usage {policy : Policy} {first second : Tally}
    (hfirst : first.Sound policy) (hsecond : second.Sound policy)
    (husage : first.usage = second.usage) : first = second := by
  have hfirstNote := hfirst.saturated_eq
  have hsecondNote := hsecond.saturated_eq
  obtain ⟨used, total, saturated⟩ := first
  obtain ⟨usedAgain, totalAgain, saturatedAgain⟩ := second
  cases husage
  dsimp only at hfirstNote hsecondNote
  rw [hfirstNote, hsecondNote]

namespace Store

variable {policy : Policy} {store after : Store} {root : Handle} {tally : Tally}

open Layout

/-- A pass over connected elements that stay changes nothing but its tally. -/
theorem exists_visitAll_of_stays {handles : List Handle} {reached : Usage}
    (hstays : policy.Stays tally.usage (handles.map store.label) reached)
    (hconnected : ∀ handle ∈ handles, store.isConnected handle = true)
    (hsound : tally.Sound policy) :
    ∃ last, visitAll policy handles store tally = .ok (store, last) ∧ last.Sound policy ∧
      last.usage = reached := by
  induction handles generalizing tally with
  | nil =>
      cases hstays
      exact ⟨tally, rfl, hsound, rfl⟩
  | cons handle rest ih =>
      rw [List.map_cons] at hstays
      cases hstays with
      | @cons _ _ _ _ counted htreatment hstyle hattributes hrest =>
          have hkept := hsound.keep htreatment
          have hnext : policy.Stays
              (tally.keep policy (Text.lower (store.label handle).tag) counted).usage
              (rest.map store.label) reached := by
            rw [Tally.usage_keep]
            exact hrest
          obtain ⟨last, hlast, hlastSound, hreached⟩ := ih hnext
            (fun other hother => hconnected other (List.mem_cons_of_mem _ hother)) hkept
          refine ⟨last, ?_, hlastSound, hreached⟩
          rw [visitAll_cons_connected (hconnected handle List.mem_cons_self),
            visitConnected_eq store hsound, htreatment]
          dsimp only
          rw [keepElement, hattributes, Fault.ok_bind, setAttributes_self, if_neg hstyle]
          exact hlast

namespace Enforced

variable {parts results : List Layout} (henforced : Enforced policy store after root parts results)
include henforced

/-- The elements that a pass has left are those of the trees that it has left. -/
theorem map_label_elements (hdocument : (store.label root).tag = "#document") :
    (after.elements root).map after.label = Tree.elementLabels (after.readAll results) := by
  rw [henforced.elements_after,
    elementsOf_node_of_not_isElement (henforced.not_isElement hdocument), elementsOf,
    Tree.elementLabels, map_label_preorderAll, List.filter_map]
  rfl

/-- All that a pass over a document has left is connected to it. -/
theorem isConnected (htop : store.parent root = none)
    (hdocument : (store.label root).tag = "#document") :
    ∀ handle ∈ after.elements root, after.isConnected handle = true := by
  have hplaced := henforced.reworked.placed
  have hparent : after.parent root = none := by
    rw [henforced.reworked.confined.parent root henforced.lt_size henforced.placed.host_not_mem,
      htop]
  have hroot : after.isConnected root = true := by
    rw [IsForest.isConnected_of_parent_eq_none hparent, henforced.label, hdocument]
    rfl
  rw [henforced.elements_after,
    elementsOf_node_of_not_isElement (henforced.not_isElement hdocument)]
  intro handle hmem
  refine hplaced.isForest.isConnected_of_mem hplaced.holds (fun tree htree => ?_) handle
    (mem_handlesAll_of_mem_elementsOf hmem)
  rw [hplaced.isForest.isConnected_of_parent (hplaced.parent tree htree), hroot]

end Enforced

/-- Without style rules a second pass with the same policy changes no node and reports the same
tally as the first. Where the first one fails there is no second. -/
theorem enforce_enforce (hforest : store.IsForest) (htop : store.parent root = none)
    (hdocument : (store.label root).tag = "#document") (hstyles : policy.styleAllow = []) :
    (store.enforce policy root >>= fun reached => reached.1.enforce policy root) =
      store.enforce policy root := by
  cases hok : store.enforce policy root with
  | error fault => rfl
  | ok reached =>
      obtain ⟨after, tally⟩ := reached
      obtain ⟨hsound, parts, results, henforced, htrim⟩ :=
        hforest.exists_enforced htop hdocument hok
      have hafterDocument : (after.label root).tag = "#document" := by
        rw [henforced.label, hdocument]
      have htrees : Tree.trimLooseAll policy {} [store.toTree root] =
          .ok ([.node (after.label root) (after.readAll results)], tally.usage) := by
        simp only [Tree.trimLooseAll, htrim, Fault.ok_bind, List.append_nil]
        rfl
      have hstays : policy.Stays (Tally.start policy).usage _ _ :=
        Tree.stays_of_trimLooseAll hstyles _ htrees
      rw [Tree.elementLabels_node, if_neg (by simp [henforced.not_isElement hdocument]),
        ← henforced.map_label_elements hdocument] at hstays
      obtain ⟨last, hlast, hlastSound, hsame⟩ := exists_visitAll_of_stays hstays
        (henforced.isConnected htop hdocument) (Tally.sound_start policy)
      change after.enforce policy root = .ok (after, tally)
      rw [← hlastSound.eq_of_usage hsound hsame]
      exact hlast

/-- A pass that unwraps a division, keeps the one paragraph it may and drops the other. -/
theorem enforce_enforce_paragraphs :
    ∃ after tally,
      (ofTree paragraphs).enforce (Policy.ofLines ["p", "p|class"] {}) 0 = .ok (after, tally) ∧
        after.enforce (Policy.ofLines ["p", "p|class"] {}) 0 = .ok (after, tally) := by
  have hdocument : ((ofTree paragraphs).label 0).tag = "#document" := by
    rw [label_ofTree]
    rfl
  have hstyles : (Policy.ofLines ["p", "p|class"] {}).styleAllow = [] := rfl
  have htwice := enforce_enforce (isForest_ofTree paragraphs) (parent_ofTree paragraphs)
    hdocument hstyles
  cases hok : (ofTree paragraphs).enforce (Policy.ofLines ["p", "p|class"] {}) 0 with
  | error fault =>
      have hdone : ((ofTree paragraphs).enforce (Policy.ofLines ["p", "p|class"] {}) 0).isOk =
          true := by decide +kernel
      rw [hok] at hdone
      cases hdone
  | ok reached =>
      rw [hok] at htwice
      exact ⟨reached.1, reached.2, rfl, htwice⟩

end Store

end Winnow
