import Winnow.Attributes
import Winnow.Proofs.Fault

/-!
# Attributes that stay

Every attribute that stays on an element has been granted to it: its name is
allowed there, and while scripting is not allowed it is neither an event handler
nor a dangerous address. Its value is the one it had, except that a style is what
the style filter leaves of the one it had. The order does not change.
-/

namespace Winnow.Policy

variable {policy : Policy} {tag : String}

/-- An attribute that a policy lets stay on elements of a name, among those there were. -/
structure Granted (policy : Policy) (tag : String) (attributes : Attributes)
    (entry : String × Option String) : Prop where
  allowed : Text.lower entry.1 ∈ policy.allowedAttributes tag
  harmless : policy.config.allowJavaScript = false → isHandler (Text.lower entry.1) = false
  safe : policy.config.allowJavaScript = false → Text.lower entry.1 ∈ Url.addressAttributes →
    Url.isDangerousValue (Text.lower entry.1) (entry.2.getD "") = .ok false
  unchanged : Text.lower entry.1 ≠ "style" → entry ∈ attributes
  style : Text.lower entry.1 = "style" → ∃ value filtered, (entry.1, value) ∈ attributes ∧
    Css.filterInline policy.styleAllow tag (value.getD "").toList = .ok filtered ∧
      filtered ≠ [] ∧ entry.2 = some (String.ofList filtered)

theorem Granted.mono {attributes wider : Attributes} {entry : String × Option String}
    (hgranted : Granted policy tag attributes entry)
    (hwider : ∀ other ∈ attributes, other ∈ wider) : Granted policy tag wider entry where
  allowed := hgranted.allowed
  harmless := hgranted.harmless
  safe := hgranted.safe
  unchanged hstyle := hwider _ (hgranted.unchanged hstyle)
  style hstyle := by
    obtain ⟨value, filtered, hmem, hrest⟩ := hgranted.style hstyle
    exact ⟨value, filtered, hwider _ hmem, hrest⟩

/-- An attribute that passes the tests of its name is judged by its value. -/
theorem of_judge_ne_drop {name : String} {value : Option String} {verdict : Verdict}
    (hok : policy.judge tag name value = .ok verdict) (hstays : verdict ≠ .drop) :
    Text.lower name ∈ policy.allowedAttributes tag ∧
      (policy.config.allowJavaScript = false → isHandler (Text.lower name) = false) ∧
      policy.judgeValue tag (Text.lower name) (value.getD "") = .ok verdict := by
  unfold judge at hok
  dsimp only at hok
  split at hok
  next =>
    cases hok
    exact absurd rfl hstays
  next hhandler =>
    split at hok
    next =>
      cases hok
      exact absurd rfl hstays
    next hlisted =>
      refine ⟨?_, ?_, hok⟩
      · simpa using hlisted
      · intro hscript
        simpa [hscript] using hhandler

/-- A value that is kept as it is belongs to no style and is no dangerous address. -/
theorem of_judgeValue_eq_keep {name value : String}
    (hok : policy.judgeValue tag name value = .ok .keep) :
    name ≠ "style" ∧ (policy.config.allowJavaScript = false → name ∈ Url.addressAttributes →
      Url.isDangerousValue name value = .ok false) := by
  unfold judgeValue at hok
  split at hok
  next =>
    obtain ⟨filtered, -, hresult⟩ := Fault.exists_of_bind_eq_ok hok
    split at hresult
    next => cases hresult
    next => cases hresult
  next hstyle =>
    refine ⟨hstyle, fun hscript haddress => ?_⟩
    rw [hscript, List.contains_iff_mem.mpr haddress] at hok
    obtain ⟨dangerous, htest, hresult⟩ := Fault.exists_of_bind_eq_ok hok
    cases dangerous with
    | false => exact htest
    | true => cases hresult

/-- A value that is changed is a style that the filter leaves something of. -/
theorem of_judgeValue_eq_change {name value changed : String}
    (hok : policy.judgeValue tag name value = .ok (.change changed)) :
    name = "style" ∧ ∃ filtered,
      Css.filterInline policy.styleAllow tag value.toList = .ok filtered ∧ filtered ≠ [] ∧
        changed = String.ofList filtered := by
  unfold judgeValue at hok
  split at hok
  next hstyle =>
    obtain ⟨filtered, hfilter, hresult⟩ := Fault.exists_of_bind_eq_ok hok
    refine ⟨hstyle, filtered, hfilter, ?_⟩
    split at hresult
    next => cases hresult
    next hnonempty =>
      cases hresult
      exact ⟨by simpa using hnonempty, rfl⟩
  next =>
    split at hok
    next =>
      obtain ⟨dangerous, -, hresult⟩ := Fault.exists_of_bind_eq_ok hok
      split at hresult
      next => cases hresult
      next => cases hresult
    next => cases hok

/-- What filtering makes of the first attribute and the others. -/
theorem exists_of_filterAttributes_cons {name : String} {value : Option String}
    {rest kept : Attributes}
    (hok : policy.filterAttributes tag ((name, value) :: rest) = .ok kept) :
    ∃ verdict others, policy.judge tag name value = .ok verdict ∧
      policy.filterAttributes tag rest = .ok others ∧
      kept = match verdict with
        | .drop => others
        | .keep => (name, value) :: others
        | .change filtered => (name, some filtered) :: others := by
  rw [filterAttributes] at hok
  obtain ⟨verdict, hjudge, hrest⟩ := Fault.exists_of_bind_eq_ok hok
  obtain ⟨others, hothers, hresult⟩ := Fault.exists_of_bind_eq_ok hrest
  cases hresult
  exact ⟨verdict, others, hjudge, hothers, rfl⟩

theorem granted_of_filterAttributes {attributes kept : Attributes}
    (hok : policy.filterAttributes tag attributes = .ok kept) :
    ∀ entry ∈ kept, Granted policy tag attributes entry := by
  induction attributes generalizing kept with
  | nil =>
      rw [filterAttributes] at hok
      cases hok
      exact fun _ hmem => by cases hmem
  | cons first rest ih =>
      obtain ⟨name, value⟩ := first
      obtain ⟨verdict, others, hjudge, hothers, rfl⟩ := exists_of_filterAttributes_cons hok
      have hrest : ∀ entry ∈ others, Granted policy tag ((name, value) :: rest) entry :=
        fun entry hmem => (ih hothers entry hmem).mono fun _ => List.mem_cons_of_mem _
      cases verdict with
      | drop => exact hrest
      | keep =>
          obtain ⟨hallowed, hharmless, hvalue⟩ := of_judge_ne_drop hjudge (by simp)
          obtain ⟨hstyle, hsafe⟩ := of_judgeValue_eq_keep hvalue
          intro entry hmem
          rcases List.mem_cons.mp hmem with rfl | hmem
          · exact ⟨hallowed, hharmless, hsafe, fun _ => List.mem_cons_self,
              fun heq => absurd heq hstyle⟩
          · exact hrest entry hmem
      | change filtered =>
          obtain ⟨hallowed, hharmless, hvalue⟩ := of_judge_ne_drop hjudge (by simp)
          obtain ⟨hstyle, text, hfilter, hnonempty, rfl⟩ := of_judgeValue_eq_change hvalue
          intro entry hmem
          rcases List.mem_cons.mp hmem with rfl | hmem
          · refine ⟨hallowed, hharmless, fun _ haddress => ?_, fun hne => absurd hstyle hne,
              fun _ => ⟨value, text, List.mem_cons_self, hfilter, hnonempty, rfl⟩⟩
            dsimp only at haddress
            rw [hstyle] at haddress
            exact absurd haddress (by decide)
          · exact hrest entry hmem

/-- The names that stay do so in their order. -/
theorem names_sublist_of_filterAttributes {attributes kept : Attributes}
    (hok : policy.filterAttributes tag attributes = .ok kept) :
    kept.names.Sublist attributes.names := by
  induction attributes generalizing kept with
  | nil =>
      rw [filterAttributes] at hok
      cases hok
      exact List.Sublist.refl _
  | cons first rest ih =>
      obtain ⟨name, value⟩ := first
      obtain ⟨verdict, others, -, hothers, rfl⟩ := exists_of_filterAttributes_cons hok
      cases verdict with
      | drop => exact (ih hothers).cons name
      | keep => exact (ih hothers).cons_cons name
      | change filtered => exact (ih hothers).cons_cons name

/-- The attributes of a list that are no styles. -/
def withoutStyles (attributes : Attributes) : Attributes :=
  List.filter (fun entry => Text.lower entry.1 != "style") attributes

/-- Apart from styles, the attributes that stay are those there were, in their order. -/
theorem withoutStyles_sublist_of_filterAttributes {attributes kept : Attributes}
    (hok : policy.filterAttributes tag attributes = .ok kept) :
    (withoutStyles kept).Sublist (withoutStyles attributes) := by
  induction attributes generalizing kept with
  | nil =>
      rw [filterAttributes] at hok
      cases hok
      exact List.Sublist.refl _
  | cons first rest ih =>
      obtain ⟨name, value⟩ := first
      obtain ⟨verdict, others, hjudge, hothers, rfl⟩ := exists_of_filterAttributes_cons hok
      have hwider : (withoutStyles rest).Sublist (withoutStyles ((name, value) :: rest)) :=
        (List.sublist_cons_self _ _).filter _
      cases verdict with
      | drop => exact (ih hothers).trans hwider
      | keep =>
          unfold withoutStyles at ih ⊢
          rw [List.filter_cons, List.filter_cons]
          split
          next => exact (ih hothers).cons_cons _
          next => exact ih hothers
      | change filtered =>
          obtain ⟨-, -, hvalue⟩ := of_judge_ne_drop hjudge (by simp)
          have hstyle := (of_judgeValue_eq_change hvalue).1
          have hgone : withoutStyles ((name, some filtered) :: others) = withoutStyles others := by
            unfold withoutStyles
            rw [List.filter_cons, if_neg (by simp [hstyle])]
          dsimp only
          rw [hgone]
          exact (ih hothers).trans hwider

end Winnow.Policy
