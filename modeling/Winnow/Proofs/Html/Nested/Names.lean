import Winnow.Proofs.Html.Construction.Moves

/-!
# How open elements are nested

Some of the open elements call for a mode of their own: the parts of a document, the parts of
tables, and selections. They sit in one another in few ways. Everything else is loose and may
stand anywhere but inside a group of columns; in a selection there are options only. Directly
inside a table, a group of rows or a row nothing stands under a further part but formatting
elements, which are put there when one of them is split at a block.
-/

namespace Winnow.Html

open Builder (modeWithin formattingNames rowGroups)

/-- Names of open elements, the innermost first, with the innermost that is not loose. They are
tight if nothing but formatting elements stands inside that one. -/
inductive Nested : String → Bool → List String → Prop
  | body : Nested "body" true ["body", "html"]
  | loose {holder tag : String} {tight : Bool} {tags : List String} (htag : IsLoose tag)
      (hcolumns : holder ≠ "colgroup")
      (hoptions : holder = "select" → tag ∈ ["option", "optgroup"])
      (hrest : Nested holder tight tags) :
      Nested holder (tight && formattingNames.contains tag) (tag :: tags)
  | block {holder tag : String} {tight : Bool} {tags : List String}
      (htag : tag ∈ ["table", "select"]) (hholder : holder ∉ ["colgroup", "select"])
      (hrest : Nested holder tight tags) : Nested tag true (tag :: tags)
  | part {holder tag : String} {tags : List String} (htag : PartOf tag holder)
      (hrest : Nested holder true tags) : Nested tag true (tag :: tags)

/-! ## Loose names -/

theorem IsLoose.ne {tag other : String} (hloose : IsLoose tag)
    (hother : ¬ IsLoose other) : tag ≠ other := by
  rintro rfl
  exact hother hloose

theorem isLoose_of_mem_formattingNames {tag : String} (hmem : tag ∈ formattingNames) :
    IsLoose tag := by
  have hloose : ∀ name ∈ formattingNames, IsLoose name := by decide
  exact hloose tag hmem

/-- A name that calls for a mode is one that a general end tag does not close over. -/
theorem isLoose_of_not_special {tag : String}
    (hspecial : Vocabulary.isSpecial .html tag = false) : IsLoose tag := by
  unfold IsLoose modeWithin
  split
  all_goals first
    | rfl
    | exact absurd hspecial (by decide)

namespace PartOf

variable {part holder : String} (hpart : PartOf part holder)
include hpart

theorem eq_table (hmem : part ∈ "caption" :: "colgroup" :: rowGroups) : holder = "table" := by
  have hcells : ∀ name ∈ ["td", "th"], name ∉ "caption" :: "colgroup" :: rowGroups := by decide
  cases hpart with
  | ofTable _ => rfl
  | ofGroup _ => exact absurd hmem (by decide)
  | ofRow hcell => exact absurd hmem (hcells part hcell)

theorem mem_rowGroups (hrow : part = "tr") : holder ∈ rowGroups := by
  subst hrow
  cases hpart with
  | ofTable hmem => exact absurd hmem (by decide)
  | ofGroup hgroup => exact hgroup
  | ofRow hmem => exact absurd hmem (by decide)

theorem eq_row (hcell : part ∈ ["td", "th"]) : holder = "tr" := by
  have hsections : ∀ name ∈ ["td", "th"], name ∉ "caption" :: "colgroup" :: rowGroups := by decide
  cases hpart with
  | ofTable hmem => exact absurd hmem (hsections part hcell)
  | ofGroup _ => exact absurd hcell (by decide)
  | ofRow _ => rfl

end PartOf

theorem PartOf.mem {part holder : String} (hpart : PartOf part holder) :
    part ∈ ["caption", "colgroup", "tbody", "tfoot", "thead", "tr", "td", "th"] := by
  cases hpart with
  | ofTable hmem => exact List.mem_append_left ["tr", "td", "th"] hmem
  | ofGroup _ => decide
  | ofRow hmem =>
      exact List.mem_append_right ["caption", "colgroup", "tbody", "tfoot", "thead", "tr"] hmem

theorem PartOf.holder_not_mem {part holder : String} (hpart : PartOf part holder) :
    holder ∉ ["colgroup", "select"] := by
  have hgroups : ∀ name ∈ rowGroups, name ∉ ["colgroup", "select"] := by decide
  cases hpart with
  | ofTable _ => decide
  | ofGroup hmem => exact hgroups holder hmem
  | ofRow _ => decide

namespace Nested

variable {holder tag : String} {tight : Bool} {tags : List String}

/-- The innermost name that is not loose. -/
theorem mem_holder (hnested : Nested holder tight tags) :
    holder ∈ ["body", "table", "select", "caption", "colgroup", "tbody", "tfoot", "thead", "tr",
      "td", "th"] := by
  induction hnested with
  | body => decide
  | loose htag hcolumns hoptions hrest ih => exact ih
  | block htag hholder hrest ih =>
      exact List.mem_cons_of_mem _ (List.mem_append_left
        ["caption", "colgroup", "tbody", "tfoot", "thead", "tr", "td", "th"] htag)
  | part htag hrest ih => exact List.mem_append_right ["body", "table", "select"] htag.mem

theorem not_isLoose_holder (hnested : Nested holder tight tags) : ¬ IsLoose holder := by
  have hknown : ∀ name ∈ ["body", "table", "select", "caption", "colgroup", "tbody", "tfoot",
      "thead", "tr", "td", "th"], ¬ IsLoose name := by decide
  exact hknown holder hnested.mem_holder

/-- At the bottom stand the body and the root, which is the only one of its name. -/
theorem exists_bottom (hnested : Nested holder tight tags) :
    ∃ front, tags = front ++ ["body", "html"] ∧ "html" ∉ front := by
  have hcons : ∀ {tag : String} {tags : List String}, tag ≠ "html" →
      (∃ front, tags = front ++ ["body", "html"] ∧ "html" ∉ front) →
        ∃ front, tag :: tags = front ++ ["body", "html"] ∧ "html" ∉ front := by
    rintro tag tags hne ⟨front, rfl, hfront⟩
    refine ⟨tag :: front, rfl, ?_⟩
    rw [List.mem_cons, not_or]
    exact ⟨hne.symm, hfront⟩
  induction hnested with
  | body => exact ⟨[], rfl, List.not_mem_nil⟩
  | loose htag hcolumns hoptions hrest ih => exact hcons (htag.ne (by decide)) ih
  | block htag hholder hrest ih =>
      refine hcons ?_ ih
      rintro rfl
      revert htag
      decide
  | part htag hrest ih =>
      refine hcons ?_ ih
      rintro rfl
      exact absurd htag.mem (by decide)

theorem ne_nil (hnested : Nested holder tight tags) : tags ≠ [] := by
  obtain ⟨front, rfl, -⟩ := hnested.exists_bottom
  simp

theorem tail_ne_nil (hnested : Nested holder tight (tag :: tags)) : tags ≠ [] := by
  rintro rfl
  obtain ⟨front, hbottom, -⟩ := hnested.exists_bottom
  have hlength := congrArg List.length hbottom
  simp at hlength

/-- A loose name is taken off. -/
theorem tail (hnested : Nested holder tight (tag :: tags)) (htag : IsLoose tag) :
    ∃ under, Nested holder under tags ∧ tight = (under && formattingNames.contains tag) ∧
      holder ≠ "colgroup" ∧ (holder = "select" → tag ∈ ["option", "optgroup"]) := by
  generalize hwhole : tag :: tags = whole at hnested
  cases hnested with
  | body =>
      cases hwhole
      exact absurd htag (by decide)
  | loose _ hcolumns hoptions hrest =>
      cases hwhole
      exact ⟨_, hrest, rfl, hcolumns, hoptions⟩
  | block hblock hholder hrest =>
      cases hwhole
      have hknown : ∀ name ∈ ["table", "select"], ¬ IsLoose name := by decide
      exact absurd htag (hknown _ hblock)
  | part hpart hrest =>
      cases hwhole
      exact absurd htag (Nested.part hpart hrest).not_isLoose_holder

/-- A name that is not loose holds what is inside it. -/
theorem holder_eq (hnested : Nested holder tight (tag :: tags)) (htag : ¬ IsLoose tag) :
    holder = tag := by
  cases hnested with
  | body => rfl
  | loose hloose => exact absurd hloose htag
  | block => rfl
  | part => rfl

/-- Directly inside a name that is not loose nothing stands. -/
theorem tight_of_not_isLoose (hnested : Nested holder tight (tag :: tags)) (htag : ¬ IsLoose tag) :
    tight = true := by
  cases hnested with
  | body => rfl
  | loose hloose => exact absurd hloose htag
  | block => rfl
  | part => rfl

/-- Loose names are taken off. -/
theorem drop {front : List String} (hnested : Nested holder tight (front ++ tags))
    (hfront : ∀ tag ∈ front, IsLoose tag) : ∃ under, Nested holder under tags ∧
      tight = (under && front.all formattingNames.contains) ∧
        (holder = "colgroup" → front = []) ∧
        (holder = "select" → ∀ tag ∈ front, tag ∈ ["option", "optgroup"]) := by
  induction front generalizing tight with
  | nil => exact ⟨tight, hnested, by simp, fun _ => rfl, fun _ tag hmem => by cases hmem⟩
  | cons first rest ih =>
      obtain ⟨under, hrest, rfl, hcolumns, hoptions⟩ := hnested.tail (hfront _ List.mem_cons_self)
      obtain ⟨below, hbelow, rfl, -, hinside⟩ :=
        ih hrest fun tag hmem => hfront tag (List.mem_cons_of_mem _ hmem)
      refine ⟨below, hbelow, ?_, fun heq => absurd heq hcolumns, fun hselect tag hmem => ?_⟩
      · rw [List.all_cons, Bool.and_assoc, Bool.and_comm (formattingNames.contains first)]
      · rcases List.mem_cons.mp hmem with rfl | hmem
        · exact hoptions hselect
        · exact hinside hselect tag hmem

/-- Every name that nothing of its own stands in for is on top of loose ones. -/
theorem exists_top (hnested : Nested holder tight tags) : ∃ front rest,
    tags = front ++ holder :: rest ∧ (∀ tag ∈ front, IsLoose tag) ∧
      Nested holder true (holder :: rest) := by
  induction hnested with
  | body => exact ⟨[], ["html"], rfl, fun tag hmem => (by cases hmem), .body⟩
  | @loose holder tag tight tags htag hcolumns hoptions hrest ih =>
      obtain ⟨front, rest, rfl, hfront, htop⟩ := ih
      refine ⟨tag :: front, rest, rfl, fun other hmem => ?_, htop⟩
      rcases List.mem_cons.mp hmem with rfl | hmem
      · exact htag
      · exact hfront other hmem
  | block htag hholder hrest ih =>
      exact ⟨[], _, rfl, fun tag hmem => (by cases hmem), .block htag hholder hrest⟩
  | part htag hrest ih => exact ⟨[], _, rfl, fun tag hmem => (by cases hmem), .part htag hrest⟩

/-- Names are taken off up to one that is met before the holder or is the holder. -/
theorem dropWhile (hnested : Nested holder tight tags) (closes : String → Bool)
    (hstops : closes holder = false) : ∃ left, Nested holder left (tags.dropWhile closes) := by
  obtain ⟨front, rest, rfl, hfront, htop⟩ := hnested.exists_top
  induction front generalizing tight with
  | nil =>
      rw [List.nil_append, List.dropWhile_cons_of_neg (by simp [hstops])]
      exact ⟨true, htop⟩
  | cons first others ih =>
      obtain ⟨under, hrest, -⟩ := hnested.tail (hfront _ List.mem_cons_self)
      rw [List.cons_append, List.dropWhile_cons]
      split
      · exact ih hrest fun tag hmem => hfront tag (List.mem_cons_of_mem _ hmem)
      · exact ⟨tight, hnested⟩

/-- All loose names are taken off. -/
theorem exists_dropWhile (hnested : Nested holder tight tags) (closes : String → Bool)
    (hstops : closes holder = false) (hcloses : ∀ tag, IsLoose tag → closes tag = true) :
    ∃ rest, tags.dropWhile closes = holder :: rest ∧ Nested holder true (holder :: rest) := by
  obtain ⟨front, rest, rfl, hfront, htop⟩ := hnested.exists_top
  refine ⟨rest, ?_, htop⟩
  rw [List.dropWhile_append_of_pos fun tag hmem => hcloses tag (hfront tag hmem),
    List.dropWhile_cons_of_neg (by simp [hstops])]

/-- Some of the loose names are left out. -/
theorem sublist {few many : List String} (hsublist : few.Sublist many)
    (hnested : Nested holder tight (many ++ tags)) (hmany : ∀ tag ∈ many, IsLoose tag) :
    ∃ left, (tight = true → left = true) ∧ Nested holder left (few ++ tags) := by
  induction hsublist generalizing tight with
  | slnil => exact ⟨tight, id, hnested⟩
  | cons first hsublist ih =>
      obtain ⟨under, hrest, rfl, -⟩ := hnested.tail (hmany _ List.mem_cons_self)
      obtain ⟨left, hleft, hfew⟩ := ih hrest fun tag hmem => hmany tag (List.mem_cons_of_mem _ hmem)
      exact ⟨left, fun htight => hleft (Bool.and_eq_true_iff.mp htight).1, hfew⟩
  | cons_cons first hsublist ih =>
      have hfirst := hmany _ List.mem_cons_self
      obtain ⟨under, hrest, rfl, hcolumns, hoptions⟩ := hnested.tail hfirst
      obtain ⟨left, hleft, hfew⟩ := ih hrest fun tag hmem => hmany tag (List.mem_cons_of_mem _ hmem)
      refine ⟨_, fun htight => ?_, .loose hfirst hcolumns hoptions hfew⟩
      obtain ⟨hunder, hformatting⟩ := Bool.and_eq_true_iff.mp htight
      rw [hleft hunder, hformatting]
      rfl

/-- What is under some of the names is replaced by something as tight. -/
theorem exists_under {front : List String} (hnested : Nested holder tight (front ++ tags))
    (hholder : holder ∉ ["colgroup", "select"]) (hloose : ∃ tag ∈ tags, IsLoose tag) :
    ∃ base under, Nested base under tags ∧ base ∉ ["colgroup", "select"] ∧
      ∀ {other : List String} {more : Bool}, Nested base more other →
        (under = true → more = true) →
          ∃ left, (tight = true → left = true) ∧ Nested holder left (front ++ other) := by
  induction front generalizing holder tight with
  | nil => exact ⟨holder, tight, hnested, hholder, fun hother hmore => ⟨_, hmore, hother⟩⟩
  | cons first rest ih =>
      generalize hwhole : first :: rest ++ tags = whole at hnested
      cases hnested with
      | body =>
          -- Nothing at the bottom is loose.
          obtain ⟨tag, hmem, htag⟩ := hloose
          have hbottom : tag ∈ ["body", "html"] := hwhole ▸ List.mem_append_right _ hmem
          have hknown : ∀ name ∈ ["body", "html"], ¬ IsLoose name := by decide
          exact absurd htag (hknown tag hbottom)
      | loose htag hcolumns hoptions hrest =>
          cases hwhole
          obtain ⟨base, under, hunder, hbase, hreplace⟩ := ih hrest hholder
          refine ⟨base, under, hunder, hbase, fun hother hmore => ?_⟩
          obtain ⟨left, hleft, hwhole⟩ := hreplace hother hmore
          refine ⟨_, fun htight => ?_, .loose htag hcolumns hoptions hwhole⟩
          obtain ⟨hunder, hformatting⟩ := Bool.and_eq_true_iff.mp htight
          rw [hleft hunder, hformatting]
          rfl
      | block htag houter hrest =>
          cases hwhole
          obtain ⟨base, under, hunder, hbase, hreplace⟩ := ih hrest houter
          refine ⟨base, under, hunder, hbase, fun hother hmore => ?_⟩
          obtain ⟨left, -, hwhole⟩ := hreplace hother hmore
          exact ⟨true, fun _ => rfl, .block htag houter hwhole⟩
      | part htag hrest =>
          cases hwhole
          obtain ⟨base, under, hunder, hbase, hreplace⟩ := ih hrest htag.holder_not_mem
          refine ⟨base, under, hunder, hbase, fun hother hmore => ?_⟩
          obtain ⟨left, hleft, hwhole⟩ := hreplace hother hmore
          rw [hleft rfl] at hwhole
          exact ⟨true, fun _ => rfl, .part htag hwhole⟩

/-- A loose name is left out wherever it stands. -/
theorem remove {front : List String} (hnested : Nested holder tight (front ++ tag :: tags))
    (hholder : holder ∉ ["colgroup", "select"]) (htag : IsLoose tag) :
    ∃ left, Nested holder left (front ++ tags) := by
  obtain ⟨base, under, hunder, -, hreplace⟩ :=
    hnested.exists_under hholder ⟨tag, List.mem_cons_self, htag⟩
  obtain ⟨below, hbelow, rfl, -⟩ := hunder.tail htag
  obtain ⟨left, -, hwhole⟩ :=
    hreplace hbelow fun htight => (Bool.and_eq_true_iff.mp htight).1
  exact ⟨left, hwhole⟩

/-- Formatting elements make no difference to how tight the others are. -/
theorem formatting {names : List String} (hnested : Nested holder tight tags)
    (hnames : ∀ name ∈ names, name ∈ formattingNames)
    (hholder : holder ∉ ["colgroup", "select"]) : Nested holder tight (names ++ tags) := by
  have hother := hholder
  simp only [List.mem_cons, List.not_mem_nil, or_false, not_or] at hother
  induction names with
  | nil => exact hnested
  | cons name rest ih =>
      have hname := hnames name List.mem_cons_self
      have hloose := (ih fun other hmem => hnames other (List.mem_cons_of_mem _ hmem)).loose
        (isLoose_of_mem_formattingNames hname) hother.1 fun hselect => absurd hselect hother.2
      rwa [List.contains_iff_mem.mpr hname, Bool.and_true] at hloose

/-- A formatting element moves to the inside of a block, and of the names between them some are
left out. -/
theorem split {element block : String} {inner between kept outer : List String}
    (hnested : Nested holder tight (inner ++ block :: (between ++ element :: outer)))
    (hholder : holder ∉ ["colgroup", "select"]) (hkept : kept.Sublist between)
    (helement : element ∈ formattingNames) (hbetween : ∀ tag ∈ between, IsLoose tag) :
    ∃ left, Nested holder left (inner ++ element :: block :: (kept ++ outer)) := by
  have hloose := isLoose_of_mem_formattingNames helement
  obtain ⟨base, under, hunder, hbase, hreplace⟩ :=
    hnested.exists_under hholder ⟨element, by simp, hloose⟩
  replace hunder : Nested base under ([block] ++ (between ++ [element] ++ outer)) := by
    simpa using hunder
  obtain ⟨lower, below, hbelow, -, hreplaceBelow⟩ :=
    hunder.exists_under hbase ⟨element, by simp, hloose⟩
  have hmany : ∀ tag ∈ between ++ [element], IsLoose tag := by
    intro tag hmem
    rcases List.mem_append.mp hmem with hmem | hmem
    · exact hbetween tag hmem
    · obtain rfl := List.mem_singleton.mp hmem
      exact hloose
  obtain ⟨rest, hrest, hfewer⟩ :=
    sublist (hkept.trans (List.sublist_append_left between [element])) hbelow hmany
  obtain ⟨more, hmore, hblock⟩ := hreplaceBelow hfewer hrest
  have hcopy : ∀ name ∈ [element], name ∈ formattingNames := by simpa using helement
  obtain ⟨left, -, hwhole⟩ := hreplace (hblock.formatting hcopy hbase) hmore
  exact ⟨left, hwhole⟩

end Nested

/-! ## What holds a holder -/

namespace Nested

variable {holder : String} {tight : Bool} {rest : List String}

/-- A table or a selection stands in what may hold it. -/
theorem under_block (hnested : Nested holder tight (holder :: rest))
    (hblock : holder ∈ ["table", "select"]) :
    ∃ base under, base ∉ ["colgroup", "select"] ∧ Nested base under rest := by
  have hmodal := hnested.not_isLoose_holder
  cases hnested with
  | body => exact absurd hblock (by decide)
  | loose htag => exact absurd htag hmodal
  | block _ hholder hrest => exact ⟨_, _, hholder, hrest⟩
  | part htag =>
      have hknown : ∀ name ∈ ["table", "select"], name ∉
          ["caption", "colgroup", "tbody", "tfoot", "thead", "tr", "td", "th"] := by decide
      exact absurd htag.mem (hknown _ hblock)

/-- A part of a table stands in what it is a part of. -/
theorem under_part (hnested : Nested holder tight (holder :: rest))
    (hpart : holder ∈ ["caption", "colgroup", "tbody", "tfoot", "thead", "tr", "td", "th"]) :
    ∃ base, PartOf holder base ∧ Nested base true rest := by
  have hmodal := hnested.not_isLoose_holder
  cases hnested with
  | body => exact absurd hpart (by decide)
  | loose htag => exact absurd htag hmodal
  | block hblock =>
      have hknown : ∀ name ∈ ["table", "select"], name ∉
          ["caption", "colgroup", "tbody", "tfoot", "thead", "tr", "td", "th"] := by decide
      exact absurd hpart (hknown _ hblock)
  | part htag hrest => exact ⟨_, htag, hrest⟩

end Nested

/-! ## What is in scope -/

/-- Going outward, is an HTML element of this name met before the scope ends? -/
def reachesName (scope : Vocabulary.Scope) (target : String) : List String → Bool
  | [] => false
  | tag :: rest =>
    if tag == target then true
    else if scope.bounds .html tag then false
    else reachesName scope target rest

/-- Does a name stand on top of loose ones? -/
def OnTop (target : String) (tags : List String) : Prop :=
  ∃ front rest, tags = front ++ target :: rest ∧ ∀ tag ∈ front, IsLoose tag

theorem OnTop.cons {target tag : String} {tags : List String} (hontop : OnTop target tags)
    (htag : IsLoose tag) : OnTop target (tag :: tags) := by
  obtain ⟨front, rest, rfl, hfront⟩ := hontop
  refine ⟨tag :: front, rest, rfl, fun other hmem => ?_⟩
  rcases List.mem_cons.mp hmem with rfl | hmem
  · exact htag
  · exact hfront other hmem

namespace Nested

variable {holder target : String} {tight : Bool} {tags : List String}

/-- What is on top is taken off with the names above it. -/
theorem drop_dropWhile (hnested : Nested holder tight tags) (hontop : OnTop target tags)
    (hloose : IsLoose target) (closes : String → Bool) (hstops : closes target = false) :
    ∃ left, Nested holder left ((tags.dropWhile closes).drop 1) := by
  obtain ⟨front, rest, rfl, hfront⟩ := hontop
  induction front generalizing tight with
  | nil =>
      rw [List.nil_append, List.dropWhile_cons_of_neg (by simp [hstops])]
      obtain ⟨under, hrest, -⟩ := hnested.tail hloose
      exact ⟨under, hrest⟩
  | cons first others ih =>
      obtain ⟨under, hrest, -⟩ := hnested.tail (hfront _ List.mem_cons_self)
      rw [List.cons_append, List.dropWhile_cons]
      split
      · exact ih (fun tag hmem => hfront tag (List.mem_cons_of_mem _ hmem)) hrest
      · exact ⟨under, hrest⟩

/-- The holder is reached over loose names if none of them bounds the scope. -/
theorem reachesName_holder (hnested : Nested holder tight tags) {scope : Vocabulary.Scope}
    (hopen : ∀ tag, IsLoose tag → (holder = "select" → tag ∈ ["option", "optgroup"]) →
      scope.bounds .html tag = false) : reachesName scope holder tags = true := by
  obtain ⟨front, rest, rfl, hfront, htop⟩ := hnested.exists_top
  induction front generalizing tight with
  | nil => rw [List.nil_append, reachesName, if_pos (beq_self_eq_true holder)]
  | cons first others ih =>
      have hfirst := hfront _ List.mem_cons_self
      obtain ⟨under, hrest, -, -, hoptions⟩ := hnested.tail hfirst
      rw [List.cons_append, reachesName]
      split
      · rfl
      · rw [hopen first hfirst hoptions, if_neg Bool.false_ne_true]
        exact ih hrest fun tag hmem => hfront tag (List.mem_cons_of_mem _ hmem)

/-- A loose name in scope that is no formatting element is on top: what bounds the scope stands
above everything in which other names than those of formatting elements could stand. -/
theorem onTop_of_reachesName (hnested : Nested holder tight tags) (hholder : holder ≠ "select")
    {scope : Vocabulary.Scope}
    (hscope : ∀ tag ∈ ["table", "caption", "td", "th", "html"], scope.bounds .html tag = true)
    (hloose : IsLoose target) (hformatting : target ∉ formattingNames)
    (hreaches : reachesName scope target tags = true) :
    tight = false ∧ OnTop target tags := by
  induction hnested with
  | body =>
      have hbody := beq_false_of_ne (hloose.ne (by decide : ¬ IsLoose "body")).symm
      have hhtml := beq_false_of_ne (hloose.ne (by decide : ¬ IsLoose "html")).symm
      rw [reachesName, hbody, if_neg Bool.false_ne_true, reachesName, hhtml,
        hscope "html" (by decide)] at hreaches
      split at hreaches
      · cases hreaches
      · cases hreaches
  | @loose holder tag tight tags htag hcolumns hoptions hrest ih =>
      rw [reachesName] at hreaches
      split at hreaches
      next hfound =>
        cases beq_iff_eq.mp hfound
        refine ⟨?_, [], tags, rfl, fun tag hmem => by cases hmem⟩
        rw [Bool.and_eq_false_imp]
        exact fun _ => by simpa using hformatting
      next =>
        split at hreaches
        next => cases hreaches
        next =>
          obtain ⟨htight, hontop⟩ := ih hholder hreaches
          exact ⟨by rw [htight, Bool.false_and], hontop.cons htag⟩
  | @block holder tag tight tags htag houter hrest ih =>
      obtain rfl : tag = "table" := by simpa [hholder] using htag
      have htable := beq_false_of_ne (hloose.ne (by decide : ¬ IsLoose "table")).symm
      rw [reachesName, htable, hscope "table" (by decide)] at hreaches
      cases hreaches
  | @part holder tag tags htag hrest ih =>
      have hnested : Nested tag true (tag :: tags) := .part htag hrest
      rw [reachesName, beq_false_of_ne (hloose.ne hnested.not_isLoose_holder).symm,
        if_neg Bool.false_ne_true] at hreaches
      split at hreaches
      next => cases hreaches
      next =>
        exact absurd (ih (fun heq => htag.holder_not_mem (by simp [heq])) hreaches).1 (by decide)

/-- No cell but the one that holds what is open is in the scope of tables. -/
theorem eq_holder_of_reachesName (hnested : Nested holder tight tags) (hholder : holder ≠ "select")
    (htarget : target ∈ ["td", "th"]) (hreaches : reachesName .table target tags = true) :
    target = holder := by
  have hmodal : ∀ name ∈ ["td", "th"], ¬ IsLoose name := by decide
  have hother : ∀ name ∈ ["td", "th"], name ∉ ["body", "html", "table"] := by decide
  have hne : ∀ {tag : String}, tag ∈ ["body", "html", "table"] → (tag == target) = false :=
    fun hmem => beq_false_of_ne fun heq => hother target htarget (heq ▸ hmem)
  induction hnested with
  | body =>
      rw [reachesName, hne (by decide), if_neg Bool.false_ne_true, reachesName, hne (by decide)]
        at hreaches
      exact absurd hreaches (by simp [Vocabulary.Scope.bounds])
  | loose htag hcolumns hoptions hrest ih =>
      rw [reachesName, beq_false_of_ne (htag.ne (hmodal target htarget)),
        if_neg Bool.false_ne_true] at hreaches
      split at hreaches
      · cases hreaches
      · exact ih hholder hreaches
  | @block holder tag tight tags htag houter hrest ih =>
      obtain rfl : tag = "table" := by simpa [hholder] using htag
      rw [reachesName, hne (by decide)] at hreaches
      exact absurd hreaches (by simp [Vocabulary.Scope.bounds])
  | part htag hrest ih =>
      rw [reachesName] at hreaches
      split at hreaches
      next hfound => exact (beq_iff_eq.mp hfound).symm
      next =>
        split at hreaches
        next => cases hreaches
        next =>
          have heq := ih (fun heq => htag.holder_not_mem (by simp [heq])) hreaches
          have hknown : ∀ name ∈ ["td", "th"], name ∉ "table" :: "tr" :: rowGroups := by decide
          refine absurd ?_ (hknown target htarget)
          rw [heq]
          cases htag with
          | ofTable _ => decide
          | ofGroup hgroup => exact List.mem_cons_of_mem _ (List.mem_cons_of_mem _ hgroup)
          | ofRow _ => decide

end Nested

end Winnow.Html
