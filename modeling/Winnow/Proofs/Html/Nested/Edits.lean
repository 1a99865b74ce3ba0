import Winnow.Proofs.Html.Nested.Formatting

/-!
# Nesting through the edits

In ordinary content loose elements are opened and closed, and the element that holds them stays
the same. What is closed by its name has been found in scope, and what bounds a scope stands above
everything that a loose element could stand in.
-/

namespace Winnow.Html

theorem Mode.not_mem_of_takesContent {mode : Mode} {holder : String}
    (hmode : mode.takesContent = true) (hholder : holder ∈ mode.holders) :
    holder ∉ ["colgroup", "select"] := by
  have hknown : ∀ mode : Mode, mode.takesContent = true →
      ∀ name ∈ mode.holders, name ∉ ["colgroup", "select"] := by
    intro mode hmode
    cases mode <;> first | decide | cases hmode
  exact hknown mode hmode holder hholder

/-- A mode for tables or for selections is for nothing else. -/
theorem Mode.eq_of_mem_holders {mode : Mode} {block other : String}
    (hblock : block ∈ ["table", "select"]) (hmem : block ∈ mode.holders)
    (hother : other ∈ mode.holders) : other = block := by
  have hknown : ∀ mode : Mode, ∀ block ∈ ["table", "select"], block ∈ mode.holders →
      mode.holders = [block] := by
    intro mode
    cases mode <;> decide
  rw [hknown mode block hblock hmem] at hother
  exact List.mem_singleton.mp hother

/-- What a part of a table sits in holds what is open after it has been closed. -/
theorem Mode.mem_holders_outer {mode : Mode} {part base : String} (hpart : PartOf part base)
    (hmem : part ∈ mode.holders) : base ∈ mode.outer.holders := by
  cases mode with
  | caption =>
      obtain rfl := List.mem_singleton.mp hmem
      exact List.mem_singleton.mpr (hpart.eq_table (by decide))
  | columnGroup =>
      obtain rfl := List.mem_singleton.mp hmem
      exact List.mem_singleton.mpr (hpart.eq_table (by decide))
  | tableBody =>
      exact List.mem_singleton.mpr
        (hpart.eq_table (List.mem_cons_of_mem _ (List.mem_cons_of_mem _ hmem)))
  | row => exact hpart.mem_rowGroups (List.mem_singleton.mp hmem)
  | cell => exact List.mem_singleton.mpr (hpart.eq_row hmem)
  -- The other modes are for no part of a table.
  | _ =>
      first
        | obtain rfl := List.mem_singleton.mp hmem
          exact absurd hpart.mem (by decide)
        | cases hmem

/-- Does a token start no foreign element? -/
def Token.IsNative (token : Token) : Prop :=
  ∀ tag, token = .startTag tag → tag.name ∉ ["svg", "math"]

namespace Builder

/-- The innermost element with a mode is one that the mode is for. -/
def Held (b : Builder) : Prop := ∃ holder ∈ b.mode.holders, b.Inside holder b.modes

namespace Inside

variable {holder : String} {modes : Mode × Mode × Mode} {b : Builder} (hb : b.Inside holder modes)
include hb

theorem held (hholder : holder ∈ modes.1.holders) : b.Held := by
  have hmode : b.mode = modes.1 := congrArg Prod.fst hb.modes_eq
  exact ⟨holder, hmode ▸ hholder, hb.modes_eq ▸ hb⟩

/-! ## Closing loose elements -/

/-- The innermost element is closed if it is loose. -/
theorem pop (hloose : IsLoose b.currentName) :
    b.pop.Inside holder modes := by
  obtain ⟨tight, hnested⟩ := hb.nested
  obtain ⟨first, rest, hnames⟩ := List.exists_cons_of_ne_nil hnested.ne_nil
  rw [currentName_eq hnames] at hloose
  rw [hnames] at hnested
  obtain ⟨under, hrest, -⟩ := hnested.tail hloose
  refine hb.close (List.drop_sublist 1 _) ⟨under, ?_⟩
  rw [List.map_drop, ← stackNames, hnames]
  exact hrest

section Flow

variable (hflow : holder ∉ ["colgroup", "select"])
include hflow

/-- A loose element in scope that is no formatting element stands on top. -/
theorem onTop_of_inScope {scope : Vocabulary.Scope} {tag : String}
    (hscope : scope ∈ [.ordinary, .button, .list]) (hloose : IsLoose tag)
    (hformatting : tag ∉ formattingNames) (hopen : b.inScope scope tag = true) :
    OnTop tag b.stackNames := by
  obtain ⟨tight, hnested⟩ := hb.nested
  -- Whatever holds the open elements bounds these scopes, but for a selection or a column group.
  have hbounds : ∀ scope ∈ [Vocabulary.Scope.ordinary, .button, .list],
      ∀ tag ∈ ["table", "caption", "td", "th", "html"], scope.bounds .html tag = true := by decide
  rw [hb.inScope_eq] at hopen
  exact (hnested.onTop_of_reachesName (fun heq => hflow (by simp [heq])) (hbounds scope hscope)
    hloose hformatting hopen).2

/-- An element in scope is closed with those inside it. -/
theorem popThrough {scope : Vocabulary.Scope} {tag : String} {tags : List String}
    (hscope : scope ∈ [.ordinary, .button, .list]) (hmem : tag ∈ tags) (hloose : IsLoose tag)
    (hformatting : tag ∉ formattingNames) (hopen : b.inScope scope tag = true) :
    (b.popThrough tags).Inside holder modes := by
  have hontop := hb.onTop_of_inScope hflow hscope hloose hformatting hopen
  obtain ⟨tight, hnested⟩ := hb.nested
  have hstops : (!tags.contains tag) = false := by simp [hmem]
  have hleft := hnested.drop_dropWhile hontop hloose (!tags.contains ·) hstops
  rw [← stackNames_popThrough] at hleft
  exact hb.close ((List.drop_sublist 1 _).trans (List.dropWhile_sublist _)) hleft

/-- A loose element is closed wherever it stands. -/
theorem erase {handle : Handle} (hloose : handle ∈ b.stack → IsLoose (b.name handle)) :
    Inside holder modes { b with stack := b.stack.erase handle } := by
  refine hb.close List.erase_sublist ?_
  by_cases hmem : handle ∈ b.stack
  · obtain ⟨front, rest, -, hstack, herased⟩ := List.exists_erase_eq hmem
    obtain ⟨tight, hnested⟩ := hb.nested
    rw [stackNames, hstack, List.map_append, List.map_cons] at hnested
    rw [herased, List.map_append]
    exact hnested.remove hflow (hloose hmem)
  · rw [List.erase_of_not_mem hmem]
    exact hb.nested

/-! ## Edits -/

/-- A form is opened as the one that fields are for. -/
theorem setForm (htag : tag.name = "form") :
    Inside holder modes
      { b.openElement tag with formElement := some (b.openElement tag).current } := by
  have hopened : (b.openElement tag).Inside holder modes :=
    hb.openElement hflow (by rw [htag]; decide)
  refine ⟨{ hopened.toPlain with form := fun handle hmem => ?_ }, hopened.nested,
    hopened.modes_eq⟩
  cases hmem
  obtain ⟨hlt, hname⟩ := current_openLabel b (b.labelOf .html tag)
  exact ⟨hlt, hname.trans htag⟩

/-- The form is closed wherever it stands. -/
theorem closeForm {form : Handle} (hform : b.formElement = some form) :
    Inside holder modes { b with formElement := none, stack := b.stack.erase form } := by
  have hname : b.name form = "form" := (hb.form form hform).2
  have hclosed : Inside holder modes { b with stack := b.stack.erase form } :=
    hb.erase hflow fun _ => by
      rw [hname]
      decide
  exact ⟨{ hclosed.toPlain with form := fun handle hmem => by cases hmem }, hclosed.nested,
    hclosed.modes_eq⟩

theorem endAnchor {anchor : Handle} (hnamed : b.formattingNamed "a" = some anchor) :
    Inside holder modes { b.endFormatting "a" with
      stack := (b.endFormatting "a").stack.erase anchor
      formatting := (b.endFormatting "a").formatting.erase (some anchor) } := by
  have hmem : anchor ∈ sinceMarker b.formatting := List.mem_of_find?_eq_some hnamed
  have hname : b.name anchor = "a" := by
    have hfound := List.find?_some hnamed
    exact beq_iff_eq.mp hfound
  have hformatting : "a" ∈ formattingNames := by decide
  obtain ⟨hended, hgrown⟩ := hb.endFormatting hflow hformatting
  have hlt : anchor < b.store.cells.size :=
    (hb.formatting anchor (Careful.some_mem_of_mem_sinceMarker hmem)).1
  -- Nodes keep their names, so what the end tag has left of the anchor is loose.
  have hloose : IsLoose ((b.endFormatting "a").name anchor) := by
    rw [hgrown.name anchor hlt, hname]
    decide
  have herased := hended.erase hflow fun _ => hloose
  exact herased.setFormatting fun _ hentry => Or.inl (List.erase_subset hentry)

section Read

variable (hholder : holder ∈ modes.1.holders) {read : Option Token} {other : Builder}
  (hread : ∀ token ∈ read, token.IsNative)
include hholder hread

/-- Where content is taken an edit leaves the holder what it is. -/
theorem edit (hedit : Edit read b other) : other.Inside holder modes := by
  cases hedit with
  | flags hcore => exact hb.of_core hcore
  | addText text => exact hb.addText text
  | addMissing handle _ => exact hb.addMissing handle _
  | openElement _ hloose => exact hb.openElement hflow hloose
  | openVoid _ => exact hb.openVoid _
  | openForm _ hname => exact hb.setForm hflow hname
  | openForeign _ _ hown =>
      obtain ⟨tag, hown, hforeign⟩ := hown
      exact absurd hforeign (hread _ hown tag rfl)
  | ask _ _ model => exact ⟨{ hb.toPlain with }, hb.nested, hb.modes_eq⟩
  | pop hloose => exact hb.pop hloose
  | popImplied except => exact hb.popImplied except
  | popThrough hscope hopen hmem hloose hformatting =>
      exact hb.popThrough hflow hscope hmem (hloose _ hmem) hformatting hopen
  | dropForm =>
      exact ⟨{ hb.toPlain with form := fun handle hmem => by cases hmem }, hb.nested, hb.modes_eq⟩
  | closeForm hform => exact hb.closeForm hflow hform
  | mark => exact hb.mark
  | clearToMarker => exact hb.clearToMarker
  | openFormatting _ hname => exact hb.openFormatting hflow hname
  | reconstruct => exact hb.reconstruct hflow
  | endFormatting htag => exact (hb.endFormatting hflow htag).1
  | endAnchor hnamed => exact hb.endAnchor hflow hnamed
  | endOther _ hother =>
      refine hb.endOther ?_
      rintro rfl
      have hmode : b.mode = modes.1 := congrArg Prod.fst hb.modes_eq
      exact hother (hmode ▸ hholder)

theorem edits (hedits : Edits read b other) : other.Inside holder modes :=
  hedits.preserves hb fun hb hedit => hb.edit hflow hholder hread hedit

end Read

end Flow

/-! ## Closing what the mode is for -/

/-- All loose elements are closed. -/
theorem popTo {tags : List String} (hmem : holder ∈ tags) (htags : ∀ tag ∈ tags, ¬ IsLoose tag) :
    (b.popTo tags).Inside holder modes ∧ ∃ rest, (b.popTo tags).stackNames = holder :: rest ∧
      Nested holder true (holder :: rest) := by
  obtain ⟨tight, hnested⟩ := hb.nested
  have hcloses : ∀ tag, IsLoose tag → (!tags.contains tag) = true := fun tag hloose => by
    simpa using fun hin => htags tag hin hloose
  obtain ⟨rest, hrest, htop⟩ :=
    hnested.exists_dropWhile (!tags.contains ·) (by simp [hmem]) hcloses
  have hnames := (stackNames_popTo b tags).trans hrest
  refine ⟨hb.close (List.dropWhile_sublist _) ⟨true, ?_⟩, rest, hnames, htop⟩
  change Nested holder true (b.popTo tags).stackNames
  rw [hnames]
  exact htop

/-- What holds the open elements is closed with what is inside it. -/
theorem popThrough_holder : ∃ rest, Nested holder true (holder :: rest) ∧
    ∀ {base : String}, (∃ tight, Nested base tight rest) →
      (b.popThrough [holder]).Inside base modes := by
  obtain ⟨tight, hnested⟩ := hb.nested
  have hmodal : ∀ tag ∈ [holder], ¬ IsLoose tag := fun tag hmem =>
    List.mem_singleton.mp hmem ▸ hnested.not_isLoose_holder
  obtain ⟨hpopped, rest, hnames, htop⟩ := hb.popTo List.mem_cons_self hmodal
  refine ⟨rest, htop, fun hrest => hpopped.close (List.drop_sublist 1 _) ?_⟩
  rw [List.map_drop, ← stackNames, hnames]
  exact hrest

/-- A block is closed. -/
theorem closeBlock (hblock : holder ∈ ["table", "select"]) :
    ∃ base, base ∉ ["colgroup", "select"] ∧ (b.popThrough [holder]).Inside base modes := by
  obtain ⟨rest, htop, hclosed⟩ := hb.popThrough_holder
  obtain ⟨base, under, hbase, hrest⟩ := htop.under_block hblock
  exact ⟨base, hbase, hclosed ⟨under, hrest⟩⟩

/-- A part of a table is closed. -/
theorem closePart
    (hpart : holder ∈ ["caption", "colgroup", "tbody", "tfoot", "thead", "tr", "td", "th"]) :
    ∃ base, PartOf holder base ∧ (b.popThrough [holder]).Inside base modes := by
  obtain ⟨rest, htop, hclosed⟩ := hb.popThrough_holder
  obtain ⟨base, hbase, hrest⟩ := htop.under_part hpart
  exact ⟨base, hbase, hclosed ⟨true, hrest⟩⟩

/-- After everything in it has been closed, what holds the open elements is innermost. -/
theorem stackNames_of_cleared (hclear : b.Cleared) :
    ∃ rest, b.stackNames = holder :: rest ∧ Nested holder true (holder :: rest) := by
  obtain ⟨tight, hnested⟩ := hb.nested
  obtain ⟨first, rest, hnames⟩ := List.exists_cons_of_ne_nil hnested.ne_nil
  obtain ⟨handle, handles, hstack, hname, -⟩ := List.map_eq_cons_iff.mp hnames
  have hmodal : ¬ IsLoose first := by
    rw [← hname]
    rcases List.mem_append.mp (hclear handle (by rw [hstack]; rfl)) with hmem | hroot
    · exact Mode.not_isLoose_of_mem_holders hmem
    · rw [List.mem_singleton.mp hroot]
      decide
  rw [hnames] at hnested
  obtain rfl := hnested.holder_eq hmodal
  obtain rfl := hnested.tight_of_not_isLoose hmodal
  exact ⟨rest, hnames, hnested⟩

/-- What holds the open elements is in the scope of tables. -/
theorem inScope_holder : b.inScope .table holder = true := by
  obtain ⟨tight, hnested⟩ := hb.nested
  rw [hb.inScope_eq]
  refine hnested.reachesName_holder fun tag hloose _ => ?_
  have htable : tag ≠ "table" := hloose.ne (by decide)
  have hhtml : tag ≠ "html" := hloose.ne (by decide)
  simp [Vocabulary.Scope.bounds, htable, hhtml]

/-- Under everything that is open stands the body. -/
theorem exists_second : ∃ body, b.second? = some body ∧ b.name body = "body" := by
  obtain ⟨tight, hnested⟩ := hb.nested
  obtain ⟨front, hnames, -⟩ := hnested.exists_bottom
  have hsecond : (b.stack.reverse[1]?).map b.name = some "body" := by
    rw [← List.getElem?_map, List.map_reverse, ← stackNames, hnames, List.reverse_append]
    rfl
  obtain ⟨body, hbody, hname⟩ := Option.map_eq_some_iff.mp hsecond
  exact ⟨body, hbody, hname⟩

/-- With the body gone, only the root is left when everything in it is closed. -/
theorem popTo_detach (body : Handle) :
    (Builder.popTo { b with store := b.store.detach body } ["html"]).Plain ∧
      (Builder.popTo { b with store := b.store.detach body } ["html"]).stackNames = ["html"] := by
  have hlabel : ∀ handle, Builder.label { b with store := b.store.detach body } handle =
      b.label handle := fun handle => Store.label_detach ..
  obtain ⟨-, hdetached⟩ := hb.toPlain.of_links rfl (Store.size_detach ..) hlabel
  have hsame : stackNames { b with store := b.store.detach body } = b.stackNames :=
    List.map_congr_left fun handle _ => congrArg Label.tag (hlabel handle)
  obtain ⟨tight, hnested⟩ := hb.nested
  obtain ⟨front, hbottom, hfront⟩ := hnested.exists_bottom
  refine ⟨hdetached.close (List.dropWhile_sublist _), ?_⟩
  rw [stackNames_popTo, hsame, hbottom, List.dropWhile_append_of_pos fun name hmem => by
    simpa using fun heq : name = "html" => hfront (heq ▸ hmem)]
  rfl

end Inside

/-! ### The mode within -/

section Reset

variable {b : Builder} (hb : b.Plain) {handle : Handle} {outer : List Handle} (houter : outer ≠ [])
include hb houter

/-- A loose element is passed over. -/
theorem resetFrom_loose (hloose : IsLoose (b.name handle)) :
    b.resetFrom (handle :: outer) = b.resetFrom outer := by
  obtain ⟨next, rest, rfl⟩ := List.exists_cons_of_ne_nil houter
  have hroots : ∀ tag ∈ fragmentRoots, ¬ IsLoose tag := by decide
  have hroot : (b.label handle).tag ∉ fragmentRoots := fun hmem => hroots _ hmem hloose
  have hexpected : (!fragmentRoots.contains (b.label handle).tag) = true := by simpa using hroot
  have hnone : modeWithin (b.label handle).tag = none := hloose
  conv_lhs => unfold resetFrom
  dsimp only
  rw [expect_eq hexpected, if_neg (not_not_intro (hb.html handle)), hnone]

/-- An element with a mode decides about it. -/
theorem resetFrom_holder {mode : Mode} (hmode : modeWithin (b.name handle) = some mode)
    (hroot : (b.label handle).tag ∉ fragmentRoots) :
    b.resetFrom (handle :: outer) = b.goto mode := by
  obtain ⟨next, rest, rfl⟩ := List.exists_cons_of_ne_nil houter
  have hexpected : (!fragmentRoots.contains (b.label handle).tag) = true := by simpa using hroot
  unfold resetFrom
  dsimp only
  rw [expect_eq hexpected, if_neg (not_not_intro (hb.html handle))]
  split
  next found hfound =>
    cases hmode.symm.trans hfound
    rfl
  next hnone => cases hmode.symm.trans hnone

omit houter in
theorem exists_resetFrom {holder : String} {tight : Bool} {handles : List Handle}
    (hnested : Nested holder tight (handles.map b.name)) (hflow : holder ∉ ["colgroup", "select"]) :
    ∃ mode : Mode, mode.takesContent = true ∧ holder ∈ mode.holders ∧
      b.resetFrom handles = b.goto mode := by
  obtain ⟨front, rest, hnames, hfront, htop⟩ := hnested.exists_top
  have hknown : ∀ name ∈ ["body", "table", "select", "caption", "colgroup", "tbody", "tfoot",
      "thead", "tr", "td", "th"], name ∉ ["colgroup", "select"] → name ∉ fragmentRoots ∧
        (modeWithin name).any (fun mode => mode.takesContent && mode.holders.contains name) =
          true := by decide
  obtain ⟨hroot, hany⟩ := hknown holder hnested.mem_holder hflow
  cases hmode : modeWithin holder with
  | none => rw [hmode] at hany; cases hany
  | some mode =>
      rw [hmode, Option.any_some, Bool.and_eq_true] at hany
      refine ⟨mode, hany.1, List.contains_iff_mem.mp hany.2, ?_⟩
      induction front generalizing handles tight with
      | nil =>
          obtain ⟨handle, outer, rfl, rfl, houter⟩ := List.map_eq_cons_iff.mp hnames
          refine resetFrom_holder hb (fun heq => htop.tail_ne_nil ?_) hmode hroot
          rw [← houter, heq]
          rfl
      | cons first others ih =>
          rw [hnames] at hnested
          obtain ⟨under, hrest, -⟩ := hnested.tail (hfront first List.mem_cons_self)
          obtain ⟨handle, outer, rfl, rfl, houter⟩ := List.map_eq_cons_iff.mp hnames
          have hopen : outer ≠ [] := by
            rintro rfl
            simp at houter
          rw [resetFrom_loose hb hopen (hfront _ List.mem_cons_self)]
          exact ih (houter ▸ hrest) houter fun tag hmem => hfront tag (List.mem_cons_of_mem _ hmem)

end Reset

namespace Inside

variable {holder : String} {modes : Mode × Mode × Mode} {b : Builder}

/-- A selection is in the scope of selections. -/
theorem inScope_select (hb : b.Inside "select" modes) : b.inScope .select "select" = true := by
  obtain ⟨tight, hnested⟩ := hb.nested
  rw [hb.inScope_eq]
  refine hnested.reachesName_holder fun tag hloose hoptions => ?_
  have hknown : ∀ name ∈ ["option", "optgroup"],
      Vocabulary.Scope.bounds .select .html name = false := by decide
  exact hknown tag (hoptions rfl)

/-- In a group of columns nothing is open. -/
theorem exists_stackNames_columns (hb : b.Inside "colgroup" modes) :
    ∃ rest, b.stackNames = "colgroup" :: rest := by
  obtain ⟨tight, hnested⟩ := hb.nested
  obtain ⟨front, rest, hnames, hfront, -⟩ := hnested.exists_top
  rw [hnames] at hnested
  obtain ⟨-, -, -, hcolumns, -⟩ := hnested.drop hfront
  exact ⟨rest, by rw [hnames, hcolumns rfl, List.nil_append]⟩

theorem resetMode (hb : b.Inside holder modes) (hflow : holder ∉ ["colgroup", "select"]) :
    b.resetMode.Held := by
  obtain ⟨tight, hnested⟩ := hb.nested
  obtain ⟨mode, -, hholder, hreset⟩ := exists_resetFrom hb.toPlain hnested hflow
  rw [Builder.resetMode, hreset]
  exact (hb.goto mode).held hholder

/-- A block with a mode of its own is opened. -/
theorem openModal (hb : b.Inside holder modes) (hflow : holder ∉ ["colgroup", "select"])
    {tag : Tag} (htag : tag.name ∈ ["table", "select"]) :
    (b.openElement tag).Inside tag.name modes := by
  obtain ⟨tight, hnested⟩ := hb.nested
  exact hb.openLabel rfl ⟨true, .block htag hflow hnested⟩

end Inside

end Builder

end Winnow.Html
