import Winnow.Proofs.Harmless.Document
import Winnow.Proofs.Harmless.Written
import Winnow.Proofs.Output

/-!
# What comes out does no harm

If scripting is not allowed, the policy keeps no element whose content is read as text and names
its attributes plainly, then the document that is read of what comes out has no script, no event
handler and no dangerous address in it.
-/

namespace Winnow

open Html Markup

namespace Screen

variable {screen : Screen} {output : String}

/-- Of a content that may be read so there comes out markup that does no harm. -/
theorem isMarkup_clean {fragment : String} (hfragment : IsMarkup Source.unread false fragment)
    (hok : screen.clean fragment = .ok output) : IsMarkup Source.harmless true output := by
  obtain ⟨pieces, hfits, hwrite⟩ := exists_fits_of_clean (fun trees htrees => by
    refine all_gives_of_parseFragment
      (Source.steady_follows fun name (hread : IsReadTag name) => hread.not_mem) trivial ?_ htrees
    rw [String.ofList_toList]
    exact hfragment.follows) hok
  exact exists_segments_of_joins hfits ⟨false, false, hwrite⟩

theorem isMarkup_startTag {label : Label} (htag : IsQuietTag label.tag)
    (hattributes : ∀ entry ∈ label.attributes,
      IsPlainName entry.1 ∧ Harmless entry.1 (entry.2.getD "")) :
    IsMarkup Source.harmless true (startTag label.tag label.attributes) :=
  .segment _ (Segment.chars_ofLabel label) (Segment.sound_ofLabel_harmless htag hattributes)

theorem isMarkup_cleanChild {tree : Tree} (hall : tree.All Label.Tame)
    (hok : screen.cleanChild false tree = .ok output) : IsMarkup Source.harmless true output := by
  obtain ⟨label, children⟩ := tree
  obtain ⟨hlabel, hchildren⟩ := Tree.all_node.mp hall
  have hinside := Tree.isMarkup_renderAll hchildren
  unfold cleanChild at hok
  split at hok
  next hpart =>
    obtain ⟨inside, hclean, hresult⟩ := Fault.exists_of_bind_eq_ok hok
    cases hresult
    have helement : label.isElement = true := by
      have hnames : ∀ name ∈ ["head", "body"], Label.isElement { tag := name } = true := by decide
      refine hnames label.tag ?_
      simpa [Tree.label] using (Bool.and_eq_true_iff.mp hpart).1
    obtain ⟨htag, hattributes⟩ := hlabel.of_isElement helement
    rw [Tree.innerHtml_eq_renderAll, Tree.label, Tree.isRawText_of_quiet htag] at hclean
    exact ((isMarkup_startTag htag hattributes).append (isMarkup_clean hinside hclean)).append
      (.endTag htag)
  next =>
    refine isMarkup_clean ?_ hok
    rw [Tree.htmlUnder_eq_render]
    exact Tree.isMarkup_render hlabel hinside

theorem isMarkup_cleanChildren {trees : List Tree} (hall : ∀ tree ∈ trees, tree.All Label.Tame)
    (hok : screen.cleanChildren false trees = .ok output) :
    IsMarkup Source.harmless true output := by
  induction trees generalizing output with
  | nil =>
      cases hok
      exact .empty
  | cons tree rest ih =>
      obtain ⟨hfirst, hrest⟩ := List.forall_mem_cons.mp hall
      obtain ⟨front, hfront, hok⟩ := Fault.exists_of_bind_eq_ok hok
      obtain ⟨back, hback, hresult⟩ := Fault.exists_of_bind_eq_ok hok
      cases hresult
      exact (isMarkup_cleanChild hfirst hfront).append (ih hrest hback)

/-- A tame document is written as markup that does no harm. -/
theorem isMarkup_cleanDocument {document : Tree} (hall : document.All Label.Tame)
    (hok : screen.cleanDocument document = .ok output) : IsMarkup Source.harmless true output := by
  unfold cleanDocument at hok
  split at hok
  next =>
    cases hok
    exact .empty
  next root hroot =>
    obtain ⟨inside, hinside, hresult⟩ := Fault.exists_of_bind_eq_ok hok
    cases hresult
    obtain ⟨label, children⟩ := document
    obtain ⟨-, hbelow⟩ := Tree.all_node.mp hall
    obtain ⟨rootLabel, parts⟩ := root
    obtain ⟨hlabel, hparts⟩ := Tree.all_node.mp (hbelow _ (List.mem_of_find?_eq_some hroot))
    have helement : rootLabel.isElement = true :=
      List.find?_some (p := fun tree : Tree => tree.label.isElement) hroot
    obtain ⟨htag, hattributes⟩ := hlabel.of_isElement helement
    rw [Tree.label, Tree.isRawText_of_quiet htag] at hinside
    exact ((isMarkup_startTag htag hattributes).append
      (isMarkup_cleanChildren hparts hinside)).append (.endTag htag)

end Screen

/-! ## The document that is read -/

variable {policy : Policy}

/-- A pass puts out markup that does no harm. -/
theorem Policy.isMarkup_of_pass (hscripts : policy.config.allowJavaScript = false)
    (hraw : policy.KeepsNoRawText) (hnames : policy.NamesPlainly) {text : String} {pass : Pass}
    (hok : policy.pass text = .ok pass) : IsMarkup Source.harmless true pass.output := by
  obtain ⟨tree, hparse, hok⟩ := Fault.exists_of_bind_eq_ok hok
  obtain ⟨⟨document, tally⟩, henforce, hok⟩ := Fault.exists_of_bind_eq_ok hok
  dsimp only at hok
  rw [hscripts, if_neg Bool.false_ne_true] at hok
  obtain ⟨output, houtput, hresult⟩ := Fault.exists_of_bind_eq_ok hok
  cases hresult
  exact Screen.isMarkup_cleanDocument
    (Tree.tame_of_enforce hscripts hraw hnames hparse (elements_of_parse hparse).1 henforce) houtput

/-- Of markup that does no harm a document is read that does none. -/
theorem Html.all_harmless_of_parse {text : String} {tree : Tree}
    (hmarkup : IsMarkup Source.harmless true text) (hok : parse text = .ok tree) :
    tree.All fun label => label.isElement = true → Text.asciiLower label.tag ≠ "script" ∧
      ∀ entry ∈ label.attributes, Harmless entry.1 (entry.2.getD "") := by
  have hquiet : ∀ name, Source.harmless.tag name → name ∉ textTags :=
    fun name (hread : IsReadTag name) => hread.not_mem
  intro part hmem helement
  obtain ⟨htag, hattributes⟩ := (all_gives_of_parse (Source.steady_follows hquiet)
    hmarkup.follows hok part hmem).of_isElement helement
  have hname : IsQuietTag part.label.tag :=
    htag.of_given (fun name (hread : IsReadTag name) => hread.1) isQuietTag_given
  exact ⟨fun heq => hname.2 (heq ▸ by decide),
    fun entry hentry => (hattributes entry hentry).harmless⟩

/-- While scripting is not allowed, the document that is read of what comes out has no script in
it, no event handler and no dangerous address, whatever the ceiling of the passes is and whatever
attributes the rules name. The policy is one that keeps no element whose content is read as text
and that names its attributes plainly. -/
theorem harmless_of_sanitize {html output : String} {rules config : Value} {tree : Tree}
    (hcompile : Policy.compile rules config = .ok policy)
    (hscripts : policy.config.allowJavaScript = false) (hraw : policy.KeepsNoRawText)
    (hnames : policy.NamesPlainly) (hok : sanitize html rules config = .ok output)
    (hparse : Html.parse output = .ok tree) :
    tree.All fun label => label.isElement = true → Text.asciiLower label.tag ≠ "script" ∧
      ∀ entry ∈ label.attributes, Harmless entry.1 (entry.2.getD "") := by
  obtain ⟨compiled, read, pass, hcompiled, -, hpass, rfl⟩ := exists_pass_of_sanitize hok
  obtain rfl : policy = compiled := Except.ok.inj (hcompile.symm.trans hcompiled)
  exact Html.all_harmless_of_parse (Policy.isMarkup_of_pass hscripts hraw hnames hpass) hparse

/-- One pass, with scripting not allowed. -/
def screenedPass : Value := .mapping [("maxPasses", .int 1)]

/-- Rules that name a handler and an address. -/
def linkRules : Value := elementRules ["p", "a", "p|onclick", "a|href"]

/-- A handler and a dangerous address are left out though the rules name them. -/
theorem harmless_of_sanitize_link :
    sanitize "<p onclick=x><a href='javascript:a'>b" linkRules screenedPass =
      .ok "<html><head></head><body><p><a>b</a></p></body></html>" ∧
    ∃ tree, Html.parse "<html><head></head><body><p><a>b</a></p></body></html>" = .ok tree ∧
      tree.All fun label => label.isElement = true → Text.asciiLower label.tag ≠ "script" ∧
        ∀ entry ∈ label.attributes, Harmless entry.1 (entry.2.getD "") := by
  have hok : sanitize "<p onclick=x><a href='javascript:a'>b" linkRules screenedPass =
      .ok "<html><head></head><body><p><a>b</a></p></body></html>" := by decide +kernel
  have hpolicy : (Policy.compile linkRules screenedPass).toOption.any (fun policy =>
      !policy.config.allowJavaScript && decide policy.KeepsNoRawText &&
        decide policy.NamesPlainly) = true := by decide +kernel
  have hread : (Html.parse "<html><head></head><body><p><a>b</a></p></body></html>").isOk =
      true := by decide +kernel
  refine ⟨hok, ?_⟩
  cases hcompile : Policy.compile linkRules screenedPass with
  | error fault =>
      rw [hcompile] at hpolicy
      cases hpolicy
  | ok policy =>
      rw [hcompile, Except.toOption, Option.any_some] at hpolicy
      simp only [Bool.and_eq_true, Bool.not_eq_true', decide_eq_true_eq] at hpolicy
      obtain ⟨⟨hscripts, hraw⟩, hnames⟩ := hpolicy
      cases hparse : Html.parse "<html><head></head><body><p><a>b</a></p></body></html>" with
      | error fault =>
          rw [hparse] at hread
          cases hread
      | ok tree =>
          exact ⟨tree, rfl, harmless_of_sanitize hcompile hscripts hraw hnames hok hparse⟩

/-- Rules that keep frames, drawings and pictures, and name a handler for another element. -/
def frameRules : Value := elementRules ["svg", "iframe", "img", "b|onclick"]

/-- A drawing with a frame in a part that the rules do not name. -/
def framedPicture : String :=
  "<svg><foreignObject><iframe><img onclick=x></iframe></foreignObject></svg>"

/-- The same with the frame directly in the drawing. -/
def movedPicture : String :=
  "<html><head></head><body><svg><iframe></iframe></svg><img onclick=\"x\"></body></html>"

/-- The content of a frame that comes to stand directly in a drawing is read as markup, and the
screen lets every attribute through that some rule names. -/
theorem not_harmless_frame :
    ¬ ∀ html rules config policy output tree, Policy.compile rules config = .ok policy →
      policy.config.allowJavaScript = false → sanitize html rules config = .ok output →
        Html.parse output = .ok tree → tree.All fun label => label.isElement = true →
          Text.asciiLower label.tag ≠ "script" ∧
            ∀ entry ∈ label.attributes, Harmless entry.1 (entry.2.getD "") := by
  intro hclean
  have hok : sanitize framedPicture frameRules screenedPass = .ok movedPicture := by
    decide +kernel
  have hpolicy : (Policy.compile frameRules screenedPass).toOption.any
      (fun policy => !policy.config.allowJavaScript) = true := by decide +kernel
  have hread : (Html.parse movedPicture).toOption.any (fun tree =>
      tree.preorder.any fun part => part.label.isElement &&
        part.label.attributes.any fun entry => Policy.isHandler (Text.lower entry.1)) = true := by
    decide +kernel
  cases hcompile : Policy.compile frameRules screenedPass with
  | error fault =>
      rw [hcompile] at hpolicy
      cases hpolicy
  | ok policy =>
      rw [hcompile, Except.toOption, Option.any_some, Bool.not_eq_true'] at hpolicy
      cases hparse : Html.parse movedPicture with
      | error fault =>
          rw [hparse] at hread
          cases hread
      | ok tree =>
          rw [hparse, Except.toOption, Option.any_some] at hread
          obtain ⟨part, hpart, hhandler⟩ := List.any_eq_true.mp hread
          obtain ⟨helement, hentries⟩ := Bool.and_eq_true_iff.mp hhandler
          obtain ⟨entry, hentry, hhandler⟩ := List.any_eq_true.mp hentries
          have hharmless := (hclean _ _ _ policy _ tree hcompile hpolicy hok hparse part hpart
            helement).2 entry hentry
          rw [hharmless.handler] at hhandler
          cases hhandler

end Winnow
