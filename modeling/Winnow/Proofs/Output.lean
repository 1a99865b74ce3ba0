import Winnow.Proofs.Ceiling
import Winnow.Proofs.Enforcement.Whole
import Winnow.Proofs.Html.Rooted.Run
import Winnow.Proofs.Policy

/-!
# What comes out is a whole document

Every document that is read has a root and a head in it, and after the head a body unless the text
mentions frame sets, which take the place of the body. A pass keeps these elements, and whichever
way it writes the document, it writes their tags.
-/

namespace Winnow

open Markup

/-- Every document that is read is whole. -/
theorem Html.whole_of_parse {text : String} {tree : Tree} (hok : parse text = .ok tree) :
    Nonempty (tree.Whole (decide (MentionsFrames text.toList))) := by
  obtain ⟨b, ⟨root, parts, hsupplied, hcount⟩, rfl⟩ :=
    exists_whole_of_parse hok fun hmentions => decide_eq_true hmentions
  exact hsupplied.grounded.whole_toTree hsupplied.hosts hcount

/-! ## Screened documents -/

namespace Screen

variable {screen : Screen} {raw : Bool} {output : String}

/-- A head or a body is written with both its tags. -/
theorem exists_of_cleanChild {tree : Tree} (htag : tree.label.tag ∈ ["head", "body"])
    (hspace : tree.label.space = .html) (hok : screen.cleanChild raw tree = .ok output) :
    ∃ inside, output = startTag tree.label.tag tree.label.attributes ++ inside ++
      endTag tree.label.tag := by
  have hknown : ∀ name ∈ ["head", "body"], (name == "head" || name == "body") = true := by decide
  have hpart : isPart tree.label = true := by
    rw [isPart, hknown _ htag, hspace]
    rfl
  rw [cleanChild, if_pos hpart] at hok
  obtain ⟨inside, -, hresult⟩ := Fault.exists_of_bind_eq_ok hok
  cases hresult
  exact ⟨inside, rfl⟩

theorem lists_of_cleanChildren {parts children : List Tree} (hsublist : parts.Sublist children)
    (hparts : ∀ tree ∈ parts, tree.label.tag ∈ ["head", "body"] ∧ tree.label.space = .html)
    (hok : screen.cleanChildren raw children = .ok output) : Lists parts output := by
  induction hsublist generalizing output with
  | slnil => exact .nil _
  | cons tree hsublist ih =>
      obtain ⟨first, -, hok⟩ := Fault.exists_of_bind_eq_ok hok
      obtain ⟨second, hsecond, hresult⟩ := Fault.exists_of_bind_eq_ok hok
      cases hresult
      exact (ih hparts hsecond).prepend first
  | @cons_cons parts children tree hsublist ih =>
      obtain ⟨htag, hspace⟩ := hparts tree List.mem_cons_self
      obtain ⟨first, hfirst, hok⟩ := Fault.exists_of_bind_eq_ok hok
      obtain ⟨second, hsecond, hresult⟩ := Fault.exists_of_bind_eq_ok hok
      cases hresult
      obtain ⟨inside, rfl⟩ := exists_of_cleanChild htag hspace hfirst
      have hrest := ih (fun other hmem => hparts other (List.mem_cons_of_mem _ hmem)) hsecond
      have hlists := @Lists.cons tree parts second "" inside hrest
      rwa [String.empty_append] at hlists

/-- Of a whole document nothing is written beside its root. -/
theorem writes_cleanDocument {frames : Bool} {document : Tree} (whole : document.Whole frames)
    (hok : screen.cleanDocument document = .ok output) : whole.Writes [] [] output := by
  have hroot : document.rootElement? = some whole.root := by
    rw [Tree.rootElement?, ← List.head?_filter, whole.single]
    rfl
  rw [cleanDocument, hroot] at hok
  obtain ⟨inside, hinside, hresult⟩ := Fault.exists_of_bind_eq_ok hok
  cases hresult
  refine ⟨inside, lists_of_cleanChildren whole.sublist whole.isHtml_parts hinside, ?_⟩
  rw [whole.tag_root, Tree.renderAll, String.empty_append, String.append_empty]

end Screen

/-! ## Passes -/

/-- What a pass puts out is the markup of a whole document. While scripting is not allowed
nothing stands beside its root. -/
theorem Policy.writes_of_pass {policy : Policy} {text : String} {pass : Pass}
    (hok : policy.pass text = .ok pass) :
    ∃ tree document, Html.parse text = .ok tree ∧
      tree.enforce policy = .ok (document, pass.tally) ∧
      ∃ (whole : document.Whole (decide (Html.MentionsFrames text.toList)))
        (before after : List Tree), whole.Writes before after pass.output ∧
          if policy.config.allowJavaScript then document.children = before ++ whole.root :: after
          else before = [] ∧ after = [] := by
  obtain ⟨tree, hparse, hok⟩ := Fault.exists_of_bind_eq_ok hok
  obtain ⟨⟨document, tally⟩, henforce, hok⟩ := Fault.exists_of_bind_eq_ok hok
  obtain ⟨read⟩ := Html.whole_of_parse hparse
  obtain ⟨⟨whole⟩, htag⟩ := read.enforce (Html.elements_of_parse hparse).1 henforce
  -- With scripting the document is written as it is, without it the screen writes the root alone.
  dsimp only at hok
  split at hok
  next hscripts =>
    cases hok
    obtain ⟨before, after, hchildren, hwrites⟩ := whole.writes_html htag
    exact ⟨tree, document, hparse, henforce, whole, before, after, hwrites,
      by rwa [if_pos hscripts]⟩
  next hscripts =>
    obtain ⟨output, houtput, hresult⟩ := Fault.exists_of_bind_eq_ok hok
    cases hresult
    refine ⟨tree, document, hparse, henforce, whole, [], [],
      Screen.writes_cleanDocument whole houtput, ?_⟩
    rw [if_neg hscripts]
    exact ⟨rfl, rfl⟩

/-- The result of sanitizing is the output of a pass over the text that the passes before it have
left. -/
theorem exists_pass_of_sanitize {html output : String} {rules config : Value}
    (hok : sanitize html rules config = .ok output) :
    ∃ policy read pass, Policy.compile rules config = .ok policy ∧
      policy.afterPasses (policy.config.maxPasses - 1) html = .ok read ∧
      policy.pass read = .ok pass ∧ pass.output = output := by
  obtain ⟨policy, hcompile, hrun⟩ := Fault.exists_of_bind_eq_ok hok
  have hceiling : 1 ≤ policy.config.maxPasses := by
    obtain ⟨items, -, hcompile⟩ := Fault.exists_of_bind_eq_ok hcompile
    obtain ⟨switches, hswitches, hresult⟩ := Fault.exists_of_bind_eq_ok hcompile
    cases hresult
    rw [Policy.config_ofRules]
    exact Config.one_le_maxPasses hswitches
  -- The last pass is split off from those before it. A text that has come to rest is passed over
  -- again without a change, so it makes no difference that passes may have been left out.
  rw [Policy.sanitize_eq_afterPasses, ← Nat.sub_add_cancel hceiling, Policy.afterPasses_add] at hrun
  obtain ⟨read, hread, hlast⟩ := Fault.exists_of_bind_eq_ok hrun
  obtain ⟨pass, hpass, hresult⟩ := Fault.exists_of_bind_eq_ok hlast
  cases hresult
  exact ⟨policy, read, pass, hcompile, hread, hpass, rfl⟩

/-- Every document that is read is whole, and what sanitizing puts out is the markup of a whole
document, that of the last pass. It has a body after the head unless the text that is read
mentions frame sets. -/
theorem whole_throughout (html : String) :
    (∀ tree, Html.parse html = .ok tree →
      Nonempty (tree.Whole (decide (Html.MentionsFrames html.toList)))) ∧
    ∀ rules config output, sanitize html rules config = .ok output →
      ∃ policy read tree document tally, Policy.compile rules config = .ok policy ∧
        policy.afterPasses (policy.config.maxPasses - 1) html = .ok read ∧
        Html.parse read = .ok tree ∧ tree.enforce policy = .ok (document, tally) ∧
        ∃ (whole : document.Whole (decide (Html.MentionsFrames read.toList)))
          (before after : List Tree), whole.Writes before after output ∧
            if policy.config.allowJavaScript then document.children = before ++ whole.root :: after
            else before = [] ∧ after = [] := by
  refine ⟨fun tree hok => Html.whole_of_parse hok, fun rules config output hok => ?_⟩
  obtain ⟨policy, read, pass, hcompile, hread, hpass, rfl⟩ := exists_pass_of_sanitize hok
  obtain ⟨tree, document, hparse, henforce, hwrites⟩ := Policy.writes_of_pass hpass
  exact ⟨policy, read, tree, document, pass.tally, hcompile, hread, hparse, henforce, hwrites⟩

/-- A paragraph is written in the body of a whole document, with nothing beside the root. -/
theorem whole_throughout_paragraph :
    sanitize "<p>a" (elementRules ["p"]) singlePass =
        .ok "<html><head></head><body><p>a</p></body></html>" ∧
      ∃ policy read tree document tally,
        Policy.compile (elementRules ["p"]) singlePass = .ok policy ∧
        policy.afterPasses (policy.config.maxPasses - 1) "<p>a" = .ok read ∧
        Html.parse read = .ok tree ∧ tree.enforce policy = .ok (document, tally) ∧
        ∃ (whole : document.Whole (decide (Html.MentionsFrames read.toList)))
          (before after : List Tree),
          whole.Writes before after "<html><head></head><body><p>a</p></body></html>" ∧
            if policy.config.allowJavaScript then document.children = before ++ whole.root :: after
            else before = [] ∧ after = [] := by
  have hok : sanitize "<p>a" (elementRules ["p"]) singlePass =
      .ok "<html><head></head><body><p>a</p></body></html>" := by decide +kernel
  exact ⟨hok, (whole_throughout "<p>a").2 _ _ _ hok⟩

/-- A frame set takes the place of the body. -/
theorem not_whole_frameset :
    ¬ ∀ html tree, Html.parse html = .ok tree → Nonempty (tree.Whole false) := by
  intro hwhole
  have hread : ((Html.parse "<frameset></frameset>").toOption.bind fun tree =>
      tree.rootElement?.map fun root => root.children.map (·.label.tag)) =
        some ["head", "frameset"] := by decide +kernel
  cases hparse : Html.parse "<frameset></frameset>" with
  | error fault =>
      rw [hparse] at hread
      cases hread
  | ok tree =>
      obtain ⟨whole⟩ := hwhole _ tree hparse
      have hroot : tree.rootElement? = some whole.root := by
        rw [Tree.rootElement?, ← List.head?_filter, whole.single]
        rfl
      rw [hparse, Except.toOption, Option.bind_some, hroot, Option.map_some,
        Option.some_inj] at hread
      have hnames := whole.sublist.map (·.label.tag)
      rw [whole.tag_parts, hread] at hnames
      exact absurd hnames (by decide)

end Winnow
