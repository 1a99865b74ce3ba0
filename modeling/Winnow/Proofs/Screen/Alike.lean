import Winnow.Proofs.Policy.Alike
import Winnow.Screen.Document

/-!
# Screens that let the same through

A screen asks of a name only whether it is listed. So the order of its lists makes no difference
to what it lets through, nor do repetitions in them.
-/

namespace Winnow.Screen

open Html

/-! ## Reading with the same known elements -/

namespace Sieve

/-- Are the same elements known, and has the same been met? -/
structure Alike (sieve other : Sieve) : Prop where
  tags : sieve.tags.toFinset = other.tags.toFinset
  pending : sieve.pending = other.pending
  metTag : sieve.metTag = other.metTag

namespace Alike

variable {sieve other : Sieve} (halike : sieve.Alike other)
include halike

theorem knows (name : String) : sieve.knows name = other.knows name :=
  contains_congr halike.tags _

theorem take (lexer : Lexer) (token : Token) :
    (sieve.take lexer token).1.Alike (other.take lexer token).1 ∧
      (sieve.take lexer token).2 = (other.take lexer token).2 := by
  have hknows := halike.knows
  obtain ⟨htags, hpending, hmet⟩ := halike
  cases token with
  | startTag tag =>
      refine ⟨⟨htags, rfl, rfl⟩, ?_⟩
      unfold Sieve.take Sieve.repair Sieve.instead
      simp only [hknows, hpending, hmet]
  | endTag name =>
      refine ⟨⟨htags, rfl, rfl⟩, ?_⟩
      unfold Sieve.take
      simp only [hknows]
  | comment data =>
      refine ⟨⟨htags, rfl, hmet⟩, ?_⟩
      unfold Sieve.take Sieve.isFalseEnd
      simp only [hpending, contains_congr htags]
  | problem problem => exact ⟨⟨htags, rfl, hmet⟩, rfl⟩
  | _ => exact ⟨⟨htags, rfl, hmet⟩, rfl⟩

theorem takeAll (lexer : Lexer) (tokens : List Token) :
    (sieve.takeAll lexer tokens).1.Alike (other.takeAll lexer tokens).1 ∧
      (sieve.takeAll lexer tokens).2 = (other.takeAll lexer tokens).2 := by
  induction tokens generalizing sieve other with
  | nil => exact ⟨halike, rfl⟩
  | cons token rest ih =>
      obtain ⟨hnext, htoken⟩ := halike.take lexer token
      obtain ⟨hlast, hrest⟩ := ih hnext
      refine ⟨hlast, ?_⟩
      change (sieve.take lexer token).2 :: ((sieve.take lexer token).1.takeAll lexer rest).2 =
        (other.take lexer token).2 :: ((other.take lexer token).1.takeAll lexer rest).2
      rw [htoken, hrest]

theorem finish (lexer : Lexer) : sieve.finish lexer = other.finish lexer := by
  rw [Sieve.finish, Sieve.finish, Sieve.endsInText, Sieve.endsInText, halike.pending]

theorem buildFragment (lexer : Lexer) (b : Builder) (fuel : Nat) :
    buildFragment sieve lexer b fuel = buildFragment other lexer b fuel := by
  induction fuel generalizing sieve other lexer b with
  | zero => rw [Screen.buildFragment, Screen.buildFragment, halike.finish]
  | succ fuel ih =>
      rw [Screen.buildFragment, Screen.buildFragment, halike.finish]
      split
      next => rfl
      next =>
        split
        next => rfl
        next tokens next _ =>
          obtain ⟨hnext, htokens⟩ := halike.takeAll next tokens
          dsimp only
          rw [htokens]
          exact ih hnext _ _

end Alike

end Sieve

theorem parseFragment_congr {tags others : List String} (hsame : tags.toFinset = others.toFinset)
    (text : List Char) : parseFragment tags text = parseFragment others text := by
  have hlowered : (tags.map Text.lower).toFinset = (others.map Text.lower).toFinset := by
    ext name
    simp only [List.mem_toFinset, List.mem_map, mem_congr hsame]
  have hsieve : Sieve.Alike { tags := tags.map Text.lower } { tags := others.map Text.lower } :=
    ⟨hlowered, rfl, rfl⟩
  unfold parseFragment
  simp only [hsieve.buildFragment]

/-! ## Styles with the same properties -/

namespace Style

open Css

variable {properties others : List String} (hsame : properties.toFinset = others.toFinset)
include hsame

theorem keepFrom_congr (last : Option Node) (nodes : List Node) :
    keepFrom properties last nodes = keepFrom others last nodes := by
  induction nodes generalizing last with
  | nil => rfl
  | cons node rest ih =>
      cases node with
      | declaration name value important =>
          have happended : (properties ++ paintProperties).toFinset =
              (others ++ paintProperties).toFinset := toFinset_append_congr hsame rfl
          simp only [keepFrom, contains_congr happended, ih]
      | _ => simp only [keepFrom, ih]

theorem screened_congr (css : List Char) : screened properties css = screened others css := by
  unfold screened keep
  simp only [keepFrom_congr hsame]

end Style

/-! ## Documents -/

/-- Do the same names pass? -/
structure Alike (screen other : Screen) : Prop where
  tags : screen.tags.toFinset = other.tags.toFinset
  attributes : screen.attributes.toFinset = other.attributes.toFinset
  properties : screen.properties.toFinset = other.properties.toFinset

namespace Alike

variable {screen other : Screen} (halike : screen.Alike other)
include halike

theorem keptFields (tag : String) (fields : Fields) :
    keptFields screen tag fields = keptFields other tag fields := by
  have hvalue : keptValue screen tag = keptValue other tag := by
    funext key value
    unfold keptValue
    simp only [contains_congr halike.attributes, Style.screened_congr halike.properties]
  induction fields with
  | nil => rfl
  | cons field rest ih => rw [Screen.keptFields, Screen.keptFields, hvalue, ih]

theorem pass (piece : Piece) : pass screen piece = pass other piece := by
  cases piece with
  | startTag name fields =>
      simp only [Screen.pass, contains_congr halike.tags, halike.keptFields]
  | emptyTag name fields =>
      simp only [Screen.pass, contains_congr halike.tags, halike.keptFields]
  | endTag name => simp only [Screen.pass, contains_congr halike.tags]
  | _ => rfl

theorem passAll (pieces : List Piece) : passAll screen pieces = passAll other pieces := by
  induction pieces with
  | nil => rfl
  | cons piece rest ih => rw [Screen.passAll, Screen.passAll, halike.pass, ih]

theorem clean (fragment : String) : clean screen fragment = clean other fragment := by
  unfold Screen.clean
  simp only [parseFragment_congr halike.tags, halike.passAll]

theorem cleanChildren (raw : Bool) (children : List Tree) :
    cleanChildren screen raw children = cleanChildren other raw children := by
  have hchild : cleanChild screen raw = cleanChild other raw := by
    funext tree
    unfold cleanChild
    simp only [halike.clean]
  induction children with
  | nil => rfl
  | cons tree rest ih => rw [Screen.cleanChildren, Screen.cleanChildren, hchild, ih]

/-- Both screens leave the same of a document. -/
theorem cleanDocument (document : Tree) :
    cleanDocument screen document = cleanDocument other document := by
  unfold Screen.cleanDocument
  simp only [halike.cleanChildren]

end Alike

end Winnow.Screen

namespace Winnow

theorem Screen.casedForms_congr {names others : List String}
    (hsame : names.toFinset = others.toFinset) (cased : List String) :
    casedForms cased names = casedForms cased others := by
  unfold casedForms
  simp only [contains_congr hsame]

theorem Screen.toFinset_localNames {names others : List String}
    (hsame : names.toFinset = others.toFinset) :
    (localNames names).toFinset = (localNames others).toFinset := by
  ext name
  simp only [localNames, List.mem_toFinset, List.mem_filterMap, mem_congr hsame]

/-- Policies that say the same have screens that let the same through. -/
theorem Policy.Alike.screen {policy other : Policy} (halike : policy.Alike other)
    (hpolicy : policy.Keyed) (hother : other.Keyed) : policy.screen.Alike other.screen := by
  constructor
  · have hbudgeted := (halike.perm_tagBudget hpolicy hother).filter fun entry => 0 < entry.2
    have hnames := List.toFinset_eq_of_perm _ _
      (((hbudgeted.map (·.1)).append_right structuralTags).filter fun tag =>
        other.config.allowJavaScript || tag != "script")
    change policy.screenTags.toFinset = other.screenTags.toFinset
    unfold screenTags
    dsimp only
    rw [halike.config, toFinset_distinct, toFinset_distinct, Screen.casedForms_congr hnames]
    exact toFinset_append_congr hnames rfl
  · have hlisted := halike.attrAllow.toFinset_flatMap hpolicy.attrAllow hother.attrAllow
    change policy.screenAttributes.toFinset = other.screenAttributes.toFinset
    unfold screenAttributes
    dsimp only
    rw [halike.config, toFinset_distinct, toFinset_distinct]
    generalize (if other.config.allowCommonAttributes = true then _ else _ : List String) =
      conventional
    have hnames := toFinset_append_congr hlisted (rfl : conventional.toFinset = _)
    have hall := toFinset_append_congr hnames (Screen.toFinset_localNames hnames)
    rw [Screen.casedForms_congr hall]
    exact toFinset_append_congr hall rfl
  · change (distinct _).toFinset = (distinct _).toFinset
    rw [toFinset_distinct, toFinset_distinct]
    exact halike.styleAllow.toFinset_flatMap hpolicy.styleAllow hother.styleAllow

end Winnow
