import Winnow.Proofs.Harmless.Source
import Winnow.Proofs.Screen.Fragment
import Winnow.Proofs.Screen.Qualified
import Winnow.Proofs.Store.FromTree

/-!
# What passes of harmless contents

The content of a harmless document is read as elements with quiet names and with attributes that
are written under plain names. A screen takes some of them away and changes no address.
-/

namespace Winnow

open Html

/-! ## Trees with their texts joined -/

namespace Tree

variable {p : Label → Prop}
  (hjoin : ∀ {label : Label} {text : String}, label.isText = true → p label →
    p { label with text := text })
include hjoin

theorem all_joinText {forest : List Tree} (hall : ∀ tree ∈ forest, tree.All p) :
    ∀ tree ∈ joinText forest, tree.All p := by
  induction forest with
  | nil => exact List.forall_mem_nil _
  | cons first rest ih =>
      obtain ⟨label, children⟩ := first
      obtain ⟨hfirst, hrest⟩ := List.forall_mem_cons.mp hall
      have hjoined := ih hrest
      obtain ⟨hlabel, hchildren⟩ := all_node.mp hfirst
      rw [joinText]
      split
      next next below others heq =>
        rw [heq] at hjoined
        split
        next htext =>
          have hboth : p { label with text := label.text ++ next.text } :=
            hjoin (Bool.and_eq_true_iff.mp htext).1 hlabel
          exact List.forall_mem_cons.mpr ⟨all_node.mpr ⟨hboth, hchildren⟩,
            (List.forall_mem_cons.mp hjoined).2⟩
        next => exact List.forall_mem_cons.mpr ⟨hfirst, hjoined⟩
      next => exact List.forall_mem_singleton.mpr hfirst

theorem all_normalizeAll {forest : List Tree} (hall : ∀ tree ∈ forest, tree.All p) :
    ∀ tree ∈ normalizeAll forest, tree.All p := by
  induction forest using forest_induction with
  | nil => exact List.forall_mem_nil _
  | cons label children rest ihChildren ihRest =>
      obtain ⟨hfirst, hrest⟩ := List.forall_mem_cons.mp hall
      obtain ⟨hlabel, hchildren⟩ := all_node.mp hfirst
      rw [normalizeAll, normalize]
      exact List.forall_mem_cons.mpr
        ⟨all_node.mpr ⟨hlabel, all_joinText hjoin (ihChildren hchildren)⟩, ihRest hrest⟩

end Tree

namespace Screen

/-! ## Keys -/

/-- May an attribute with this key and this value be in the content of a harmless document? A
screen looks at the key to tell whether it changes the value. -/
structure Key.Fits (key : Key) (value : String) : Prop where
  unread : Unread (key.qualify usualPrefixes).name value
  keeps : Text.lower (key.qualify usualPrefixes).name ∈ Url.addressAttributes →
    (key.space.isNone && referringNames.contains key.name) = false ∧ key ≠ styleKey

theorem Key.ofName_of_plain {name : String} (hname : IsPlainName name) :
    Key.ofName name = { space := none, name := name } := by
  have hbrace := hname.brace
  unfold Key.ofName
  split
  next cs hchars =>
    rw [hchars] at hbrace
    exact absurd rfl hbrace
  next => rfl

/-- The key of a name to which the parser gives a namespace gets the name back. -/
theorem Key.qualify_ofName_expanded : ∀ entry ∈ Vocabulary.spacedAttributes,
    ((Key.ofName (Vocabulary.expandedName entry.1)).qualify usualPrefixes).name = entry.1 ∧
      (Key.ofName (Vocabulary.expandedName entry.1)).space.isNone = false := by
  decide +kernel

theorem Key.fits_of_plain {name value : String} (hunread : Unread name value) :
    (Key.ofName name).Fits value := by
  have hothers : ∀ other ∈ "style" :: referringNames,
      Text.lower other ∉ Url.addressAttributes := by decide
  rw [ofName_of_plain hunread.plain]
  refine ⟨hunread, fun haddress => ⟨?_, ?_⟩⟩
  · refine Bool.eq_false_iff.mpr fun hrefers => ?_
    exact hothers name (List.mem_cons_of_mem _ (List.contains_iff_mem.mp hrefers)) haddress
  · intro heq
    exact hothers name ((Key.mk.inj heq).2 ▸ List.mem_cons_self) haddress

theorem Key.fits_ofName {entry : String × Option String}
    (hgives : Source.unread.GivesAttribute entry) :
    (Key.ofName entry.1).Fits (entry.2.getD "") := by
  obtain ⟨name, hunread, rfl | hexpanded⟩ := hgives.unread
  · exact fits_of_plain hunread
  · cases hfind : Vocabulary.spacedAttributes.find? (·.1 == name) with
    | none =>
        rw [Vocabulary.expandedName, hfind] at hexpanded
        rw [hexpanded]
        exact fits_of_plain hunread
    | some known =>
        obtain rfl : known.1 = name := by simpa using List.find?_some hfind
        obtain ⟨hqualified, hspace⟩ :=
          Key.qualify_ofName_expanded known (List.mem_of_find?_eq_some hfind)
        rw [hexpanded]
        refine ⟨hqualified.symm ▸ hunread, fun _ => ⟨by rw [hspace]; rfl, fun heq => ?_⟩⟩
        rw [heq] at hspace
        cases hspace

/-! ## Pieces -/

/-- A piece whose names are written as they are read, with attributes of this kind. Comments do
not pass, so none stands for one. -/
inductive Piece.Fits (p : Key → String → Prop) : Piece → Prop
  | startTag {name : String} {fields : Fields} (hname : IsQuietTag name)
      (hfields : ∀ field ∈ fields, p field.1 field.2) : Fits p (.startTag name fields)
  | emptyTag {name : String} {fields : Fields} (hname : IsQuietTag name)
      (hfields : ∀ field ∈ fields, p field.1 field.2) : Fits p (.emptyTag name fields)
  | endTag {name : String} (hname : IsQuietTag name) : Fits p (.endTag name)
  | text (data : List Char) : Fits p (.text data)
  | space {data : List Char} (hdata : '<' ∉ data) : Fits p (.space data)
  | reference {name : List Char} (hname : '<' ∉ name) : Fits p (.reference name)

namespace Piece

variable {p : Key → String → Prop}

theorem forall_mem_unlessEmpty {q : Piece → Prop} {make : List Char → Piece} {data : List Char}
    (hmake : q (make data)) : ∀ piece ∈ unlessEmpty make data, q piece := by
  unfold unlessEmpty
  split
  · exact List.forall_mem_nil _
  · exact List.forall_mem_singleton.mpr hmake

/-- The white space at the ends of a text holds no bracket. -/
theorem fits_ofText (data : List Char) : ∀ piece ∈ ofText data, piece.Fits p := by
  have hspace : ∀ cs : List Char, '<' ∉ cs.takeWhile isSpace := by
    intro cs hmem
    exact absurd (List.mem_takeWhile_imp hmem) (by decide)
  have hdrop : ∀ cs : List Char,
      cs.drop (Text.dropEndWhile isSpace cs).length = (cs.reverse.takeWhile isSpace).reverse := by
    intro cs
    have hcut : Text.dropEndWhile isSpace cs ++ (cs.reverse.takeWhile isSpace).reverse = cs := by
      rw [Text.dropEndWhile, ← List.reverse_append, List.takeWhile_append_dropWhile,
        List.reverse_reverse]
    have hleft : (Text.dropEndWhile isSpace cs ++ (cs.reverse.takeWhile isSpace).reverse).drop
        (Text.dropEndWhile isSpace cs).length = (cs.reverse.takeWhile isSpace).reverse :=
      List.drop_left
    rwa [hcut] at hleft
  unfold ofText
  refine List.forall_mem_append.mpr ⟨List.forall_mem_append.mpr ⟨?_, ?_⟩, ?_⟩
  · exact forall_mem_unlessEmpty (.space (hspace _))
  · exact forall_mem_unlessEmpty (.text _)
  · refine forall_mem_unlessEmpty (.space ?_)
    rw [hdrop, List.mem_reverse]
    exact hspace _

mutual

/-- The pieces of a tree with such names and attributes. -/
theorem fits_ofTree : ∀ (tree : Tree), tree.All Source.unread.Gives →
    ∀ piece ∈ ofTree tree, (∃ data, piece = .comment data) ∨ piece.Fits Key.Fits
  | .node label children => by
      intro hall
      obtain ⟨hgives, hchildren⟩ := Tree.all_node.mp hall
      rw [ofTree]
      split
      next => exact fun piece hmem => .inr (fits_ofText _ piece hmem)
      next =>
        split
        next => exact List.forall_mem_singleton.mpr (.inl ⟨_, rfl⟩)
        next =>
          split
          next => exact List.forall_mem_nil _
          next helement =>
            obtain ⟨htag, hattributes⟩ := hgives.of_isElement (by simpa using helement)
            have hname : IsQuietTag label.tag :=
              htag.of_given (fun name (hread : IsReadTag name) => hread.1) isQuietTag_given
            have hfields : ∀ field ∈ Fields.ofAttributes label.attributes,
                Key.Fits field.1 field.2 := by
              intro field hmem
              obtain ⟨entry, hentry, rfl⟩ := List.mem_map.mp (Fields.mem_of_mem_ofPairs hmem)
              exact Key.fits_ofName (hattributes entry hentry)
            dsimp only
            split
            next => exact List.forall_mem_singleton.mpr (.inr (.emptyTag hname hfields))
            next =>
              refine List.forall_mem_append.mpr ⟨List.forall_mem_cons.mpr
                ⟨.inr (.startTag hname hfields), fits_ofTrees children hchildren⟩, ?_⟩
              exact List.forall_mem_singleton.mpr (.inr (.endTag hname))

theorem fits_ofTrees : ∀ (trees : List Tree), (∀ tree ∈ trees, tree.All Source.unread.Gives) →
    ∀ piece ∈ ofTrees trees, (∃ data, piece = .comment data) ∨ piece.Fits Key.Fits
  | [] => fun _ => List.forall_mem_nil _
  | tree :: rest => by
      intro hall
      obtain ⟨hfirst, hrest⟩ := List.forall_mem_cons.mp hall
      rw [ofTrees]
      exact List.forall_mem_append.mpr ⟨fits_ofTree tree hfirst, fits_ofTrees rest hrest⟩

end

end Piece

/-! ## What passes -/

section Passing

variable {screen : Screen}

/-- An address is kept as it is. -/
theorem Key.Fits.kept {tag : String} {key : Key} {value kept : String} (hfits : key.Fits value)
    (hok : keptValue screen tag key value = .ok (some kept)) : key.Fits kept := by
  refine ⟨⟨hfits.unread.plain, hfits.unread.handler, fun haddress => ?_⟩, hfits.keeps⟩
  have hsame : kept = value := by
    obtain ⟨hrefers, hstyle⟩ := hfits.keeps haddress
    unfold keptValue at hok
    dsimp only at hok
    rw [hrefers, if_neg Bool.false_ne_true, if_neg hstyle, String.ofList_toList] at hok
    have hlast : ∀ {c d : Bool}, (if c then Except.ok none else if d then .ok none
        else .ok (some value) : Except Fault (Option String)) = .ok (some kept) →
          kept = value := by
      intro c d hok
      split at hok
      next => cases hok
      next =>
        split at hok
        next => cases hok
        next => exact (Option.some.inj (Except.ok.inj hok)).symm
    split at hok
    next => cases hok
    next =>
      split at hok
      next =>
        obtain ⟨passes, -, hok⟩ := Fault.exists_of_bind_eq_ok hok
        split at hok
        next => cases hok
        next => exact hlast hok
      next => exact hlast hok
  rw [hsame]
  exact hfits.unread.address haddress

theorem fits_of_mem_keptFields {tag : String} {fields kept : Fields}
    (hfits : ∀ field ∈ fields, Key.Fits field.1 field.2)
    (hok : keptFields screen tag fields = .ok kept) :
    ∀ field ∈ kept, Key.Fits field.1 field.2 := by
  induction fields generalizing kept with
  | nil =>
      cases hok
      exact List.forall_mem_nil _
  | cons field rest ih =>
      obtain ⟨hfirst, hrest⟩ := List.forall_mem_cons.mp hfits
      obtain ⟨value?, hvalue, hok⟩ := Fault.exists_of_bind_eq_ok hok
      obtain ⟨others, hothers, hresult⟩ := Fault.exists_of_bind_eq_ok hok
      cases value? with
      | none =>
          cases hresult
          exact ih hrest hothers
      | some value =>
          cases hresult
          exact List.forall_mem_cons.mpr ⟨hfirst.kept hvalue, ih hrest hothers⟩

/-- No name of a reference holds a bracket. -/
theorem not_mem_name? {part name : List Char} (hname : Entity.name? part = some name) :
    '<' ∉ name := by
  have hdigits : ∀ (p : Char → Bool) (cs : List Char), p '<' = false → '<' ∉ cs.takeWhile p := by
    intro p cs hp hmem
    rw [List.mem_takeWhile_imp hmem] at hp
    cases hp
  have hnumber : ∀ {marker cs name : List Char} {p : Char → Bool}, '<' ∉ marker → p '<' = false →
      Entity.number? marker p cs = some name → '<' ∉ name := by
    intro marker cs name p hmarker hp hnumber
    have hboth : '<' ∉ marker ++ cs.takeWhile p := by
      rw [List.mem_append]
      exact fun hmem => hmem.elim hmarker (hdigits p cs hp)
    unfold Entity.number? at hnumber
    dsimp only at hnumber
    split at hnumber
    next =>
      cases hnumber
      exact hboth
    next =>
      split at hnumber
      next => cases hnumber
      next =>
        cases hnumber
        exact hboth
    next => cases hnumber
  unfold Entity.name? at hname
  split at hname
  next => exact hnumber (by decide) (by decide) hname
  next => exact hnumber (by decide) (by decide) hname
  next => exact hnumber (by decide) (by decide) hname
  next =>
    dsimp only at hname
    split at hname
    next => cases hname
    next =>
      cases hname
      exact hdigits _ _ (by decide)

theorem fits_cutText {p : Key → String → Prop} (data : List Char) :
    ∀ piece ∈ cutText data, piece.Fits p := by
  unfold cutText
  split
  next => exact List.forall_mem_nil _
  next start parts _ =>
    refine List.forall_mem_append.mpr ⟨Piece.forall_mem_unlessEmpty (.text _), ?_⟩
    intro piece hmem
    obtain ⟨part, -, hpiece⟩ := List.mem_flatMap.mp hmem
    revert piece
    unfold piecesOfPart
    split
    next name hname =>
      refine fun piece _ => List.forall_mem_cons.mpr
        ⟨?_, Piece.forall_mem_unlessEmpty (.text _)⟩ piece
      split
      next => exact .text _
      next => exact .reference (not_mem_name? hname)
    next => exact fun piece _ => List.forall_mem_singleton.mpr (.text _) piece

/-- Of a tag that fits there stays the tag with those of its attributes that are kept, if it
passes. -/
theorem fits_of_pass_tag {name : String} {fields : Fields} {make : Fields → Piece}
    {pieces : List Piece}
    (hmake : ∀ {kept : Fields}, (∀ field ∈ kept, Key.Fits field.1 field.2) →
      (make kept).Fits Key.Fits)
    (hfields : ∀ field ∈ fields, Key.Fits field.1 field.2)
    (hok : (if screen.tags.contains name then do
      return [make (← keptFields screen name fields)] else Except.ok []) = .ok pieces) :
    ∀ kept ∈ pieces, kept.Fits Key.Fits := by
  split at hok
  next =>
    obtain ⟨kept, hkept, hresult⟩ := Fault.exists_of_bind_eq_ok hok
    cases hresult
    exact List.forall_mem_singleton.mpr (hmake (fits_of_mem_keptFields hfields hkept))
  next =>
    cases hok
    exact List.forall_mem_nil _

theorem fits_of_pass {piece : Piece} {pieces : List Piece}
    (hfits : (∃ data, piece = .comment data) ∨ piece.Fits Key.Fits)
    (hok : pass screen piece = .ok pieces) : ∀ kept ∈ pieces, kept.Fits Key.Fits := by
  rcases hfits with ⟨data, rfl⟩ | hfits
  · cases hok
    exact List.forall_mem_nil _
  cases hfits with
  | startTag hname hfields => exact fits_of_pass_tag (.startTag hname) hfields hok
  | emptyTag hname hfields => exact fits_of_pass_tag (.emptyTag hname) hfields hok
  | endTag hname =>
      cases hok
      split
      next => exact List.forall_mem_singleton.mpr (.endTag hname)
      next => exact List.forall_mem_nil _
  | text data =>
      cases hok
      exact fits_cutText data
  | space hdata =>
      cases hok
      exact List.forall_mem_singleton.mpr (.space hdata)
  | reference hname =>
      cases hok
      exact List.forall_mem_singleton.mpr (.reference hname)

theorem fits_of_passAll {stream pieces : List Piece}
    (hfits : ∀ piece ∈ stream, (∃ data, piece = .comment data) ∨ piece.Fits Key.Fits)
    (hok : passAll screen stream = .ok pieces) :
    ∀ kept ∈ pieces, kept.Fits Key.Fits := by
  induction stream generalizing pieces with
  | nil =>
      cases hok
      exact List.forall_mem_nil _
  | cons piece rest ih =>
      obtain ⟨front, hfront, hok⟩ := Fault.exists_of_bind_eq_ok hok
      obtain ⟨back, hback, hresult⟩ := Fault.exists_of_bind_eq_ok hok
      cases hresult
      obtain ⟨hpiece, hrest⟩ := List.forall_mem_cons.mp hfits
      exact List.forall_mem_append.mpr ⟨fits_of_pass hpiece hfront, ih hrest hback⟩

end Passing

theorem fits_joinTexts {p : Key → String → Prop} {pieces : List Piece}
    (hfits : ∀ piece ∈ pieces, piece.Fits p) : ∀ piece ∈ joinTexts pieces, piece.Fits p := by
  induction pieces with
  | nil => exact List.forall_mem_nil _
  | cons first rest ih =>
      obtain ⟨hfirst, hrest⟩ := List.forall_mem_cons.mp hfits
      have hjoined := ih hrest
      cases first with
      | text data =>
          rw [joinTexts]
          split
          next next others heq =>
            rw [heq] at hjoined
            exact List.forall_mem_cons.mpr ⟨.text _, (List.forall_mem_cons.mp hjoined).2⟩
          next => exact List.forall_mem_cons.mpr ⟨.text _, hjoined⟩
      | _ => exact List.forall_mem_cons.mpr ⟨hfirst, hjoined⟩

/-! ## What is written -/

/-- An attribute as it is written. -/
def Key.IsUnread (key : Key) (value : String) : Prop := Unread key.name value

theorem fits_qualify {piece : Piece} (hfits : piece.Fits Key.Fits) :
    (piece.qualify usualPrefixes).Fits Key.IsUnread := by
  have hfields : ∀ {fields : Fields}, (∀ field ∈ fields, Key.Fits field.1 field.2) →
      ∀ field ∈ fields.qualify usualPrefixes, field.1.IsUnread field.2 := by
    intro fields hfields field hmem
    obtain ⟨origin, horigin, rfl⟩ := List.mem_map.mp (Fields.mem_of_mem_ofPairs hmem)
    exact (hfields origin horigin).unread
  cases hfits with
  | startTag hname hold => exact .startTag hname (hfields hold)
  | emptyTag hname hold => exact .emptyTag hname (hfields hold)
  | endTag hname => exact .endTag hname
  | text data => exact .text data
  | space hdata => exact .space hdata
  | reference hname => exact .reference hname

/-- What is written of the content of a harmless document is pieces with attributes that may
stand there. -/
theorem exists_fits_of_clean {screen : Screen} {fragment text : String}
    (hread : ∀ trees, parseFragment screen.tags fragment.toList = .ok trees →
      ∀ tree ∈ trees, tree.All Source.unread.Gives)
    (hok : screen.clean fragment = .ok text) :
    ∃ pieces, (∀ piece ∈ pieces, piece.Fits Key.IsUnread) ∧
      writePieces pieces = .ok text.toList := by
  unfold clean at hok
  split at hok
  next =>
    cases hok
    exact ⟨[], List.forall_mem_nil _, rfl⟩
  next =>
    obtain ⟨trees, htrees, hok⟩ := Fault.exists_of_bind_eq_ok hok
    obtain ⟨pieces, hpieces, hok⟩ := Fault.exists_of_bind_eq_ok hok
    obtain ⟨written, hwritten, hresult⟩ := Fault.exists_of_bind_eq_ok hok
    cases hresult
    refine ⟨_, ?_, by rw [hwritten, String.toList_ofList]⟩
    have hjoin : ∀ {label : Label} {text : String}, label.isText = true →
        Source.unread.Gives label → Source.unread.Gives { label with text := text } :=
      fun htext _ => .text (beq_iff_eq.mp htext)
    have hjoined := Tree.all_joinText hjoin (Tree.all_normalizeAll hjoin (hread trees htrees))
    have hfits := fits_joinTexts (fits_of_passAll (Piece.fits_ofTrees _ hjoined) hpieces)
    intro piece hmem
    obtain ⟨origin, horigin, rfl⟩ := List.mem_map.mp hmem
    exact fits_qualify (hfits origin horigin)

end Screen

end Winnow
