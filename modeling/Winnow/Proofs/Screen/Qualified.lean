import Mathlib.Data.List.Basic
import Mathlib.Data.List.Forall2
import Mathlib.Data.List.Nodup
import Winnow.Proofs.Fault
import Winnow.Screen.Document

/-!
# Qualified keys

The attributes of a tag have distinct keys. A key that gets a prefix could become equal to another,
so that one attribute would take the place of the other. That does not happen: the only key that
gets no prefix although its namespace has one is the prefix itself, which is shorter than any name
with the prefix in front. So the tags of a stream have the same attributes after their keys are
qualified as before, and with them the pieces of a fragment that pass a screen.
-/

namespace Winnow.Screen

variable (prefixes : Prefixes)

namespace Key

/-- The prefix of a namespace. To be in the empty one is to be in none. -/
def mark? : Option String → Option String
  | none => none
  | some space => if space.isEmpty then none else prefixes.find? space

theorem qualify_of_mark {key : Key} {mark : String} (hmark : mark? prefixes key.space = some mark) :
    key.qualify prefixes =
      if key.name = mark then key else { key with name := mark ++ ":" ++ key.name } := by
  unfold qualify
  cases hspace : key.space with
  | none =>
      rw [hspace] at hmark
      cases hmark
  | some space =>
      rw [hspace, mark?] at hmark
      split at hmark
      next => cases hmark
      next hnonempty =>
        dsimp only
        rw [if_neg hnonempty, hmark]

theorem qualify_of_mark_eq_none {key : Key} (hmark : mark? prefixes key.space = none) :
    key.qualify prefixes = key := by
  unfold qualify
  cases hspace : key.space with
  | none => rfl
  | some space =>
      rw [hspace, mark?] at hmark
      dsimp only
      split at hmark
      next hempty => rw [if_pos hempty]
      next hnonempty => rw [if_neg hnonempty, hmark]

theorem space_qualify (key : Key) : (key.qualify prefixes).space = key.space := by
  cases hmark : mark? prefixes key.space with
  | none => rw [qualify_of_mark_eq_none prefixes hmark]
  | some mark =>
      rw [qualify_of_mark prefixes hmark]
      split
      next => rfl
      next => rfl

/-- A name with a prefix in front is longer than the prefix. -/
theorem append_ne_mark (mark name : String) : mark ++ ":" ++ name ≠ mark := by
  intro heq
  have hlength := congrArg String.length heq
  rw [String.length_append, String.length_append] at hlength
  change mark.length + 1 + name.length = mark.length at hlength
  omega

/-- In one namespace, distinct names stay distinct. -/
theorem name_eq_of_qualify {key other : Key} (hspace : key.space = other.space)
    (heq : key.qualify prefixes = other.qualify prefixes) : key.name = other.name := by
  cases hmark : mark? prefixes key.space with
  | none =>
      rw [qualify_of_mark_eq_none prefixes hmark,
        qualify_of_mark_eq_none prefixes (hspace ▸ hmark)] at heq
      rw [heq]
  | some mark =>
      -- If one of the names is the prefix and the other gets it, the other becomes longer.
      rw [qualify_of_mark prefixes hmark, qualify_of_mark prefixes (hspace ▸ hmark)] at heq
      have hnames := congrArg Key.name heq
      split at hnames
      next hfirst =>
        split at hnames
        next => exact hnames
        next => exact (append_ne_mark mark other.name (hnames.symm.trans hfirst)).elim
      next =>
        split at hnames
        next hsecond => exact (append_ne_mark mark key.name (hnames.trans hsecond)).elim
        next => exact (String.append_right_inj _).mp hnames

/-- Distinct keys stay distinct. -/
theorem qualify_injective : Function.Injective (qualify prefixes) := by
  intro key other heq
  have hspace : key.space = other.space := by
    rw [← space_qualify prefixes key, heq, space_qualify]
  have hname := name_eq_of_qualify prefixes hspace heq
  obtain ⟨space, name⟩ := key
  cases hspace
  cases hname
  rfl

end Key

namespace Fields

/-- The keys in order. -/
def keys (fields : Fields) : List Key := List.map (·.1) fields

theorem mem_keys_put {fields : Fields} {key other : Key} {value : String}
    (hmem : other ∈ (put key value fields).keys) : other = key ∨ other ∈ fields.keys := by
  induction fields with
  | nil => exact .inl (List.mem_singleton.mp hmem)
  | cons first rest ih =>
      rw [put] at hmem
      split at hmem
      next =>
        obtain heq | hrest := List.mem_cons.mp hmem
        · exact .inl heq
        · exact .inr (List.mem_cons_of_mem _ hrest)
      next =>
        obtain heq | hrest := List.mem_cons.mp hmem
        · exact .inr (heq ▸ List.mem_cons_self)
        · exact (ih hrest).imp_right (List.mem_cons_of_mem _)

theorem nodup_keys_put {fields : Fields} (hnodup : fields.keys.Nodup) (key : Key)
    (value : String) : (put key value fields).keys.Nodup := by
  induction fields with
  | nil => exact List.nodup_singleton key
  | cons first rest ih =>
      obtain ⟨hnew, hrest⟩ := List.nodup_cons.mp hnodup
      rw [put]
      split
      next hfirst => exact List.nodup_cons.mpr ⟨hfirst ▸ hnew, hrest⟩
      next hfirst =>
        refine List.nodup_cons.mpr ⟨fun hmem => ?_, ih hrest⟩
        obtain heq | hmem := mem_keys_put hmem
        · exact hfirst heq
        · exact hnew hmem

theorem nodup_keys_ofPairs (pairs : Fields) : (ofPairs pairs).keys.Nodup := by
  have hfold : ∀ (back front : Fields), front.keys.Nodup →
      (List.foldl (fun fields (field : Key × String) => put field.1 field.2 fields)
        front back).keys.Nodup := by
    intro back
    induction back with
    | nil => exact fun front hnodup => hnodup
    | cons field back ih => exact fun front hnodup => ih _ (nodup_keys_put hnodup _ _)
  exact hfold pairs [] List.nodup_nil

theorem mem_of_mem_put {fields : Fields} {key : Key} {value : String} {field : Key × String}
    (hmem : field ∈ put key value fields) : field = (key, value) ∨ field ∈ fields := by
  induction fields with
  | nil => exact .inl (List.mem_singleton.mp hmem)
  | cons first rest ih =>
      rw [put] at hmem
      split at hmem
      next => exact (List.mem_cons.mp hmem).imp_right (List.mem_cons_of_mem _)
      next =>
        obtain rfl | hrest := List.mem_cons.mp hmem
        · exact .inr List.mem_cons_self
        · exact (ih hrest).imp_right (List.mem_cons_of_mem _)

/-- Every field of a list of pairs is one of the pairs. -/
theorem mem_of_mem_ofPairs {pairs : Fields} {field : Key × String}
    (hmem : field ∈ ofPairs pairs) : field ∈ pairs := by
  have hfold : ∀ back front : Fields,
      field ∈ List.foldl (fun fields (field : Key × String) => put field.1 field.2 fields)
        front back → field ∈ front ∨ field ∈ back := by
    intro back
    induction back with
    | nil => exact fun front hfront => .inl hfront
    | cons pair back ih =>
        intro front hmem
        obtain hput | hback := ih _ hmem
        · obtain rfl | hfront := mem_of_mem_put hput
          · exact .inr List.mem_cons_self
          · exact .inl hfront
        · exact .inr (List.mem_cons_of_mem _ hback)
  exact (hfold pairs [] hmem).resolve_left List.not_mem_nil

theorem put_of_not_mem {fields : Fields} {key : Key} (hnew : key ∉ fields.keys) (value : String) :
    put key value fields = fields ++ [(key, value)] := by
  induction fields with
  | nil => rfl
  | cons first rest ih =>
      rw [keys, List.map_cons, List.mem_cons, not_or] at hnew
      rw [put, if_neg (Ne.symm hnew.1), ih hnew.2]
      rfl

/-- Pairs with distinct keys are fields as they are. -/
theorem ofPairs_of_nodup {pairs : Fields} (hnodup : pairs.keys.Nodup) : ofPairs pairs = pairs := by
  have hfold : ∀ back front : Fields, (keys (front ++ back)).Nodup →
      List.foldl (fun fields (field : Key × String) => put field.1 field.2 fields) front back =
        front ++ back := by
    -- The keys of the pairs still to come are distinct from those already put.
    intro back
    induction back with
    | nil => exact fun front _ => (List.append_nil front).symm
    | cons field back ih =>
        intro front hdistinct
        have hnew : field.1 ∉ front.keys := by
          intro hmem
          rw [keys, List.map_append, List.nodup_append] at hdistinct
          exact hdistinct.2.2 _ hmem _ List.mem_cons_self rfl
        have hnext : (keys (front ++ [field] ++ back)).Nodup := by
          rw [List.append_assoc]
          exact hdistinct
        rw [List.foldl_cons, put_of_not_mem hnew, ih _ hnext, List.append_assoc]
        rfl
  exact hfold pairs [] hnodup

theorem keys_map_qualify (fields : Fields) :
    keys (fields.map fun field => (field.1.qualify prefixes, field.2)) =
      fields.keys.map (Key.qualify prefixes) := by
  simp [keys]

/-- Under distinct keys every attribute stays, in its place and with its value. -/
theorem qualify_of_nodup {fields : Fields} (hnodup : fields.keys.Nodup) :
    fields.qualify prefixes = fields.map fun field => (field.1.qualify prefixes, field.2) := by
  unfold qualify
  apply ofPairs_of_nodup
  rw [keys_map_qualify]
  exact hnodup.map (Key.qualify_injective prefixes)

end Fields

/-! ## Streams -/

namespace Piece

/-- The attributes of a piece. -/
def fields : Piece → Fields
  | .startTag _ fields => fields
  | .emptyTag _ fields => fields
  | _ => []

/-- The piece with other attributes, if it is of a kind that has any. -/
def withFields (fields : Fields) : Piece → Piece
  | .startTag name _ => .startTag name fields
  | .emptyTag name _ => .emptyTag name fields
  | piece => piece

theorem qualify_eq_withFields (piece : Piece) :
    piece.qualify prefixes = piece.withFields (piece.fields.qualify prefixes) := by
  cases piece <;> rfl

theorem fields_qualify (piece : Piece) :
    (piece.qualify prefixes).fields = piece.fields.qualify prefixes := by
  cases piece <;> rfl

theorem withFields_fields (piece : Piece) : piece.withFields piece.fields = piece := by
  cases piece <;> rfl

/-- A piece whose attributes have their keys qualified, one by one, and nothing else changed. -/
structure Requalified (before after : Piece) : Prop where
  kind : after = before.withFields after.fields
  unchanged : before.fields = [] → after = before
  fields : after.fields = before.fields.map fun field => (field.1.qualify prefixes, field.2)
  distinct : after.fields.keys.Nodup

theorem requalified_of_nodup {piece : Piece} (hnodup : piece.fields.keys.Nodup) :
    piece.Requalified prefixes (piece.qualify prefixes) where
  kind := by rw [fields_qualify, ← qualify_eq_withFields]
  unchanged hnone := by
    conv_rhs => rw [← piece.withFields_fields]
    rw [qualify_eq_withFields, hnone]
    rfl
  fields := by rw [fields_qualify, Fields.qualify_of_nodup prefixes hnodup]
  distinct := by
    rw [fields_qualify, Fields.qualify_of_nodup prefixes hnodup, Fields.keys_map_qualify]
    exact hnodup.map (Key.qualify_injective prefixes)

end Piece

/-- Every piece of a stream stays in its place. -/
theorem forall₂_requalified {stream : List Piece}
    (hdistinct : ∀ piece ∈ stream, piece.fields.keys.Nodup) :
    List.Forall₂ (Piece.Requalified prefixes) stream (stream.map (Piece.qualify prefixes)) := by
  rw [List.forall₂_map_right_iff, List.forall₂_same]
  exact fun piece hpiece => Piece.requalified_of_nodup prefixes (hdistinct piece hpiece)

/-- Distinct keys stay distinct when they are qualified, which puts the prefix of its namespace in
front of the name of a key unless it is the name. So each piece of a stream stays in its place,
with as many attributes in the same order and with the same values, and only their keys are
qualified. -/
theorem qualify_stream (stream : List Piece)
    (hdistinct : ∀ piece ∈ stream, piece.fields.keys.Nodup) :
    Function.Injective (Key.qualify prefixes) ∧
    (∀ (key : Key) (mark : String), Key.mark? prefixes key.space = some mark → key.name ≠ mark →
      key.qualify prefixes = { key with name := mark ++ ":" ++ key.name }) ∧
    (∀ key : Key, (∀ mark, Key.mark? prefixes key.space = some mark → key.name = mark) →
      key.qualify prefixes = key) ∧
    List.Forall₂ (Piece.Requalified prefixes) stream (stream.map (Piece.qualify prefixes)) := by
  refine ⟨Key.qualify_injective prefixes, fun key mark hmark hname => ?_, fun key hkey => ?_, ?_⟩
  · rw [Key.qualify_of_mark prefixes hmark, if_neg hname]
  · cases hmark : Key.mark? prefixes key.space with
    | none => exact Key.qualify_of_mark_eq_none prefixes hmark
    | some mark => rw [Key.qualify_of_mark prefixes hmark, if_pos (hkey mark hmark)]
  · exact forall₂_requalified prefixes hdistinct

/-- A name that is the prefix of its namespace stays, even beside the same name with the prefix
in front, and beside the same names without a namespace. -/
theorem qualify_stream_beside :
    let fields : Fields := [(⟨some "n", "p"⟩, "1"), (⟨some "n", "p:p"⟩, "2"), (⟨none, "p"⟩, "3"),
      (⟨some "n", "a"⟩, "4"), (⟨none, "p:a"⟩, "5")]
    let stream : List Piece := [.comment ['p'], .startTag "g" fields, .text ['a'], .endTag "g"]
    (∀ piece ∈ stream, piece.fields.keys.Nodup) ∧
      (stream.map (Piece.qualify [("n", "p")])).map Piece.fields =
        [[], [(⟨some "n", "p"⟩, "1"), (⟨some "n", "p:p:p"⟩, "2"), (⟨none, "p"⟩, "3"),
          (⟨some "n", "p:a"⟩, "4"), (⟨none, "p:a"⟩, "5")], [], []] ∧
      List.Forall₂ (Piece.Requalified [("n", "p")]) stream
        (stream.map (Piece.qualify [("n", "p")])) := by
  intro fields stream
  have hdistinct : ∀ piece ∈ stream, piece.fields.keys.Nodup := by decide
  exact ⟨hdistinct, by decide, (qualify_stream [("n", "p")] stream hdistinct).2.2.2⟩

/-! ## Pieces of a fragment -/

namespace Piece

theorem fields_of_mem_unlessEmpty {make : List Char → Piece}
    (hmake : ∀ data, (make data).fields = []) {data : List Char} {piece : Piece}
    (hmem : piece ∈ unlessEmpty make data) : piece.fields = [] := by
  unfold unlessEmpty at hmem
  split at hmem
  next => cases hmem
  next => rw [List.mem_singleton.mp hmem, hmake]

theorem fields_of_mem_ofText {data : List Char} {piece : Piece} (hmem : piece ∈ ofText data) :
    piece.fields = [] := by
  unfold ofText at hmem
  obtain hmem | hmem := List.mem_append.mp hmem
  · obtain hmem | hmem := List.mem_append.mp hmem
    · exact fields_of_mem_unlessEmpty (fun _ => rfl) hmem
    · exact fields_of_mem_unlessEmpty (fun _ => rfl) hmem
  · exact fields_of_mem_unlessEmpty (fun _ => rfl) hmem

theorem fields_of_mem_cutText {data : List Char} {piece : Piece} (hmem : piece ∈ cutText data) :
    piece.fields = [] := by
  unfold cutText at hmem
  split at hmem
  next => cases hmem
  next start parts _ =>
    obtain hmem | hmem := List.mem_append.mp hmem
    · exact fields_of_mem_unlessEmpty (fun _ => rfl) hmem
    · obtain ⟨part, -, hmem⟩ := List.mem_flatMap.mp hmem
      unfold piecesOfPart at hmem
      split at hmem
      next =>
        obtain rfl | hmem := List.mem_cons.mp hmem
        · split
          next => rfl
          next => rfl
        · exact fields_of_mem_unlessEmpty (fun _ => rfl) hmem
      next => rw [List.mem_singleton.mp hmem]; rfl

theorem nodup_of_fields_eq_nil {piece : Piece} (hnone : piece.fields = []) :
    piece.fields.keys.Nodup := by
  rw [hnone]
  exact List.nodup_nil

mutual

theorem nodup_of_mem_ofTree : ∀ (tree : Tree), ∀ piece ∈ ofTree tree, piece.fields.keys.Nodup
  | .node label children => by
      intro piece hmem
      rw [ofTree] at hmem
      split at hmem
      next => exact nodup_of_fields_eq_nil (fields_of_mem_ofText hmem)
      next =>
        split at hmem
        next => exact nodup_of_fields_eq_nil (by rw [List.mem_singleton.mp hmem]; rfl)
        next =>
          split at hmem
          next => cases hmem
          next =>
            dsimp only at hmem
            split at hmem
            next =>
              rw [List.mem_singleton.mp hmem]
              exact Fields.nodup_keys_ofPairs _
            next =>
              obtain hmem | hmem := List.mem_append.mp hmem
              · obtain rfl | hmem := List.mem_cons.mp hmem
                · exact Fields.nodup_keys_ofPairs _
                · exact nodup_of_mem_ofTrees children piece hmem
              · exact nodup_of_fields_eq_nil (by rw [List.mem_singleton.mp hmem]; rfl)

theorem nodup_of_mem_ofTrees : ∀ (trees : List Tree), ∀ piece ∈ ofTrees trees,
    piece.fields.keys.Nodup
  | [] => by
      intro piece hmem
      cases hmem
  | tree :: rest => by
      intro piece hmem
      rw [ofTrees] at hmem
      obtain hmem | hmem := List.mem_append.mp hmem
      · exact nodup_of_mem_ofTree tree piece hmem
      · exact nodup_of_mem_ofTrees rest piece hmem

end

end Piece

section Passing

variable {screen : Screen}

theorem keys_keptFields_sublist {tag : String} {fields kept : Fields}
    (hkept : keptFields screen tag fields = .ok kept) : kept.keys.Sublist fields.keys := by
  induction fields generalizing kept with
  | nil =>
      cases hkept
      exact List.Sublist.refl _
  | cons field rest ih =>
      obtain ⟨value?, -, hkept⟩ := Fault.exists_of_bind_eq_ok hkept
      obtain ⟨keptRest, hrest, hkept⟩ := Fault.exists_of_bind_eq_ok hkept
      cases value? with
      | none =>
          cases hkept
          exact (ih hrest).cons _
      | some value =>
          cases hkept
          exact (ih hrest).cons_cons _

/-- A screen takes attributes away from a tag and adds none. -/
theorem nodup_of_mem_tag {tag : String} {make : Fields → Piece}
    (hmake : ∀ fields, (make fields).fields = fields) {fields : Fields} {kept : Piece}
    {pieces : List Piece}
    (hpass : (if screen.tags.contains tag then do return [make (← keptFields screen tag fields)]
      else Except.ok []) = .ok pieces)
    (hnodup : fields.keys.Nodup) (hmem : kept ∈ pieces) : kept.fields.keys.Nodup := by
  split at hpass
  next =>
    obtain ⟨keptOnes, hkept, hpieces⟩ := Fault.exists_of_bind_eq_ok hpass
    cases hpieces
    rw [List.mem_singleton.mp hmem, hmake]
    exact hnodup.sublist (keys_keptFields_sublist hkept)
  next =>
    cases hpass
    cases hmem

theorem nodup_of_mem_pass {piece kept : Piece} {pieces : List Piece}
    (hpass : pass screen piece = .ok pieces) (hnodup : piece.fields.keys.Nodup)
    (hmem : kept ∈ pieces) : kept.fields.keys.Nodup := by
  cases piece with
  | startTag name fields => exact nodup_of_mem_tag (fun _ => rfl) hpass hnodup hmem
  | emptyTag name fields => exact nodup_of_mem_tag (fun _ => rfl) hpass hnodup hmem
  | endTag name =>
      cases hpass
      split at hmem
      next => exact Piece.nodup_of_fields_eq_nil (by rw [List.mem_singleton.mp hmem]; rfl)
      next => cases hmem
  | text data =>
      cases hpass
      exact Piece.nodup_of_fields_eq_nil (Piece.fields_of_mem_cutText hmem)
  | comment data =>
      cases hpass
      cases hmem
  | _ =>
      cases hpass
      rw [List.mem_singleton.mp hmem]
      exact hnodup

theorem nodup_of_mem_passAll {stream pieces : List Piece}
    (hpass : passAll screen stream = .ok pieces)
    (hdistinct : ∀ piece ∈ stream, piece.fields.keys.Nodup) :
    ∀ piece ∈ pieces, piece.fields.keys.Nodup := by
  induction stream generalizing pieces with
  | nil =>
      cases hpass
      exact List.forall_mem_nil _
  | cons piece rest ih =>
      obtain ⟨front, hfront, hpass⟩ := Fault.exists_of_bind_eq_ok hpass
      obtain ⟨back, hback, hpass⟩ := Fault.exists_of_bind_eq_ok hpass
      cases hpass
      obtain ⟨hpiece, hrest⟩ := List.forall_mem_cons.mp hdistinct
      intro kept hmem
      obtain hmem | hmem := List.mem_append.mp hmem
      · exact nodup_of_mem_pass hfront hpiece hmem
      · exact ih hback hrest kept hmem

theorem nodup_of_mem_joinTexts {pieces : List Piece}
    (hdistinct : ∀ piece ∈ pieces, piece.fields.keys.Nodup) :
    ∀ piece ∈ joinTexts pieces, piece.fields.keys.Nodup := by
  induction pieces with
  | nil => exact List.forall_mem_nil _
  | cons first rest ih =>
      obtain ⟨hfirst, hrest⟩ := List.forall_mem_cons.mp hdistinct
      have hjoined := ih hrest
      -- A text takes the place of the next one, and neither of them has attributes.
      cases first with
      | text data =>
          rw [joinTexts]
          split
          next next others heq =>
            rw [heq] at hjoined
            exact List.forall_mem_cons.mpr ⟨List.nodup_nil, (List.forall_mem_cons.mp hjoined).2⟩
          next => exact List.forall_mem_cons.mpr ⟨List.nodup_nil, hjoined⟩
      | _ => exact List.forall_mem_cons.mpr ⟨hfirst, hjoined⟩

/-- What is written of a fragment is what passes of it, where no attribute is lost when the keys
are qualified. -/
theorem exists_requalified_of_clean {fragment text : String} (hnonempty : fragment.isEmpty = false)
    (hclean : screen.clean fragment = .ok text) :
    ∃ trees pieces qualified,
      parseFragment screen.tags fragment.toList = .ok trees ∧
      passAll screen (Piece.ofTrees (Tree.joinText (Tree.normalizeAll trees))) = .ok pieces ∧
      List.Forall₂ (Piece.Requalified usualPrefixes) (joinTexts pieces) qualified ∧
      writePieces qualified = .ok text.toList := by
  unfold clean at hclean
  rw [if_neg (by simp [hnonempty])] at hclean
  obtain ⟨trees, htrees, hclean⟩ := Fault.exists_of_bind_eq_ok hclean
  obtain ⟨pieces, hpieces, hclean⟩ := Fault.exists_of_bind_eq_ok hclean
  obtain ⟨written, hwritten, hclean⟩ := Fault.exists_of_bind_eq_ok hclean
  cases hclean
  refine ⟨trees, pieces, _, htrees, hpieces, forall₂_requalified _ ?_, ?_⟩
  · exact nodup_of_mem_joinTexts (nodup_of_mem_passAll hpieces (Piece.nodup_of_mem_ofTrees _))
  · rw [hwritten, String.toList_ofList]

end Passing

end Winnow.Screen
