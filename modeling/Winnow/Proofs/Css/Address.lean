import Winnow.Css.Filter
import Winnow.Proofs.Css.Property
import Winnow.Proofs.Css.Value

/-!
# Addresses show in a text

However deep an address stands among nodes, the text that they are written as shows it: its mark
stands in the text, in small letters or capitals, and trimming the text does not take it away.
-/

namespace Winnow.Css

/-- What an address starts with. -/
def urlMark : List Char := "url(".toList

theorem isNameStart_of_lowerLetter {c : Char} (hc : isSmallLetter (Node.lowerLetter c) = true) :
    isNameStart c = true := by
  unfold Node.lowerLetter at hc
  split at hc
  next hcapital => simp [isNameStart, Text.isAsciiLetter, hcapital]
  next => exact isNameStart_of_isSmallLetter hc

theorem writeIdent_of_isNameStart {c : Char} {cs : List Char} (hc : isNameStart c = true)
    (hcs : ∀ d ∈ cs, isNameStart d = true) : writeIdent (c :: cs) = c :: cs := by
  have hhyphen : c ≠ '-' := by
    rintro rfl
    cases hc
  simp [writeIdent, hhyphen,
    writePlainIdent_eq hc fun d hmem => isNameChar_of_isNameStart (hcs d hmem)]

/-- The name of a function that takes an address is written as it is. -/
theorem writeIdent_of_urlName {name : List Char} (hname : Node.lowerName name = Node.urlName) :
    writeIdent name = name := by
  have hstart : ∀ c ∈ name, isNameStart c = true := by
    intro c hmem
    have hlower : Node.lowerLetter c ∈ Node.urlName := by
      rw [← hname]
      exact List.mem_map_of_mem hmem
    have hsmall : Node.urlName.all isSmallLetter = true := by decide
    exact isNameStart_of_lowerLetter (List.all_eq_true.mp hsmall _ hlower)
  cases name with
  | nil => cases hname
  | cons c cs =>
      obtain ⟨hc, hcs⟩ := List.forall_mem_cons.mp hstart
      exact writeIdent_of_isNameStart hc hcs

/-! ## In the text of nodes -/

/-- An address stands in the text. -/
def ShowsAddress (text : List Char) : Prop := urlMark <:+: Node.lowerName text

instance (text : List Char) : Decidable (ShowsAddress text) :=
  inferInstanceAs (Decidable (urlMark <:+: Node.lowerName text))

theorem ShowsAddress.of_within {text whole : List Char} (hshows : ShowsAddress text)
    (hwithin : text <:+: whole) : ShowsAddress whole :=
  hshows.trans (hwithin.map Node.lowerLetter)

theorem Node.lowerName_append (front back : List Char) :
    lowerName (front ++ back) = lowerName front ++ lowerName back :=
  List.map_append

theorem showsAddress_url (rest : List Char) : ShowsAddress ("url(".toList ++ rest) :=
  ⟨[], Node.lowerName rest, rfl⟩

theorem showsAddress_call {name : List Char} (hname : Node.lowerName name = Node.urlName)
    (rest : List Char) : ShowsAddress (writeIdent name ++ '(' :: rest) := by
  refine ⟨[], Node.lowerName rest, ?_⟩
  rw [writeIdent_of_urlName hname, Node.lowerName_append, hname]
  rfl

mutual

theorem showsAddress_write (node : Node) (hurl : Node.holdsAt Node.isUrl node = true)
    (hmade : Node.holdsAt Node.isCompound node = false) : ShowsAddress node.write := by
  match node with
  | .token t =>
      match t, hurl with
      | .url text closed, _ =>
          rw [Node.write, Token.write, List.append_assoc]
          exact showsAddress_url _
  | .block bracket content =>
      have hcontent := showsAddress_writeFrom none content
        (by simpa [Node.holdsAt, Node.isUrl] using hurl)
        (by simpa [Node.holdsAt, Node.isCompound] using hmade)
      exact hcontent.of_within ⟨[bracket.opening], [bracket.closing], by simp [Node.write]⟩
  | .function name arguments =>
      rw [Node.write, List.append_assoc]
      rw [Node.holdsAt, Bool.or_eq_true] at hurl
      rcases hurl with hname | harguments
      · rw [List.cons_append]
        exact showsAddress_call (beq_iff_eq.mp hname) _
      · have hshows := showsAddress_writeFrom none arguments harguments
          (by simpa [Node.holdsAt, Node.isCompound] using hmade)
        exact hshows.of_within ⟨writeIdent name ++ ['('], _, by
          rw [List.append_assoc, List.append_assoc, List.singleton_append, List.cons_append]⟩
  | .declaration _ _ _ => simp [Node.holdsAt, Node.isCompound] at hmade
  | .rule _ _ => simp [Node.holdsAt, Node.isCompound] at hmade
  | .atRule _ _ _ => simp [Node.holdsAt_eq, Node.isCompound] at hmade

theorem showsAddress_writeFrom (before : Option Shape) (nodes : List Node)
    (hurl : Node.holdsIn Node.isUrl nodes = true)
    (hmade : Node.holdsIn Node.isCompound nodes = false) : ShowsAddress (writeFrom before nodes) := by
  match nodes with
  | node :: rest =>
      rw [Node.holdsIn, Bool.or_eq_false_iff] at hmade
      rw [Node.holdsIn, Bool.or_eq_true] at hurl
      rw [writeFrom.eq_def]
      dsimp only
      rcases hurl with hnode | hrest
      · exact (showsAddress_write node hnode hmade.1).of_within
          ⟨separator before node, _, by rw [List.append_assoc (_ ++ _)]⟩
      · exact (showsAddress_writeFrom (some node.shape) rest hrest hmade.2).of_within
          (List.suffix_append _ _).isInfix

end

/-! ## In a trimmed text -/

theorem infix_of_append_right {text back part : List Char} (hpart : part <:+: text ++ back)
    (hne : part ≠ []) (hback : ∀ c ∈ back, c ∉ part) : part <:+: text := by
  induction back using List.reverseRecOn with
  | nil => rwa [List.append_nil] at hpart
  | append_singleton back c ih =>
      obtain ⟨hfront, hc⟩ := List.forall_mem_append.mp hback
      have hc : c ∉ part := hc c (List.mem_singleton_self c)
      refine ih ?_ hfront
      rw [← List.append_assoc] at hpart
      rcases List.infix_concat_iff.mp hpart with hsuffix | hwithin
      · rcases List.suffix_concat_iff.mp hsuffix with rfl | ⟨others, rfl, -⟩
        · exact absurd rfl hne
        · exact absurd (by simp) hc
      · exact hwithin

theorem infix_of_append_left {front text part : List Char} (hpart : part <:+: front ++ text)
    (hne : part ≠ []) (hfront : ∀ c ∈ front, c ∉ part) : part <:+: text := by
  rw [← List.reverse_infix, List.reverse_append] at hpart
  have hwithin := infix_of_append_right hpart (by simpa using hne)
    (by simpa using hfront)
  exact List.reverse_infix.mp hwithin

theorem lowerLetter_of_isBlank {c : Char} (hc : Text.isBlank c = true) :
    Node.lowerLetter c = c := by
  refine if_neg fun hcapital => ?_
  have hclean := isClean_of_between (by decide) (by decide) hcapital
  exact absurd hc (Bool.eq_false_iff.mp hclean.1)

theorem not_mem_urlMark {blanks : List Char} (hblank : ∀ c ∈ blanks, Text.isBlank c = true) :
    ∀ c ∈ Node.lowerName blanks, c ∉ urlMark := by
  intro c hmem hmark
  obtain ⟨d, hd, rfl⟩ := List.mem_map.mp hmem
  have hclean : ∀ c ∈ urlMark, IsClean c := clean_of_all (by decide)
  rw [lowerLetter_of_isBlank (hblank d hd)] at hmark
  exact absurd (hblank d hd) (Bool.eq_false_iff.mp (hclean d hmark).1)

/-- An address that stands in a text also stands in the trimmed text. -/
theorem ShowsAddress.strip {text : List Char} (hshows : ShowsAddress text) :
    ShowsAddress (Text.strip text) := by
  obtain ⟨front, back, heq, hfront, hback⟩ := Text.exists_around_strip text
  have hsplit : Node.lowerName text = Node.lowerName front ++
      (Node.lowerName (Text.strip text) ++ Node.lowerName back) := by
    conv_lhs => rw [heq, Node.lowerName_append, Node.lowerName_append]
  rw [ShowsAddress, hsplit] at hshows
  have hne : urlMark ≠ [] := by decide
  exact infix_of_append_right (infix_of_append_left hshows hne (not_mem_urlMark hfront)) hne
    (not_mem_urlMark hback)

/-- An address among nodes shows in their trimmed text. -/
theorem showsAddress_of_containsUrl {nodes : List Node}
    (hmade : Node.holdsIn Node.isCompound nodes = false) (hurl : Node.containsUrl nodes = true) :
    ShowsAddress (valueText nodes) := by
  rw [Node.containsUrl_eq] at hurl
  exact (showsAddress_writeFrom none nodes hurl hmade).strip

end Winnow.Css
