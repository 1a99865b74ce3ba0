import Winnow.Files

/-!
# Texts of files

A file has a text if its path can name a file, the system gives its bytes, and these are UTF-8.
Otherwise there is one reason why it has none. The system's own reasons come with words for them,
and the two others are faults.
-/

namespace Winnow.Files

variable {files : Files} {path : String}

/-- The text of a file: that of its bytes, with unified line ends. -/
inductive Reads (files : Files) (path : String) : String → Prop
  | intro {text : String} (hpath : Char.ofNat 0 ∉ (tidyPath path).toList)
      (hbytes : files (tidyPath path) = .ok text.toUTF8) :
      Reads files path (String.ofList (Text.unifyLineEnds text.toList))

/-- Why a file has no text: the words for a problem, or a fault. -/
inductive Unread (files : Files) (path : String) : Except Fault String → Prop
  | refused {problem : FileProblem} (hpath : Char.ofNat 0 ∉ (tidyPath path).toList)
      (hproblem : files (tidyPath path) = .error problem) :
      Unread files path (.ok (problem.message (tidyPath path)))
  | undecodable {bytes : ByteArray} (hpath : Char.ofNat 0 ∉ (tidyPath path).toList)
      (hbytes : files (tidyPath path) = .ok bytes) (hnone : ∀ text : String, text.toUTF8 ≠ bytes) :
      Unread files path (.error .undecodable)
  | nullInPath (hpath : Char.ofNat 0 ∈ (tidyPath path).toList) :
      Unread files path (.error .nullInPath)

/-! ## Decoding -/

theorem fromUTF8?_toByteArray (text : String) :
    String.fromUTF8? text.toByteArray = some text := by
  rw [String.fromUTF8?, dif_pos text.isValidUTF8]
  rfl

theorem toUTF8_of_fromUTF8? {bytes : ByteArray} {text : String}
    (hdecodes : String.fromUTF8? bytes = some text) : text.toUTF8 = bytes := by
  rw [String.fromUTF8?] at hdecodes
  split at hdecodes
  · cases hdecodes
    rfl
  · cases hdecodes

/-- What is no text in UTF-8 is not decoded. -/
theorem fromUTF8?_eq_none {bytes : ByteArray} (hnone : ∀ text : String, text.toUTF8 ≠ bytes) :
    String.fromUTF8? bytes = none := by
  cases hdecodes : String.fromUTF8? bytes with
  | none => rfl
  | some text => exact absurd (toUTF8_of_fromUTF8? hdecodes) (hnone text)

/-! ## Reading -/

theorem Reads.readText {text : String} (hreads : files.Reads path text) :
    files.readText path = .ok (.ok text) := by
  cases hreads with
  | intro hpath hbytes => simp [Files.readText, hpath, hbytes, fromUTF8?_toByteArray]

theorem Unread.readText {reason : Except Fault String} (hunread : files.Unread path reason) :
    files.readText path = reason.map .error := by
  cases hunread with
  | refused hpath hproblem => simp [Files.readText, hpath, hproblem, Except.map]
  | undecodable hpath hbytes hnone =>
      simp [Files.readText, hpath, hbytes, fromUTF8?_eq_none hnone, Except.map]
  | nullInPath hpath => simp [Files.readText, hpath, Except.map]

/-- A file has a text or a reason why it has none. -/
theorem reads_or_unread (files : Files) (path : String) :
    (∃ text, files.Reads path text) ∨ ∃ reason, files.Unread path reason := by
  by_cases hpath : Char.ofNat 0 ∈ (tidyPath path).toList
  · exact .inr ⟨_, .nullInPath hpath⟩
  · cases hbytes : files (tidyPath path) with
    | error problem => exact .inr ⟨_, .refused hpath hbytes⟩
    | ok bytes =>
        by_cases htext : ∃ text : String, text.toUTF8 = bytes
        · obtain ⟨text, rfl⟩ := htext
          exact .inl ⟨_, .intro hpath hbytes⟩
        · exact .inr ⟨_, .undecodable hpath hbytes fun text heq => htext ⟨text, heq⟩⟩

end Winnow.Files
