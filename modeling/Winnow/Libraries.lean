import Winnow.Fault

/-!
# Needed libraries

The libraries for parsing and screening are loaded on first use and held from
then on. A failed attempt names the first library that is missing and leaves
nothing held.
-/

namespace Winnow

/-- A module that has to load, with the distribution that provides it. -/
structure Requirement where
  module : String
  distribution : String
  deriving DecidableEq, Repr

/-- What has to load, in order. -/
def requirements : List Requirement := [
  ⟨"html5lib", "html5lib"⟩,
  ⟨"bleach.sanitizer", "bleach"⟩,
  ⟨"bleach.css_sanitizer", "bleach[css]"⟩]

/-- Why a module does not load, for those that do not. -/
abbrev Obstacles := String → Option String

/-- The handle to the libraries. -/
structure Libraries where
  held : Bool := false
  deriving DecidableEq, Repr

namespace Libraries

/-- Load what is required. -/
def load (obstacles : Obstacles) : List Requirement → Except Fault Unit
  | [] => .ok ()
  | requirement :: rest =>
    match obstacles requirement.module with
    | some reason => .error (.unavailable requirement.distribution (some reason))
    | none => load obstacles rest

/-- The log line of loading. -/
def loadLine : String := "DEBUG trimhtml.environment: Loaded html5lib 1.1"

/-- Use the libraries, loading them if they are not held yet. Gives the handle and the log. -/
def use (libraries : Libraries) (obstacles : Obstacles) : Except Fault (Libraries × List String) :=
  if libraries.held then .ok (libraries, [])
  else
    match load obstacles requirements with
    | .ok () => .ok ({ held := true }, [loadLine])
    | .error fault => .error fault

end Libraries

end Winnow
