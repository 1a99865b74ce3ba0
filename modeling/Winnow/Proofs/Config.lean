import Winnow.Config
import Winnow.Proofs.Fault

/-!
# Configurations of mappings

A mapping gives a configuration whatever its keys and values are, with one exception: a ceiling
that is an infinity is a fault. Every other ceiling is at least one. It is the integer that the
last value given for it reads as, raised to one if it is less, and the usual ceiling if there is
no such integer.
-/

namespace Winnow

/-- Infinities are the only values that are refused for being one. -/
theorem Value.toInt_eq_infinite_iff {value : Value} :
    value.toInt = .error .infiniteInteger ↔ ∃ negative, value = .real (.infinite negative) := by
  constructor
  · intro hfault
    cases value with
    | real x =>
        cases x with
        | finite negative significand exponent => cases hfault
        | infinite negative => exact ⟨negative, rfl⟩
    | text s =>
        rw [toInt] at hfault
        split at hfault
        · cases hfault
        · cases hfault
    | _ => cases hfault
  · rintro ⟨negative, rfl⟩
    rfl

namespace Config

/-! ## Ceilings that are read -/

theorem readMaxPasses_of_ok {value : Value} {n : Int} (hread : value.toInt = .ok n) :
    readMaxPasses value = .ok (max 1 n).toNat := by
  rw [readMaxPasses, hread]

theorem readMaxPasses_of_error {value : Value} {fault : Fault} (hread : value.toInt = .error fault)
    (hfinite : fault ≠ .infiniteInteger) : readMaxPasses value = .ok defaultMaxPasses := by
  rw [readMaxPasses, hread]
  split
  next heq => cases heq
  next heq => exact absurd (Except.error.inj heq) hfinite
  next => rfl

/-- A value gives a ceiling or is an infinity. -/
theorem readMaxPasses_cases (value : Value) :
    ((∃ negative, value = .real (.infinite negative)) ∧
      readMaxPasses value = .error .infiniteInteger) ∨
    ((∀ negative, value ≠ .real (.infinite negative)) ∧
      ∃ ceiling, readMaxPasses value = .ok ceiling ∧ 1 ≤ ceiling ∧
        (∀ n, value.toInt = .ok n → (ceiling : Int) = max 1 n) ∧
        ∀ fault, value.toInt = .error fault → ceiling = defaultMaxPasses) := by
  cases hread : value.toInt with
  | ok n =>
      refine .inr ⟨?_, _, readMaxPasses_of_ok hread, by omega, ?_, fun _ hfault => by cases hfault⟩
      · rintro negative rfl
        cases hread
      · intro m hm
        cases hm
        omega
  | error fault =>
      by_cases hfinite : fault = .infiniteInteger
      · subst hfinite
        refine .inl ⟨Value.toInt_eq_infinite_iff.mp hread, ?_⟩
        rw [readMaxPasses, hread]
      · refine .inr ⟨?_, _, readMaxPasses_of_error hread hfinite, by decide, ?_, fun _ _ => rfl⟩
        · intro negative heq
          rw [Value.toInt_eq_infinite_iff.mpr ⟨negative, heq⟩] at hread
          exact hfinite (Except.error.inj hread).symm
        · intro n hn
          cases hn

theorem one_le_of_readMaxPasses {value : Value} {ceiling : Nat}
    (hok : readMaxPasses value = .ok ceiling) : 1 ≤ ceiling := by
  rcases readMaxPasses_cases value with ⟨-, hfault⟩ | ⟨-, other, hother, hpos, -⟩
  · rw [hfault] at hok
    cases hok
  · rw [hother] at hok
    cases hok
    exact hpos

theorem one_le_of_ofValues {commonAttributes javaScript maxPasses : Value} {config : Config}
    (hok : ofValues commonAttributes javaScript maxPasses = .ok config) :
    1 ≤ config.maxPasses := by
  obtain ⟨ceiling, hceiling, hresult⟩ := Fault.exists_of_bind_eq_ok hok
  cases hresult
  exact one_le_of_readMaxPasses hceiling

/-- A pass ceiling is at least one. -/
theorem one_le_maxPasses {value : Value} {config : Config} (hok : ofValue value = .ok config) :
    1 ≤ config.maxPasses := by
  unfold ofValue at hok
  split at hok
  next =>
    cases hok
    decide
  next => exact one_le_of_ofValues hok
  next => cases hok

/-! ## Entries of mappings -/

/-- The value that an entry gives for an option. Null gives none. -/
def givenBy? (option : ConfigOption) (entry : String × Value) : Option Value :=
  match entry.2 with
  | .null => none
  | value => if ConfigOption.ofKey? entry.1 = some option then some value else none

theorem lastValue_cons (option : ConfigOption) (entry : String × Value)
    (entries : List (String × Value)) (fallback : Value) :
    lastValue option (entry :: entries) fallback =
      lastValue option entries ((givenBy? option entry).getD fallback) := by
  rw [lastValue, List.foldl_cons, ← lastValue]
  congr 1
  obtain ⟨key, value⟩ := entry
  by_cases hkey : ConfigOption.ofKey? key = some option
  · cases value with
    | null => rfl
    | _ => simp [givenBy?, hkey]
  · cases value with
    | null => rfl
    | _ => simp [givenBy?, hkey]

/-- The later of two values for one option counts. -/
theorem lastValue_eq_getLastD (option : ConfigOption) (entries : List (String × Value))
    (fallback : Value) : lastValue option entries fallback =
      (entries.filterMap (givenBy? option)).getLastD fallback := by
  induction entries generalizing fallback with
  | nil => rfl
  | cons entry entries ih =>
      rw [lastValue_cons, ih, List.filterMap_cons]
      cases givenBy? option entry with
      | none => rfl
      | some value => rw [Option.getD_some, List.getLastD_cons]

/-- The ceiling that a mapping asks for: the last value that is given for it. -/
def requestedPasses (entries : List (String × Value)) : Value :=
  (entries.filterMap (givenBy? .maxPasses)).getLastD (.int defaultMaxPasses)

theorem ofEntries_eq (entries : List (String × Value)) :
    ∃ commonAttributes javaScript, ofEntries entries =
      (readMaxPasses (requestedPasses entries)).map (Config.mk commonAttributes javaScript) := by
  refine ⟨(lastValue .allowCommonAttributes entries (.bool false)).isSet,
    (lastValue .allowJavaScript entries (.bool false)).isSet, ?_⟩
  rw [ofEntries, ofValues, lastValue_eq_getLastD .maxPasses, ← requestedPasses]
  cases readMaxPasses (requestedPasses entries) with
  | error fault => rfl
  | ok ceiling => rfl

/-- A mapping gives a configuration exactly if the ceiling that it asks for is no infinity, and
this is the only fault that it can have. The ceiling of the configuration is at least one. It is
the integer that is asked for, raised to one, or the usual one if none is asked for. -/
theorem ofEntries_ok_iff (entries : List (String × Value)) :
    ofValue (.mapping entries) = ofEntries entries ∧
    ((∃ config, ofEntries entries = .ok config) ↔
      ∀ negative, requestedPasses entries ≠ .real (.infinite negative)) ∧
    (∀ fault, ofEntries entries = .error fault → fault = .infiniteInteger) ∧
    ∀ config, ofEntries entries = .ok config → 1 ≤ config.maxPasses ∧
      (∀ n, (requestedPasses entries).toInt = .ok n → (config.maxPasses : Int) = max 1 n) ∧
      ∀ fault, (requestedPasses entries).toInt = .error fault →
        config.maxPasses = defaultMaxPasses := by
  refine ⟨rfl, ?_⟩
  obtain ⟨commonAttributes, javaScript, hentries⟩ := ofEntries_eq entries
  rw [hentries]
  rcases readMaxPasses_cases (requestedPasses entries) with
    ⟨⟨negative, hinfinite⟩, hfault⟩ | ⟨hfinite, ceiling, hceiling, hpos, hclamped, hdefault⟩
  · -- An infinity: both sides of the equivalence fail, and there is no configuration to describe.
    rw [hfault]
    refine ⟨⟨?_, fun hfinite => absurd hinfinite (hfinite negative)⟩, ?_, ?_⟩
    · rintro ⟨config, hok⟩
      cases hok
    · intro fault heq
      exact (Except.error.inj heq).symm
    · intro config hok
      cases hok
  · rw [hceiling]
    refine ⟨⟨fun _ => hfinite, fun _ => ⟨_, rfl⟩⟩, ?_, ?_⟩
    · intro fault heq
      cases heq
    · intro config hok
      cases hok
      exact ⟨hpos, hclamped, hdefault⟩

/-- A mapping with an infinity and a text in its place. -/
def overruled : List (String × Value) :=
  [("maxPasses", .real (.infinite false)), ("depth", .null), ("max_passes", .text " -1_0 ")]

/-- An infinity that a later value takes the place of is not asked for. A text may have blanks
around it, and a ceiling below one is raised. -/
theorem ofEntries_ok_iff_overruled :
    (∀ negative, requestedPasses overruled ≠ .real (.infinite negative)) ∧
      ∃ config, ofEntries overruled = .ok config ∧ (config.maxPasses : Int) = max 1 (-10) := by
  have hfinite : ∀ negative, requestedPasses overruled ≠ .real (.infinite negative) := by
    intro negative heq
    cases heq
  have hread : (requestedPasses overruled).toInt = .ok (-10) := rfl
  obtain ⟨-, hiff, -, hceiling⟩ := ofEntries_ok_iff overruled
  obtain ⟨config, hconfig⟩ := hiff.mpr hfinite
  exact ⟨hfinite, config, hconfig, (hceiling config hconfig).2.1 (-10) hread⟩

/-- An infinity is refused and does not give the usual ceiling. -/
theorem not_ofEntries_infinite :
    ¬ ∃ config, ofEntries [("maxPasses", .real (.infinite false))] = .ok config := by
  rintro ⟨config, hconfig⟩
  cases hconfig

end Config

end Winnow
