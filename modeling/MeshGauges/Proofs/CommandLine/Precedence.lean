import MeshGauges.Proofs.CommandLine.Assignments
import MeshGauges.Proofs.Number.Numeral
import MeshGauges.Proofs.Settings.Loading

/-! Which source of a setting counts.

A command line whose values are all accepted is decided by one text for each setting: the last value of its
flag, else the variable, else the entry of the environment file, else the default. So a variable whose flag
is given does not matter, a setting depends on its own sources alone, and a flag does what its variable does.
Two dashes are the exception to the last: a flag takes them as no value. -/

set_option autoImplicit false

namespace MeshGauges.CommandLine

open Number

namespace Outcome

def ofLoad : Except SettingsError Settings → Outcome
  | .error error => .refuse (.settings error)
  | .ok settings => .start settings

/-- The code that the program exits with, where it does not start. -/
def exitCode? : Outcome → Option Nat
  | .showHelp => some 0
  | .refuse _ => some refusedCode
  | .start _ => none

/-- Two outcomes are starts with the same settings, or both are refusals. -/
def Agrees (outcome other : Outcome) : Prop :=
  (∃ settings, outcome = .start settings ∧ other = .start settings) ∨
    (outcome.exitCode? = some refusedCode ∧ other.exitCode? = some refusedCode)

theorem agrees_ofLoad (loaded : Except SettingsError Settings) : (ofLoad loaded).Agrees (ofLoad loaded) := by
  cases loaded with
  | error error => exact .inr ⟨rfl, rfl⟩
  | ok settings => exact .inl ⟨settings, rfl, rfl⟩

theorem ofLoad_eq_start_iff {loaded : Except SettingsError Settings} {settings : Settings} :
    ofLoad loaded = .start settings ↔ loaded = .ok settings := by
  cases loaded <;> simp [ofLoad]

end Outcome

/-- What the program is given: values of flags in their order, and the variables. -/
structure Invocation where
  assignments : List Assignment
  environment : Variables := []
  environmentFile : Variables := []

namespace Invocation

variable {invocation other : Invocation} {setting : Setting} {settings : Settings}

def outcome (invocation : Invocation) : Outcome :=
  decideOutcome (invocation.assignments.map Assignment.argument) invocation.environment
    invocation.environmentFile

/-- The text of a setting's variable, or of its entry in the environment file where it is not set. -/
def variableText? (invocation : Invocation) (setting : Setting) : Option String :=
  (invocation.environment.lookup setting.variableName).or
    (invocation.environmentFile.lookup setting.variableName)

/-- The text that a setting is read from. -/
def text? (invocation : Invocation) (setting : Setting) : Option String :=
  ((lastValue? invocation.assignments setting).map (flagText setting)).or (invocation.variableText? setting)

/-- The text of a setting by its sources: the last value of the flag, the variable, the entry of the
environment file, the default. -/
def resolvedText (invocation : Invocation) (setting : Setting) : String :=
  (((lastValue? invocation.assignments setting).map (writtenText setting)).or
    (invocation.variableText? setting)).getD setting.defaultText

def IsAccepted (invocation : Invocation) : Prop :=
  ∀ assignment ∈ invocation.assignments, assignment.IsAccepted

theorem outcome_of_isAccepted (accepted : invocation.IsAccepted) :
    invocation.outcome = .ofLoad (loadTexts invocation.text?) := by
  have resolved : SettingSources.resolve ⟨(invocation.assignments.map Assignment.entry).reverse,
      invocation.environment, invocation.environmentFile⟩ = invocation.text? := by
    funext setting
    rw [SettingSources.resolve, lookup_entries]
    rfl
  rw [outcome, decideOutcome, read_of_isAccepted accepted]
  simp only [loadSettings_eq, resolved]
  cases loadTexts invocation.text? <;> rfl

theorem exitCode?_of_not_isAccepted (refused : ¬ invocation.IsAccepted) :
    invocation.outcome.exitCode? = some refusedCode := by
  obtain ⟨error, fails⟩ := read_of_not_isAccepted (by simpa [IsAccepted] using refused)
  rw [outcome, decideOutcome, fails]
  rfl

/-- The settings of a start are read from the texts of their sources, each from its own. -/
theorem read_of_start (starts : invocation.outcome = .start settings) (setting : Setting) :
    setting.read (invocation.text? setting) = .ok (settings.value setting) := by
  by_cases accepted : invocation.IsAccepted
  · rw [outcome_of_isAccepted accepted, Outcome.ofLoad_eq_start_iff, loadTexts_eq_ok_iff] at starts
    exact starts.1 setting
  · have refused := exitCode?_of_not_isAccepted accepted
    rw [starts] at refused
    cases refused

/-- A setting that cannot be read keeps the program from starting. -/
theorem exitCode?_of_read_eq_error {error : SettingsError}
    (fails : setting.read (invocation.text? setting) = .error error) :
    invocation.outcome.exitCode? = some refusedCode := by
  by_cases accepted : invocation.IsAccepted
  · have decided := outcome_of_isAccepted accepted
    cases loaded : loadTexts invocation.text? with
    | error =>
        rw [decided, loaded]
        rfl
    | ok settings =>
        rw [loaded] at decided
        rw [read_of_start decided] at fails
        cases fails
  · exact exitCode?_of_not_isAccepted accepted

theorem read_writtenText {value : String} (wellFormed : IsInteger setting → (readInteger? value).isSome) :
    setting.read (some (writtenText setting value)) = setting.read (some value) := by
  by_cases integer : IsInteger setting
  · obtain ⟨number, numeral⟩ := Option.isSome_iff_exists.mp (wellFormed integer)
    have again := readInteger?_toString_of_read numeral
    have same : ∀ default, Settings.integerOf setting (some (toString number)) default =
        Settings.integerOf setting (some value) default := by
      intro default
      simp only [Settings.integerOf, again, numeral]
    rw [writtenText, if_pos integer, numeral, Option.map_some, Option.getD_some]
    rcases integer with rfl | rfl
    · exact congrArg (Except.map SettingValue.integer) (same 9090)
    · exact congrArg (Except.map SettingValue.integer) (same 9093)
  · rw [writtenText, if_neg integer]

theorem read_of_malformed {value : String} (integer : IsInteger setting)
    (noNumeral : ¬ (readInteger? value).isSome) : ∃ error, setting.read (some value) = .error error := by
  have noNumeral := Option.not_isSome_iff_eq_none.mp noNumeral
  rcases integer with rfl | rfl <;> simp [Setting.read, Settings.integerOf, noNumeral, Except.map]

theorem outcome_of_wellFormed (plain : ∀ assignment ∈ invocation.assignments, assignment.value ≠ "--")
    (wellFormed : ∀ assignment ∈ invocation.assignments, assignment.IsWellFormed) :
    invocation.outcome = .ofLoad (loadTexts fun setting => some (invocation.resolvedText setting)) := by
  have accepted : invocation.IsAccepted := fun assignment member _ => wellFormed assignment member
  have resolved : ∀ setting, invocation.resolvedText setting =
      (invocation.text? setting).getD setting.defaultText := by
    intro setting
    rw [resolvedText, text?]
    cases given : lastValue? invocation.assignments setting with
    | none => rfl
    | some value =>
        obtain ⟨assignment, last, rfl⟩ := Option.map_eq_some_iff.mp given
        have member := (List.mem_filter.mp (List.mem_of_getLast? last)).1
        rw [Option.map_some, Option.map_some, flagText, if_neg (plain assignment member)]
  have read : ∀ setting : Setting, setting.read (invocation.text? setting) =
      setting.read (some (invocation.resolvedText setting)) := by
    intro setting
    rw [resolved]
    cases invocation.text? setting with
    | none => exact setting.read_defaultText.symm
    | some text => rfl
  rw [outcome_of_isAccepted accepted, loadTexts_congr read]

theorem exitCode?_of_malformed
    (malformed : ∃ assignment ∈ invocation.assignments, assignment.value ≠ "--" ∧ ¬ assignment.IsWellFormed) :
    invocation.outcome.exitCode? = some refusedCode := by
  obtain ⟨assignment, member, plain, malformed⟩ := malformed
  exact exitCode?_of_not_isAccepted fun accepted => malformed (accepted assignment member plain)

/-- The variables of settings whose flags are given do not matter. -/
theorem outcome_congr (given : other.assignments = invocation.assignments)
    (same : ∀ setting, lastValue? invocation.assignments setting = none →
      other.variableText? setting = invocation.variableText? setting) :
    other.outcome = invocation.outcome := by
  by_cases accepted : invocation.IsAccepted
  · have texts : other.text? = invocation.text? := by
      funext setting
      rw [text?, text?, given]
      cases last : lastValue? invocation.assignments setting with
      | none => exact same setting last
      | some value => rfl
    have otherAccepted : other.IsAccepted := by
      rw [IsAccepted, given]
      exact accepted
    rw [outcome_of_isAccepted accepted, outcome_of_isAccepted otherAccepted, texts]
  · obtain ⟨error, fails⟩ := read_of_not_isAccepted (by simpa [IsAccepted] using accepted)
    rw [outcome, outcome, decideOutcome, decideOutcome, given, fails]

/-- What a start holds for a setting depends on the setting's own sources alone. -/
theorem value_eq_of_start {others : Settings}
    (given : lastValue? other.assignments setting = lastValue? invocation.assignments setting)
    (same : other.variableText? setting = invocation.variableText? setting)
    (starts : invocation.outcome = .start settings) (otherStarts : other.outcome = .start others) :
    others.value setting = settings.value setting := by
  have read := read_of_start starts setting
  have readOther := read_of_start otherStarts setting
  rw [text?, given, same] at readOther
  exact Except.ok.inj (readOther.symm.trans read)

/-- One value more on the command line, after so many others. -/
def withFlag (invocation : Invocation) (position : Nat) (assignment : Assignment) : Invocation :=
  { invocation with
    assignments := invocation.assignments.take position ++ assignment :: invocation.assignments.drop position }

/-- The same value for the variable of its setting. -/
def withVariable (invocation : Invocation) (assignment : Assignment) : Invocation :=
  { invocation with
    environment := (assignment.setting.variableName, assignment.value) :: invocation.environment }

section Variable

variable {assignment : Assignment}

theorem isAccepted_withFlag (invocation : Invocation) (position : Nat) (assignment : Assignment) :
    (invocation.withFlag position assignment).IsAccepted ↔ assignment.IsAccepted ∧ invocation.IsAccepted := by
  have others : invocation.IsAccepted ↔ ∀ other ∈ invocation.assignments.take position ++
      invocation.assignments.drop position, other.IsAccepted := by
    rw [List.take_append_drop]
    rfl
  rw [others]
  simp only [IsAccepted, withFlag, List.forall_mem_append, List.forall_mem_cons]
  exact and_left_comm

theorem text?_withFlag (absent : lastValue? invocation.assignments assignment.setting = none)
    (position : Nat) (setting : Setting) :
    (invocation.withFlag position assignment).text? setting =
      if assignment.setting = setting then some (flagText setting assignment.value)
      else invocation.text? setting := by
  rw [← List.take_append_drop position invocation.assignments] at absent
  rw [text?, withFlag, lastValue?_insert absent, List.take_append_drop]
  split <;> rfl

theorem text?_withVariable (absent : lastValue? invocation.assignments assignment.setting = none)
    (setting : Setting) :
    (invocation.withVariable assignment).text? setting =
      if assignment.setting = setting then some assignment.value else invocation.text? setting := by
  rw [text?, variableText?, withVariable, lookup_variable_cons]
  by_cases own : assignment.setting = setting
  · subst own
    rw [absent, if_pos rfl, if_pos rfl]
    rfl
  · rw [if_neg own, if_neg own]
    rfl

/-- A flag and its variable do the same with a text, unless the text is two dashes. -/
theorem agrees_withVariable (absent : lastValue? invocation.assignments assignment.setting = none)
    (plain : assignment.value ≠ "--") (position : Nat) :
    (invocation.withFlag position assignment).outcome.Agrees (invocation.withVariable assignment).outcome := by
  have flagged := invocation.isAccepted_withFlag position assignment
  by_cases wellFormed : assignment.IsWellFormed
  · by_cases others : invocation.IsAccepted
    · have read : ∀ setting : Setting,
          setting.read ((invocation.withFlag position assignment).text? setting) =
            setting.read ((invocation.withVariable assignment).text? setting) := by
        intro setting
        rw [text?_withFlag absent, text?_withVariable absent]
        by_cases own : assignment.setting = setting
        · subst own
          rw [if_pos rfl, if_pos rfl, flagText, if_neg plain, read_writtenText wellFormed]
        · rw [if_neg own, if_neg own]
      have accepted := flagged.mpr ⟨fun _ => wellFormed, others⟩
      have assigned : (invocation.withVariable assignment).IsAccepted := others
      rw [outcome_of_isAccepted accepted, outcome_of_isAccepted assigned, loadTexts_congr read]
      exact Outcome.agrees_ofLoad _
    · refine .inr ⟨exitCode?_of_not_isAccepted ?_, exitCode?_of_not_isAccepted others⟩
      exact fun accepted => others (flagged.mp accepted).2
  · refine .inr ⟨exitCode?_of_not_isAccepted ?_, ?_⟩
    · exact fun accepted => wellFormed ((flagged.mp accepted).1 plain)
    · obtain ⟨integer, noNumeral⟩ := Classical.not_imp.mp wellFormed
      obtain ⟨error, fails⟩ := read_of_malformed integer noNumeral
      have text := text?_withVariable absent assignment.setting
      rw [if_pos rfl] at text
      rw [← text] at fails
      exact exitCode?_of_read_eq_error fails

end Variable

/-- How the sources of an invocation decide its outcome. -/
structure FollowsSources (invocation : Invocation) : Prop where
  /-- Where every value can be taken, the texts by the order of the sources decide. -/
  resolved : (∀ assignment ∈ invocation.assignments, assignment.value ≠ "--") →
    (∀ assignment ∈ invocation.assignments, assignment.IsWellFormed) →
    invocation.outcome = .ofLoad (loadTexts fun setting => some (invocation.resolvedText setting))
  /-- Every value of an integer flag is checked, also one that a later value replaces. -/
  malformed : (∀ assignment ∈ invocation.assignments, assignment.value ≠ "--") →
    (∃ assignment ∈ invocation.assignments, ¬ assignment.IsWellFormed) →
    invocation.outcome.exitCode? = some 2
  /-- The variables of settings whose flags are given do not count. -/
  hidden : ∀ other : Invocation, other.assignments = invocation.assignments →
    (∀ setting, lastValue? invocation.assignments setting = none →
      other.variableText? setting = invocation.variableText? setting) →
    other.outcome = invocation.outcome
  /-- What a start holds for a setting is told by the setting's own sources. -/
  separate : ∀ (other : Invocation) (setting : Setting) (settings others : Settings),
    lastValue? other.assignments setting = lastValue? invocation.assignments setting →
    other.variableText? setting = invocation.variableText? setting →
    invocation.outcome = .start settings → other.outcome = .start others →
    others.value setting = settings.value setting
  /-- A flag does with a text what its variable does. -/
  interchangeable : ∀ (assignment : Assignment) (position : Nat),
    lastValue? invocation.assignments assignment.setting = none → assignment.value ≠ "--" →
    (invocation.withFlag position assignment).outcome.Agrees (invocation.withVariable assignment).outcome

/-- Every invocation follows the order of its sources. -/
theorem follows_sources (invocation : Invocation) : invocation.FollowsSources := by
  constructor
  · exact outcome_of_wellFormed
  · intro plain malformed
    obtain ⟨assignment, member, malformed⟩ := malformed
    exact exitCode?_of_malformed ⟨assignment, member, plain assignment member, malformed⟩
  · intro other given same
    exact outcome_congr given same
  · intro other setting settings others given same starts otherStarts
    exact value_eq_of_start given same starts otherStarts
  · intro assignment position absent plain
    exact agrees_withVariable absent plain position

end Invocation

/-! Variables that could not be loaded, each of them replaced by its flag. -/

namespace BrokenVariables

def broken : Variables :=
  [("NAMESPACES", "Not_A_Namespace"), ("COLLECTORS", "gateways"), ("METRICS_PORT", "http")]

def replaced : Invocation where
  assignments := [{ setting := .namespaces, value := "istio-system" },
    { setting := .collectors, value := "rules" }, { setting := .metricsPort, value := "9_999" }]
  environment := broken

def settings : Settings := { namespaces := ["istio-system"], collectors := ["rules"], metricsPort := 9999 }

theorem flags_replace_broken :
    replaced.outcome = .start settings ∧
      Invocation.outcome ⟨replaced.assignments, [], []⟩ = .start settings ∧
      (replaced.withFlag 1 { setting := .logLevel, value := "" }).outcome.Agrees
        (replaced.withVariable { setting := .logLevel, value := "" }).outcome := by
  have follows := replaced.follows_sources
  have starts : replaced.outcome = .start settings :=
    (follows.resolved (by decide) (by decide)).trans rfl
  have unset : Invocation.outcome ⟨replaced.assignments, [], []⟩ = replaced.outcome := by
    refine follows.hidden _ rfl fun setting absent => ?_
    cases setting with
    | namespaces | collectors | metricsPort => cases absent
    | apiserver | kubeconfig | metricsHost | telemetryPort | telemetryHost | resyncPeriod | logLevel => rfl
  exact ⟨starts, unset.trans starts, follows.interchangeable _ 1 rfl (by decide)⟩

end BrokenVariables

/-! A malformed value that a later one replaces is refused all the same, and a flag takes two dashes as
the text of an empty list where the variable takes them as they are. -/

namespace StrayValues

def overridden : Invocation where
  assignments := [{ setting := .metricsPort, value := "x" }, { setting := .metricsPort, value := "80" }]

def dashes : Assignment := { setting := .metricsHost, value := "--" }

theorem stray_values_count :
    overridden.outcome ≠ .ofLoad (loadTexts fun setting => some (overridden.resolvedText setting)) ∧
      ¬ (Invocation.withFlag ⟨[], [], []⟩ 0 dashes).outcome.Agrees
        (Invocation.withVariable ⟨[], [], []⟩ dashes).outcome := by
  have refused : overridden.outcome.exitCode? = some refusedCode := rfl
  have loaded : Outcome.ofLoad (loadTexts fun setting => some (overridden.resolvedText setting)) =
      .start { metricsPort := 80, collectors := Catalog.names } := rfl
  have flagged : (Invocation.withFlag ⟨[], [], []⟩ 0 dashes).outcome =
      .start { metricsHost := "[]", collectors := Catalog.names } := rfl
  have assigned : (Invocation.withVariable ⟨[], [], []⟩ dashes).outcome =
      .start { metricsHost := "--", collectors := Catalog.names } := rfl
  constructor
  · intro same
    rw [same, loaded] at refused
    cases refused
  · rintro (⟨settings, first, second⟩ | ⟨exits, _⟩)
    · have same := (flagged.symm.trans first).trans (second.symm.trans assigned)
      have host : "[]" = "--" := congrArg Settings.metricsHost (Outcome.start.inj same)
      exact absurd host (by decide)
    · rw [flagged] at exits
      cases exits

end StrayValues
end MeshGauges.CommandLine
