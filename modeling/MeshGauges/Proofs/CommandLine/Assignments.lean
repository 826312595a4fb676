import MeshGauges.CommandLine
import Mathlib.Data.List.Induction

/-! Command lines that give values to settings.

Each argument is the flag of a setting, an equals sign and a value. Whatever the values are, every such
argument is read as that flag with that value (`classify_argument`). Flags take their values one after the
other, so a command line is refused when one of its values is, and otherwise the last value of a setting is
the one that counts. -/

set_option autoImplicit false

namespace MeshGauges.CommandLine

open Number

/-- A value that the command line gives to a setting other than the resync period. -/
structure Assignment where
  setting : Setting
  value : String
  stated : setting ≠ .resyncPeriod := by decide

/-- The two settings that are whole numbers. -/
def IsInteger (setting : Setting) : Prop :=
  setting = .metricsPort ∨ setting = .telemetryPort

instance (setting : Setting) : Decidable (IsInteger setting) :=
  inferInstanceAs (Decidable (_ ∨ _))

/-- The text of a value of a flag: whole numbers are written anew. -/
def writtenText (setting : Setting) (value : String) : String :=
  if IsInteger setting then ((readInteger? value).map toString).getD value else value

/-- The text that a setting takes from a value of its flag, where two dashes are no value. -/
def flagText (setting : Setting) (value : String) : String :=
  if value = "--" then "[]" else writtenText setting value

namespace Assignment

def argument (assignment : Assignment) : String :=
  settingSpelling assignment.setting ++ "=" ++ assignment.value

/-- Integer flags take whole numerals only. -/
def IsWellFormed (assignment : Assignment) : Prop :=
  IsInteger assignment.setting → (readInteger? assignment.value).isSome

instance (assignment : Assignment) : Decidable assignment.IsWellFormed :=
  inferInstanceAs (Decidable (_ → _))

def IsAccepted (assignment : Assignment) : Prop :=
  assignment.value ≠ "--" → assignment.IsWellFormed

def entry (assignment : Assignment) : String × String :=
  (assignment.setting.variableName, flagText assignment.setting assignment.value)

end Assignment

/-! ### Reading one argument -/

theorem not_mem_spelling {name : String} {flag : Flag} (listed : (name, flag) ∈ spellings) :
    '=' ∉ name.toList := by
  have plain : ∀ entry ∈ spellings, '=' ∉ entry.1.toList := by decide
  exact plain _ listed

theorem settingSpelling_listed (setting : Setting) :
    (settingSpelling setting, Flag.override setting) ∈ spellings := by
  have listed : setting ∈ Setting.all := by cases setting <;> decide
  exact List.mem_append_right _ (List.mem_map.mpr ⟨setting, listed, rfl⟩)

theorem exactFlag?_of_mem {characters : List Char} (assigns : '=' ∈ characters) :
    exactFlag? characters = none := by
  refine List.lookup_eq_none_iff.mpr fun ⟨name, flag⟩ listed => bne_iff_ne.mpr ?_
  rintro rfl
  refine not_mem_spelling listed ?_
  rwa [String.toList_ofList]

theorem exactFlag?_settingSpelling (setting : Setting) :
    exactFlag? (settingSpelling setting).toList = some (.override setting) := by
  cases setting <;> rfl

theorem settingSpelling_long (setting : Setting) :
    ∃ rest, (settingSpelling setting).toList = '-' :: '-' :: rest := by
  cases setting <;> exact ⟨_, rfl⟩

theorem classify_argument (assignment : Assignment) :
    classify assignment.argument =
      .ok (.flag (.override assignment.setting) false (some assignment.value.toList)) := by
  obtain ⟨setting, value, _⟩ := assignment
  have exact := exactFlag?_settingSpelling setting
  obtain ⟨rest, long⟩ := settingSpelling_long setting
  have separated : ∀ character ∈ (settingSpelling setting).toList, decide (character ≠ '=') = true := by
    intro character member
    refine decide_eq_true ?_
    rintro rfl
    exact not_mem_spelling (settingSpelling_listed setting) member
  have shape : (settingSpelling setting ++ "=" ++ value).toList =
      (settingSpelling setting).toList ++ '=' :: value.toList := by
    rw [String.toList_append, String.toList_append, List.append_assoc]
    rfl
  have name : ((settingSpelling setting).toList ++ '=' :: value.toList).takeWhile (· ≠ '=') =
      (settingSpelling setting).toList := by
    rw [List.takeWhile_append_of_pos separated]
    simp
  have attached : attachedValue? ((settingSpelling setting).toList ++ '=' :: value.toList) =
      some value.toList := by
    rw [attachedValue?, List.dropWhile_append_of_pos separated]
    simp
  have inexact : exactFlag? ((settingSpelling setting).toList ++ '=' :: value.toList) = none :=
    exactFlag?_of_mem (List.mem_append_right _ List.mem_cons_self)
  simp only [classify, Assignment.argument, shape, inexact, attached, name, exact]
  rw [long]
  simp [isShort]

theorem argument_ne_dashes (assignment : Assignment) : assignment.argument ≠ "--" := by
  intro same
  have assigns : '=' ∈ "--".toList := by
    rw [← same, Assignment.argument, String.toList_append, String.toList_append]
    exact List.mem_append_left _ (List.mem_append_right _ List.mem_cons_self)
  exact absurd assigns (by decide)

/-! ### Reading all of them -/

section Taken

variable {assignment : Assignment}

theorem toList_eq_dashes_iff {text : String} : text.toList = ['-', '-'] ↔ text = "--" := by
  constructor
  · intro same
    exact String.toList_inj.mp same
  · rintro rfl
    rfl

theorem settingText_of_isInteger {setting : Setting} (integer : IsInteger setting) (text : String) :
    settingText setting text =
      match readInteger? text with
      | some value => .ok (toString value)
      | none => .error (.invalidValue (.override setting) "int" text) := by
  rcases integer with rfl | rfl <;> rfl

theorem settingText_of_not_isInteger {setting : Setting} (noInteger : ¬ IsInteger setting)
    (stated : setting ≠ .resyncPeriod) (text : String) : settingText setting text = .ok text := by
  cases setting with
  | metricsPort => exact absurd (.inl rfl) noInteger
  | telemetryPort => exact absurd (.inr rfl) noInteger
  | resyncPeriod => exact absurd rfl stated
  | apiserver | kubeconfig | metricsHost | telemetryHost | collectors | namespaces | logLevel => rfl

theorem attachedText_of_isAccepted (accepted : assignment.IsAccepted) :
    attachedText assignment.setting assignment.value.toList =
      .ok (flagText assignment.setting assignment.value) := by
  rw [attachedText, flagText]
  by_cases dashes : assignment.value = "--"
  · rw [if_pos dashes, if_pos (toList_eq_dashes_iff.mpr dashes)]
  · rw [if_neg dashes, if_neg (mt toList_eq_dashes_iff.mp dashes), String.ofList_toList,
      writtenText]
    by_cases integer : IsInteger assignment.setting
    · obtain ⟨number, numeral⟩ := Option.isSome_iff_exists.mp (accepted dashes integer)
      rw [settingText_of_isInteger integer, numeral, if_pos integer]
      rfl
    · rw [settingText_of_not_isInteger integer assignment.stated, if_neg integer]

theorem attachedText_of_not_isAccepted (refused : ¬ assignment.IsAccepted) :
    ∃ error, attachedText assignment.setting assignment.value.toList = .error error := by
  obtain ⟨dashes, malformed⟩ := Classical.not_imp.mp refused
  obtain ⟨integer, noNumeral⟩ := Classical.not_imp.mp malformed
  rw [attachedText, if_neg (mt toList_eq_dashes_iff.mp dashes), String.ofList_toList,
    settingText_of_isInteger integer, Option.not_isSome_iff_eq_none.mp noNumeral]
  exact ⟨_, rfl⟩

end Taken

namespace Assignment

/-- What an argument is told to be. -/
def token (assignment : Assignment) : String × Token :=
  (assignment.argument, .flag (.override assignment.setting) false (some assignment.value.toList))

end Assignment

variable {assignments : List Assignment}

theorem classifyAll_arguments (assignments : List Assignment) :
    classifyAll (assignments.map Assignment.argument) = .ok (assignments.map Assignment.token) := by
  induction assignments with
  | nil => rfl
  | cons assignment rest ih =>
      rw [List.map_cons, classifyAll, if_neg (argument_ne_dashes assignment), classify_argument, ih]
      rfl

theorem consume_token (overrides : Variables) (assignment : Assignment) (rest : List (String × Token)) :
    consume overrides [] (assignment.token :: rest) =
      attachedText assignment.setting assignment.value.toList >>= fun text =>
        consume ((assignment.setting.variableName, text) :: overrides) [] rest := rfl

theorem consume_of_isAccepted (overrides : Variables)
    (accepted : ∀ assignment ∈ assignments, assignment.IsAccepted) :
    consume overrides [] (assignments.map Assignment.token) =
      .ok (.run ((assignments.map Assignment.entry).reverse ++ overrides)) := by
  induction assignments generalizing overrides with
  | nil => rfl
  | cons assignment rest ih =>
      obtain ⟨first, others⟩ := List.forall_mem_cons.mp accepted
      rw [List.map_cons, consume_token, attachedText_of_isAccepted first]
      change consume (assignment.entry :: overrides) [] _ = _
      rw [ih _ others, List.map_cons, List.reverse_cons, List.append_assoc, List.singleton_append]

theorem consume_of_not_isAccepted (overrides : Variables)
    (refused : ∃ assignment ∈ assignments, ¬ assignment.IsAccepted) :
    ∃ error, consume overrides [] (assignments.map Assignment.token) = .error error := by
  induction assignments generalizing overrides with
  | nil =>
      obtain ⟨_, member, _⟩ := refused
      cases member
  | cons assignment rest ih =>
      rw [List.map_cons, consume_token]
      cases taken : attachedText assignment.setting assignment.value.toList with
      | error error => exact ⟨error, rfl⟩
      | ok text =>
          refine ih _ ?_
          obtain ⟨other, member, malformed⟩ := refused
          rcases List.mem_cons.mp member with rfl | member
          · obtain ⟨error, fails⟩ := attachedText_of_not_isAccepted malformed
            rw [fails] at taken
            cases taken
          · exact ⟨other, member, malformed⟩

theorem read_of_isAccepted (accepted : ∀ assignment ∈ assignments, assignment.IsAccepted) :
    read (assignments.map Assignment.argument) = .ok (.run (assignments.map Assignment.entry).reverse) := by
  rw [read, classifyAll_arguments]
  change consume [] [] (assignments.map Assignment.token) = _
  rw [consume_of_isAccepted [] accepted, List.append_nil]

theorem read_of_not_isAccepted (refused : ∃ assignment ∈ assignments, ¬ assignment.IsAccepted) :
    ∃ error, read (assignments.map Assignment.argument) = .error error := by
  rw [read, classifyAll_arguments]
  exact consume_of_not_isAccepted [] refused

/-! ### The last value of a setting -/

/-- The value that the flag of a setting is given last. -/
def lastValue? (assignments : List Assignment) (setting : Setting) : Option String :=
  ((assignments.filter fun assignment => assignment.setting = setting).getLast?).map Assignment.value

theorem lastValue?_concat (assignments : List Assignment) (last : Assignment) (setting : Setting) :
    lastValue? (assignments ++ [last]) setting =
      if last.setting = setting then some last.value else lastValue? assignments setting := by
  rw [lastValue?, List.filter_append]
  by_cases own : last.setting = setting <;> simp [own, lastValue?]

/-- A flag that was not given has the value of the one place that gives it, wherever that is. -/
theorem lastValue?_insert {earlier later : List Assignment} {assignment : Assignment}
    (absent : lastValue? (earlier ++ later) assignment.setting = none) (setting : Setting) :
    lastValue? (earlier ++ assignment :: later) setting =
      if assignment.setting = setting then some assignment.value
      else lastValue? (earlier ++ later) setting := by
  by_cases own : assignment.setting = setting
  · subst own
    rw [lastValue?, Option.map_eq_none_iff, List.getLast?_eq_none_iff, List.filter_append,
      List.append_eq_nil_iff] at absent
    simp [lastValue?, List.filter_append, absent.1, absent.2]
  · simp [lastValue?, List.filter_append, own]

theorem variableName_injective : Function.Injective Setting.variableName := by
  intro setting other same
  cases setting <;> cases other <;> first | rfl | exact absurd same (by decide)

theorem lookup_variable_cons (given asked : Setting) (text : String) (others : Variables) :
    ((given.variableName, text) :: others).lookup asked.variableName =
      if given = asked then some text else others.lookup asked.variableName := by
  rw [List.lookup_cons]
  by_cases own : given = asked
  · simp [own]
  · have distinct : asked.variableName ≠ given.variableName :=
      fun same => own (variableName_injective same).symm
    rw [beq_false_of_ne distinct, if_neg own]

theorem lookup_entries (assignments : List Assignment) (setting : Setting) :
    (assignments.map Assignment.entry).reverse.lookup setting.variableName =
      (lastValue? assignments setting).map (flagText setting) := by
  induction assignments using List.reverseRecOn with
  | nil => rfl
  | append_singleton assignments last ih =>
      rw [List.map_append, List.reverse_append, List.map_singleton, List.reverse_singleton,
        List.singleton_append, Assignment.entry, lookup_variable_cons, lastValue?_concat, ih]
      by_cases own : last.setting = setting
      · rw [if_pos own, if_pos own, own, Option.map_some]
      · rw [if_neg own, if_neg own]

end MeshGauges.CommandLine
