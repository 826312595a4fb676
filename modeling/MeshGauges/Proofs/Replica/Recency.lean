import MeshGauges.Proofs.Replica.ChangeLog

/-! Which change of a history decides about a key.

Everything here looks back over a whole history of changes. The last change about a key decides what
stands there, and a key enters wherever it is turned from absent to present. Snapshots do not occur, so
that what they hold can be compared with a history without following the way they were made. -/

set_option autoImplicit false

namespace MeshGauges.Change

variable {changes : List Change} {change : Change} {key : ResourceKey} {resource : Resource}
  {position : Nat}

def latest? (changes : List Change) (key : ResourceKey) : Option Change :=
  changes.reverse.find? fun change => change.resource.key = key

/-- The resource that the last change about a key has put; none when that change is a deletion. -/
def standing? (changes : List Change) (key : ResourceKey) : Option Resource :=
  (latest? changes key).bind left

/-- The change at a position turns a key from absent to present. -/
def EntersAt (changes : List Change) (key : ResourceKey) (position : Nat) : Prop :=
  standing? (changes.take position) key = none ∧ standing? (changes.take (position + 1)) key ≠ none

/-- A key enters at a position, and not once more after it. -/
structure LastEntersAt (changes : List Change) (key : ResourceKey) (position : Nat) : Prop where
  enters : EntersAt changes key position
  final : ∀ later, position < later → ¬ EntersAt changes key later

/-- The last time that one key enters comes before the last time that another one does. -/
def EntersBefore (changes : List Change) (first second : ResourceKey) : Prop :=
  ∃ earlier later, LastEntersAt changes first earlier ∧ LastEntersAt changes second later ∧
    earlier < later

theorem standing?_concat (changes : List Change) (change : Change) (key : ResourceKey) :
    standing? (changes ++ [change]) key =
      if key = change.resource.key then change.left else standing? changes key := by
  simp only [standing?, latest?, List.reverse_append, List.reverse_singleton, List.singleton_append,
    List.find?_cons]
  by_cases same : change.resource.key = key
  · simp [same]
  · simp [same, Ne.symm same]

theorem EntersAt.lt_length (enters : EntersAt changes key position) : position < changes.length := by
  by_contra beyond
  have same : changes.take (position + 1) = changes.take position := by
    rw [List.take_of_length_le (by omega), List.take_of_length_le (by omega)]
  rw [EntersAt, same] at enters
  exact enters.2 enters.1

theorem entersAt_concat_of_lt (within : position < changes.length) :
    EntersAt (changes ++ [change]) key position ↔ EntersAt changes key position := by
  rw [EntersAt, EntersAt, List.take_append_of_le_length (by omega),
    List.take_append_of_le_length (by omega)]

theorem entersAt_concat_length :
    EntersAt (changes ++ [change]) key changes.length ↔
      standing? changes key = none ∧ standing? (changes ++ [change]) key ≠ none := by
  rw [EntersAt, List.take_left, List.take_of_length_le (by simp)]

theorem LastEntersAt.concat (enters : LastEntersAt changes key position)
    (stands : standing? changes key ≠ none) (change : Change) :
    LastEntersAt (changes ++ [change]) key position := by
  refine ⟨(entersAt_concat_of_lt enters.enters.lt_length).mpr enters.enters, ?_⟩
  intro later after again
  have within : later < changes.length + 1 := by simpa using again.lt_length
  rcases Nat.lt_succ_iff_lt_or_eq.mp within with earlier | rfl
  · exact enters.final later after ((entersAt_concat_of_lt earlier).mp again)
  · exact stands (entersAt_concat_length.mp again).1

theorem lastEntersAt_length (absent : standing? changes key = none)
    (stands : standing? (changes ++ [change]) key ≠ none) :
    LastEntersAt (changes ++ [change]) key changes.length := by
  refine ⟨entersAt_concat_length.mpr ⟨absent, stands⟩, ?_⟩
  intro later after again
  have within : later < changes.length + 1 := by simpa using again.lt_length
  omega

theorem exists_lastEntersAt (stands : standing? changes key ≠ none) :
    ∃ position, LastEntersAt changes key position := by
  induction changes using List.reverseRecOn with
  | nil => exact absurd rfl stands
  | append_singleton changes change ih =>
      by_cases absent : standing? changes key = none
      · exact ⟨_, lastEntersAt_length absent stands⟩
      · obtain ⟨position, enters⟩ := ih absent
        exact ⟨position, enters.concat absent change⟩

theorem EntersBefore.concat {first second : ResourceKey} (before : EntersBefore changes first second)
    (firstStands : standing? changes first ≠ none) (secondStands : standing? changes second ≠ none)
    (change : Change) : EntersBefore (changes ++ [change]) first second := by
  obtain ⟨earlier, later, firstEnters, secondEnters, ordered⟩ := before
  exact ⟨earlier, later, firstEnters.concat firstStands change,
    secondEnters.concat secondStands change, ordered⟩

/-- A key that stands has entered before one that enters with the change that comes next. -/
theorem entersBefore_concat {first second : ResourceKey} (firstStands : standing? changes first ≠ none)
    (secondAbsent : standing? changes second = none)
    (secondStands : standing? (changes ++ [change]) second ≠ none) :
    EntersBefore (changes ++ [change]) first second := by
  obtain ⟨position, enters⟩ := exists_lastEntersAt firstStands
  exact ⟨position, changes.length, enters.concat firstStands change,
    lastEntersAt_length secondAbsent secondStands, enters.enters.lt_length⟩

end MeshGauges.Change
