import MeshGauges.InstanceReference

/-! Normal forms of instance references.

A dot is never escaped, so the fields of a text follow from where its first two dots stand: the name and the
kind have none, and the namespace may have any (`HasFields`). Reading replaces the fields that are empty
(`HasFields.read_eq`). What was read has a text of its own that is read as the same reference
(`IsResolved.read_written`), and a text in which no field has to be replaced is that text. -/

set_option autoImplicit false

namespace MeshGauges.InstanceReference

/-- The text that spells a reference out. -/
def written (reference : InstanceReference) : String :=
  reference.name ++ "." ++ reference.kind ++ "." ++ reference.space

/-- The fields of a text as they stand there. Those that it does not reach are empty. -/
inductive HasFields : String → InstanceReference → Prop where
  | name {name : String} : '.' ∉ name.toList → HasFields name ⟨name, "", ""⟩
  | kind {name kind : String} :
      '.' ∉ name.toList → '.' ∉ kind.toList → HasFields (name ++ "." ++ kind) ⟨name, kind, ""⟩
  | space {name kind space : String} :
      '.' ∉ name.toList → '.' ∉ kind.toList →
      HasFields (name ++ "." ++ kind ++ "." ++ space) ⟨name, kind, space⟩

/-- A reference with its empty fields replaced. -/
def completed (fields : InstanceReference) (ruleSpace : String) : InstanceReference where
  name := fields.name
  kind := if fields.kind = "" then unknownKind else fields.kind
  space := if fields.space = "" then ruleSpace else fields.space

/-! ### The fields of a text -/

@[simp] theorem splitAtDot_nil : splitAtDot [] = ([], []) := rfl

@[simp] theorem splitAtDot_dot (rest : List Char) : splitAtDot ('.' :: rest) = ([], rest) := rfl

theorem splitAtDot_append {characters : List Char} (noDot : '.' ∉ characters) (after : List Char) :
    splitAtDot (characters ++ after) = (characters ++ (splitAtDot after).1, (splitAtDot after).2) := by
  have others : ∀ character ∈ characters, decide (character ≠ '.') = true := by
    intro character member
    exact decide_eq_true fun same => noDot (same ▸ member)
  simp only [splitAtDot, List.takeWhile_append_of_pos others, List.dropWhile_append_of_pos others]

theorem splitAtDot_of_not_mem {characters : List Char} (noDot : '.' ∉ characters) :
    splitAtDot characters = (characters, []) := by
  simpa using splitAtDot_append noDot []

@[simp] theorem orWhenEmpty_nil (alternative : String) : orWhenEmpty [] alternative = alternative := rfl

@[simp] theorem orWhenEmpty_toList (text alternative : String) :
    orWhenEmpty text.toList alternative = if text = "" then alternative else text := by
  simp [orWhenEmpty]

section Text

variable {text : String} {fields : InstanceReference}

theorem HasFields.read_eq (has : HasFields text fields) (ruleSpace : String) :
    read text ruleSpace = fields.completed ruleSpace := by
  cases has with
  | name noDot =>
      simp [read, completed, splitAtDot_of_not_mem noDot]
  | kind noDot kindNoDot =>
      simp [read, completed, splitAtDot_append noDot, splitAtDot_of_not_mem kindNoDot]
  | space noDot kindNoDot =>
      simp [read, completed, splitAtDot_append noDot, splitAtDot_append kindNoDot]

theorem exists_eq_append_dot (dotted : '.' ∈ text.toList) :
    ∃ field rest : String, text = field ++ "." ++ rest ∧ '.' ∉ field.toList := by
  obtain ⟨field, rest, split, noDot⟩ := List.eq_append_cons_of_mem dotted
  refine ⟨.ofList field, .ofList rest, ?_, by simpa using noDot⟩
  rw [← String.toList_inj, split]
  simp

theorem exists_hasFields (text : String) : ∃ fields, HasFields text fields := by
  by_cases dotted : '.' ∈ text.toList
  · obtain ⟨name, afterName, rfl, noDot⟩ := exists_eq_append_dot dotted
    by_cases dotted' : '.' ∈ afterName.toList
    · obtain ⟨kind, space, rfl, kindNoDot⟩ := exists_eq_append_dot dotted'
      simp only [← String.append_assoc]
      exact ⟨_, .space noDot kindNoDot⟩
    · exact ⟨_, .kind noDot dotted'⟩
  · exact ⟨_, .name dotted⟩

theorem HasFields.name_noDot (has : HasFields text fields) : '.' ∉ fields.name.toList := by
  cases has with
  | name noDot | kind noDot _ | space noDot _ => exact noDot

theorem HasFields.kind_noDot (has : HasFields text fields) : '.' ∉ fields.kind.toList := by
  cases has with
  | name _ => exact List.not_mem_nil
  | kind _ noDot | space _ noDot => exact noDot

theorem HasFields.written_eq (has : HasFields text fields) (reached : fields.space ≠ "") :
    fields.written = text := by
  cases has with
  | name _ | kind _ _ => exact absurd rfl reached
  | space _ _ => rfl

end Text

/-! ### What is read -/

/-- What a text can stand for in a rule of a namespace. -/
structure IsResolved (reference : InstanceReference) (ruleSpace : String) : Prop where
  name_noDot : '.' ∉ reference.name.toList
  kind_noDot : '.' ∉ reference.kind.toList
  kind_ne : reference.kind ≠ ""
  space : reference.space = ruleSpace ∨ reference.space ≠ ""

section Resolved

variable {text ruleSpace : String} {reference : InstanceReference}

theorem HasFields.isResolved_completed {fields : InstanceReference} (has : HasFields text fields)
    (ruleSpace : String) : IsResolved (fields.completed ruleSpace) ruleSpace where
  name_noDot := has.name_noDot
  kind_noDot := by
    simp only [completed]
    split
    · decide
    · exact has.kind_noDot
  kind_ne := by
    simp only [completed]
    split
    · decide
    · assumption
  space := by
    simp only [completed]
    split
    · exact .inl rfl
    · exact .inr ‹_›

theorem isResolved_read (text ruleSpace : String) : IsResolved (read text ruleSpace) ruleSpace := by
  obtain ⟨fields, has⟩ := exists_hasFields text
  rw [has.read_eq]
  exact has.isResolved_completed ruleSpace

theorem IsResolved.completed_eq (resolved : IsResolved reference ruleSpace) :
    reference.completed ruleSpace = reference := by
  have space : (if reference.space = "" then ruleSpace else reference.space) = reference.space := by
    split
    · next empty => exact (resolved.space.resolve_right (absurd empty)).symm
    · rfl
  simp only [completed, if_neg resolved.kind_ne, space]

theorem IsResolved.read_written (resolved : IsResolved reference ruleSpace) :
    read reference.written ruleSpace = reference := by
  have has : HasFields reference.written reference := .space resolved.name_noDot resolved.kind_noDot
  rw [has.read_eq, resolved.completed_eq]

end Resolved

/-- Whether a text leaves neither the kind nor the namespace empty. -/
def IsSpelledOut (text : String) : Prop :=
  ∃ fields, HasFields text fields ∧ fields.kind ≠ "" ∧ fields.space ≠ ""

theorem IsSpelledOut.written_read {text : String} (spelled : IsSpelledOut text) (ruleSpace : String) :
    (read text ruleSpace).written = text := by
  obtain ⟨fields, has, kind, space⟩ := spelled
  have full : IsResolved fields ruleSpace := ⟨has.name_noDot, has.kind_noDot, kind, .inr space⟩
  rw [has.read_eq, full.completed_eq, has.written_eq space]

/-- A reference that was read is read again from the text that spells it out. A text that spells out a
reference with all fields is read as that reference in every namespace, and so texts that are spelled out are
read alike only where they are the same. -/
theorem read_normal_forms :
    (∀ text ruleSpace, IsResolved (read text ruleSpace) ruleSpace ∧
      read (read text ruleSpace).written ruleSpace = read text ruleSpace) ∧
    (∀ name kind space ruleSpace : String, '.' ∉ name.toList → '.' ∉ kind.toList → kind ≠ "" → space ≠ "" →
      read (name ++ "." ++ kind ++ "." ++ space) ruleSpace = ⟨name, kind, space⟩) ∧
    (∀ text other ruleSpace otherSpace, IsSpelledOut text → IsSpelledOut other →
      read text ruleSpace = read other otherSpace → text = other) := by
  refine ⟨?_, ?_, ?_⟩
  · intro text ruleSpace
    have resolved := isResolved_read text ruleSpace
    exact ⟨resolved, resolved.read_written⟩
  · intro name kind space ruleSpace noDot kindNoDot kindNe spaceNe
    have full : IsResolved ⟨name, kind, space⟩ ruleSpace := ⟨noDot, kindNoDot, kindNe, .inr spaceNe⟩
    exact full.read_written
  · intro text other ruleSpace otherSpace spelled spelled' alike
    calc text
      _ = (read text ruleSpace).written := (spelled.written_read ruleSpace).symm
      _ = (read other otherSpace).written := congrArg written alike
      _ = other := spelled'.written_read otherSpace

/-- Further dots belong to the namespace, also at its ends. -/
theorem dotted_spaces_told_apart :
    read "quota.metric..mesh." "ops" = ⟨"quota", "metric", ".mesh."⟩ ∧
      IsSpelledOut "quota.metric..mesh." ∧ IsSpelledOut "quota.metric..mesh" ∧
      read "quota.metric..mesh." "ops" ≠ read "quota.metric..mesh" "ops" := by
  have spelled : IsSpelledOut ("quota" ++ "." ++ "metric" ++ "." ++ ".mesh.") :=
    ⟨_, .space (by decide) (by decide), by decide, by decide⟩
  have spelled' : IsSpelledOut ("quota" ++ "." ++ "metric" ++ "." ++ ".mesh") :=
    ⟨_, .space (by decide) (by decide), by decide, by decide⟩
  refine ⟨?_, spelled, spelled', ?_⟩
  · exact read_normal_forms.2.1 "quota" "metric" ".mesh." "ops" (by decide) (by decide) (by decide) (by decide)
  · intro alike
    exact absurd (read_normal_forms.2.2 _ _ _ _ spelled spelled' alike) (by decide)

/-- A text that leaves fields empty can be read like another one. -/
example : read "quota" "ops" = read "quota.unknown.ops" "ops" := by decide

end MeshGauges.InstanceReference
