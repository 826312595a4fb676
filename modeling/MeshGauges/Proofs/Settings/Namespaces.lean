import MeshGauges.Proofs.Scrape.Distinct
import MeshGauges.Proofs.Settings.Items
import MeshGauges.Proofs.Settings.Refusal
import MeshGauges.Settings.Namespaces

/-! Which selections of namespaces are accepted.

A selection is the token for every namespace alone, or a list of names, of which each is taken once in the
order of first mention; any other is refused. Tokens are trimmed, so the line feed that may follow a name is
never there, and the names that are taken are labels in full. -/

set_option autoImplicit false

namespace MeshGauges.Settings

open MeshGauges.Text

/-- Small ASCII letters and digits. -/
def IsLabelEnd (character : Char) : Prop :=
  ('a' ≤ character ∧ character ≤ 'z') ∨ ('0' ≤ character ∧ character ≤ '9')

/-- One to 63 small letters, digits and hyphens, of which the first and the last are no hyphens. -/
structure IsDnsLabel (text : String) : Prop where
  nonempty : 1 ≤ text.toList.length
  short : text.toList.length ≤ 63
  characters : ∀ character ∈ text.toList, IsLabelEnd character ∨ character = '-'
  first : ∀ character, text.toList.head? = some character → IsLabelEnd character
  last : ∀ character, text.toList.getLast? = some character → IsLabelEnd character

theorem isLabelEnd_iff {character : Char} : isLabelEnd character = true ↔ IsLabelEnd character := by
  simp [isLabelEnd, IsLabelEnd]

theorem isLabelCharacter_iff {character : Char} :
    isLabelCharacter character = true ↔ IsLabelEnd character ∨ character = '-' := by
  simp [isLabelCharacter, isLabelEnd_iff]

/-- A name that no line feed follows is a label. -/
theorem isNamespaceName_iff {text : String} (noLineFeed : text.toList.getLast? ≠ some '\n') :
    isNamespaceName text = true ↔ IsDnsLabel text := by
  rw [isNamespaceName, dropFinalLineFeed, if_neg noLineFeed]
  constructor
  · intro accepted
    simp only [isLabel, Bool.and_eq_true, decide_eq_true_eq, List.all_eq_true, Option.any_eq_true] at accepted
    obtain ⟨short, ⟨characters, first, opens, firstEnd⟩, last, closes, lastEnd⟩ := accepted
    refine ⟨?_, short, fun character member => isLabelCharacter_iff.mp (characters character member), ?_, ?_⟩
    · exact List.length_pos_of_mem (List.mem_of_head? opens)
    · intro character opens'
      obtain rfl := Option.some.inj (opens.symm.trans opens')
      exact isLabelEnd_iff.mp firstEnd
    · intro character closes'
      obtain rfl := Option.some.inj (closes.symm.trans closes')
      exact isLabelEnd_iff.mp lastEnd
  · intro label
    have some : text.toList ≠ [] := List.ne_nil_of_length_pos label.nonempty
    have opens := List.head?_eq_some_head some
    have closes := List.getLast?_eq_some_getLast some
    simp only [isLabel, Bool.and_eq_true, decide_eq_true_eq, List.all_eq_true, Option.any_eq_true]
    refine ⟨label.short, ⟨fun character member => ?_, _, opens, ?_⟩, _, closes, ?_⟩
    · exact isLabelCharacter_iff.mpr (label.characters character member)
    · exact isLabelEnd_iff.mpr (label.first _ opens)
    · exact isLabelEnd_iff.mpr (label.last _ closes)

theorem ne_everyNamespace_of_isNamespaceName {name : String} (accepted : isNamespaceName name = true) :
    name ≠ everyNamespace := by
  rintro rfl
  exact absurd accepted (by decide)

theorem ne_everyNamespaceToken_of_isNamespaceName {name : String} (accepted : isNamespaceName name = true) :
    name ≠ everyNamespaceToken := by
  rintro rfl
  exact absurd accepted (by decide)

/-! ### Tokens -/

/-- No item ends in a line feed. -/
theorem getLast?_of_mem_items {text item : String} (member : item ∈ items text) :
    item.toList.getLast? ≠ some '\n' := by
  rw [← (isItem_of_mem_items member).trimmed, trim, String.toList_ofList]
  exact getLast?_trimWhere_ne (by decide) item.toList

theorem getLast?_of_mem_optionalItems {text? : Option String} {item : String}
    (member : item ∈ optionalItems text?) : item.toList.getLast? ≠ some '\n' := by
  cases text? with
  | none => cases member
  | some text => exact getLast?_of_mem_items member

/-! ### The selection -/

/-- What is selected after some tokens: the names once each, the token for every namespace each time. -/
structure Gathers (selected tokens : List String) : Prop where
  accepted : ∀ token ∈ tokens, token ≠ everyNamespaceToken → isNamespaceName token = true
  names : selected.filter (· ≠ everyNamespace) = (tokens.filter (· ≠ everyNamespaceToken)).eraseDups
  every : selected.count everyNamespace = tokens.count everyNamespaceToken

section Gather

variable {selected tokens seen after : List String} {token : String}

theorem Gathers.add (gathers : Gathers selected seen) (added : addNamespace selected token = .ok after) :
    Gathers after (seen ++ [token]) := by
  unfold addNamespace at added
  split at added
  case isTrue every =>
    obtain rfl := Except.ok.inj added
    subst every
    refine ⟨?_, ?_, ?_⟩
    · exact List.forall_mem_append.mpr ⟨gathers.accepted, by simp⟩
    · simpa using gathers.names
    · simpa using gathers.every
  case isFalse single =>
    split at added
    case isTrue => cases added
    case isFalse name =>
      have name : isNamespaceName token = true := by simpa using name
      have accepted : ∀ other ∈ seen ++ [token], other ≠ everyNamespaceToken →
          isNamespaceName other = true :=
        List.forall_mem_append.mpr ⟨gathers.accepted, by simp [name]⟩
      have distinct := ne_everyNamespace_of_isNamespaceName name
      have count : (seen ++ [token]).count everyNamespaceToken = seen.count everyNamespaceToken := by
        simp [single]
      have mentioned : (seen ++ [token]).filter (· ≠ everyNamespaceToken) =
          seen.filter (· ≠ everyNamespaceToken) ++ [token] := by
        simp [single]
      have present_iff : token ∈ seen.filter (· ≠ everyNamespaceToken) ↔ token ∈ selected := by
        rw [← List.mem_eraseDups, ← gathers.names, List.mem_filter]
        simp [distinct]
      split at added
      case isTrue present =>
        obtain rfl := Except.ok.inj added
        have present : token ∈ selected := by simpa using present
        refine ⟨accepted, ?_, count ▸ gathers.every⟩
        rw [mentioned, eraseDups_concat, if_pos (present_iff.mpr present), gathers.names]
      case isFalse absent =>
        obtain rfl := Except.ok.inj added
        have absent : token ∉ selected := by simpa using absent
        refine ⟨accepted, ?_, ?_⟩
        · rw [mentioned, eraseDups_concat, if_neg (mt present_iff.mp absent), ← gathers.names]
          simp [distinct]
        · rw [count, ← gathers.every]
          simp [distinct]

theorem Gathers.addAll (gathers : Gathers selected seen)
    (added : tokens.foldlM addNamespace selected = .ok after) : Gathers after (seen ++ tokens) :=
  foldlM_keeps Gathers.add gathers added

theorem addNamespace_eq_ok (selected : List String) (accepted : isNamespaceName token = true) :
    ∃ after, addNamespace selected token = .ok after := by
  rw [addNamespace, if_neg (ne_everyNamespaceToken_of_isNamespaceName accepted), if_neg (by simp [accepted])]
  split <;> exact ⟨_, rfl⟩

/-- The selection of accepted tokens. -/
def chosen (tokens : List String) : List String :=
  if tokens = [] ∨ tokens = [everyNamespaceToken] then [everyNamespace] else tokens.eraseDups

/-- Without the token for every namespace, each name is selected once and nothing else. -/
theorem Gathers.of_names (gathers : Gathers selected tokens) (names : everyNamespaceToken ∉ tokens) :
    selected = tokens.eraseDups ∧ everyNamespace ∉ selected := by
  have none : everyNamespace ∉ selected := by
    rw [← List.count_eq_zero, gathers.every, List.count_eq_zero]
    exact names
  have gathered := gathers.names
  rw [List.filter_eq_self.mpr, List.filter_eq_self.mpr] at gathered
  · exact ⟨gathered, none⟩
  · intro token member
    simpa using fun same : token = everyNamespaceToken => names (same ▸ member)
  · intro name member
    simpa using fun same : name = everyNamespace => none (same ▸ member)

/-- The token for every namespace is taken alone only. -/
theorem Gathers.of_every (gathers : Gathers selected tokens) (every : everyNamespaceToken ∈ tokens)
    (completes : completeSelection selected = .ok after) :
    tokens = [everyNamespaceToken] ∧ after = [everyNamespace] := by
  have present : everyNamespace ∈ selected := by
    rw [← List.count_pos_iff, gathers.every, List.count_pos_iff]
    exact every
  have nonempty : selected ≠ [] := List.ne_nil_of_mem present
  have contained : selected.contains everyNamespace = true := by simpa using present
  rw [completeSelection, if_neg (by simpa using nonempty), contained, Bool.true_and] at completes
  split at completes
  · cases completes
  · next single =>
      obtain rfl := Except.ok.inj completes
      have length : selected.length = 1 := by
        have positive := List.length_pos_iff.mpr nonempty
        simp only [decide_eq_true_eq] at single
        omega
      obtain ⟨name, rfl⟩ := List.length_eq_one_iff.mp length
      obtain rfl := List.mem_singleton.mp present
      have tokensOnly : ∀ token ∈ tokens, everyNamespaceToken = token := by
        intro token member
        by_contra other
        have listed : token ∈ (tokens.filter (· ≠ everyNamespaceToken)).eraseDups := by
          simpa [List.mem_eraseDups, member] using Ne.symm other
        rw [← gathers.names] at listed
        simp at listed
      have one : tokens.length = 1 := by
        rw [← List.count_eq_length.mpr tokensOnly, ← gathers.every]
        simp
      obtain ⟨token, rfl⟩ := List.length_eq_one_iff.mp one
      exact ⟨by rw [List.mem_singleton.mp every], rfl⟩

theorem completeSelection_of_names (names : everyNamespace ∉ selected) :
    completeSelection selected = .ok (if selected = [] then [everyNamespace] else selected) := by
  have absent : selected.contains everyNamespace = false := by simpa using names
  rw [completeSelection, absent, Bool.false_and, if_neg Bool.false_ne_true]
  cases selected <;> rfl

theorem chosen_of_names (names : everyNamespaceToken ∉ tokens) :
    chosen tokens = if tokens.eraseDups = [] then [everyNamespace] else tokens.eraseDups := by
  have single : tokens ≠ [everyNamespaceToken] := by
    rintro rfl
    exact names List.mem_cons_self
  simp only [chosen, single, or_false, eraseDups_eq_nil_iff]

theorem selectNamespaces_eq_ok_iff :
    selectNamespaces tokens = .ok selected ↔
      (tokens = [everyNamespaceToken] ∨ ∀ token ∈ tokens, isNamespaceName token = true) ∧
        selected = chosen tokens := by
  have start : Gathers [] [] := ⟨nofun, rfl, rfl⟩
  constructor
  · intro selects
    obtain ⟨found, gathered, completes⟩ := bind_eq_ok_iff.mp selects
    have gathers : Gathers found tokens := start.addAll gathered
    by_cases every : everyNamespaceToken ∈ tokens
    · obtain ⟨rfl, rfl⟩ := gathers.of_every every completes
      exact ⟨.inl rfl, rfl⟩
    · obtain ⟨rfl, none⟩ := gathers.of_names every
      rw [completeSelection_of_names none, ← chosen_of_names every] at completes
      refine ⟨.inr fun token member => ?_, (Except.ok.inj completes).symm⟩
      exact gathers.accepted token member fun same => every (same ▸ member)
  · rintro ⟨single | names, rfl⟩
    · subst single
      rfl
    · obtain ⟨found, gathered⟩ := foldlM_eq_ok (fun token member found =>
        addNamespace_eq_ok found (names token member)) []
      have gathers : Gathers found tokens := start.addAll gathered
      have every : everyNamespaceToken ∉ tokens := fun member =>
        ne_everyNamespaceToken_of_isNamespaceName (names _ member) rfl
      obtain ⟨rfl, none⟩ := gathers.of_names every
      rw [selectNamespaces, gathered, chosen_of_names every]
      exact completeSelection_of_names none

end Gather
end MeshGauges.Settings
