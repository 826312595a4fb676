import MeshGauges.Proofs.Settings.Namespaces

/-! What a list of tokens selects.

The tokens alone decide the outcome (`selectNamespaces_eq`): the first one that is refused, if there is
one, and else whether the token for every namespace stands beside others. A repeated name changes nothing.
A repeated token for every namespace counts, and so it stands beside another one, itself. A name is a label,
or a label that one line feed follows. -/

set_option autoImplicit false

namespace MeshGauges.Settings

/-- Whether a token is neither the one for every namespace nor a name. -/
def isRefused (token : String) : Bool :=
  token ≠ everyNamespaceToken && !isNamespaceName token

section Outcome

variable {tokens selected : List String} {token : String}

theorem addNamespace_of_refused (selected : List String) (refused : isRefused token = true) :
    addNamespace selected token = .error (.invalidNamespace token) := by
  simp only [isRefused, Bool.and_eq_true, decide_eq_true_eq] at refused
  rw [addNamespace, if_neg refused.1, if_pos refused.2]

theorem addNamespace_of_taken (selected : List String) (taken : isRefused token = false) :
    ∃ after, addNamespace selected token = .ok after := by
  by_cases every : token = everyNamespaceToken
  · exact ⟨selected ++ [everyNamespace], if_pos every⟩
  · have name : isNamespaceName token = true := by simpa [isRefused, every] using taken
    exact addNamespace_eq_ok selected name

theorem foldlM_of_refused (found : tokens.find? isRefused = some token) (selected : List String) :
    tokens.foldlM addNamespace selected = .error (.invalidNamespace token) := by
  induction tokens generalizing selected with
  | nil => cases found
  | cons first rest ih =>
      rw [List.foldlM_cons]
      cases refused : isRefused first with
      | true =>
          rw [List.find?_cons_of_pos refused, Option.some.injEq] at found
          rw [addNamespace_of_refused selected refused, found]
          rfl
      | false =>
          rw [List.find?_cons_of_neg (by simp [refused])] at found
          obtain ⟨after, taken⟩ := addNamespace_of_taken selected refused
          rw [taken]
          exact ih found after

theorem completeSelection_eq_error {error : SettingsError}
    (refused : completeSelection selected = .error error) : error = .everyNamespaceAndOthers := by
  unfold completeSelection at refused
  split at refused
  · cases refused
  · split at refused
    · exact (Except.error.inj refused).symm
    · cases refused

theorem selectNamespaces_of_mixed (taken : tokens.find? isRefused = none)
    (every : everyNamespaceToken ∈ tokens) (others : tokens ≠ [everyNamespaceToken]) :
    selectNamespaces tokens = .error .everyNamespaceAndOthers := by
  have takes : ∀ token ∈ tokens, ∀ selected, ∃ after, addNamespace selected token = .ok after := by
    intro token member selected
    have kept := List.find?_eq_none.mp taken token member
    exact addNamespace_of_taken selected (by simpa using kept)
  obtain ⟨found, gathered⟩ := foldlM_eq_ok takes []
  have start : Gathers [] [] := ⟨nofun, rfl, rfl⟩
  have gathers : Gathers found tokens := start.addAll gathered
  rw [selectNamespaces, gathered]
  change completeSelection found = _
  cases completes : completeSelection found with
  | error error => rw [completeSelection_eq_error completes]
  | ok after => exact absurd (gathers.of_every every completes).1 others

/-- The outcome of a selection: the first refused token is reported, then the token for every namespace
beside another one, and otherwise the tokens are chosen. -/
theorem selectNamespaces_eq (tokens : List String) :
    selectNamespaces tokens = match tokens.find? isRefused with
      | some token => .error (.invalidNamespace token)
      | none =>
          if everyNamespaceToken ∈ tokens ∧ tokens ≠ [everyNamespaceToken] then
            .error .everyNamespaceAndOthers
          else .ok (chosen tokens) := by
  cases found : tokens.find? isRefused with
  | some token =>
      rw [selectNamespaces, foldlM_of_refused found]
      rfl
  | none =>
      by_cases mixed : everyNamespaceToken ∈ tokens ∧ tokens ≠ [everyNamespaceToken]
      · rw [if_pos mixed]
        exact selectNamespaces_of_mixed found mixed.1 mixed.2
      · rw [if_neg mixed]
        refine selectNamespaces_eq_ok_iff.mpr ⟨?_, rfl⟩
        by_cases every : everyNamespaceToken ∈ tokens
        · exact .inl (not_not.mp fun others => mixed ⟨every, others⟩)
        · refine .inr fun token member => ?_
          have kept := List.find?_eq_none.mp found token member
          have single : token ≠ everyNamespaceToken := fun same => every (same ▸ member)
          simpa [isRefused, single] using kept

end Outcome

/-! ### Repetitions -/

/-- There are several tokens, and each asks for every namespace. -/
def RepeatsEvery (tokens : List String) : Prop :=
  2 ≤ tokens.length ∧ ∀ token ∈ tokens, token = everyNamespaceToken

theorem repeatsEvery_iff {tokens : List String} :
    RepeatsEvery tokens ↔ tokens.eraseDups = [everyNamespaceToken] ∧ tokens ≠ [everyNamespaceToken] := by
  rw [eraseDups_eq_singleton_iff]
  constructor
  · rintro ⟨several, every⟩
    refine ⟨⟨List.ne_nil_of_length_pos (by omega), every⟩, ?_⟩
    rintro rfl
    simp at several
  · rintro ⟨⟨nonempty, every⟩, others⟩
    refine ⟨?_, every⟩
    rcases tokens with _ | ⟨first, _ | ⟨second, rest⟩⟩
    · exact absurd rfl nonempty
    · exact absurd (congrArg (fun token => [token]) (every first List.mem_cons_self)) others
    · simp

theorem eraseDups_eq_every_iff {tokens : List String} (once : ¬ RepeatsEvery tokens) :
    tokens.eraseDups = [everyNamespaceToken] ↔ tokens = [everyNamespaceToken] := by
  constructor
  · intro single
    exact not_not.mp fun others => once (repeatsEvery_iff.mpr ⟨single, others⟩)
  · rintro rfl
    rfl

theorem chosen_eraseDups {tokens : List String} (once : ¬ RepeatsEvery tokens) :
    chosen tokens.eraseDups = chosen tokens := by
  simp only [chosen, eraseDups_eq_nil_iff, eraseDups_eq_every_iff once,
    eraseDups_eq_self (nodup_eraseDups tokens)]

/-- What repeated tokens do to a selection. -/
structure TakesRepetitions (tokens : List String) : Prop where
  /-- Repetitions change nothing, neither the selection nor the fault, unless all tokens are for every
  namespace. -/
  once : ¬ RepeatsEvery tokens → selectNamespaces tokens = selectNamespaces tokens.eraseDups
  refused : RepeatsEvery tokens → selectNamespaces tokens = .error .everyNamespaceAndOthers
  alone : RepeatsEvery tokens → selectNamespaces tokens.eraseDups = .ok [everyNamespace]

theorem takesRepetitions (tokens : List String) : TakesRepetitions tokens where
  once once := by
    rw [selectNamespaces_eq, selectNamespaces_eq tokens.eraseDups, find?_eraseDups, chosen_eraseDups once]
    simp only [List.mem_eraseDups, ne_eq, eraseDups_eq_every_iff once]
  refused repeats := by
    obtain ⟨several, every⟩ := repeats
    have taken : tokens.find? isRefused = none := by
      refine List.find?_eq_none.mpr fun token member => ?_
      rw [every token member]
      decide
    have some : tokens ≠ [] := List.ne_nil_of_length_pos (by omega)
    have present : everyNamespaceToken ∈ tokens := by
      obtain ⟨token, member⟩ := List.exists_mem_of_ne_nil tokens some
      exact every token member ▸ member
    exact selectNamespaces_of_mixed taken present (repeatsEvery_iff.mp ⟨several, every⟩).2
  alone repeats := by
    rw [(repeatsEvery_iff.mp repeats).1]
    rfl

/-- Two tokens for every namespace are refused, and one is not. -/
theorem every_twice_refused :
    selectNamespaces [everyNamespaceToken, everyNamespaceToken] = .error .everyNamespaceAndOthers ∧
      selectNamespaces [everyNamespaceToken, everyNamespaceToken].eraseDups = .ok [everyNamespace] := by
  decide

/-! ### Names -/

/-- A label that one line feed follows, with no more than 63 characters in all. -/
structure IsFollowedLabel (text label : String) : Prop where
  isLabel : IsDnsLabel label
  text_eq : text = label ++ "\n"
  short : text.toList.length ≤ 63

/-- What is taken for the name of a namespace. -/
def IsAcceptedName (text : String) : Prop :=
  IsDnsLabel text ∨ ∃ label, IsFollowedLabel text label

theorem not_isLabelEnd_lineFeed : ¬ IsLabelEnd '\n' := by
  rw [← isLabelEnd_iff]
  decide

theorem IsDnsLabel.getLast?_ne {text : String} (label : IsDnsLabel text) :
    text.toList.getLast? ≠ some '\n' :=
  fun ends => not_isLabelEnd_lineFeed (label.last _ ends)

theorem getLast?_append_lineFeed (label : String) : (label ++ "\n").toList.getLast? = some '\n' := by
  rw [String.toList_append]
  exact List.getLast?_concat

theorem isNamespaceName_append_lineFeed (label : String) :
    isNamespaceName (label ++ "\n") = true ↔ IsFollowedLabel (label ++ "\n") label := by
  have dropped : dropFinalLineFeed (label ++ "\n").toList = label.toList := by
    rw [dropFinalLineFeed, if_pos (getLast?_append_lineFeed label), String.toList_append]
    exact List.dropLast_concat
  have longer : (label ++ "\n").toList.length = label.toList.length + 1 := by
    rw [String.toList_append, List.length_append]
    rfl
  have name_iff (short : label.toList.length ≤ 63) (noLineFeed : label.toList.getLast? ≠ some '\n') :
      Settings.isLabel label.toList = true ↔ IsDnsLabel label := by
    rw [← isNamespaceName_iff noLineFeed, isNamespaceName, dropFinalLineFeed, if_neg noLineFeed,
      greatestNameLength, decide_eq_true short, Bool.true_and]
  rw [isNamespaceName, dropped, Bool.and_eq_true, decide_eq_true_eq, greatestNameLength]
  constructor
  · rintro ⟨short, accepted⟩
    have noLineFeed : label.toList.getLast? ≠ some '\n' := by
      intro ends
      simp only [Settings.isLabel, Bool.and_eq_true, ends, Option.any_some] at accepted
      exact not_isLabelEnd_lineFeed (isLabelEnd_iff.mp accepted.2)
    exact ⟨(name_iff (by omega) noLineFeed).mp accepted, rfl, short⟩
  · intro followed
    exact ⟨followed.short, (name_iff followed.isLabel.short followed.isLabel.getLast?_ne).mpr followed.isLabel⟩

theorem isNamespaceName_iff_isAcceptedName {text : String} :
    isNamespaceName text = true ↔ IsAcceptedName text := by
  by_cases ends : text.toList.getLast? = some '\n'
  · obtain ⟨characters, same⟩ := List.getLast?_eq_some_iff.mp ends
    obtain rfl : text = String.ofList characters ++ "\n" := by
      rw [← String.toList_inj, same, String.toList_append, String.toList_ofList]
      rfl
    rw [isNamespaceName_append_lineFeed]
    constructor
    · intro followed
      exact .inr ⟨_, followed⟩
    · rintro (label | ⟨label, followed⟩)
      · exact absurd ends label.getLast?_ne
      · obtain rfl : label = String.ofList characters := (String.append_left_inj "\n").mp followed.text_eq.symm
        exact followed
  · rw [isNamespaceName_iff ends, IsAcceptedName, or_iff_left]
    rintro ⟨label, followed⟩
    rw [followed.text_eq] at ends
    exact ends (getLast?_append_lineFeed label)

/-- What a list of tokens without the one for every namespace selects. -/
structure SelectsNames (tokens : List String) : Prop where
  selects_iff : (∃ selected, selectNamespaces tokens = .ok selected) ↔
    ∀ token ∈ tokens, IsAcceptedName token
  /-- Where no token ends in a line feed, exactly the labels are names. -/
  in_full : (∀ token ∈ tokens, token.toList.getLast? ≠ some '\n') →
    ((∃ selected, selectNamespaces tokens = .ok selected) ↔ ∀ token ∈ tokens, IsDnsLabel token)
  selected_eq : ∀ selected, selectNamespaces tokens = .ok selected →
    selected = if tokens = [] then [everyNamespace] else tokens.eraseDups
  /-- A refusal names the first token that is no name. -/
  first_refused : ∀ error, selectNamespaces tokens = .error error →
    ∃ before token after, tokens = before ++ token :: after ∧
      (∀ earlier ∈ before, IsAcceptedName earlier) ∧ ¬ IsAcceptedName token ∧
      error = .invalidNamespace token

section Names

variable {tokens : List String} (names : everyNamespaceToken ∉ tokens)

include names

theorem isRefused_eq_false_iff {token : String} (member : token ∈ tokens) :
    isRefused token = false ↔ IsAcceptedName token := by
  have single : token ≠ everyNamespaceToken := fun same => names (same ▸ member)
  rw [← isNamespaceName_iff_isAcceptedName]
  simp [isRefused, single]

theorem selectNamespaces_eq_of_names :
    selectNamespaces tokens = match tokens.find? isRefused with
      | some token => .error (.invalidNamespace token)
      | none => .ok (if tokens = [] then [everyNamespace] else tokens.eraseDups) := by
  have unmixed : ¬ (everyNamespaceToken ∈ tokens ∧ tokens ≠ [everyNamespaceToken]) :=
    fun mixed => names mixed.1
  rw [selectNamespaces_eq, if_neg unmixed, chosen_of_names names]
  simp only [eraseDups_eq_nil_iff]

theorem selects_iff_isAcceptedName :
    (∃ selected, selectNamespaces tokens = .ok selected) ↔ ∀ token ∈ tokens, IsAcceptedName token := by
  have taken_iff : tokens.find? isRefused = none ↔ ∀ token ∈ tokens, IsAcceptedName token := by
    rw [List.find?_eq_none]
    refine forall₂_congr fun token member => ?_
    rw [Bool.not_eq_true, isRefused_eq_false_iff names member]
  rw [selectNamespaces_eq_of_names names, ← taken_iff]
  cases tokens.find? isRefused <;> simp

/-- Without the token for every namespace exactly the names are selected, each once, in the order of first
mention. -/
theorem selectsNames : SelectsNames tokens where
  selects_iff := selects_iff_isAcceptedName names
  in_full noLineFeed := by
    rw [selects_iff_isAcceptedName names]
    refine forall₂_congr fun token member => ?_
    rw [← isNamespaceName_iff_isAcceptedName, isNamespaceName_iff (noLineFeed token member)]
  selected_eq selected selects := by
    rw [selectNamespaces_eq_of_names names] at selects
    split at selects
    · cases selects
    · exact (Except.ok.inj selects).symm
  first_refused error refused := by
    rw [selectNamespaces_eq_of_names names] at refused
    split at refused
    · next token found =>
        obtain ⟨held, before, after, rfl, earlier⟩ := List.find?_eq_some_iff_append.mp found
        refine ⟨before, token, after, rfl, fun other member => ?_, ?_, (Except.error.inj refused).symm⟩
        · exact (isRefused_eq_false_iff names (List.mem_append_left _ member)).mp
            (by simpa using earlier other member)
        · rw [← isRefused_eq_false_iff names (List.mem_append_right _ List.mem_cons_self), held]
          simp
    · cases refused

end Names

theorem selectsNames_of_repeated_name :
    everyNamespaceToken ∉ ["mesh", "edge\n", "mesh"] ∧ SelectsNames ["mesh", "edge\n", "mesh"] ∧
      selectNamespaces ["mesh", "edge\n", "mesh"] = .ok ["mesh", "edge\n"] := by
  have names : everyNamespaceToken ∉ ["mesh", "edge\n", "mesh"] := by decide
  exact ⟨names, selectsNames names, by decide⟩

/-- A line feed behind a label is taken with it, and the two are no label. -/
theorem lineFeed_accepted :
    selectNamespaces ["mesh\n"] = .ok ["mesh\n"] ∧ ¬ IsDnsLabel "mesh\n" := by
  refine ⟨by decide, fun label => ?_⟩
  exact label.getLast?_ne (by decide)

end MeshGauges.Settings
