import MeshGauges.Text.Blank
import Mathlib.Data.List.DropRight

/-! Trimming.

What is left of a text stands in it as it was (`trimWhere_sublist`), and neither its first nor its last
character is one that is removed, so that trimming it again changes nothing (`trimWhere_trimWhere`). -/

set_option autoImplicit false

namespace MeshGauges.Text

variable {discards : Char → Bool}

theorem trimWhere_cons {first : Char} (kept : discards first = false) (rest : List Char) :
    ∃ others, trimWhere discards (first :: rest) = first :: others := by
  have whole : (first :: rest).dropWhile discards = first :: rest := by simp [kept]
  rw [trimWhere, whole, List.reverse_cons, List.dropWhile_append]
  split
  · exact ⟨[], by simp [kept]⟩
  · exact ⟨(rest.reverse.dropWhile discards).reverse, by simp⟩

theorem trimWhere_eq_self {characters : List Char}
    (kept : ∀ character ∈ characters, discards character = false) :
    trimWhere discards characters = characters := by
  have ahead : characters.dropWhile discards = characters := by
    rw [List.dropWhile_eq_self_iff]
    intro _
    simp [kept]
  have behind : characters.rdropWhile discards = characters := by
    rw [List.rdropWhile_eq_self_iff]
    intro _
    simp [kept]
  change (characters.dropWhile discards).rdropWhile discards = characters
  rw [ahead, behind]

theorem trimWhere_eq_rdropWhile {characters : List Char}
    (kept : ∀ first ∈ characters.head?, discards first = false) :
    trimWhere discards characters = characters.rdropWhile discards := by
  have ahead : characters.dropWhile discards = characters := by
    cases characters with
    | nil => rfl
    | cons first rest => rw [List.dropWhile_cons_of_neg (by simp [kept first rfl])]
  rw [trimWhere, ahead]
  rfl

theorem rdropWhile_cons {first : Char} (kept : discards first = false) (rest : List Char) :
    (first :: rest).rdropWhile discards = first :: rest.rdropWhile discards := by
  induction rest using List.reverseRecOn with
  | nil => simp [List.rdropWhile, kept]
  | append_singleton rest last ih =>
      rw [← List.cons_append]
      by_cases discarded : discards last = true
      · rw [List.rdropWhile_concat_pos _ _ _ discarded, List.rdropWhile_concat_pos _ _ _ discarded, ih]
      · rw [List.rdropWhile_concat_neg _ _ _ discarded, List.rdropWhile_concat_neg _ _ _ discarded,
          List.cons_append]

theorem getLast?_trimWhere_ne {last : Char} (discarded : discards last = true)
    (characters : List Char) : (trimWhere discards characters).getLast? ≠ some last := by
  intro ends
  change ((characters.dropWhile discards).rdropWhile discards).getLast? = some last at ends
  have some : (characters.dropWhile discards).rdropWhile discards ≠ [] := by
    intro none
    rw [none] at ends
    cases ends
  have kept := List.rdropWhile_last_not discards _ some
  rw [List.getLast?_eq_some_getLast some, Option.some.injEq] at ends
  rw [ends] at kept
  exact kept discarded

theorem trimWhere_prefix_dropWhile (discards : Char → Bool) (characters : List Char) :
    trimWhere discards characters <+: characters.dropWhile discards :=
  List.rdropWhile_prefix discards _

theorem trimWhere_sublist (discards : Char → Bool) (characters : List Char) :
    (trimWhere discards characters).Sublist characters :=
  (trimWhere_prefix_dropWhile discards characters).sublist.trans (List.dropWhile_sublist discards)

theorem head?_trimWhere {characters : List Char} {first : Char}
    (head : (trimWhere discards characters).head? = some first) : discards first = false := by
  obtain ⟨rest, split⟩ := trimWhere_prefix_dropWhile discards characters
  have kept := List.head?_dropWhile_not discards characters
  rw [← split, List.head?_append, head] at kept
  exact kept

theorem trimWhere_trimWhere (characters : List Char) :
    trimWhere discards (trimWhere discards characters) = trimWhere discards characters := by
  rw [trimWhere_eq_rdropWhile fun _ head => head?_trimWhere head]
  exact List.rdropWhile_idempotent discards _

/-! ### Texts -/

theorem trim_trim (text : String) : trim (trim text) = trim text := by
  simp only [trim, String.toList_ofList, trimWhere_trimWhere]

theorem not_mem_trim {text : String} {character : Char} (absent : character ∉ text.toList) :
    character ∉ (trim text).toList := by
  rw [trim, String.toList_ofList]
  exact fun member => absent ((trimWhere_sublist isBlank text.toList).mem member)

end MeshGauges.Text
