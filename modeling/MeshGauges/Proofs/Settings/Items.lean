import MeshGauges.Proofs.Text.Trimming
import MeshGauges.Settings.Items

/-! Items of comma-separated options.

A comma always separates, so the items of two texts with a comma between them are those of the one and then
those of the other (`items_append_comma`). A text without commas has one item or none (`items_of_not_mem`).
Items are the texts of which the only item is the text itself (`IsItem.items_eq`), so a list of them is read
back from its joined text. -/

set_option autoImplicit false

namespace MeshGauges.Settings

open MeshGauges.Text

/-! ### Pieces -/

theorem splitAtCommas_eq_splitOn (characters : List Char) :
    splitAtCommas characters = characters.splitOn ',' := by
  induction characters with
  | nil => rfl
  | cons character rest ih =>
      rw [splitAtCommas, List.splitOn_cons_eq_if_modifyHead, ih]
      by_cases comma : character = ','
      · simp [comma]
      · cases pieces : rest.splitOn ',' with
        | nil => exact absurd pieces (List.splitOn_ne_nil ',' rest)
        | cons piece others => simp [comma]

theorem not_mem_of_mem_splitAtCommas {characters piece : List Char}
    (member : piece ∈ splitAtCommas characters) : ',' ∉ piece := by
  induction characters generalizing piece with
  | nil =>
      obtain rfl := List.mem_singleton.mp member
      exact List.not_mem_nil
  | cons character rest ih =>
      unfold splitAtCommas at member
      split at member
      case isTrue =>
        cases member with
        | head => exact List.not_mem_nil
        | tail _ later => exact ih later
      case isFalse other =>
        have single : ',' ∉ [character] := by simpa using Ne.symm other
        split at member
        case h_1 =>
          obtain rfl := List.mem_singleton.mp member
          exact single
        case h_2 first others pieces =>
          rw [pieces] at ih
          cases member with
          | head => exact List.not_mem_append single (ih List.mem_cons_self)
          | tail _ later => exact ih (List.mem_cons_of_mem _ later)

/-! ### Items -/

/-- What is an item of some text. -/
structure IsItem (text : String) : Prop where
  nonempty : text ≠ ""
  noComma : ',' ∉ text.toList
  trimmed : trim text = text

section Items

variable {text item : String}

/-- The items of a text, with its pieces as texts. -/
theorem items_eq (text : String) :
    items text = (((splitAtCommas text.toList).map String.ofList).map trim).filter (· ≠ "") := by
  have nonempty : (fun characters : List Char => !characters.isEmpty) =
      (fun item => decide (item ≠ "")) ∘ String.ofList := by
    funext characters
    cases characters <;> simp
  have trimmed : trim ∘ String.ofList = String.ofList ∘ trimWhere isBlank := by
    funext characters
    simp [trim]
  rw [items, nonempty, ← List.filter_map, List.map_map, List.map_map, trimmed]

theorem items_append_comma (text other : String) :
    items (text ++ "," ++ other) = items text ++ items other := by
  have split : splitAtCommas (text ++ "," ++ other).toList =
      splitAtCommas text.toList ++ splitAtCommas other.toList := by
    simp only [splitAtCommas_eq_splitOn, String.toList_append, List.append_assoc]
    exact List.splitOn_append_cons_self _ _
  simp only [items_eq, split, List.map_append, List.filter_append]

theorem items_of_not_mem (noComma : ',' ∉ text.toList) :
    items text = if trim text = "" then [] else [trim text] := by
  have split : splitAtCommas text.toList = [text.toList] := by
    rw [splitAtCommas_eq_splitOn, List.splitOn_eq_singleton noComma]
  by_cases blank : trim text = ""
  · simp [items_eq, split, blank]
  · simp [items_eq, split, blank]

theorem isItem_of_mem_items (member : item ∈ items text) : IsItem item := by
  rw [items_eq] at member
  obtain ⟨trimmed, nonempty⟩ := List.mem_filter.mp member
  obtain ⟨piece, split, rfl⟩ := List.mem_map.mp trimmed
  obtain ⟨characters, pieces, rfl⟩ := List.mem_map.mp split
  have noComma : ',' ∉ (String.ofList characters).toList := by
    simpa using not_mem_of_mem_splitAtCommas pieces
  exact ⟨of_decide_eq_true nonempty, not_mem_trim noComma, trim_trim _⟩

theorem IsItem.items_eq (isItem : IsItem item) : items item = [item] := by
  rw [items_of_not_mem isItem.noComma, isItem.trimmed, if_neg isItem.nonempty]

theorem items_intercalate {listed : List String} (isItem : ∀ item ∈ listed, IsItem item) :
    items (String.intercalate "," listed) = listed := by
  induction listed with
  | nil => rfl
  | cons first rest ih =>
      obtain ⟨isFirst, isRest⟩ := List.forall_mem_cons.mp isItem
      cases rest with
      | nil => rw [String.intercalate_singleton, isFirst.items_eq]
      | cons second others =>
          rw [String.intercalate_cons_cons, items_append_comma, isFirst.items_eq, ih isRest]
          rfl

end Items

/-- The items of a text: a comma separates what is around it, and between commas there is one item or none. So
every item is one that no splitting and no trimming changes, and the items are read back from their joined
text. -/
theorem items_compositional :
    (∀ text other, items (text ++ "," ++ other) = items text ++ items other) ∧
    (∀ text : String, ',' ∉ text.toList → items text = if trim text = "" then [] else [trim text]) ∧
    (∀ text, ∀ item ∈ items text, item ≠ "" ∧ ',' ∉ item.toList ∧ trim item = item) ∧
    (∀ text, items (String.intercalate "," (items text)) = items text) := by
  refine ⟨items_append_comma, fun text noComma => items_of_not_mem noComma, ?_, ?_⟩
  · intro text item member
    have isItem := isItem_of_mem_items member
    exact ⟨isItem.nonempty, isItem.noComma, isItem.trimmed⟩
  · intro text
    exact items_intercalate fun item member => isItem_of_mem_items member

/-- Blanks around an item are dropped, those inside it are kept, and what is blank is no item. -/
theorem items_between_blanks :
    items ("\u2003,, east mesh\t" ++ "," ++ "\x1f") = ["east mesh"] ∧
      ',' ∉ " east mesh\t".toList ∧ items " east mesh\t" = ["east mesh"] ∧
      "east mesh" ∈ items "\u2003,, east mesh\t" ∧ trim "east mesh" = "east mesh" := by
  have noComma : ',' ∉ " east mesh\t".toList := by decide
  have member : "east mesh" ∈ items "\u2003,, east mesh\t" := by decide
  refine ⟨?_, noComma, ?_, member, (items_compositional.2.2.1 _ _ member).2.2⟩
  · rw [items_compositional.1]
    decide
  · rw [items_compositional.2.1 _ noComma]
    decide

end MeshGauges.Settings
