import MeshGauges.Scrape.Coordinator
import Mathlib.Data.List.Induction
import Mathlib.Data.List.Nodup

/-! First occurrences.

The rows that a collector keeps are the first ones of their identities: their identities are those of
all rows in the order of first mention, each once, and no row comes in that was not there. -/

set_option autoImplicit false

namespace MeshGauges

theorem eraseDups_eq_nil_iff {α : Type} [BEq α] {values : List α} :
    values.eraseDups = [] ↔ values = [] := by
  cases values with
  | nil => simp
  | cons value rest => simp [List.eraseDups_cons]

section FirstMention

variable {α : Type} [BEq α] [LawfulBEq α]

theorem eraseDups_concat (values : List α) (last : α) :
    (values ++ [last]).eraseDups =
      if last ∈ values then values.eraseDups else values.eraseDups ++ [last] := by
  rw [List.eraseDups_append]
  by_cases present : last ∈ values
  · simp [present, List.removeAll]
  · simp [present, List.removeAll, List.eraseDups_cons]

theorem nodup_eraseDups (values : List α) : values.eraseDups.Nodup := by
  induction values using List.reverseRecOn with
  | nil => exact List.nodup_nil
  | append_singleton values last ih =>
      rw [eraseDups_concat]
      split
      · exact ih
      · next absent =>
          rw [← List.concat_eq_append]
          exact ih.concat fun member => absent (List.mem_eraseDups.mp member)

theorem eraseDups_map {β : Type} [BEq β] [LawfulBEq β] {image : α → β} (injective : Function.Injective image)
    (values : List α) : (values.map image).eraseDups = values.eraseDups.map image := by
  induction values using List.reverseRecOn with
  | nil => rfl
  | append_singleton values last ih =>
      simp only [List.map_append, List.map_singleton, eraseDups_concat, ih, List.mem_map_of_injective injective]
      split
      · rfl
      · rw [List.map_append, List.map_singleton]

/-- What is found first is not found later, so later mentions do not matter. -/
theorem find?_eraseDups (holds : α → Bool) (values : List α) :
    values.eraseDups.find? holds = values.find? holds := by
  induction values using List.reverseRecOn with
  | nil => rfl
  | append_singleton values last ih =>
      rw [eraseDups_concat, List.find?_append]
      split
      · next present =>
          rw [ih]
          cases held : holds last with
          | true =>
              obtain ⟨first, found⟩ := Option.isSome_iff_exists.mp
                (List.find?_isSome.mpr ⟨last, present, held⟩)
              rw [found, Option.some_or]
          | false => rw [List.find?_cons_of_neg (by simp [held]), List.find?_nil, Option.or_none]
      · rw [List.find?_append, ih]

theorem eraseDups_eq_self {values : List α} (distinct : values.Nodup) : values.eraseDups = values := by
  induction values with
  | nil => rfl
  | cons value rest ih =>
      obtain ⟨fresh, distinct⟩ := List.nodup_cons.mp distinct
      have others : rest.filter (fun other => !other == value) = rest := by
        refine List.filter_eq_self.mpr fun other member => ?_
        have apart : other ≠ value := fun same => fresh (same ▸ member)
        simpa using apart
      rw [List.eraseDups_cons, others, ih distinct]

theorem eraseDups_eq_singleton_iff {values : List α} {value : α} :
    values.eraseDups = [value] ↔ values ≠ [] ∧ ∀ other ∈ values, other = value := by
  constructor
  · intro single
    refine ⟨?_, fun other member => ?_⟩
    · rintro rfl
      cases single
    · have listed := List.mem_eraseDups.mpr member
      rw [single] at listed
      exact List.mem_singleton.mp listed
  · rintro ⟨nonempty, same⟩
    cases values with
    | nil => exact absurd rfl nonempty
    | cons first rest =>
        obtain rfl := same first List.mem_cons_self
        have none : rest.filter (fun other => !other == first) = [] := by
          refine List.filter_eq_nil_iff.mpr fun other member => ?_
          simp [same other (List.mem_cons_of_mem _ member)]
        rw [List.eraseDups_cons, none, List.eraseDups_nil]

end FirstMention

theorem keepFirst_sublist (seen : List (String × List String)) (rows : List Row) :
    (keepFirst seen rows).Sublist rows := by
  induction rows generalizing seen with
  | nil => exact .slnil
  | cons row rest ih =>
      rw [keepFirst]
      split
      · exact (ih seen).cons row
      · exact (ih (row.identity :: seen)).cons_cons row

theorem map_identity_keepFirst (seen : List (String × List String)) (rows : List Row) :
    (keepFirst seen rows).map Row.identity =
      ((rows.map Row.identity).filter fun identity => identity ∉ seen).eraseDups := by
  induction rows generalizing seen with
  | nil => rfl
  | cons row rest ih =>
      rw [keepFirst, List.map_cons, List.filter_cons]
      by_cases present : row.identity ∈ seen
      · simp [present, ih]
      · rw [if_neg present, if_pos (by simpa using present), List.eraseDups_cons, List.map_cons, ih,
          List.filter_filter]
        congr 3
        funext identity
        by_cases same : identity = row.identity <;> simp [same]

theorem identities_keepFirst (rows : List Row) :
    (keepFirst [] rows).map Row.identity = (rows.map Row.identity).eraseDups := by
  rw [map_identity_keepFirst]
  simp

theorem nodup_identities_keepFirst (rows : List Row) :
    ((keepFirst [] rows).map Row.identity).Nodup := by
  rw [identities_keepFirst rows]
  exact nodup_eraseDups (rows.map Row.identity)

def Row.sameIdentity (row other : Row) : Bool := row.identity == other.identity

theorem keepFirst_eq_eraseDupsBy (seen : List (String × List String)) (rows : List Row) :
    keepFirst seen rows = (rows.filter fun row => row.identity ∉ seen).eraseDupsBy Row.sameIdentity := by
  induction rows generalizing seen with
  | nil => rfl
  | cons row rest ih =>
      rw [keepFirst, List.filter_cons]
      by_cases present : row.identity ∈ seen
      · simp [present, ih]
      · rw [if_neg present, if_pos (by simpa using present), List.eraseDupsBy_cons, ih, List.filter_filter]
        congr 3
        funext other
        by_cases same : other.identity = row.identity <;> simp [Row.sameIdentity, same, present]

/-- Only what was seen of the rows at hand matters. -/
theorem keepFirst_congr {seen other : List (String × List String)} {rows : List Row}
    (agree : ∀ row ∈ rows, row.identity ∈ seen ↔ row.identity ∈ other) :
    keepFirst seen rows = keepFirst other rows := by
  rw [keepFirst_eq_eraseDupsBy, keepFirst_eq_eraseDupsBy]
  refine congrArg (List.eraseDupsBy Row.sameIdentity) (List.filter_congr fun row member => ?_)
  simp [agree row member]

/-- What is kept by its identity can be picked out before the first ones are. -/
theorem filter_keepFirst (keeps : String × List String → Bool) (seen : List (String × List String))
    (rows : List Row) :
    (keepFirst seen rows).filter (fun row => keeps row.identity) =
      keepFirst seen (rows.filter fun row => keeps row.identity) := by
  induction rows generalizing seen with
  | nil => rfl
  | cons row rest ih =>
      rw [keepFirst, List.filter_cons]
      by_cases present : row.identity ∈ seen
      · rw [if_pos present, ih]
        split
        · rw [keepFirst, if_pos present]
        · rfl
      · rw [if_neg present, List.filter_cons, ih]
        split
        · rw [keepFirst, if_neg present]
        · next dropped =>
            -- no row that is picked out has the identity of one that is not
            refine keepFirst_congr fun other member => ?_
            have apart : other.identity ≠ row.identity := fun same =>
              dropped (same ▸ (List.mem_filter.mp member).2)
            simp [apart]

theorem keepFirst_append (seen : List (String × List String)) (rows later : List Row) :
    keepFirst seen (rows ++ later) =
      keepFirst seen rows ++ keepFirst (rows.map Row.identity ++ seen) later := by
  induction rows generalizing seen with
  | nil => rfl
  | cons row rest ih =>
      rw [List.cons_append, keepFirst, keepFirst, List.map_cons, List.cons_append]
      by_cases present : row.identity ∈ seen
      · rw [if_pos present, if_pos present, ih]
        refine congrArg _ (keepFirst_congr fun other _ => ?_)
        constructor
        · exact List.mem_cons_of_mem _
        · intro member
          rcases List.mem_cons.mp member with same | member
          · exact List.mem_append_right _ (same ▸ present)
          · exact member
      · rw [if_neg present, if_neg present, ih, List.cons_append]
        refine congrArg _ (congrArg _ (keepFirst_congr fun other _ => ?_))
        simp only [List.mem_append, List.mem_cons, or_left_comm]

/-- Where the parts of a list have no identity in common, each part keeps what it would keep alone. -/
theorem keepFirst_flatMap {α : Type} {parts : List α} {rowsOf : α → List Row}
    (apart : parts.Pairwise fun part other =>
      ∀ row ∈ rowsOf part, ∀ later ∈ rowsOf other, row.identity ≠ later.identity) :
    keepFirst [] (parts.flatMap rowsOf) = parts.flatMap fun part => keepFirst [] (rowsOf part) := by
  induction parts with
  | nil => rfl
  | cons part rest ih =>
      obtain ⟨first, others⟩ := List.pairwise_cons.mp apart
      rw [List.flatMap_cons, List.flatMap_cons, keepFirst_append, ← ih others]
      refine congrArg _ (keepFirst_congr fun later member => ?_)
      obtain ⟨other, listed, member⟩ := List.mem_flatMap.mp member
      have fresh : later.identity ∉ (rowsOf part).map Row.identity := fun seen => by
        obtain ⟨row, held, same⟩ := List.mem_map.mp seen
        exact first other listed row held later member same
      simp [fresh]

end MeshGauges
