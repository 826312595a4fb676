import MeshGauges.Tree.Basic
import Mathlib.Data.List.Forall2

/-! Trees with one object edited.

How an object may change is a relation between objects, the edit. Trees are edited at a path when an
object at its end has changed in that way and all else is as before; where lists stand on the way, in one
item of each. A path that leads elsewhere reads the same from both trees (`EditedAt.lookup_of_apart`), one
that ends on the way reads edited trees again (`EditedAt.lookup_append`), and only a path that goes on
beyond the place of the edit reads what the edit says (`EditedAt.lookup_beyond`). -/

set_option autoImplicit false

namespace MeshGauges.Tree

/-- What is found first on the same paths of two trees is related as what is found on each of them. -/
theorem lookupFirst_related {related : Tree → Tree → Prop} (absent : related .null .null)
    (isNull_eq : ∀ tree other, related tree other → other.isNull = tree.isNull) {tree other : Tree}
    {paths : List Path} (found : ∀ path ∈ paths, related (tree.lookup path) (other.lookup path)) :
    related (tree.lookupFirst paths) (other.lookupFirst paths) := by
  induction paths with
  | nil => exact absent
  | cons path others ih =>
      obtain ⟨first, remaining⟩ := List.forall_mem_cons.mp found
      rw [lookupFirst, lookupFirst, isNull_eq _ _ first]
      split
      · exact ih remaining
      · exact first

/-! ### Members that are put in or swapped -/

section Members

variable (front back : List (String × Tree)) (value other : Tree) {name : String}

theorem member_eq_null {members : List (String × Tree)} (fresh : ∀ entry ∈ members, entry.1 ≠ name) :
    (Tree.object members).member name = .null := by
  have absent : members.lookup name = none :=
    List.lookup_eq_none_iff.mpr fun entry member => bne_iff_ne.mpr (fresh entry member).symm
  rw [member, absent]
  rfl

theorem member_insert_self (fresh : ∀ entry ∈ front, entry.1 ≠ name) :
    (Tree.object (front ++ (name, value) :: back)).member name = value := by
  have absent : front.lookup name = none :=
    List.lookup_eq_none_iff.mpr fun entry member => bne_iff_ne.mpr (fresh entry member).symm
  rw [member, List.lookup_append, absent, List.lookup_cons_self]
  rfl

theorem member_insert_of_ne {asked : String} (apart : asked ≠ name) :
    (Tree.object (front ++ (name, value) :: back)).member asked = (Tree.object (front ++ back)).member asked := by
  have passed : (asked == name) = false := by simpa using apart
  simp only [member, List.lookup_append, List.lookup_cons, passed]

theorem member_swap_of_ne {asked : String} (apart : asked ≠ name) :
    (Tree.object (front ++ (name, other) :: back)).member asked =
      (Tree.object (front ++ (name, value) :: back)).member asked :=
  (member_insert_of_ne front back other apart).trans (member_insert_of_ne front back value apart).symm

/-- The value of a member that is there before hides the swapped one. -/
theorem member_swap (name : String) :
    (Tree.object (front ++ (name, other) :: back)).member name =
        (Tree.object (front ++ (name, value) :: back)).member name ∨
      (Tree.object (front ++ (name, value) :: back)).member name = value ∧
        (Tree.object (front ++ (name, other) :: back)).member name = other := by
  simp only [member, List.lookup_append, List.lookup_cons_self]
  cases front.lookup name with
  | none => exact .inr ⟨rfl, rfl⟩
  | some earlier => exact .inl rfl

/-- Where trees differ on the way to a place only, objects that have them as members do. -/
theorem lookup_swap {path read : Path} (same : ∀ read, ¬ read <+: path → other.lookup read = value.lookup read)
    (outside : ¬ read <+: name :: path) :
    (Tree.object (front ++ (name, other) :: back)).lookup read =
      (Tree.object (front ++ (name, value) :: back)).lookup read := by
  cases read with
  | nil => exact absurd List.nil_prefix outside
  | cons asked rest =>
      rw [lookup_cons, lookup_cons]
      by_cases along : asked = name
      · subst along
        rw [List.cons_prefix_cons, not_and] at outside
        rcases member_swap front back value other asked with kept | ⟨before, after⟩
        · rw [kept]
        · rw [before, after, same rest (outside rfl)]
      · rw [member_swap_of_ne front back value other along]

end Members

theorem lookup_list {path : Path} (further : path ≠ []) (items : List Tree) :
    (Tree.list items).lookup path = .null := by
  obtain ⟨name, rest, rfl⟩ := List.exists_cons_of_ne_nil further
  exact lookup_null rest

/-- An object at the end of the path has been edited, and nothing else. Where a list stands on the way or
at the end, the edit is in one of its items. -/
inductive EditedAt (edit : Tree → Tree → Prop) : Path → Tree → Tree → Prop where
  | here {members others : List (String × Tree)} :
      edit (.object members) (.object others) → EditedAt edit [] (.object members) (.object others)
  | inside {name : String} {rest : Path} {value other : Tree} (front back : List (String × Tree)) :
      EditedAt edit rest value other →
      EditedAt edit (name :: rest) (.object (front ++ (name, value) :: back))
        (.object (front ++ (name, other) :: back))
  | item {path : Path} {item other : Tree} (front back : List Tree) :
      EditedAt edit path item other →
      EditedAt edit path (.list (front ++ item :: back)) (.list (front ++ other :: back))

namespace EditedAt

variable {edit : Tree → Tree → Prop} {place rest : Path} {tree other : Tree} {name : String}

theorem present (edited : EditedAt edit place tree other) : tree.isNull = false ∧ other.isNull = false := by
  cases edited <;> exact ⟨rfl, rfl⟩

theorem isNull_eq (edited : EditedAt edit place tree other) : other.isNull = tree.isNull := by
  rw [edited.present.1, edited.present.2]

theorem elements (edited : EditedAt edit place tree other) :
    List.Forall₂ (fun element changed => changed = element ∨ EditedAt edit place element changed)
      tree.elements other.elements := by
  cases edited with
  | here changed => exact .cons (.inr (.here changed)) .nil
  | inside front back changed => exact .cons (.inr (.inside front back changed)) .nil
  | item front back changed =>
      refine List.rel_append (List.forall₂_same.mpr fun _ _ => .inl rfl) ?_
      exact .cons (.inr changed) (List.forall₂_same.mpr fun _ _ => .inl rfl)

theorem member_of_ne (edited : EditedAt edit (name :: rest) tree other) {asked : String} (apart : asked ≠ name) :
    other.member asked = tree.member asked := by
  cases edited with
  | inside front back _ => exact member_swap_of_ne front back _ _ apart
  | item => rfl

theorem member (edited : EditedAt edit (name :: rest) tree other) :
    other.member name = tree.member name ∨ EditedAt edit rest (tree.member name) (other.member name) := by
  cases edited with
  | @inside _ _ value other front back changed =>
      rcases member_swap front back value other name with kept | ⟨before, after⟩
      · exact .inl kept
      · rw [before, after]
        exact .inr changed
  | item => exact .inl rfl

/-- On the way to the edit, edited trees are read. -/
theorem lookup_append {first : Path} (edited : EditedAt edit (first ++ rest) tree other) :
    other.lookup first = tree.lookup first ∨ EditedAt edit rest (tree.lookup first) (other.lookup first) := by
  induction first generalizing tree other with
  | nil => exact .inr edited
  | cons name first ih =>
      rcases edited.member with kept | deeper
      · rw [lookup_cons, lookup_cons, kept]
        exact .inl rfl
      · exact ih deeper

theorem lookup_of_apart {path : Path} (edited : EditedAt edit place tree other) (beside : ¬ place <+: path)
    (below : ¬ path <+: place) : other.lookup path = tree.lookup path := by
  induction path generalizing place tree other with
  | nil => exact absurd List.nil_prefix below
  | cons asked path ih =>
      cases place with
      | nil => exact absurd List.nil_prefix beside
      | cons name rest =>
          rw [lookup_cons, lookup_cons]
          by_cases same : asked = name
          · subst same
            rw [List.cons_prefix_cons, not_and] at beside below
            rcases edited.member with kept | deeper
            · rw [kept]
            · exact ih deeper (beside rfl) (below rfl)
          · rw [edited.member_of_ne same]

/-- Beyond the place of the edit the changed object is read, or nothing is, through a list. -/
theorem lookup_beyond {inner : Path} (edited : EditedAt edit place tree other) (further : inner ≠ []) :
    other.lookup (place ++ inner) = tree.lookup (place ++ inner) ∨
      ∃ members others, edit (.object members) (.object others) ∧
        tree.lookup (place ++ inner) = (Tree.object members).lookup inner ∧
        other.lookup (place ++ inner) = (Tree.object others).lookup inner := by
  rw [Tree.lookup_append, Tree.lookup_append]
  have whole : EditedAt edit (place ++ []) tree other := by rwa [List.append_nil]
  rcases whole.lookup_append with kept | reached
  · rw [kept]
    exact .inl rfl
  · generalize tree.lookup place = value, other.lookup place = changed at reached
    cases reached with
    | here changed => exact .inr ⟨_, _, changed, rfl, rfl⟩
    | item =>
        obtain ⟨name, inner, rfl⟩ := List.exists_cons_of_ne_nil further
        exact .inl rfl

end EditedAt
end MeshGauges.Tree
