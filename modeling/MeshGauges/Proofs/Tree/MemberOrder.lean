import MeshGauges.Tree.Basic
import Mathlib.Data.List.Forall2
import Mathlib.Data.List.Nodup

/-! Trees that differ in the order of members.

The members of an object have no order that counts, those of an object inside of it neither. Two trees
are reordered when the members of any objects in them, at any depth, stand in another order and nothing
else is different. What is read along a path from reordered trees is reordered again. -/

set_option autoImplicit false

namespace MeshGauges
namespace Tree

/-- The trees differ only in the order of the members of their objects. An object has one member of each
name, its members are moved as a whole, and their values may be reordered in turn. -/
inductive Reordered : Tree → Tree → Prop where
  | same (tree : Tree) : Reordered tree tree
  | list {items others : List Tree} :
      List.Forall₂ Reordered items others → Reordered (.list items) (.list others)
  | object {members moved others : List (String × Tree)} :
      (members.map Prod.fst).Nodup → members.Perm moved →
      moved.map Prod.fst = others.map Prod.fst →
      List.Forall₂ Reordered (moved.map Prod.snd) (others.map Prod.snd) →
      Reordered (.object members) (.object others)

/-- Induction over reordered trees: what is to be shown of two objects may be assumed of their values,
once the members have been moved. -/
@[elab_as_elim]
theorem Reordered.induct {motive : Tree → Tree → Prop} (same : ∀ tree, motive tree tree)
    (list : ∀ {items others : List Tree}, List.Forall₂ motive items others →
      motive (.list items) (.list others))
    (object : ∀ {members moved others : List (String × Tree)}, (members.map Prod.fst).Nodup →
      members.Perm moved → moved.map Prod.fst = others.map Prod.fst →
      List.Forall₂ motive (moved.map Prod.snd) (others.map Prod.snd) →
      motive (.object members) (.object others))
    {tree other : Tree} (reordered : tree.Reordered other) : motive tree other :=
  @Reordered.rec (fun tree other _ => motive tree other)
    (fun items others _ => List.Forall₂ motive items others) same (fun _ values => list values)
    (fun distinct moved names _ values => object distinct moved names values) .nil
    (fun _ _ head tail => .cons head tail) tree other reordered

/-! ### Members of one name -/

section Members

variable {α : Type} {related : α → α → Prop} {members moved others : List (String × α)}

theorem lookup_eq_some_iff_mem (distinct : (members.map Prod.fst).Nodup) {name : String} {value : α} :
    members.lookup name = some value ↔ (name, value) ∈ members := by
  induction members with
  | nil => simp
  | cons entry rest ih =>
      obtain ⟨key, held⟩ := entry
      obtain ⟨fresh, distinct⟩ := List.nodup_cons.mp distinct
      by_cases found : name = key
      · subst found
        have elsewhere : (name, value) ∉ rest := fun later => fresh (List.mem_map.mpr ⟨_, later, rfl⟩)
        simp [elsewhere, eq_comm]
      · have passed : (name == key) = false := by simpa using found
        rw [List.lookup_cons, passed]
        simp [ih distinct, found]

theorem lookup_eq_of_perm (distinct : (members.map Prod.fst).Nodup) (perm : members.Perm moved)
    (name : String) : members.lookup name = moved.lookup name := by
  have distinct' : (moved.map Prod.fst).Nodup := (perm.map Prod.fst).nodup_iff.mp distinct
  refine Option.ext fun value => ?_
  rw [lookup_eq_some_iff_mem distinct, lookup_eq_some_iff_mem distinct', perm.mem_iff]

/-- Members that agree in their names and have related values are related one by one. -/
theorem forall₂_of_names (names : members.map Prod.fst = others.map Prod.fst)
    (values : List.Forall₂ related (members.map Prod.snd) (others.map Prod.snd)) :
    List.Forall₂ (fun entry other => entry.1 = other.1 ∧ related entry.2 other.2) members others := by
  rw [List.forall₂_map_left_iff, List.forall₂_map_right_iff] at values
  induction values with
  | nil => exact .nil
  | cons head _ ih =>
      obtain ⟨first, rest⟩ := List.cons_eq_cons.mp names
      exact .cons ⟨first, head⟩ (ih rest)

theorem lookup_related {default : α} (absent : related default default)
    (entries : List.Forall₂ (fun entry other => entry.1 = other.1 ∧ related entry.2 other.2)
      members others) (name : String) :
    related ((members.lookup name).getD default) ((others.lookup name).getD default) := by
  induction entries with
  | nil => exact absent
  | @cons entry other _ _ head _ ih =>
      obtain ⟨key, value⟩ := entry
      obtain ⟨_, counterpart⟩ := other
      obtain ⟨rfl, head⟩ := head
      rw [List.lookup_cons, List.lookup_cons]
      cases name == key with
      | true => exact head
      | false => exact ih

end Members

/-! ### What is read from reordered trees -/

namespace Reordered

variable {tree other : Tree}

theorem isNull_eq (reordered : tree.Reordered other) : tree.isNull = other.isNull := by
  cases reordered <;> rfl

theorem isVacant_eq (reordered : tree.Reordered other) : tree.isVacant = other.isVacant := by
  cases reordered with
  | same => rfl
  | list related =>
      cases related with
      | nil => rfl
      | cons => rfl
  | @object members moved others _ perm names _ =>
      have lengths : members.length = others.length := by
        rw [perm.length_eq, ← List.length_map Prod.fst, names, List.length_map]
      rw [isVacant, isVacant, Bool.eq_iff_iff, List.isEmpty_iff, List.isEmpty_iff,
        ← List.length_eq_zero_iff, ← List.length_eq_zero_iff, lengths]

theorem member (reordered : tree.Reordered other) (name : String) :
    (tree.member name).Reordered (other.member name) := by
  cases reordered with
  | same => exact .same _
  | list => exact .same _
  | object distinct perm names values =>
      rw [Tree.member, Tree.member, lookup_eq_of_perm distinct perm]
      exact lookup_related (.same .null) (forall₂_of_names names values) name

theorem lookup (reordered : tree.Reordered other) (path : Path) :
    (tree.lookup path).Reordered (other.lookup path) := by
  induction path generalizing tree other with
  | nil => exact reordered
  | cons name rest ih => exact ih (reordered.member name)

theorem lookupFirst (reordered : tree.Reordered other) (paths : List Path) :
    (tree.lookupFirst paths).Reordered (other.lookupFirst paths) := by
  induction paths with
  | nil => exact .same .null
  | cons path others ih =>
      have found := reordered.lookup path
      rw [Tree.lookupFirst, Tree.lookupFirst, found.isNull_eq]
      split
      · exact ih
      · exact found

theorem elements (reordered : tree.Reordered other) :
    List.Forall₂ Reordered tree.elements other.elements := by
  cases reordered with
  | same => exact List.forall₂_same.mpr fun _ _ => .same _
  | list related => exact related
  | object distinct perm names values => exact .cons (.object distinct perm names values) .nil

end Reordered
end Tree
end MeshGauges
