import MeshGauges.Tree.Basic

/-! Trees without the members that a path leads to.

A path names members only. Where a list stands on the way, the path goes on in each of its items, as it
does in a fan-out. What is read along another path is as before (`lookup_without`), and a tree that held
a removed member keeps its place and its number of elements (`elements_without`). -/

set_option autoImplicit false

namespace MeshGauges

/-- What is left of a path after another one; nothing when the other does not lead along it. -/
def Path.beyond (path walked : Path) : Path :=
  if walked <+: path then path.drop walked.length else []

namespace Path

@[simp] theorem beyond_nil (path : Path) : path.beyond [] = path := by simp [beyond]

theorem beyond_eq_nil {path walked : Path} (off : ¬ walked <+: path) : path.beyond walked = [] := if_neg off

theorem beyond_append_append (first path walked : Path) :
    Path.beyond (first ++ path) (first ++ walked) = path.beyond walked := by
  rw [beyond, beyond, List.length_append, List.drop_length_add_append]
  simp only [List.prefix_append_right_inj]

end Path

namespace Tree

mutual

/-- A tree without the members at a path, also in each item of the lists on the way. -/
def without : Path → Tree → Tree
  | [], tree => tree
  | name :: rest, .list items => .list (withoutEach name rest items)
  | name :: rest, .object members => .object (withoutMembers name rest members)
  | _ :: _, tree => tree

def withoutEach (name : String) (rest : Path) : List Tree → List Tree
  | [] => []
  | item :: others => item.without (name :: rest) :: withoutEach name rest others

def withoutMembers (name : String) (rest : Path) : List (String × Tree) → List (String × Tree)
  | [] => []
  | (key, value) :: others =>
      if key = name then
        if rest.isEmpty then withoutMembers name rest others
        else (key, value.without rest) :: withoutMembers name rest others
      else (key, value) :: withoutMembers name rest others

end

variable {name : String} {rest : Path}

@[simp] theorem without_nil (tree : Tree) : tree.without [] = tree := by
  cases tree <;> rfl

theorem withoutEach_eq_map (items : List Tree) :
    withoutEach name rest items = items.map (without (name :: rest)) := by
  induction items with
  | nil => rfl
  | cons item others ih => rw [withoutEach, ih, List.map_cons]

@[simp] theorem isNull_without (path : Path) (tree : Tree) : (tree.without path).isNull = tree.isNull := by
  cases path with
  | nil => rw [without_nil]
  | cons name rest => cases tree <;> rfl

theorem elements_without (path : Path) (tree : Tree) :
    (tree.without path).elements = tree.elements.map (without path) := by
  cases path with
  | nil =>
      have same : without [] = id := funext without_nil
      rw [without_nil, same, List.map_id]
  | cons name rest =>
      cases tree with
      | list items => exact withoutEach_eq_map items
      | _ => rfl

/-! ### What is read from a thinned tree -/

theorem lookup_withoutMembers_of_ne {other : String} (apart : other ≠ name) (members : List (String × Tree)) :
    (withoutMembers name rest members).lookup other = members.lookup other := by
  induction members with
  | nil => rfl
  | cons entry others ih =>
      obtain ⟨key, value⟩ := entry
      by_cases found : key = name
      -- the entry is left out or thinned, and either way it is not the one that is asked for
      · subst found
        have passed : (other == key) = false := by simpa using apart
        rw [withoutMembers, if_pos rfl, List.lookup_cons, passed]
        split
        · exact ih
        · rw [List.lookup_cons, passed]
          exact ih
      · rw [withoutMembers, if_neg found, List.lookup_cons, List.lookup_cons, ih]

theorem lookup_withoutMembers_cons {next : String} (members : List (String × Tree)) :
    (withoutMembers name (next :: rest) members).lookup name =
      (members.lookup name).map (without (next :: rest)) := by
  induction members with
  | nil => rfl
  | cons entry others ih =>
      obtain ⟨key, value⟩ := entry
      by_cases found : key = name
      · subst found
        simp [withoutMembers]
      · have passed : (name == key) = false := by simpa using Ne.symm found
        rw [withoutMembers, if_neg found, List.lookup_cons, List.lookup_cons, passed]
        exact ih

theorem member_without_of_ne {other : String} (apart : other ≠ name) (tree : Tree) :
    (tree.without (name :: rest)).member other = tree.member other := by
  cases tree with
  | object members => rw [without, member, member, lookup_withoutMembers_of_ne apart]
  | _ => rfl

theorem member_without_cons {next : String} (tree : Tree) :
    (tree.without (name :: next :: rest)).member name = (tree.member name).without (next :: rest) := by
  cases tree with
  | object members =>
      rw [without, member, member, lookup_withoutMembers_cons]
      cases members.lookup name <;> rfl
  | _ => rfl

/-- Along a path that does not reach the removed members a thinned tree is read as before, less what is
left to remove from the value that is found. -/
theorem lookup_without {removed path : Path} (unreached : ¬ removed <+: path) (tree : Tree) :
    (tree.without removed).lookup path = (tree.lookup path).without (removed.beyond path) := by
  induction path generalizing removed tree with
  | nil => simp [Path.beyond]
  | cons name path ih =>
      cases removed with
      | nil => exact absurd List.nil_prefix unreached
      | cons removedName rest =>
          by_cases same : name = removedName
          · subst same
            have deeper : ¬ rest <+: path := fun within =>
              unreached (List.cons_prefix_cons.mpr ⟨rfl, within⟩)
            cases rest with
            -- then the member itself would be removed, and the path passes it
            | nil => exact absurd List.nil_prefix deeper
            | cons next rest =>
                rw [lookup_cons, member_without_cons, ih deeper]
                simp [Path.beyond]
          · rw [lookup_cons, member_without_of_ne same, lookup_cons]
            simp [Path.beyond, same]

def withoutAll (paths : List Path) (tree : Tree) : Tree :=
  paths.foldl (fun thinned path => thinned.without path) tree

/-! ### Trees that differ at a path -/

/-- Whether two trees are alike but for the member at a path, which has another value in one of them or is
in one of them only. Where a list stands on the way, the path goes on in one of its items. -/
inductive ChangedAt : Path → Tree → Tree → Prop where
  | member {name : String} (value? other? : Option Tree) (front back : List (String × Tree)) :
      ChangedAt [name] (.object (front ++ value?.toList.map (name, ·) ++ back))
        (.object (front ++ other?.toList.map (name, ·) ++ back))
  | inside {name : String} {rest : Path} {value other : Tree} (front back : List (String × Tree)) :
      ChangedAt rest value other →
      ChangedAt (name :: rest) (.object (front ++ (name, value) :: back))
        (.object (front ++ (name, other) :: back))
  | item {name : String} {rest : Path} {item other : Tree} (front back : List Tree) :
      ChangedAt (name :: rest) item other →
      ChangedAt (name :: rest) (.list (front ++ item :: back)) (.list (front ++ other :: back))

theorem withoutMembers_append (front back : List (String × Tree)) :
    withoutMembers name rest (front ++ back) = withoutMembers name rest front ++ withoutMembers name rest back := by
  induction front with
  | nil => rfl
  | cons entry others ih =>
      obtain ⟨key, value⟩ := entry
      simp only [List.cons_append, withoutMembers, ih]
      split
      · split <;> rfl
      · rfl

theorem withoutMembers_toList (value? : Option Tree) : withoutMembers name [] (value?.toList.map (name, ·)) = [] := by
  cases value? <;> simp [withoutMembers]

/-- Without the member, trees that differ there alone are one tree. -/
theorem ChangedAt.without_eq {path : Path} {tree other : Tree} (changed : ChangedAt path tree other) :
    other.without path = tree.without path := by
  induction changed with
  | member value? other? front back =>
      simp only [without, withoutMembers_append, withoutMembers_toList]
  | inside front back _ ih =>
      simp only [without, withoutMembers_append, withoutMembers, if_true, ih]
  | item front back _ ih =>
      simp only [without, withoutEach_eq_map, List.map_append, List.map_cons, ih]

end Tree
end MeshGauges
