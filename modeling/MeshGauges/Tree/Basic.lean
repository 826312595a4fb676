/-! Trees: the values that cluster objects are made of.

A tree is null, a truth value, an integer, a float, a text, a list or an object with named members.
Reading a member or following a path never fails: what is absent reads as null, so a later lookup
continues where an earlier one ended (`lookup_append`). -/

set_option autoImplicit false

namespace MeshGauges

/-- A value of a cluster object. Members keep the order they were written in. -/
inductive Tree where
  | null
  | bool (value : Bool)
  | integer (value : Int)
  | float (value : Float)
  | text (value : String)
  | list (items : List Tree)
  | object (members : List (String × Tree))
  deriving Repr, Inhabited

/-- The names of the members to follow, outermost first. -/
abbrev Path := List String

namespace Tree

def isNull : Tree → Bool
  | .null => true
  | _ => false

/-- Whether a tree counts as missing where a value is optional: null, false, zero and everything empty. -/
def isVacant : Tree → Bool
  | .null => true
  | .bool value => !value
  | .integer value => value == 0
  | .float value => value == 0.0
  | .text value => value == ""
  | .list items => items.isEmpty
  | .object members => members.isEmpty

def orElse (tree alternative : Tree) : Tree :=
  if tree.isVacant then alternative else tree

/-- The member of that name; null when the tree is no object or has no such member. -/
def member (tree : Tree) (name : String) : Tree :=
  match tree with
  | .object members => (members.lookup name).getD .null
  | _ => .null

def members? : Tree → Option (List (String × Tree))
  | .object members => some members
  | _ => none

/-- Follow a path; null when any step of it is absent. -/
def lookup (tree : Tree) : Path → Tree
  | [] => tree
  | name :: rest => (tree.member name).lookup rest

/-- The value at the first of several paths that is present. -/
def lookupFirst (tree : Tree) : List Path → Tree
  | [] => .null
  | path :: others =>
      let found := tree.lookup path
      if found.isNull then tree.lookupFirst others else found

/-- What a tree holds where a list is expected: nothing when null, and any other value counts as one. -/
def elements : Tree → List Tree
  | .null => []
  | .list items => items
  | single => [single]

@[simp] theorem lookup_nil (tree : Tree) : tree.lookup [] = tree := rfl

@[simp] theorem lookup_cons (tree : Tree) (name : String) (rest : Path) :
    tree.lookup (name :: rest) = (tree.member name).lookup rest := rfl

theorem lookup_append (tree : Tree) (first second : Path) :
    tree.lookup (first ++ second) = (tree.lookup first).lookup second := by
  induction first generalizing tree with
  | nil => rfl
  | cons name rest ih => exact ih (tree.member name)

@[simp] theorem member_null (name : String) : Tree.null.member name = .null := rfl

@[simp] theorem lookup_null (path : Path) : Tree.null.lookup path = .null := by
  induction path with
  | nil => rfl
  | cons name rest ih => simpa using ih

end Tree
end MeshGauges
