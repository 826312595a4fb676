import MeshGauges.Resource

/-! Events of a watch.

An event is read from a tree with a type and an object before anything is changed, so an event that
cannot be read changes nothing. -/

set_option autoImplicit false

namespace MeshGauges

inductive Event where
  | put (resource : Resource)
  | remove (resource : Resource)
  /-- Nothing happened up to a version; the version may be missing. -/
  | bookmark (version : String)
  | failure (text : String)
  | unknown (type : String)
  deriving Repr

namespace Event

/-- The text of a failure: the message of its object, or the whole object when it has none. -/
def failureText (members : List (String × Tree)) : String :=
  match members.lookup "message" with
  | some message => message.asText
  | none => (Tree.object members).asText

def ofTree? (kind : String) (tree : Tree) : Option Event := do
  let _ ← tree.members?
  let object ← Resource.section? tree "object"
  match tree.member "type" with
  | .text "ERROR" => object.members?.map fun members => .failure (failureText members)
  | .text "BOOKMARK" =>
      (Resource.section? object "metadata").map fun metadata =>
        .bookmark (Resource.field metadata "resourceVersion")
  | .text "ADDED" => (Resource.ofObject? kind object).map .put
  | .text "MODIFIED" => (Resource.ofObject? kind object).map .put
  | .text "DELETED" => (Resource.ofObject? kind object).map .remove
  | other => some (.unknown other.asText)

end Event
end MeshGauges
