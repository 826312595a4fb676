import MeshGauges.Proofs.Schema.Sections
import MeshGauges.Proofs.Tree.Edit

/-! Rows by the elements that they were fanned out to.

A tuple with one index for each step selects an element at every step of a fan-out, and so the scopes that
its row is read in. The tuples that select something are, in ascending order, those of the rows
(`indexTuples`, `forall₂_select`), and in the selected scopes a name stands for the element of the last
step that binds it (`BoundByLast`). What the rows of the outermost list's elements read does not depend on the
other elements, unless it is read from a scope around the list: so they are the rows of its parts, one part
after the other (`FamilySchema.rows_of_parts`). -/

set_option autoImplicit false

namespace MeshGauges

/-- The scopes that a tuple of indices selects: each step binds its scope to the element of its index in
the tree that it reads. There are none for an index past the elements, or for too few or too many. -/
def select : List FanOut → List Nat → Scopes → Option Scopes
  | [], [], scopes => some scopes
  | step :: rest, index :: indices, scopes =>
      (scopes.read step.source step.path).elements[index]?.bind fun element =>
        select rest indices (scopes.bind step.scope element)
  | _, _, _ => none

/-- The tuples that select something, the index of the first step outermost. -/
def indexTuples : List FanOut → Scopes → List (List Nat)
  | [], _ => [[]]
  | step :: rest, scopes =>
      (scopes.read step.source step.path).elements.zipIdx.flatMap fun (element, index) =>
        (indexTuples rest (scopes.bind step.scope element)).map (index :: ·)

section Tuples

variable {steps : List FanOut} {scopes leaf : Scopes} {tuple : List Nat}

theorem select_append (earlier later : List FanOut) (tuple : List Nat) (scopes : Scopes) :
    select (earlier ++ later) tuple scopes =
      (select earlier (tuple.take earlier.length) scopes).bind (select later (tuple.drop earlier.length)) := by
  induction earlier generalizing tuple scopes with
  | nil => simp [select]
  | cons step rest ih =>
      cases tuple with
      | nil => rfl
      | cons index indices => simp [select, ih, Option.bind_assoc]

theorem mem_expand_of_select (selected : select steps tuple scopes = some leaf) : leaf ∈ expand steps scopes := by
  induction steps generalizing tuple scopes with
  | nil =>
      cases tuple with
      | nil => exact List.mem_singleton.mpr (Option.some.inj selected).symm
      | cons => cases selected
  | cons step rest ih =>
      cases tuple with
      | nil => cases selected
      | cons index indices =>
          obtain ⟨element, found, selected⟩ := Option.bind_eq_some_iff.mp selected
          exact List.mem_flatMap.mpr ⟨element, List.mem_of_getElem? found, ih selected⟩

/-- Later elements have larger tuples, whatever their tuples go on with. -/
theorem pairwise_indexTuples (steps : List FanOut) (scopes : Scopes) :
    (indexTuples steps scopes).Pairwise (· < ·) := by
  induction steps generalizing scopes with
  | nil => exact List.pairwise_singleton _ _
  | cons step rest ih =>
      rw [indexTuples, List.pairwise_flatMap]
      refine ⟨fun entry _ => ?_, ?_⟩
      · refine List.pairwise_map.mpr ((ih _).imp fun lesser => ?_)
        exact List.cons_lt_cons_iff.mpr (.inr ⟨rfl, lesser⟩)
      · have indices : ((scopes.read step.source step.path).elements.zipIdx.map Prod.snd).Pairwise (· < ·) := by
          rw [List.zipIdx_map_snd]
          exact List.pairwise_lt_range'
        refine (List.pairwise_map.mp indices).imp fun lesser first listed second member => ?_
        obtain ⟨_, _, rfl⟩ := List.mem_map.mp listed
        obtain ⟨_, _, rfl⟩ := List.mem_map.mp member
        exact List.cons_lt_cons_iff.mpr (.inl lesser)

theorem mem_indexTuples : tuple ∈ indexTuples steps scopes ↔ (select steps tuple scopes).isSome := by
  induction steps generalizing tuple scopes with
  | nil => cases tuple <;> simp [indexTuples, select]
  | cons step rest ih =>
      cases tuple with
      | nil => simp [indexTuples, select]
      | cons index indices =>
          simp only [indexTuples, select, List.mem_flatMap, Prod.exists, List.mem_zipIdx_iff_getElem?]
          cases found : (scopes.read step.source step.path).elements[index]? with
          | none => simp [found]
          | some element => simp [found, ih]

theorem forall₂_zipIdx {α : Type} (elements : List α) :
    List.Forall₂ (fun entry element => entry.1 = element ∧ elements[entry.2]? = some element) elements.zipIdx
      elements := by
  conv => rhs; rw [← List.zipIdx_map_fst 0 elements]
  rw [List.forall₂_map_right_iff]
  exact List.forall₂_same.mpr fun entry member => ⟨rfl, List.mem_zipIdx_iff_getElem?.mp member⟩

/-- Fanned out, the scopes are those that the tuples select, one by one. -/
theorem forall₂_select (steps : List FanOut) (scopes : Scopes) :
    List.Forall₂ (fun tuple leaf => select steps tuple scopes = some leaf) (indexTuples steps scopes)
      (expand steps scopes) := by
  induction steps generalizing scopes with
  | nil => exact .cons rfl .nil
  | cons step rest ih =>
      rw [indexTuples, expand_cons]
      refine List.rel_flatMap (forall₂_zipIdx _) ?_
      rintro ⟨_, index⟩ element ⟨rfl, found⟩
      rw [List.forall₂_map_left_iff]
      refine (ih _).imp fun tuple leaf selected => ?_
      rw [select, found]
      exact selected

/-- Where the names of a fan-out stand in the scopes that a tuple selects: each for the element that is
selected at the last step that binds it, and any other name for what it stood for before. -/
structure BoundByLast (steps : List FanOut) (scopes : Scopes) (tuple : List Nat) (leaf : Scopes) : Prop where
  bound : ∀ earlier step later, steps = earlier ++ step :: later →
    (∀ other ∈ later, other.scope ≠ step.scope) →
      ∃ reached index, select earlier (tuple.take earlier.length) scopes = some reached ∧
        tuple[earlier.length]? = some index ∧
        (reached.read step.source step.path).elements[index]? = some (leaf.root step.scope)
  unbound : ∀ name, (∀ step ∈ steps, step.scope ≠ name) → leaf.root name = scopes.root name

theorem boundByLast_of_select (selected : select steps tuple scopes = some leaf) :
    BoundByLast steps scopes tuple leaf where
  bound := by
    rintro earlier step later rfl last
    rw [select_append] at selected
    obtain ⟨reached, first, selected⟩ := Option.bind_eq_some_iff.mp selected
    cases remaining : tuple.drop earlier.length with
    | nil =>
        rw [remaining] at selected
        cases selected
    | cons index indices =>
        rw [remaining] at selected
        obtain ⟨element, found, selected⟩ := Option.bind_eq_some_iff.mp selected
        have kept := root_of_mem_expand (mem_expand_of_select selected) last
        rw [Scopes.root_bind_self] at kept
        refine ⟨reached, index, first, ?_, kept ▸ found⟩
        rw [← Nat.add_zero earlier.length, ← List.getElem?_drop, remaining, List.getElem?_cons_zero]
  unbound _ free := root_of_mem_expand (mem_expand_of_select selected) free

end Tuples

/-! ### The outermost list in parts -/

/-- Scopes that read alike, except along the way to a place from a scope that was not bound since. -/
def AlikeOutside (source : String) (path : Path) (bound : List String) (before after : Scopes) : Prop :=
  ∀ name read, (name = source → name ∉ bound → ¬ read <+: path) → after.read name read = before.read name read

theorem AlikeOutside.bind {source : String} {path : Path} {bound : List String} {before after : Scopes}
    (alike : AlikeOutside source path bound before after) (scope : String) (element : Tree) :
    AlikeOutside source path (scope :: bound) (before.bind scope element) (after.bind scope element) := by
  intro name read outside
  by_cases same : name = scope
  · rw [same, Scopes.read_bind_self, Scopes.read_bind_self]
  · rw [Scopes.read, Scopes.read, Scopes.root_bind_of_ne _ _ _ same, Scopes.root_bind_of_ne _ _ _ same]
    exact alike name read fun sourced free => outside sourced (by simp [same, free])

theorem alikeOutside_ofResource (resource : Resource) {spec : Tree} {path : Path}
    (same : ∀ read, ¬ read <+: path → spec.lookup read = resource.spec.lookup read) :
    AlikeOutside "spec" path [] (.ofResource resource) (.ofResource { resource with spec := spec }) := by
  intro name read outside
  by_cases asked : name = "spec"
  · subst asked
    exact same read (outside rfl List.not_mem_nil)
  · rw [Scopes.read, Scopes.read, Scopes.root_ofResource_of_ne resource spec asked]

namespace FamilySchema

variable {schema : FamilySchema}

/-- What steps of a fan-out, and then the labels, read from scopes that were not bound before. -/
def outerReadings (schema : FamilySchema) : List FanOut → List String → List (String × Path)
  | [], bound =>
      (schema.labels.flatMap fun label => label.source.readings).filter fun reading => reading.1 ∉ bound
  | step :: rest, bound =>
      [(step.source, step.path)].filter (fun reading => reading.1 ∉ bound) ++
        schema.outerReadings rest (step.scope :: bound)

theorem map_row_expand_of_alikeOutside {source : String} {path : Path} {steps : List FanOut} {bound : List String}
    {before after : Scopes} (alike : AlikeOutside source path bound before after)
    (around : ∀ read, (source, read) ∈ schema.outerReadings steps bound → ¬ read <+: path) :
    (expand steps after).map schema.row = (expand steps before).map schema.row := by
  induction steps generalizing bound before after with
  | nil =>
      have row : schema.row after = schema.row before := by
        refine schema.row_congr fun label member => label.source.text_of_readings fun scope read shown => ?_
        refine alike scope read fun sourced free => around read ?_
        subst sourced
        exact List.mem_filter.mpr ⟨List.mem_flatMap.mpr ⟨label, member, shown⟩, by simpa using free⟩
      rw [expand_nil, expand_nil, List.map_singleton, List.map_singleton, row]
  | cons step rest ih =>
      have elements : after.read step.source step.path = before.read step.source step.path := by
        refine alike step.source step.path fun sourced free => around step.path (List.mem_append_left _ ?_)
        simpa [sourced] using free
      rw [expand_cons, expand_cons, elements, List.map_flatMap, List.map_flatMap]
      exact List.flatMap_congr fun element _ =>
        ih (alike.bind step.scope element) fun read member => around read (List.mem_append_right _ member)

/-- Gates on the way to a list are passed where there is one. -/
theorem isPresent_of_alikeOutside {source : String} {path : Path} {before after : Scopes}
    (alike : AlikeOutside source path [] before after) {items others : List Tree}
    (listed : before.read source path = .list items) (relisted : after.read source path = .list others) :
    schema.isPresent after = schema.isPresent before := by
  refine schema.isPresent_congr fun scope gate _ => ?_
  by_cases way : scope = source ∧ gate <+: path
  · obtain ⟨rfl, rest, rfl⟩ := way
    have present : ∀ (scopes : Scopes) (list : List Tree), scopes.read scope (gate ++ rest) = .list list →
        (scopes.read scope gate).isNull = false := by
      intro scopes list reached
      rw [Tree.isNull_eq_false_iff]
      intro absent
      rw [Scopes.read, Tree.lookup_append, ← Scopes.read, absent, Tree.lookup_null] at reached
      cases reached
    rw [present before items listed, present after others relisted]
  · rw [alike scope gate fun sourced _ within => way ⟨sourced, within⟩]

theorem rows_of_parts {step : FanOut} {rest : List FanOut} (fanned : schema.fanOut = step :: rest)
    (around : ∀ read, (step.source, read) ∈ schema.outerReadings rest [step.scope] → ¬ read <+: step.path)
    {whole first second : Scopes} {front back : List Tree}
    (joined : whole.read step.source step.path = .list (front ++ back))
    (fronted : first.read step.source step.path = .list front)
    (backed : second.read step.source step.path = .list back)
    (alikeFirst : AlikeOutside step.source step.path [] whole first)
    (alikeSecond : AlikeOutside step.source step.path [] whole second) :
    schema.rows whole = schema.rows first ++ schema.rows second := by
  have part : ∀ {other : Scopes} (items : List Tree), AlikeOutside step.source step.path [] whole other →
      (items.flatMap fun element => expand rest (other.bind step.scope element)).map schema.row =
        (items.flatMap fun element => expand rest (whole.bind step.scope element)).map schema.row := by
    intro other items alike
    rw [List.map_flatMap, List.map_flatMap]
    exact List.flatMap_congr fun element _ => map_row_expand_of_alikeOutside (alike.bind step.scope element) around
  rw [rows, rows, rows, isPresent_of_alikeOutside alikeFirst joined fronted,
    isPresent_of_alikeOutside alikeSecond joined backed]
  split
  · rw [fanned, expand_cons, expand_cons, expand_cons, joined, fronted, backed]
    simp only [Tree.elements]
    rw [List.flatMap_append, List.map_append, part front alikeFirst, part back alikeSecond]
  · rfl

/-- Whether a row is the one of a tuple: it has one text for each label, resolved in the scopes that the
tuple selects. -/
def IsRowOf (schema : FamilySchema) (scopes : Scopes) (tuple : List Nat) (row : Row) : Prop :=
  ∃ leaf, select schema.fanOut tuple scopes = some leaf ∧ BoundByLast schema.fanOut scopes tuple leaf ∧
    row.family = schema.family ∧ row.labels = schema.labels.map fun label => label.source.text leaf

theorem forall₂_isRowOf {scopes : Scopes} (present : schema.isPresent scopes) :
    List.Forall₂ (schema.IsRowOf scopes) (indexTuples schema.fanOut scopes) (schema.rows scopes) := by
  rw [rows, if_pos present, List.forall₂_map_right_iff]
  refine (forall₂_select schema.fanOut scopes).imp fun tuple leaf selected => ?_
  exact ⟨leaf, selected, boundByLast_of_select selected, rfl, rfl⟩

theorem isPresent_iff {scopes : Scopes} :
    schema.isPresent scopes ↔ ∀ scope path, (scope, path) ∈ schema.requires → scopes.read scope path ≠ .null := by
  simp only [isPresent, List.all_eq_true, Prod.forall, Bool.not_eq_true', Tree.isNull_eq_false_iff]

/-- A family has no row where a gate is absent. Where none is, its rows are those of the tuples that select
something, in lexicographic order; and those of an outermost list in parts are those of the parts, when
nothing around the list is read for them. -/
theorem rows_by_selection (schema : FamilySchema) :
    (∀ (resource : Resource) (scope : String) (path : Path), (scope, path) ∈ schema.requires →
      (Scopes.ofResource resource).read scope path = .null → schema.rows (.ofResource resource) = []) ∧
    (∀ resource : Resource,
      (∀ scope path, (scope, path) ∈ schema.requires → (Scopes.ofResource resource).read scope path ≠ .null) →
        (indexTuples schema.fanOut (.ofResource resource)).Pairwise (· < ·) ∧
        (∀ tuple, tuple ∈ indexTuples schema.fanOut (.ofResource resource) ↔
          (select schema.fanOut tuple (.ofResource resource)).isSome) ∧
        List.Forall₂ (schema.IsRowOf (.ofResource resource)) (indexTuples schema.fanOut (.ofResource resource))
          (schema.rows (.ofResource resource))) ∧
    ∀ (step : FanOut) (rest : List FanOut), schema.fanOut = step :: rest →
      (∀ read, (step.source, read) ∈ schema.outerReadings rest [step.scope] → ¬ read <+: step.path) →
        ∀ (whole first second : Resource) (front back : List Tree),
          (Scopes.ofResource whole).read step.source step.path = .list (front ++ back) →
          (Scopes.ofResource first).read step.source step.path = .list front →
          (Scopes.ofResource second).read step.source step.path = .list back →
          AlikeOutside step.source step.path [] (.ofResource whole) (.ofResource first) →
          AlikeOutside step.source step.path [] (.ofResource whole) (.ofResource second) →
            schema.rows (.ofResource whole) = schema.rows (.ofResource first) ++ schema.rows (.ofResource second) := by
  refine ⟨fun resource scope path required absent => ?_, fun resource present => ⟨?_, ?_, ?_⟩, ?_⟩
  · rw [rows, if_neg]
    rw [isPresent_iff]
    exact fun present => present scope path required absent
  · exact pairwise_indexTuples _ _
  · exact fun tuple => mem_indexTuples
  · exact forall₂_isRowOf (isPresent_iff.mpr present)
  · intro step rest fanned around whole first second front back joined fronted backed alikeFirst alikeSecond
    exact rows_of_parts fanned around joined fronted backed alikeFirst alikeSecond

end FamilySchema

/-! A family whose inner step reads the scope that its outer step binds in place of the spec. -/

namespace Shadowed

def family : FamilySchema where
  name := "route_matches"
  documentation := "Matches of routes"
  labels := [.resourceName "service", .of .scalar "route" "spec" ["name"], .of .scalar "match" "match" []]
  requires := [("spec", ["http"])]
  fanOut := [⟨"spec", "spec", ["http"]⟩, ⟨"match", "spec", ["match"]⟩]

def routes : List Tree :=
  [.object [("name", .text "a"), ("match", .list [.text "x", .text "y"])], .object [("name", .text "b")]]

def others : List Tree := [.object [("match", .text "z"), ("name", .text "c")]]

def service (members : List (String × Tree)) : Resource := ⟨"virtual_service", "mesh", "s", .object members, "1"⟩

def listing (items : List Tree) : Resource := service [("hosts", .text "h"), ("http", .list items)]

theorem alikeOutside_listing (items others : List Tree) :
    AlikeOutside "spec" ["http"] [] (.ofResource (listing items)) (.ofResource (listing others)) := by
  refine alikeOutside_ofResource (listing items) fun read outside => ?_
  refine Tree.lookup_swap [("hosts", .text "h")] [] _ _ (fun read outside => ?_) outside
  have further : read ≠ [] := fun whole => outside (by simp [whole])
  rw [Tree.lookup_list further, Tree.lookup_list further]

theorem rows_of_uneven_routes :
    family.rows (.ofResource (service [("hosts", .text "h")])) = [] ∧
    (indexTuples family.fanOut (.ofResource (listing (routes ++ others))) = [[0, 0], [0, 1], [2, 0]] ∧
      (family.rows (.ofResource (listing (routes ++ others)))).map Row.labels =
        [["s", "a", "x"], ["s", "a", "y"], ["s", "c", "z"]] ∧
      List.Forall₂ (family.IsRowOf (.ofResource (listing (routes ++ others))))
        (indexTuples family.fanOut (.ofResource (listing (routes ++ others))))
        (family.rows (.ofResource (listing (routes ++ others))))) ∧
    family.rows (.ofResource (listing (routes ++ others))) =
      family.rows (.ofResource (listing routes)) ++ family.rows (.ofResource (listing others)) := by
  obtain ⟨gated, selected, parts⟩ := family.rows_by_selection
  refine ⟨?_, ⟨rfl, rfl, ?_⟩, ?_⟩
  · exact gated _ "spec" ["http"] (by decide) rfl
  · refine (selected (listing (routes ++ others)) ?_).2.2
    rintro scope path required absent
    cases List.mem_singleton.mp required
    cases absent
  · refine parts _ _ rfl ?_ _ _ _ routes others rfl rfl rfl ?_ ?_
    · simp [family, FamilySchema.outerReadings, LabelSource.readings, Label.of, Label.resourceName]
    · exact alikeOutside_listing _ _
    · exact alikeOutside_listing _ _

end Shadowed
end MeshGauges
