import MeshGauges.Catalog
import MeshGauges.Proofs.Schema.Edit
import MeshGauges.Proofs.Schema.Sections

/-! Spellings of a field.

Some fields are accepted in several spellings, of which an earlier one is preferred: older and newer names
of a member, or a member of a nested block. A field that stands in one spelling can be moved to another,
and one that stands in several can be changed in those that the first present one overrules. Either way
what is found first among the spellings is the same tree (`Tree.SpelledAlike.lookupFirst_eq`), so a label
shows the same text if it looks the field up in all its spellings or has nothing to do with it. -/

set_option autoImplicit false

namespace MeshGauges

/-- Whether a path has nothing to do with a field, whichever its spelling. -/
def Path.Beside (spellings : List Path) (path : Path) : Prop :=
  path ≠ [] ∧ ∀ spelling ∈ spellings, spelling.Apart path

instance (spellings : List Path) (path : Path) : Decidable (path.Beside spellings) :=
  inferInstanceAs (Decidable (_ ∧ _))

namespace Tree

/-- The trees are alike in all that has nothing to do with the spellings of a field. -/
def AlikeBeside (spellings : List Path) (tree other : Tree) : Prop :=
  ∀ path : Path, path.Beside spellings → other.lookup path = tree.lookup path

/-- The field is present in no other spelling than one. -/
def SpellsOnly (spelling : Path) (spellings : List Path) (tree : Tree) : Prop :=
  ∀ another ∈ spellings, another ≠ spelling → tree.lookup another = .null

/-- The field has one value in both trees, in one spelling each. -/
structure Respelled (spellings : List Path) (tree other : Tree) : Prop where
  beside : tree.AlikeBeside spellings other
  moved : ∃ old ∈ spellings, ∃ new ∈ spellings, tree.SpellsOnly old spellings ∧ other.SpellsOnly new spellings ∧
    other.lookup new = tree.lookup old

/-- The trees have a field in the same spelling, and may differ in the spellings that come after it. -/
structure Overruled (spellings : List Path) (tree other : Tree) : Prop where
  beside : tree.AlikeBeside spellings other
  overruled : ∃ higher winner lower, spellings = higher ++ winner :: lower ∧ tree.lookup winner ≠ .null ∧
    ∀ spelling ∈ higher ++ [winner], other.lookup spelling = tree.lookup spelling

inductive SpelledAlike (spellings : List Path) (tree other : Tree) : Prop where
  | respelled (respelled : Respelled spellings tree other)
  | overruled (overruled : Overruled spellings tree other)

variable {spellings : List Path} {tree other : Tree}

/-! ### What is found first -/

theorem lookupFirst_append (first second : List Path) (tree : Tree) :
    tree.lookupFirst (first ++ second) =
      if (tree.lookupFirst first).isNull then tree.lookupFirst second else tree.lookupFirst first := by
  induction first with
  | nil => rfl
  | cons path others ih =>
      rw [List.cons_append, lookupFirst, lookupFirst, ih]
      cases found : (tree.lookup path).isNull with
      | true => rfl
      | false => simp [found]

theorem lookupFirst_of_present {path : Path} (present : tree.lookup path ≠ .null) (others : List Path) :
    tree.lookupFirst (path :: others) = tree.lookup path := by
  rw [lookupFirst, isNull_eq_false_iff.mpr present]
  rfl

theorem lookupFirst_eq_null {paths : List Path} (absent : ∀ path ∈ paths, tree.lookup path = .null) :
    tree.lookupFirst paths = .null := by
  induction paths with
  | nil => rfl
  | cons path others ih =>
      obtain ⟨first, remaining⟩ := List.forall_mem_cons.mp absent
      rw [lookupFirst, first]
      exact ih remaining

theorem SpellsOnly.lookupFirst_eq {spelling : Path} (only : tree.SpellsOnly spelling spellings)
    (listed : spelling ∈ spellings) : tree.lookupFirst spellings = tree.lookup spelling := by
  by_cases present : tree.lookup spelling = .null
  · rw [present]
    refine lookupFirst_eq_null fun another member => ?_
    by_cases same : another = spelling
    · rw [same, present]
    · exact only another member same
  · -- the spellings before it are passed, and it is found
    obtain ⟨before, after, rfl, fresh⟩ := List.eq_append_cons_of_mem listed
    have passed : tree.lookupFirst before = .null := lookupFirst_eq_null fun another member =>
      only another (by simp [member]) fun same => fresh (same ▸ member)
    rw [lookupFirst_append, passed]
    exact lookupFirst_of_present present after

theorem lookupFirst_map_append (first : Path) (paths : List Path) (tree : Tree) :
    tree.lookupFirst (paths.map (first ++ ·)) = (tree.lookup first).lookupFirst paths := by
  induction paths with
  | nil => rfl
  | cons path others ih => rw [List.map_cons, lookupFirst, lookupFirst, lookup_append, ih]

theorem SpelledAlike.beside (alike : SpelledAlike spellings tree other) : tree.AlikeBeside spellings other := by
  rcases alike with ⟨beside, _⟩ | ⟨beside, _⟩ <;> exact beside

theorem SpelledAlike.lookupFirst_eq (alike : SpelledAlike spellings tree other) :
    other.lookupFirst spellings = tree.lookupFirst spellings := by
  rcases alike with ⟨_, old, oldListed, new, newListed, only, onlyNew, same⟩ |
    ⟨_, higher, winner, lower, rfl, present, same⟩
  · rw [onlyNew.lookupFirst_eq newListed, only.lookupFirst_eq oldListed, same]
  · have found : other.lookup winner = tree.lookup winner := same winner (by simp)
    have passed : other.lookupFirst higher = tree.lookupFirst higher :=
      lookupFirst_congr fun spelling member => same spelling (by simp [member])
    have presentAfter : other.lookup winner ≠ .null := by rwa [found]
    rw [lookupFirst_append, lookupFirst_append, passed, lookupFirst_of_present present,
      lookupFirst_of_present presentAfter, found]

/-! ### Members that are renamed, or taken out of a block -/

theorem respelled_of_renamed (names : List String) {old new : String} (oldListed : old ∈ names)
    (newListed : new ∈ names) (front back : List (String × Tree)) (value : Tree)
    (fresh : ∀ entry ∈ front ++ back, entry.1 ∉ names) :
    Respelled (names.map fun name => [name]) (.object (front ++ (old, value) :: back))
      (.object (front ++ (new, value) :: back)) := by
  have absent : ∀ name ∈ names, (Tree.object (front ++ back)).member name = .null := fun name listed =>
    member_eq_null fun entry member same => fresh entry member (same ▸ listed)
  have held : ∀ name ∈ names, (Tree.object (front ++ (name, value) :: back)).member name = value := fun name listed =>
    member_insert_self front back value fun entry member same =>
      fresh entry (List.mem_append_left _ member) (same ▸ listed)
  have only : ∀ name, (Tree.object (front ++ (name, value) :: back)).SpellsOnly [name]
      (names.map fun name => [name]) := by
    intro name another listed apart
    obtain ⟨unused, member, rfl⟩ := List.mem_map.mp listed
    rw [lookup_cons, member_insert_of_ne front back value (by simpa using apart), absent unused member]
    rfl
  refine ⟨fun path besides => ?_, [old], by simpa using oldListed, [new], by simpa using newListed, only old,
    only new, (held new newListed).trans (held old oldListed).symm⟩
  have beside : ∀ name ∈ names, ¬ [name] <+: path := fun name listed =>
    (besides.2 [name] (List.mem_map_of_mem listed)).1
  cases path with
  | nil => exact absurd rfl besides.1
  | cons asked rest =>
      have fromOld : asked ≠ old := fun same => beside old oldListed (by simp [same])
      have fromNew : asked ≠ new := fun same => beside new newListed (by simp [same])
      rw [lookup_cons, lookup_cons, member_insert_of_ne front back value fromNew,
        member_insert_of_ne front back value fromOld]

theorem respelled_of_unnested {block setting : String} (apart : setting ≠ block)
    (front back inner after : List (String × Tree)) (value : Tree)
    (fresh : ∀ entry ∈ front ++ back, entry.1 ≠ block ∧ entry.1 ≠ setting)
    (freshInner : ∀ entry ∈ inner ++ after, entry.1 ≠ setting) :
    Respelled [[block, setting], [setting]]
      (.object (front ++ (block, .object (inner ++ (setting, value) :: after)) :: back))
      (.object (front ++ (block, .object (inner ++ after)) :: (setting, value) :: back)) := by
  have freshFront : ∀ entry ∈ front, entry.1 ≠ block ∧ entry.1 ≠ setting := fun entry member =>
    fresh entry (List.mem_append_left _ member)
  -- the setting is the member after the block, and the block comes first of its name
  have shifted (content : Tree) : front ++ (block, content) :: (setting, value) :: back =
      (front ++ [(block, content)]) ++ (setting, value) :: back := by simp
  have whole (content : Tree) : (Tree.object (front ++ (block, content) :: back)).member block = content :=
    member_insert_self front back content fun entry member => (freshFront entry member).1
  have emptied (content : Tree) :
      (Tree.object (front ++ (block, content) :: (setting, value) :: back)).member block = content :=
    member_insert_self front _ content fun entry member => (freshFront entry member).1
  have taken : (Tree.object (inner ++ after)).member setting = .null := member_eq_null freshInner
  have nested : (Tree.object (inner ++ (setting, value) :: after)).member setting = value :=
    member_insert_self inner after value fun entry member => freshInner entry (List.mem_append_left _ member)
  refine ⟨fun path besides => ?_, [block, setting], by simp, [setting], by simp, ?_, ?_, ?_⟩
  · obtain ⟨fromBlock, fromSetting⟩ : Path.Apart [block, setting] path ∧ Path.Apart [setting] path := by
      simpa using besides.2
    cases path with
    | nil => exact absurd rfl besides.1
    | cons asked rest =>
        have unset : asked ≠ setting := fun same => fromSetting.1 (by simp [same])
        by_cases within : asked = block
        · subst within
          rw [lookup_cons, lookup_cons, whole, emptied]
          cases rest with
          | nil => exact absurd (by simp) fromBlock.2
          | cons next rest =>
              have other : next ≠ setting := fun same => fromBlock.1 (by simp [same])
              rw [lookup_cons, lookup_cons, member_insert_of_ne inner after value other]
        · rw [lookup_cons, lookup_cons, member_insert_of_ne front _ _ within,
            member_insert_of_ne front back _ within, member_insert_of_ne front back value unset]
  · intro another listed other
    have direct : another = [setting] := by simpa [other] using listed
    rw [direct, lookup_cons, member_insert_of_ne front back _ apart, lookup_nil]
    exact member_eq_null fun entry member => (fresh entry member).2
  · intro another listed other
    have within : another = [block, setting] := by simpa [other] using listed
    rw [within, lookup_cons, lookup_cons, emptied, taken, lookup_nil]
  · rw [lookup_cons, lookup_cons, lookup_cons, lookup_nil, lookup_nil, whole, nested, shifted,
      member_insert_self _ back value ?_]
    intro entry member
    rcases List.mem_append.mp member with earlier | last
    · exact (freshFront entry earlier).2
    · rw [List.mem_singleton.mp last]
      exact apart.symm

theorem alikeBeside_of_swapped {name : String} (listed : [name] ∈ spellings) (front back : List (String × Tree))
    (value other : Tree) : (Tree.object (front ++ (name, value) :: back)).AlikeBeside spellings
      (.object (front ++ (name, other) :: back)) := by
  intro path beside
  obtain ⟨asked, rest, rfl⟩ := List.exists_cons_of_ne_nil beside.1
  have apart : asked ≠ name := fun same => (beside.2 [name] listed).1 (by simp [same])
  rw [lookup_cons, lookup_cons, member_swap_of_ne front back value other apart]

/-! ### Edited trees -/

namespace EditedAt

variable (edited : EditedAt (SpelledAlike spellings) [] tree other)

include edited

theorem lookup_beside {path : Path} (beside : path.Beside spellings) : other.lookup path = tree.lookup path := by
  cases edited with
  | here alike => exact alike.beside path beside
  | item =>
      obtain ⟨name, rest, rfl⟩ := List.exists_cons_of_ne_nil beside.1
      rfl

theorem lookupFirst_spellings (named : [] ∉ spellings) :
    other.lookupFirst spellings = tree.lookupFirst spellings := by
  cases edited with
  | here alike => exact alike.lookupFirst_eq
  | item =>
      -- nothing is found in a list, whichever it is
      have none (items : List Tree) : (Tree.list items).lookupFirst spellings = .null := by
        refine lookupFirst_eq_null fun spelling listed => lookup_list (fun whole => ?_) items
        exact named (whole ▸ listed)
      rw [none, none]

/-- Another field of the object, and the edited one in all its spellings, are found as before. -/
theorem lookupFirst_eq (named : [] ∉ spellings) {paths : List Path}
    (asked : paths = spellings ∨ ∀ path ∈ paths, path.Beside spellings) :
    other.lookupFirst paths = tree.lookupFirst paths := by
  rcases asked with rfl | beside
  · exact edited.lookupFirst_spellings named
  · exact lookupFirst_congr fun path member => edited.lookup_beside (beside path member)

end EditedAt

end Tree

open MeshGauges.Tree

/-! ### Load balancers -/

namespace LoadBalancer

def hashSpellings : List Path := [["consistentHash"], ["consistent_hash"]]

def headerSpellings : List Path := [["httpHeader"], ["httpHeaderName"], ["http_header"]]

def ringSpellings : List Path := [["minimumRingSize"], ["minimum_ring_size"]]

variable {balancer other : Tree} {spellings : List Path}

/-- What the facets of a load balancer are made of. -/
structure ShowsAlike (balancer other : Tree) : Prop where
  isNull : other.isNull = balancer.isNull
  hash : (consistentHash other).isNull = (consistentHash balancer).isNull
  simple : other.member "simple" = balancer.member "simple"
  header : hashedHeader (consistentHash other) = hashedHeader (consistentHash balancer)
  ring : smallestRing (consistentHash other) = smallestRing (consistentHash balancer)

theorem ShowsAlike.text_eq (alike : ShowsAlike balancer other) (facet : Facet) :
    facet.text other = facet.text balancer := by
  cases facet <;>
    simp only [Facet.text, alike.isNull, alike.hash, alike.simple, alike.header, alike.ring]

theorem showsAlike_of_hash (edited : EditedAt (SpelledAlike hashSpellings) [] balancer other) :
    ShowsAlike balancer other := by
  have hash : consistentHash other = consistentHash balancer := edited.lookupFirst_spellings (by decide)
  refine ⟨edited.isNull_eq, by rw [hash], ?_, by rw [hash], by rw [hash]⟩
  have beside : Path.Beside hashSpellings ["simple"] := by decide
  exact edited.lookup_beside beside

theorem showsAlike_of_inner {name : String} (hashed : [name] ∈ hashSpellings)
    (listed : spellings = headerSpellings ∨ spellings = ringSpellings)
    (edited : EditedAt (SpelledAlike spellings) [name] balancer other) : ShowsAlike balancer other := by
  have simple : "simple" ≠ name := fun same => absurd (same ▸ hashed) (by decide)
  -- whichever hash is found, it is the same one or an edited one
  have found : consistentHash other = consistentHash balancer ∨
      EditedAt (SpelledAlike spellings) [] (consistentHash balancer) (consistentHash other) := by
    refine @lookupFirst_related (fun tree other => other = tree ∨ EditedAt _ [] tree other) (.inl rfl) ?_ _ _ _ ?_
    · rintro tree other (same | changed)
      · rw [same]
      · exact changed.isNull_eq
    · intro path member
      have single : ∃ asked, path = [asked] := by
        simp only [List.mem_cons, List.not_mem_nil, or_false] at member
        rcases member with rfl | rfl <;> exact ⟨_, rfl⟩
      obtain ⟨asked, rfl⟩ := single
      by_cases same : asked = name
      · subst same
        exact edited.member
      · exact .inl (edited.member_of_ne same)
  rcases found with same | changed
  · exact ⟨edited.isNull_eq, by rw [same], edited.member_of_ne simple, by rw [same], by rw [same]⟩
  · have named : [] ∉ spellings := by rcases listed with rfl | rfl <;> decide
    refine ⟨edited.isNull_eq, changed.isNull_eq, edited.member_of_ne simple, ?_, ?_⟩
    · exact changed.lookupFirst_eq named (by rcases listed with rfl | rfl <;> decide)
    · exact changed.lookupFirst_eq named (by rcases listed with rfl | rfl <;> decide)

end LoadBalancer

/-! ### Labels and families -/

/-- A field of the objects at a place, with its spellings in the order of preference. -/
structure SpelledField where
  place : Path
  spellings : List Path
  named : [] ∉ spellings := by simp

namespace LabelSource

/-- Whether a label shows neither the field nor a tree that the field is a part of. -/
def Passes (source : LabelSource) (places : Places) (field : SpelledField) : Prop :=
  ∀ reading ∈ source.readings,
    (∀ reached ∈ places.along reading.1 reading.2, ¬ reached <+: field.place) ∧
    ∀ inner ∈ places.beyond? field.place reading.1 reading.2,
      Path.Beside field.spellings (inner.1 :: inner.2)

/-- Whether a label looks the field up in all its spellings. -/
def LooksUp (places : Places) (field : SpelledField) : LabelSource → Prop
  | .value scope paths _ =>
      ∃ walked ∈ places.place? scope, walked ++ field.place.drop walked.length = field.place ∧
        paths = field.spellings.map (field.place.drop walked.length ++ ·)
  | .loadBalancer scope policy _ =>
      ∃ reached ∈ places.along scope (policy ++ ["loadBalancer"]),
        (reached = field.place ∧ field.spellings = LoadBalancer.hashSpellings) ∨
        ∃ hash ∈ LoadBalancer.hashSpellings, reached ++ hash = field.place ∧
          (field.spellings = LoadBalancer.headerSpellings ∨ field.spellings = LoadBalancer.ringSpellings)
  | .instanceReference .. => False

instance (source : LabelSource) (places : Places) (field : SpelledField) : Decidable (source.Passes places field) :=
  inferInstanceAs (Decidable (∀ _ ∈ _, _ ∧ _))

instance (source : LabelSource) (places : Places) (field : SpelledField) : Decidable (source.LooksUp places field) :=
  match source with
  | .value .. => inferInstanceAs (Decidable (∃ _ ∈ _, _ ∧ _))
  | .loadBalancer .. => inferInstanceAs (Decidable (∃ _ ∈ _, _ ∨ ∃ _ ∈ _, _ ∧ _))
  | .instanceReference .. => inferInstanceAs (Decidable False)

variable {source : LabelSource} {places : Places} {field : SpelledField} {before after : Scopes}

theorem text_of_passes (passes : source.Passes places field)
    (edited : Edited (SpelledAlike field.spellings) field.place places before after) :
    source.text after = source.text before := by
  refine source.text_of_readings fun scope path member => ?_
  obtain ⟨below, beside⟩ := passes (scope, path) member
  exact edited.read_eq below fun name rest further _ _ alike => alike.beside _ (beside (name, rest) further)

theorem text_of_looksUp (looksUp : source.LooksUp places field)
    (edited : Edited (SpelledAlike field.spellings) field.place places before after) :
    source.text after = source.text before := by
  cases source with
  | value scope paths form =>
      obtain ⟨walked, here, way, rfl⟩ := looksUp
      have along : places.along scope (field.place.drop walked.length) = some field.place := by
        rw [Places.along, Option.mem_def.mp here, Option.map_some, way]
      -- the field is looked up in the object at the place
      have found : (after.read scope (field.place.drop walked.length)).lookupFirst field.spellings =
          (before.read scope (field.place.drop walked.length)).lookupFirst field.spellings := by
        rcases edited.read_above along (List.append_nil _) with same | changed
        · rw [same]
        · exact changed.lookupFirst_spellings field.named
      rw [text, text, lookupFirst_map_append, lookupFirst_map_append]
      exact congrArg form.text found
  | loadBalancer scope policy facet =>
      rw [text, text]
      obtain ⟨reached, along, ⟨whole, spellings⟩ | ⟨hash, listed, way, spellings⟩⟩ := looksUp
      · have way : reached ++ [] = field.place := by rw [List.append_nil, whole]
        rcases edited.read_above along way with same | changed
        · rw [same]
        · rw [spellings] at changed
          exact (LoadBalancer.showsAlike_of_hash changed).text_eq facet
      · have single : ∃ name, hash = [name] := by
          simp only [LoadBalancer.hashSpellings, List.mem_cons, List.not_mem_nil, or_false] at listed
          rcases listed with rfl | rfl <;> exact ⟨_, rfl⟩
        obtain ⟨name, rfl⟩ := single
        rcases edited.read_above along way with same | changed
        · rw [same]
        · exact (LoadBalancer.showsAlike_of_inner listed spellings changed).text_eq facet
  | instanceReference => exact looksUp.elim

end LabelSource

namespace FamilySchema

variable {schema : FamilySchema} {field : SpelledField}

/-- Whether a family reads a field in all its spellings or not at all. -/
def Respects (schema : FamilySchema) (field : SpelledField) : Prop :=
  (∀ inner ∈ schema.decisiveWithin field.place, Path.Beside field.spellings (inner.1 :: inner.2)) ∧
    ∀ label ∈ schema.labels,
      label.source.Passes (schema.fanOut.foldl Places.bind .start) field ∨
        label.source.LooksUp (schema.fanOut.foldl Places.bind .start) field

instance (schema : FamilySchema) (field : SpelledField) : Decidable (schema.Respects field) :=
  inferInstanceAs (Decidable (_ ∧ _))

theorem Respects.overlooks (respects : schema.Respects field) :
    schema.Overlooks (SpelledAlike field.spellings) field.place := by
  refine ⟨fun inner within members others alike => ?_, fun label listed before after edited => ?_⟩
  · rw [alike.beside _ (respects.1 inner within)]
    exact ⟨rfl, rfl⟩
  · rcases respects.2 label listed with passes | looksUp
    · exact LabelSource.text_of_passes passes edited
    · exact LabelSource.text_of_looksUp looksUp edited

end FamilySchema

/-! ### The fields of the catalog -/

/-- A field, at one place in a spec, is respelled or changed in a spelling that another overrules. -/
def Respells (fields : List SpelledField) (spec other : Tree) : Prop :=
  ∃ field ∈ fields, EditedAt (SpelledAlike field.spellings) field.place spec other

theorem extract_of_respects {schema : ResourceSchema} {fields : List SpelledField}
    (respects : ∀ field ∈ fields, ∀ family ∈ schema.families, family.Respects field) {resource : Resource}
    {spec : Tree} (respelled : Relation.ReflTransGen (Respells fields) resource.spec spec) :
    schema.extract { resource with spec := spec } = schema.extract resource := by
  refine ResourceSchema.extract_of_reflTransGen (fun resource spec changed => ?_) respelled
  obtain ⟨field, listed, edited⟩ := changed
  exact ResourceSchema.extract_of_editedAt (fun family member => (respects field listed family member).overlooks) edited

namespace DestinationRule

/-- The settings of outlier detection that stand in an http block or without one. -/
def outlierSettings : List String :=
  ["consecutiveErrors", "interval", "baseEjectionTime", "maxEjectionPercent"]

def policyFields (policy : Path) : List SpelledField :=
  let balancer := policy ++ ["loadBalancer"]
  ⟨balancer, LoadBalancer.hashSpellings, by decide⟩ ::
    (LoadBalancer.hashSpellings.flatMap fun hash =>
      [⟨balancer ++ hash, LoadBalancer.headerSpellings, by decide⟩,
       ⟨balancer ++ hash, LoadBalancer.ringSpellings, by decide⟩]) ++
    outlierSettings.map fun setting => ⟨policy ++ ["outlierDetection"], [["http", setting], [setting]], by simp⟩

def spelledFields : List SpelledField :=
  policyFields trafficPolicy ++ policyFields (trafficPolicy ++ ["portLevelSettings"])

end DestinationRule

namespace VirtualService

def spelledFields : List SpelledField :=
  [{ place := ["http", "match"], spellings := [["sourceLabels"], ["source_labels"]] },
   { place := ["tcp", "match"], spellings := [["sourceLabels"], ["source_labels"]] },
   { place := ["http", "retries"], spellings := [["perTryTimeout"], ["per_try_timeout"]] },
   { place := ["http"], spellings := [["websocketUpgrade"], ["websocket_upgrade"]] },
   { place := ["tcp", "match"], spellings := [["destinationSubnet"], ["destination_subnet"]] },
   { place := ["tcp", "match"], spellings := [["sourceSubnet"], ["source_subnet"]] }]

end VirtualService

namespace Catalog

/-- Fields can be respelled, and changed in spellings that others overrule, in any number of places: every
family has the same rows. -/
theorem extract_of_respelled :
    (∀ (resource : Resource) (spec : Tree),
      Relation.ReflTransGen (Respells DestinationRule.spelledFields) resource.spec spec →
        DestinationRule.schema.extract { resource with spec := spec } = DestinationRule.schema.extract resource) ∧
    (∀ (resource : Resource) (spec : Tree),
      Relation.ReflTransGen (Respells VirtualService.spelledFields) resource.spec spec →
        VirtualService.schema.extract { resource with spec := spec } = VirtualService.schema.extract resource) := by
  constructor
  · have respects : ∀ field ∈ DestinationRule.spelledFields, ∀ family ∈ DestinationRule.schema.families,
        family.Respects field := by decide +kernel
    exact fun resource spec respelled => extract_of_respects respects respelled
  · have respects : ∀ field ∈ VirtualService.spelledFields, ∀ family ∈ VirtualService.schema.families,
        family.Respects field := by decide +kernel
    exact fun resource spec respelled => extract_of_respects respects respelled

/-! Every label that tries several paths looks one of these fields up. -/

example : ∀ family ∈ DestinationRule.schema.families ++ VirtualService.schema.families,
    ∀ label ∈ family.labels, 1 < label.source.readings.length →
      ∃ field ∈ DestinationRule.spelledFields ++ VirtualService.spelledFields,
        label.source.LooksUp (family.fanOut.foldl Places.bind .start) field := by
  decide +kernel

/-! A destination rule that is written in older and in newer spellings, and a route with a field in both. -/

namespace NewerSpellings

def policy (hashName : String) (outlier : Tree) : Tree := .object
  [("trafficPolicy", .object
    [("outlierDetection", outlier),
     ("portLevelSettings", .list [.object
       [("loadBalancer", .object [(hashName, .object [("httpHeader", .text "user")])])]])])]

def nested : Tree := .object [("http", .object [("interval", .text "1m")])]

def unnested : Tree := .object [("http", .object []), ("interval", .text "1m")]

def rule (spec : Tree) : Resource := ⟨"destination_rule", "mesh", "reviews", spec, "1"⟩

def route (overruled : Tree) : Tree := .object
  [("http", .object [("websocketUpgrade", .bool false), ("websocket_upgrade", overruled)])]

def service (spec : Tree) : Resource := ⟨"virtual_service", "mesh", "reviews", spec, "1"⟩

theorem extract_of_newer_spellings :
    (Relation.ReflTransGen (Respells DestinationRule.spelledFields) (policy "consistent_hash" nested)
        (policy "consistentHash" unnested) ∧
      (DestinationRule.schema.extract (rule (policy "consistent_hash" nested))).length = 4 ∧
      DestinationRule.schema.extract (rule (policy "consistentHash" unnested)) =
        DestinationRule.schema.extract (rule (policy "consistent_hash" nested))) ∧
    (Relation.ReflTransGen (Respells VirtualService.spelledFields) (route (.bool true)) (route .null) ∧
      (VirtualService.schema.extract (service (route (.bool true)))).length = 2 ∧
      VirtualService.schema.extract (service (route .null)) =
        VirtualService.schema.extract (service (route (.bool true)))) := by
  have settled : Respells DestinationRule.spelledFields (policy "consistent_hash" nested)
      (policy "consistent_hash" unnested) := by
    refine ⟨⟨["trafficPolicy", "outlierDetection"], [["http", "interval"], ["interval"]], by simp⟩, ?_, ?_⟩
    · simp [DestinationRule.spelledFields, DestinationRule.policyFields, DestinationRule.outlierSettings,
        DestinationRule.trafficPolicy]
    · refine .inside [] [] (.inside [] [("portLevelSettings", _)] (.here (.respelled ?_)))
      exact respelled_of_unnested (by decide) [] [] [] [] (.text "1m") (by simp) (by simp)
  have renamed : Respells DestinationRule.spelledFields (policy "consistent_hash" unnested)
      (policy "consistentHash" unnested) := by
    refine ⟨⟨["trafficPolicy", "portLevelSettings", "loadBalancer"], LoadBalancer.hashSpellings, by decide⟩, ?_, ?_⟩
    · simp [DestinationRule.spelledFields, DestinationRule.policyFields, DestinationRule.trafficPolicy]
    · refine .inside [] [] (.inside [("outlierDetection", _)] [] (.item [] [] (.inside [] [] (.here (.respelled ?_)))))
      exact respelled_of_renamed ["consistentHash", "consistent_hash"] (by simp) (by simp) [] [] _ (by simp)
  have overruled : Respells VirtualService.spelledFields (route (.bool true)) (route .null) := by
    refine ⟨⟨["http"], [["websocketUpgrade"], ["websocket_upgrade"]], by simp⟩, ?_, ?_⟩
    · simp [VirtualService.spelledFields]
    · refine .inside [] [] (.here (.overruled ⟨?_, [], ["websocketUpgrade"], [["websocket_upgrade"]], rfl, ?_, ?_⟩))
      · exact alikeBeside_of_swapped (by simp) [("websocketUpgrade", _)] [] (.bool true) .null
      · exact isNull_eq_false_iff.mp rfl
      · simp [member]
  have newer : Relation.ReflTransGen (Respells DestinationRule.spelledFields)
      (rule (policy "consistent_hash" nested)).spec (policy "consistentHash" unnested) := .tail (.single settled) renamed
  have changed : Relation.ReflTransGen (Respells VirtualService.spelledFields)
      (service (route (.bool true))).spec (route .null) := .single overruled
  have alike := extract_of_respelled.1 (rule (policy "consistent_hash" nested)) _ newer
  have unchanged := extract_of_respelled.2 (service (route (.bool true))) _ changed
  exact ⟨⟨newer, by decide +kernel, alike⟩, changed, by decide +kernel, unchanged⟩

end NewerSpellings
end Catalog
end MeshGauges
