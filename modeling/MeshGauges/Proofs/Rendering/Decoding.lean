import MeshGauges.Proofs.Rendering.MemberOrder

/-! Joined literals can be decoded.

The literals of a map follow each other with nothing in between and nothing escaped. Still the text says
where each of them ends: a name goes up to the first comma and the last part of a literal up to the first
closing brace. So where no name has a comma and no last part a closing brace, the literals can be read back
one after the other, whatever else stands in them, and two maps with one text are the same map. -/

set_option autoImplicit false

namespace MeshGauges

/-! ### Texts of entries -/

/-- A part without a mark goes up to the first one. -/
theorem append_mark_inj {mark : Char} {part other rest later : List Char} (clear : mark ∉ part)
    (clear' : mark ∉ other) (same : part ++ mark :: rest = other ++ mark :: later) :
    part = other ∧ rest = later := by
  have taken {part : List Char} (clear : mark ∉ part) (rest : List Char) :
      (part ++ mark :: rest).takeWhile (· ≠ mark) = part := by
    have kept : ∀ character ∈ part, decide (character ≠ mark) = true := fun character member =>
      decide_eq_true fun same => clear (same ▸ member)
    rw [List.takeWhile_append_of_pos kept, List.takeWhile_cons_of_neg (by simp), List.append_nil]
  obtain rfl : part = other := by rw [← taken clear rest, same, taken clear' later]
  exact ⟨rfl, (List.cons.inj (List.append_cancel_left same)).2⟩

/-- A way to write entries from whose texts, put one after the other, they can be read back. -/
structure Readable {α : Type} (write : α → String) (decodable : α → Prop) : Prop where
  nonempty : ∀ entry, (write entry).toList ≠ []
  splits : ∀ {entry other}, decodable entry → decodable other → ∀ {rest later : List Char},
    (write entry).toList ++ rest = (write other).toList ++ later → entry = other ∧ rest = later

section Written

variable {α : Type} {write : α → String} {decodable : α → Prop} (readable : Readable write decodable)

include readable

theorem Readable.eq_of_join_eq {entries others : List α} (held : ∀ entry ∈ entries, decodable entry)
    (held' : ∀ other ∈ others, decodable other)
    (same : String.join (entries.map write) = String.join (others.map write)) : entries = others := by
  have characters : (entries.map write).flatMap String.toList = (others.map write).flatMap String.toList := by
    rw [← String.toList_join, same, String.toList_join]
  clear same
  induction entries generalizing others with
  | nil =>
      cases others with
      | nil => rfl
      | cons other rest =>
          rw [List.map_nil, List.flatMap_nil, List.map_cons, List.flatMap_cons, eq_comm,
            List.append_eq_nil_iff] at characters
          exact absurd characters.1 (readable.nonempty other)
  | cons entry entries ih =>
      cases others with
      | nil =>
          rw [List.map_nil, List.flatMap_nil, List.map_cons, List.flatMap_cons,
            List.append_eq_nil_iff] at characters
          exact absurd characters.1 (readable.nonempty entry)
      | cons other rest =>
          obtain ⟨first, others⟩ := List.forall_mem_cons.mp held
          obtain ⟨first', others'⟩ := List.forall_mem_cons.mp held'
          rw [List.map_cons, List.flatMap_cons, List.map_cons, List.flatMap_cons] at characters
          obtain ⟨rfl, after⟩ := readable.splits first first' characters
          rw [ih others others' after]

end Written

/-! ### Texts of maps -/

section Entries

variable {β : Type} {entries others : List (String × β)}

theorem perm_iff_lookup_eq (distinct : (entries.map Prod.fst).Nodup) (distinct' : (others.map Prod.fst).Nodup) :
    entries.Perm others ↔ ∀ name, entries.lookup name = others.lookup name := by
  constructor
  · exact fun perm => Tree.lookup_eq_of_perm distinct perm
  · intro same
    refine (List.perm_ext_iff_of_nodup distinct.of_map distinct'.of_map).mpr fun entry => ?_
    rw [← Tree.lookup_eq_some_iff_mem distinct, ← Tree.lookup_eq_some_iff_mem distinct', same]

theorem lookup_map_snd {γ : Type} (content : β → γ) (entries : List (String × β)) (name : String) :
    (entries.map fun entry => (entry.1, content entry.2)).lookup name =
      (entries.lookup name).map content := by
  induction entries with
  | nil => rfl
  | cons entry rest ih =>
      obtain ⟨key, value⟩ := entry
      rw [List.map_cons, List.lookup_cons, List.lookup_cons]
      cases name == key with
      | true => rfl
      | false => exact ih

/-- The texts of all entries in the order of the names. -/
def writtenInOrder (write : String × β → String) (entries : List (String × β)) : String :=
  String.join ((entries.mergeSort namesAscend).map write)

/-- Two maps of distinct names have one text exactly when they are the same map. -/
theorem Readable.writtenInOrder_eq_iff {write : String × β → String} {decodable : String × β → Prop}
    (readable : Readable write decodable) (distinct : (entries.map Prod.fst).Nodup)
    (distinct' : (others.map Prod.fst).Nodup) (held : ∀ entry ∈ entries, decodable entry)
    (held' : ∀ other ∈ others, decodable other) :
    writtenInOrder write entries = writtenInOrder write others ↔
      ∀ name, entries.lookup name = others.lookup name := by
  rw [← perm_iff_lookup_eq distinct distinct']
  constructor
  · intro same
    have sorted : entries.mergeSort namesAscend = others.mergeSort namesAscend :=
      readable.eq_of_join_eq (fun entry member => held entry ((List.mergeSort_perm _ _).mem_iff.mp member))
        (fun other member => held' other ((List.mergeSort_perm _ _).mem_iff.mp member)) same
    exact (List.mergeSort_perm entries namesAscend).symm.trans
      (sorted ▸ List.mergeSort_perm others namesAscend)
  · intro perm
    rw [writtenInOrder, writtenInOrder, mergeSort_eq_of_perm distinct perm]

/-- Where the texts show contents of the values, they are the same when the contents under every name are. -/
theorem Readable.writtenInOrder_map_eq_iff {γ : Type} {write : String × β → String}
    {decodable : String × β → Prop} (readable : Readable write decodable) {content : γ → β}
    {members others : List (String × γ)} (distinct : (members.map Prod.fst).Nodup)
    (distinct' : (others.map Prod.fst).Nodup)
    (held : ∀ entry ∈ members, decodable (entry.1, content entry.2))
    (held' : ∀ other ∈ others, decodable (other.1, content other.2)) :
    writtenInOrder write (members.map fun entry => (entry.1, content entry.2)) =
        writtenInOrder write (others.map fun entry => (entry.1, content entry.2)) ↔
      ∀ name, (members.lookup name).map content = (others.lookup name).map content := by
  have names (entries : List (String × γ)) :
      (entries.map fun entry => (entry.1, content entry.2)).map Prod.fst = entries.map Prod.fst := by
    rw [List.map_map]
    rfl
  have mapped {entries : List (String × γ)} (all : ∀ entry ∈ entries, decodable (entry.1, content entry.2)) :
      ∀ entry ∈ entries.map fun entry => (entry.1, content entry.2), decodable entry :=
    List.forall_mem_map.mpr all
  rw [readable.writtenInOrder_eq_iff (names members ▸ distinct) (names others ▸ distinct') (mapped held)
    (mapped held')]
  simp only [lookup_map_snd]

end Entries

namespace Rendering

/-! ### Pairs -/

/-- A map from names without commas to texts without closing braces. -/
structure IsTextMap (members : List (String × Tree)) : Prop where
  distinct : (members.map Prod.fst).Nodup
  names : ∀ entry ∈ members, ',' ∉ entry.1.toList
  values : ∀ entry ∈ members, ∃ value, entry.2 = .text value ∧ '\x7d' ∉ value.toList

def ofTexts (entries : List (String × String)) : List (String × Tree) :=
  entries.map fun entry => (entry.1, .text entry.2)

theorem isTextMap_ofTexts {entries : List (String × String)} (distinct : (entries.map Prod.fst).Nodup)
    (names : ∀ entry ∈ entries, ',' ∉ entry.1.toList) (values : ∀ entry ∈ entries, '\x7d' ∉ entry.2.toList) :
    IsTextMap (ofTexts entries) where
  distinct := by
    rw [ofTexts, List.map_map]
    exact distinct
  names := List.forall_mem_map.mpr names
  values := List.forall_mem_map.mpr fun entry member => ⟨entry.2, rfl, values entry member⟩

theorem toList_pairLiteral_append (name value : String) (rest : List Char) :
    (pairLiteral (name, value)).toList ++ rest =
      "\x7bkey:".toList ++ (name.toList ++ ',' :: ("value:".toList ++ (value.toList ++ '\x7d' :: rest))) := by
  simp [pairLiteral]

theorem readable_pairLiteral :
    Readable pairLiteral fun entry => ',' ∉ entry.1.toList ∧ '\x7d' ∉ entry.2.toList where
  nonempty entry := by simp [pairLiteral]
  splits := by
    rintro ⟨name, value⟩ ⟨otherName, otherValue⟩ ⟨clear, closed⟩ ⟨clear', closed'⟩ rest later same
    rw [toList_pairLiteral_append, toList_pairLiteral_append, List.append_cancel_left_eq] at same
    obtain ⟨names, same⟩ := append_mark_inj clear clear' same
    obtain ⟨values, after⟩ := append_mark_inj closed closed' (List.append_cancel_left same)
    exact ⟨Prod.ext (String.toList_inj.mp names) (String.toList_inj.mp values), after⟩

theorem pairs_eq_writtenInOrder (members : List (String × Tree)) :
    pairs (.object members) = writtenInOrder pairLiteral (memberScalars members) := rfl

/-- A value of a map of texts is known from its rendering. -/
theorem IsTextMap.lookup_eq {members : List (String × Tree)} (map : IsTextMap members) (name : String) :
    members.lookup name = ((members.lookup name).map scalar).map .text := by
  cases found : members.lookup name with
  | none => rfl
  | some tree =>
      obtain ⟨value, same, _⟩ := map.values _ ((Tree.lookup_eq_some_iff_mem map.distinct).mp found)
      obtain rfl : tree = .text value := same
      rfl

theorem IsTextMap.decodable {members : List (String × Tree)} (map : IsTextMap members) :
    ∀ entry ∈ members, ',' ∉ entry.1.toList ∧ '\x7d' ∉ (scalar entry.2).toList := by
  intro entry member
  obtain ⟨value, same, closed⟩ := map.values entry member
  exact ⟨map.names entry member, by rwa [same]⟩

theorem pairs_eq_iff {members others : List (String × Tree)} (map : IsTextMap members)
    (map' : IsTextMap others) :
    pairs (.object members) = pairs (.object others) ↔
      ∀ name, members.lookup name = others.lookup name := by
  rw [pairs_eq_writtenInOrder, pairs_eq_writtenInOrder, memberScalars_eq_map, memberScalars_eq_map,
    readable_pairLiteral.writtenInOrder_map_eq_iff map.distinct map'.distinct map.decodable map'.decodable]
  refine forall_congr' fun name => ⟨fun same => ?_, fun same => by rw [same]⟩
  rw [map.lookup_eq, map'.lookup_eq, same]

/-! ### Header matches -/

/-- The text that a tree is, and nothing where there is none. -/
def textOrEmpty : Tree → String
  | .text value => value
  | _ => ""

/-- What a string match asks for, in its three ways. -/
def askedFor (tree : Tree) : StringMatch :=
  ⟨textOrEmpty (tree.member "exact"), textOrEmpty (tree.member "prefix"), textOrEmpty (tree.member "regex")⟩

/-- A tree is absent or a text without a mark. -/
def IsTextWithout (mark : Char) (tree : Tree) : Prop :=
  tree = .null ∨ ∃ value, tree = .text value ∧ mark ∉ value.toList

/-- A map from names without commas to string matches. -/
structure IsMatchMap (members : List (String × Tree)) : Prop where
  distinct : (members.map Prod.fst).Nodup
  names : ∀ entry ∈ members, ',' ∉ entry.1.toList
  exact : ∀ entry ∈ members, IsTextWithout ',' (entry.2.member "exact")
  leading : ∀ entry ∈ members, IsTextWithout ',' (entry.2.member "prefix")
  pattern : ∀ entry ∈ members, IsTextWithout '\x7d' (entry.2.member "regex")

theorem IsTextWithout.scalar_eq {mark : Char} {tree : Tree} (text : IsTextWithout mark tree) :
    scalar tree = textOrEmpty tree := by
  rcases text with rfl | ⟨value, rfl, _⟩ <;> rfl

theorem IsTextWithout.not_mem {mark : Char} {tree : Tree} (text : IsTextWithout mark tree) :
    mark ∉ (textOrEmpty tree).toList := by
  rcases text with rfl | ⟨value, rfl, clear⟩
  · exact List.not_mem_nil
  · exact clear

/-- The literal of a header and of what is asked for under it. -/
def matchLiteral (entry : String × StringMatch) : String :=
  "\x7bheader:" ++ entry.1 ++ ",value:" ++ entry.2.exact ++ "," ++ entry.2.leading ++ "," ++
    entry.2.pattern ++ "\x7d"

theorem toList_matchLiteral_append (name : String) (found : StringMatch) (rest : List Char) :
    (matchLiteral (name, found)).toList ++ rest =
      "\x7bheader:".toList ++ (name.toList ++ ',' :: ("value:".toList ++ (found.exact.toList ++
        ',' :: (found.leading.toList ++ ',' :: (found.pattern.toList ++ '\x7d' :: rest))))) := by
  simp [matchLiteral]

theorem readable_matchLiteral :
    Readable matchLiteral fun entry => ',' ∉ entry.1.toList ∧ ',' ∉ entry.2.exact.toList ∧
      ',' ∉ entry.2.leading.toList ∧ '\x7d' ∉ entry.2.pattern.toList where
  nonempty entry := by simp [matchLiteral]
  splits := by
    rintro ⟨name, exact, leading, pattern⟩ ⟨otherName, otherExact, otherLeading, otherPattern⟩
      ⟨clear, exactClear, leadingClear, closed⟩ ⟨clear', exactClear', leadingClear', closed'⟩ rest later same
    rw [toList_matchLiteral_append, toList_matchLiteral_append, List.append_cancel_left_eq] at same
    obtain ⟨names, same⟩ := append_mark_inj clear clear' same
    obtain ⟨exacts, same⟩ := append_mark_inj exactClear exactClear' (List.append_cancel_left same)
    obtain ⟨leadings, same⟩ := append_mark_inj leadingClear leadingClear' same
    obtain ⟨patterns, after⟩ := append_mark_inj closed closed' same
    refine ⟨Prod.ext (String.toList_inj.mp names) ?_, after⟩
    exact (StringMatch.mk.injEq ..).mpr
      ⟨String.toList_inj.mp exacts, String.toList_inj.mp leadings, String.toList_inj.mp patterns⟩

theorem headerMatches_eq_writtenInOrder (members : List (String × Tree)) :
    headerMatches (.object members) =
      writtenInOrder matchLiteral (members.map fun entry => (entry.1, stringMatch entry.2)) := by
  have sorted := List.map_mergeSort (r := namesAscend) (s := namesAscend)
    (f := fun entry : String × Tree => (entry.1, stringMatch entry.2)) (l := members) fun _ _ _ _ => rfl
  rw [writtenInOrder, ← sorted, List.map_map]
  rfl

theorem IsMatchMap.stringMatch_eq {members : List (String × Tree)} (map : IsMatchMap members) :
    ∀ entry ∈ members, stringMatch entry.2 = askedFor entry.2 := by
  intro entry member
  rw [stringMatch, askedFor, (map.exact entry member).scalar_eq, (map.leading entry member).scalar_eq,
    (map.pattern entry member).scalar_eq]

theorem IsMatchMap.decodable {members : List (String × Tree)} (map : IsMatchMap members) :
    ∀ entry ∈ members, ',' ∉ entry.1.toList ∧ ',' ∉ (askedFor entry.2).exact.toList ∧
      ',' ∉ (askedFor entry.2).leading.toList ∧ '\x7d' ∉ (askedFor entry.2).pattern.toList :=
  fun entry member => ⟨map.names entry member, (map.exact entry member).not_mem,
    (map.leading entry member).not_mem, (map.pattern entry member).not_mem⟩

theorem headerMatches_eq_iff {members others : List (String × Tree)} (map : IsMatchMap members)
    (map' : IsMatchMap others) :
    headerMatches (.object members) = headerMatches (.object others) ↔
      ∀ name, (members.lookup name).map askedFor = (others.lookup name).map askedFor := by
  have asked {entries : List (String × Tree)} (map : IsMatchMap entries) :
      (entries.map fun entry => (entry.1, stringMatch entry.2)) =
        entries.map fun entry => (entry.1, askedFor entry.2) :=
    List.map_congr_left fun entry member => by rw [map.stringMatch_eq entry member]
  rw [headerMatches_eq_writtenInOrder, headerMatches_eq_writtenInOrder, asked map, asked map',
    readable_matchLiteral.writtenInOrder_map_eq_iff map.distinct map'.distinct map.decodable map'.decodable]

/-- Maps whose names have no commas and whose last parts have no closing braces have the same joined text
exactly when they are the same maps: maps of texts when they hold the same text under each name, maps of
string matches when they ask for the same under each name. -/
theorem joined_maps_decodable :
    (∀ members others : List (String × Tree), IsTextMap members → IsTextMap others →
      (pairs (.object members) = pairs (.object others) ↔
        ∀ name, members.lookup name = others.lookup name)) ∧
    (∀ members others : List (String × Tree), IsMatchMap members → IsMatchMap others →
      (headerMatches (.object members) = headerMatches (.object others) ↔
        ∀ name, (members.lookup name).map askedFor = (others.lookup name).map askedFor)) :=
  ⟨fun _ _ map map' => pairs_eq_iff map map', fun _ _ map map' => headerMatches_eq_iff map map'⟩

/-! Names and values that hold the other marks. -/

namespace MarkedMaps

/-- The name of one member is like a literal up to its end, and the value of the other one is like a whole
literal. -/
def labels : List (String × Tree) :=
  ofTexts [("a\x7d\x7bkey:b", "1"), ("a", "\x7bkey:b,value:1")]

def otherLabels : List (String × Tree) :=
  ofTexts [("a", "\x7bkey:b,value:1"), ("a\x7d\x7bkey:b", ",value:1")]

def headers : List (String × Tree) :=
  [("end-user", .object [("exact", .text "\x7dvalue:"), ("regex", .text ",,\x7bheader:")])]

def otherHeaders : List (String × Tree) :=
  [("end-user", .object [("prefix", .text "\x7dvalue:"), ("regex", .text ",,\x7bheader:")])]

theorem isTextMap_labels : IsTextMap labels := isTextMap_ofTexts (by decide) (by decide) (by decide)

theorem isTextMap_otherLabels : IsTextMap otherLabels :=
  isTextMap_ofTexts (by decide) (by decide) (by decide)

theorem isMatchMap_headers : IsMatchMap headers where
  distinct := by decide
  names := by decide
  exact := List.forall_mem_singleton.mpr (.inr ⟨_, rfl, by decide⟩)
  leading := List.forall_mem_singleton.mpr (.inl rfl)
  pattern := List.forall_mem_singleton.mpr (.inr ⟨_, rfl, by decide⟩)

theorem isMatchMap_otherHeaders : IsMatchMap otherHeaders where
  distinct := by decide
  names := by decide
  exact := List.forall_mem_singleton.mpr (.inl rfl)
  leading := List.forall_mem_singleton.mpr (.inr ⟨_, rfl, by decide⟩)
  pattern := List.forall_mem_singleton.mpr (.inr ⟨_, rfl, by decide⟩)

theorem marked_maps_told_apart :
    IsTextMap labels ∧ IsTextMap otherLabels ∧ IsMatchMap headers ∧ IsMatchMap otherHeaders ∧
      pairs (.object labels) ≠ pairs (.object otherLabels) ∧
      headerMatches (.object headers) ≠ headerMatches (.object otherHeaders) := by
  refine ⟨isTextMap_labels, isTextMap_otherLabels, isMatchMap_headers, isMatchMap_otherHeaders, ?_, ?_⟩
  · intro same
    have values : some (Tree.text "1") = some (.text ",value:1") :=
      (joined_maps_decodable.1 _ _ isTextMap_labels isTextMap_otherLabels).mp same "a\x7d\x7bkey:b"
    exact absurd (Tree.text.inj (Option.some.inj values)) (by decide)
  · intro same
    have asked := (joined_maps_decodable.2 _ _ isMatchMap_headers isMatchMap_otherHeaders).mp same "end-user"
    exact absurd asked (by decide)

end MarkedMaps
end Rendering
end MeshGauges
