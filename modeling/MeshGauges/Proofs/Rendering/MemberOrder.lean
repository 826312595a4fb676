import MeshGauges.LoadBalancer
import MeshGauges.Proofs.Number.Numeral
import MeshGauges.Proofs.Tree.MemberOrder

/-! Texts of trees that differ in the order of members.

Every rendering writes the members of an object in the order of their names, so reordered trees have the
same text (`scalar_eq`, and from it the other forms). A duration reads two members by name. Where one of
them is itself a list or an object its literal shows the order, but no literal of either is a number. -/

set_option autoImplicit false

namespace MeshGauges

open Number Text

/-! ### Sorted members -/

section Sorted

variable {α : Type} {entries others : List (String × α)}

def namesAscend (first second : String × α) : Bool := first.1 ≤ second.1

theorem pairwise_mergeSort_namesAscend (entries : List (String × α)) :
    (entries.mergeSort namesAscend).Pairwise fun first second => first.1 ≤ second.1 := by
  have sorted : (entries.mergeSort namesAscend).Pairwise fun first second => namesAscend first second = true := by
    refine List.pairwise_mergeSort ?_ ?_ entries
    · intro first second third ahead behind
      simp only [namesAscend, decide_eq_true_eq] at ahead behind ⊢
      exact String.le_trans ahead behind
    · intro first second
      simpa [namesAscend] using String.le_total first.1 second.1
  simpa [namesAscend] using sorted

/-- Entries of distinct names are sorted the same way from any order. -/
theorem mergeSort_eq_of_perm (distinct : (entries.map Prod.fst).Nodup) (perm : entries.Perm others) :
    entries.mergeSort namesAscend = others.mergeSort namesAscend := by
  have moved : (entries.mergeSort namesAscend).Perm (others.mergeSort namesAscend) :=
    (List.mergeSort_perm _ _).trans (perm.trans (List.mergeSort_perm _ _).symm)
  refine moved.eq_of_pairwise ?_ (pairwise_mergeSort_namesAscend _) (pairwise_mergeSort_namesAscend _)
  intro first second held present ahead behind
  have held : first ∈ entries := (List.mergeSort_perm _ _).mem_iff.mp held
  have present : second ∈ entries := perm.mem_iff.mpr ((List.mergeSort_perm _ _).mem_iff.mp present)
  exact List.inj_on_of_nodup_map distinct held present (String.le_antisymm ahead behind)

/-- A text for each entry, in the order of the names, is found by the texts alone. -/
theorem map_mergeSort_namesAscend {β : Type} (text : String × α → β) (entries : List (String × α)) :
    (entries.mergeSort namesAscend).map text =
      ((entries.map fun entry => (entry.1, text entry)).mergeSort namesAscend).map Prod.snd := by
  have sorted := List.map_mergeSort (r := namesAscend) (s := namesAscend)
    (f := fun entry => (entry.1, text entry)) (l := entries) fun _ _ _ _ => rfl
  rw [← sorted, List.map_map]
  rfl

end Sorted

/-! ### Texts of labels -/

namespace Rendering

theorem memberScalars_eq_map (members : List (String × Tree)) :
    memberScalars members = members.map fun entry => (entry.1, scalar entry.2) := by
  induction members with
  | nil => rfl
  | cons entry rest ih => rw [memberScalars, ih, List.map_cons]

theorem scalars_eq_map (items : List Tree) : scalars items = items.map scalar := by
  induction items with
  | nil => rfl
  | cons item rest ih => rw [scalars, ih, List.map_cons]

theorem pairLiterals_eq_of_perm {entries others : List (String × String)}
    (distinct : (entries.map Prod.fst).Nodup) (perm : entries.Perm others) :
    pairLiterals entries = pairLiterals others := by
  have sorted : sortByName entries = sortByName others := mergeSort_eq_of_perm distinct perm
  rw [pairLiterals, pairLiterals, sorted]

end Rendering

namespace Tree.Reordered

open Rendering

variable {tree other : Tree}

/-- Entries that are made from members of equal names and related values are the same. -/
private theorem map_eq_of_forall₂ {β : Type} {related : Tree → Tree → Prop} {text : String × Tree → β}
    (respects : ∀ name value other, related value other → text (name, value) = text (name, other))
    {members others : List (String × Tree)}
    (entries : List.Forall₂ (fun entry other => entry.1 = other.1 ∧ related entry.2 other.2)
      members others) : members.map text = others.map text := by
  induction entries with
  | nil => rfl
  | @cons entry other _ _ head _ ih =>
      obtain ⟨name, value⟩ := entry
      obtain ⟨_, counterpart⟩ := other
      obtain ⟨rfl, head⟩ := head
      rw [List.map_cons, List.map_cons, respects name value counterpart head, ih]

theorem scalar_eq (reordered : tree.Reordered other) : scalar tree = scalar other := by
  refine Reordered.induct ?same ?list ?object reordered
  case same =>
      intro tree
      rfl
  case list =>
      intro items others values
      have texts : items.map scalar = others.map scalar := by
        rwa [← List.forall₂_eq_eq_eq, List.forall₂_map_left_iff, List.forall₂_map_right_iff]
      rw [scalar, scalar, scalars_eq_map, scalars_eq_map, texts]
  case object =>
      intro members moved others distinct perm names values
      have distinct' : ((memberScalars members).map Prod.fst).Nodup := by
        rw [memberScalars_eq_map, List.map_map]
        exact distinct
      have perm' : (memberScalars members).Perm (memberScalars moved) := by
        rw [memberScalars_eq_map, memberScalars_eq_map]
        exact perm.map _
      have texts : memberScalars moved = memberScalars others := by
        rw [memberScalars_eq_map, memberScalars_eq_map]
        refine map_eq_of_forall₂ ?_ (forall₂_of_names names values)
        intro name value other same
        rw [same]
      rw [scalar, scalar, pairLiterals_eq_of_perm distinct' perm', texts]

theorem headerLiteral_eq (reordered : tree.Reordered other) (name : String) :
    headerLiteral (name, tree) = headerLiteral (name, other) := by
  have found : stringMatch tree = stringMatch other := by
    rw [stringMatch, stringMatch, (reordered.member "exact").scalar_eq,
      (reordered.member "prefix").scalar_eq, (reordered.member "regex").scalar_eq]
  delta headerLiteral
  simp only [found]

theorem headerMatches_eq (reordered : tree.Reordered other) : headerMatches tree = headerMatches other := by
  cases reordered with
  | same => rfl
  | list values => exact (Reordered.list values).scalar_eq
  | @object members moved others distinct perm names values =>
      have sorted : members.mergeSort namesAscend = moved.mergeSort namesAscend :=
        mergeSort_eq_of_perm distinct perm
      have texts : (moved.map fun entry => (entry.1, headerLiteral entry)) =
          others.map fun entry => (entry.1, headerLiteral entry) := by
        refine map_eq_of_forall₂ ?_ (forall₂_of_names names values)
        intro name value other reordered
        rw [reordered.headerLiteral_eq name]
      change String.join ((members.mergeSort namesAscend).map headerLiteral) =
        String.join ((others.mergeSort namesAscend).map headerLiteral)
      rw [sorted, map_mergeSort_namesAscend, texts, ← map_mergeSort_namesAscend]

end Tree.Reordered

/-! ### Durations -/

namespace Number

theorem scanNumeral?_cons {first : Char} (noDigit : digitValue? first = none) (noPoint : first ≠ '.')
    (rest : List Char) : scanNumeral? (first :: rest) = none := by
  have digits : takeDigits (first :: rest) = ([], first :: rest) := by rw [takeDigits, noDigit]
  have fraction : takeFraction (first :: rest) = ([], first :: rest) := by
    unfold takeFraction
    split
    · next same =>
        cases same
        exact absurd rfl noPoint
    · rfl
  simp [scanNumeral?, digits, fraction]

/-- No decimal numeral begins with the bracket of a list or the brace of an object. -/
theorem readDecimal?_of_opening {opening : Char} (bracket : opening = '[' ∨ opening = '\x7b')
    (rest : List Char) : readDecimal? (opening :: rest) = none := by
  have plain : isBlank opening = false ∧ opening ≠ '_' ∧ digitValue? opening = none ∧ opening ≠ '.' ∧
      opening ≠ '-' ∧ opening ≠ '+' := by
    rcases bracket with rfl | rfl <;> decide
  obtain ⟨kept, noSeparator, noDigit, noPoint, noMinus, noPlus⟩ := plain
  obtain ⟨others, trimmed⟩ := trimWhere_cons kept rest
  have filtered : (opening :: others).filter (· ≠ '_') = opening :: others.filter (· ≠ '_') :=
    List.filter_cons_of_pos (by simpa using noSeparator)
  simp only [readDecimal?, trimmed, filtered, splitSign_cons noMinus noPlus,
    scanNumeral?_cons noDigit noPoint]

end Number

namespace Duration

theorem readNumber?_list (items : List Tree) : readNumber? (Tree.list items).asText.toList = none := by
  have opens : (Tree.list items).asText.toList =
      '[' :: (String.intercalate ", " (Tree.literals items) ++ "]").toList := by
    change (Tree.list items).literal.toList = _
    rw [Tree.literal, String.append_assoc, String.toList_append]
    rfl
  rw [readNumber?, opens, readDecimal?_of_opening (.inl rfl), Option.bind_none]

theorem readNumber?_object (members : List (String × Tree)) :
    readNumber? (Tree.object members).asText.toList = none := by
  have opens : (Tree.object members).asText.toList =
      '\x7b' :: (String.intercalate ", " (Tree.memberLiterals members) ++ "\x7d").toList := by
    change (Tree.object members).literal.toList = _
    rw [Tree.literal, String.append_assoc, String.toList_append]
    rfl
  rw [readNumber?, opens, readDecimal?_of_opening (.inr rfl), Option.bind_none]

end Duration

namespace Tree.Reordered

variable {tree other : Tree}

theorem memberNumber?_eq (reordered : tree.Reordered other) :
    Duration.memberNumber? tree = Duration.memberNumber? other := by
  have vacant := reordered.isVacant_eq
  cases reordered with
  | same => rfl
  | @list items others =>
      rw [Duration.memberNumber?, Duration.memberNumber?, orElse, orElse, vacant]
      split
      · rfl
      · rw [Duration.readNumber?_list, Duration.readNumber?_list]
  | @object members moved others =>
      rw [Duration.memberNumber?, Duration.memberNumber?, orElse, orElse, vacant]
      split
      · rfl
      · rw [Duration.readNumber?_object, Duration.readNumber?_object]

theorem duration_eq (reordered : tree.Reordered other) :
    Rendering.duration tree = Rendering.duration other := by
  have seconds : Duration.seconds? tree = Duration.seconds? other := by
    cases reordered with
    | same => rfl
    | list => rfl
    | object distinct perm names values =>
        have whole := Reordered.object distinct perm names values
        rw [Duration.seconds?, Duration.seconds?, (whole.member "seconds").memberNumber?_eq,
          (whole.member "nanos").memberNumber?_eq]
  rw [Rendering.duration, Rendering.duration, seconds, reordered.scalar_eq]

theorem facet_eq (reordered : tree.Reordered other) (facet : LoadBalancer.Facet) :
    facet.text tree = facet.text other := by
  have hash : (LoadBalancer.consistentHash tree).Reordered (LoadBalancer.consistentHash other) :=
    reordered.lookupFirst _
  cases facet with
  | algorithm =>
      simp only [LoadBalancer.Facet.text, reordered.isNull_eq, hash.isNull_eq]
  | identifier =>
      have header := (hash.lookupFirst [["httpHeader"], ["httpHeaderName"], ["http_header"]]).scalar_eq
      have simple := (reordered.member "simple").scalar_eq
      simp only [LoadBalancer.Facet.text, hash.isNull_eq]
      split
      · exact simple
      · exact header
  | ringSize => exact (hash.lookupFirst _).scalar_eq

end Tree.Reordered
end MeshGauges
