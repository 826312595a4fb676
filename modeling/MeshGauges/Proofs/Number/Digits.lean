import MeshGauges.Number.Numeral
import Mathlib.Data.List.Induction
import Mathlib.Data.Nat.Digits.Defs
import Mathlib.Data.Rat.Defs

/-! Unsigned numbers as they are written.

A numeral is a run of digits that may have one point in front, within or behind it. The readers scan it
from the left: first the digits before the point, then the ones after it. What they take is a numeral, and
of a numeral they take all, where it is not followed by what could be a part of it. -/

set_option autoImplicit false

namespace MeshGauges

namespace Text

/-! ### Runs of digits -/

/-- The value of a digit. -/
def digitOf (character : Char) : ℕ := (digitValue? character).getD 0

/-- The number that a run of digits is written for. -/
def digitsNumber (characters : List Char) : ℕ :=
  Nat.ofDigits 10 (characters.map digitOf).reverse

/-- Whether a text goes on with anything but a digit. -/
def StopsDigits (rest : List Char) : Prop := ∀ character ∈ rest.head?, isDigit character = false

theorem digitValue?_eq_some {character : Char} (digit : isDigit character = true) :
    digitValue? character = some (digitOf character) := by
  obtain ⟨value, found⟩ := Option.isSome_iff_exists.mp digit
  rw [digitOf, found, Option.getD_some]

theorem digitValue?_eq_none {character : Char} (noDigit : isDigit character = false) :
    digitValue? character = none :=
  Option.isSome_eq_false_iff.mp noDigit |> Option.isNone_iff_eq_none.mp

/-- No digit of any script is white space. -/
theorem isBlank_of_isDigit {character : Char} (digit : isDigit character = true) :
    isBlank character = false := by
  have table : ∀ first ∈ decimalZeros, ∀ offset ∈ List.range 10,
      isBlank (Char.ofNat (first + offset)) = false := by decide +kernel
  obtain ⟨first, found, -⟩ := Option.map_eq_some_iff.mp (digitValue?_eq_some digit)
  have within := List.find?_some found
  simp only [Bool.and_eq_true, decide_eq_true_eq] at within
  have member : character.toNat - first ∈ List.range 10 := List.mem_range.mpr (by omega)
  have kept := table first (List.mem_of_find?_eq_some found) _ member
  rwa [Nat.add_sub_cancel' within.1, Char.ofNat_toNat] at kept

theorem digitsValue_map_digitOf (characters : List Char) :
    digitsValue (characters.map digitOf) = digitsNumber characters := by
  rw [digitsNumber]
  induction characters.map digitOf using List.reverseRecOn with
  | nil => rfl
  | append_singleton digits last ih =>
      have before : digitsValue (digits ++ [last]) = 10 * digitsValue digits + last := by
        simp [digitsValue]
      rw [before, ih, List.reverse_concat, Nat.ofDigits_cons, Nat.add_comm]

theorem digitsNumber_append (first second : List Char) :
    digitsNumber (first ++ second) = digitsNumber first * 10 ^ second.length + digitsNumber second := by
  rw [digitsNumber, List.map_append, List.reverse_append, Nat.ofDigits_append, List.length_reverse,
    List.length_map, Nat.add_comm, Nat.mul_comm]
  rfl

theorem takeDigits_append {digits rest : List Char}
    (all : ∀ character ∈ digits, isDigit character = true) (stops : StopsDigits rest) :
    takeDigits (digits ++ rest) = (digits.map digitOf, rest) := by
  induction digits with
  | nil =>
      cases rest with
      | nil => rfl
      | cons first others =>
          have noDigit := digitValue?_eq_none (stops first rfl)
          rw [List.nil_append, takeDigits, noDigit]
          rfl
  | cons first others ih =>
      obtain ⟨digit, all⟩ := List.forall_mem_cons.mp all
      rw [List.cons_append, takeDigits, digitValue?_eq_some digit, ih all]
      rfl

theorem takeDigits_taken (characters : List Char) :
    ∃ digits, characters = digits ++ (takeDigits characters).2 ∧
      (takeDigits characters).1 = digits.map digitOf ∧
      (∀ character ∈ digits, isDigit character = true) ∧ StopsDigits (takeDigits characters).2 := by
  induction characters with
  | nil => exact ⟨[], rfl, rfl, nofun, nofun⟩
  | cons first others ih =>
      cases found : digitValue? first with
      | none =>
          have stops : StopsDigits (first :: others) := by
            intro character head
            obtain rfl := Option.some.inj head
            rw [isDigit, found]
            rfl
          simp only [takeDigits, found]
          exact ⟨[], rfl, rfl, nofun, stops⟩
      | some value =>
          obtain ⟨digits, whole, values, all, stops⟩ := ih
          have digit : isDigit first = true := by
            rw [isDigit, found]
            rfl
          simp only [takeDigits, found]
          refine ⟨first :: digits, ?_, ?_, List.forall_mem_cons.mpr ⟨digit, all⟩, stops⟩
          · rw [List.cons_append, ← whole]
          · rw [List.map_cons, values, digitOf, found, Option.getD_some]

end Text

namespace Number

open Text

/-! ### Numerals -/

/-- An unsigned number as it is written: its whole digits, and those after a point if it has one. -/
structure Numeral where
  whole : List Char
  fraction? : Option (List Char)

namespace Numeral

def fraction (numeral : Numeral) : List Char := numeral.fraction?.getD []

def digits (numeral : Numeral) : List Char := numeral.whole ++ numeral.fraction

/-- What stands behind the whole digits. -/
def tail (numeral : Numeral) : List Char :=
  match numeral.fraction? with
  | none => []
  | some fraction => '.' :: fraction

def characters (numeral : Numeral) : List Char := numeral.whole ++ numeral.tail

/-- Digits of any script, at least one, on either side of the point. -/
structure IsWellFormed (numeral : Numeral) : Prop where
  all : ∀ character ∈ numeral.digits, isDigit character = true
  some : numeral.digits ≠ []

def number (numeral : Numeral) : ℚ := digitsNumber numeral.digits / 10 ^ numeral.fraction.length

/-- Whether a text goes on with what is no part of the numeral: no digit, and no point unless there is
one already. -/
def StopsAt (numeral : Numeral) (rest : List Char) : Prop :=
  StopsDigits rest ∧ (numeral.fraction? = none → rest.head? ≠ some '.')

variable {numeral : Numeral}

theorem take_characters (wellFormed : numeral.IsWellFormed) {rest : List Char}
    (stops : numeral.StopsAt rest) :
    takeDigits (numeral.characters ++ rest) = (numeral.whole.map digitOf, numeral.tail ++ rest) ∧
      takeFraction (numeral.tail ++ rest) = (numeral.fraction.map digitOf, rest) := by
  obtain ⟨stopsDigits, stopsPoint⟩ := stops
  have all := wellFormed.all
  obtain ⟨whole, fraction?⟩ := numeral
  cases fraction? with
  | none =>
      simp only [characters, tail, fraction, digits, Option.getD_none, List.append_nil] at all ⊢
      refine ⟨takeDigits_append all stopsDigits, ?_⟩
      unfold takeFraction
      split
      · next pointed =>
          refine absurd ?_ (stopsPoint rfl)
          rw [← List.nil_append rest, pointed]
          rfl
      · rfl
  | some fraction =>
      simp only [characters, tail, Numeral.fraction, digits, Option.getD_some, List.forall_mem_append]
        at all ⊢
      have pointed : StopsDigits ('.' :: fraction ++ rest) := by
        intro character head
        obtain rfl := Option.some.inj head
        decide
      rw [List.append_assoc]
      exact ⟨takeDigits_append all.1 pointed, takeDigits_append all.2 stopsDigits⟩

/-- What the two readers take from the head of a text is a numeral, unless they take nothing. -/
theorem taken (text : List Char) :
    ∃ numeral : Numeral, text = numeral.characters ++ (takeFraction (takeDigits text).2).2 ∧
      (takeDigits text).1 = numeral.whole.map digitOf ∧
      (takeFraction (takeDigits text).2).1 = numeral.fraction.map digitOf ∧
      ∀ character ∈ numeral.digits, isDigit character = true := by
  obtain ⟨whole, split, values, all, -⟩ := takeDigits_taken text
  generalize takeDigits text = taken at split values
  obtain ⟨_, rest⟩ := taken
  simp only at split values ⊢
  unfold takeFraction
  split
  · next afterPoint =>
      obtain ⟨fraction, others, fractionValues, fractionAll, -⟩ := takeDigits_taken afterPoint
      refine ⟨⟨whole, some fraction⟩, ?_, values, fractionValues, ?_⟩
      · rw [characters, tail, List.append_assoc, List.cons_append, ← others]
        exact split
      · exact List.forall_mem_append.mpr ⟨all, fractionAll⟩
  · refine ⟨⟨whole, none⟩, ?_, values, rfl, ?_⟩
    · rw [characters, tail, List.append_nil]
      exact split
    · exact List.forall_mem_append.mpr ⟨all, nofun⟩

theorem isEmpty_values (wellFormed : numeral.IsWellFormed) :
    ((numeral.whole.map digitOf).isEmpty && (numeral.fraction.map digitOf).isEmpty) = false := by
  have some : ¬ (numeral.whole = [] ∧ numeral.fraction = []) := by
    rw [← List.append_eq_nil_iff]
    exact wellFormed.some
  simpa [Bool.and_eq_false_iff, List.isEmpty_iff] using some

theorem scanNumeral?_characters (wellFormed : numeral.IsWellFormed) :
    scanNumeral? numeral.characters =
      some ⟨numeral.digits.map digitOf, -(numeral.fraction.length : ℤ)⟩ := by
  have stops : numeral.StopsAt [] := ⟨nofun, nofun⟩
  obtain ⟨whole, fraction⟩ := take_characters wellFormed stops
  simp only [List.append_nil] at whole fraction
  simp only [scanNumeral?, whole, fraction, isEmpty_values wellFormed, Bool.false_eq_true, if_false,
    List.length_map]
  rw [digits, List.map_append]

end Numeral

/-! ### Decimal numerals -/

/-- The decimal that a scanned numeral stands for, without a sign. -/
def Scanned.decimal (scanned : Scanned) : Decimal :=
  ⟨false, digitsValue scanned.digits, scanned.exponent⟩

/-- An unsigned decimal numeral, as far as its exponents are small enough to be read. -/
def scanDecimal? (digits : List Char) : Option Decimal :=
  ((scanNumeral? digits).map Scanned.decimal).filter fun value =>
    value.adjustedExponent ≤ greatestDecimalExponent && leastDecimalExponent ≤ value.exponent

/-- Without white space and underscores, a decimal numeral is a sign and an unsigned numeral. -/
theorem readDecimal?_of_splitSign {characters digits : List Char} {negative : Bool}
    (split : splitSign ((trimWhere isBlank characters).filter (· ≠ '_')) = (negative, digits)) :
    readDecimal? characters =
      (scanDecimal? digits).map fun value => { value with negative := negative } := by
  simp only [readDecimal?, split, scanDecimal?]
  cases scanNumeral? digits with
  | none => rfl
  | some scanned =>
      rw [Option.map_some, Option.filter_some, apply_ite (Option.map _)]
      rfl

end Number
end MeshGauges
