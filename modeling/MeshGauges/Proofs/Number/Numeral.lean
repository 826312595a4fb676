import MeshGauges.Number.Numeral
import MeshGauges.Proofs.Text.Trimming
import Mathlib.Algebra.Group.Nat.Defs

/-! Whole numerals written anew.

A whole number that was read is written as the ASCII digits of its size, after a minus sign where it is
below zero. There are no more of them than were read (`natAbs_lt_of_readInteger?`), so what was written is
read as the same number (`readInteger?_toString_of_read`). -/

set_option autoImplicit false

namespace MeshGauges

namespace Text

/-! ### Digits -/

theorem digitValue?_lt {character : Char} {value : Nat} (digit : digitValue? character = some value) :
    value < 10 := by
  obtain ⟨first, found, rfl⟩ := Option.map_eq_some_iff.mp digit
  have within := List.find?_some found
  simp only [Bool.and_eq_true, decide_eq_true_eq] at within
  omega

theorem takeDigits_lt (characters : List Char) : ∀ value ∈ (takeDigits characters).1, value < 10 := by
  induction characters with
  | nil => simp [takeDigits]
  | cons character rest ih =>
      rw [takeDigits]
      cases digit : digitValue? character with
      | none => simp
      | some value => exact List.forall_mem_cons.mpr ⟨digitValue?_lt digit, ih⟩

theorem digitsValue_lt {digits : List Nat} (small : ∀ digit ∈ digits, digit < 10) :
    digitsValue digits < 10 ^ digits.length := by
  induction digits using List.reverseRecOn with
  | nil => exact Nat.one_pos
  | append_singleton digits last ih =>
      obtain ⟨others, lastSmall⟩ := List.forall_mem_append.mp small
      have before : digitsValue digits < 10 ^ digits.length := ih others
      have smallest : last < 10 := lastSmall last (List.mem_singleton_self last)
      have value : digitsValue (digits ++ [last]) = 10 * digitsValue digits + last := by
        simp [digitsValue]
      have power : 10 ^ (digits ++ [last]).length = 10 * 10 ^ digits.length := by
        rw [List.length_append, List.length_singleton, Nat.pow_succ']
      omega

/-- What holds of the ASCII digits: none is blank, a separator or a sign, and each has its value. -/
theorem plain_of_isDigit {character : Char} (digit : character.isDigit = true) :
    isBlank character = false ∧ character ≠ '_' ∧ character ≠ '-' ∧ character ≠ '+' ∧
      digitValue? character = some (character.toNat - '0'.toNat) := by
  obtain ⟨lower, upper⟩ := Char.isDigit_iff_toNat.mp digit
  have lower : 48 ≤ character.toNat := lower
  have upper : character.toNat ≤ 57 := upper
  refine ⟨?_, ?_, ?_, ?_, ?_⟩
  · simp only [isBlank, Bool.or_eq_false_iff, Bool.and_eq_false_iff, beq_eq_false_iff_ne,
      decide_eq_false_iff_not]
    omega
  · rintro rfl
    contradiction
  · rintro rfl
    contradiction
  · rintro rfl
    contradiction
  · have zero : decimalZeros.find? (fun first => first ≤ character.toNat && character.toNat < first + 10) =
        some 0x30 := by
      refine List.find?_cons_of_pos ?_
      simp only [Bool.and_eq_true, decide_eq_true_eq]
      omega
    rw [digitValue?, zero, Option.map_some]
    rfl

theorem takeDigits_of_isDigit {characters : List Char}
    (digits : ∀ character ∈ characters, character.isDigit = true) :
    takeDigits characters = (characters.map fun character => character.toNat - '0'.toNat, []) := by
  induction characters with
  | nil => rfl
  | cons character rest ih =>
      obtain ⟨first, others⟩ := List.forall_mem_cons.mp digits
      obtain ⟨_, _, _, _, value⟩ := plain_of_isDigit first
      rw [takeDigits, value, ih others, List.map_cons]

/-- The digits that a number is written with have its value. -/
theorem digitsValue_toDigits (number : Nat) :
    digitsValue ((Nat.toDigits 10 number).map fun character => character.toNat - '0'.toNat) = number := by
  have value := Nat.ofDigitChars_toDigits (b := 10) (n := number) (by decide) (by decide)
  rwa [Nat.ofDigitChars_eq_foldl, ← List.foldl_map] at value

end Text

namespace Number

open Text

theorem splitSign_cons {first : Char} (noMinus : first ≠ '-') (noPlus : first ≠ '+') (rest : List Char) :
    splitSign (first :: rest) = (false, first :: rest) := by
  unfold splitSign
  split
  · next same => exact absurd (List.cons_eq_cons.mp same).1 noMinus
  · next same => exact absurd (List.cons_eq_cons.mp same).1 noPlus
  · rfl

theorem dropSeparators?_eq_some {characters : List Char} (separated : '_' ∉ characters) :
    dropSeparators? characters = some characters := by
  fun_induction dropSeparators? characters with
  | case1 => rfl
  | case2 => simp at separated
  | case3 => simp at separated
  | case4 => simp at separated
  | case5 character rest _ _ ih =>
      rw [ih fun member => separated (List.mem_cons_of_mem _ member), Option.map_some]

/-- A sign and the digits of a number are read as that number, where there are few enough of them. -/
theorem readInteger?_of_toDigits {text : String} (negative : Bool) (size : Nat)
    (written : splitSign (trimWhere isNumeralBlank text.toList) = (negative, Nat.toDigits 10 size))
    (short : size < 10 ^ greatestIntegerLength) :
    readInteger? text = some (if negative then -(size : Int) else size) := by
  have digits : ∀ character ∈ Nat.toDigits 10 size, character.isDigit = true :=
    fun _ member => Nat.isDigit_of_mem_toDigits (by decide) (by decide) member
  have separated : dropSeparators? (Nat.toDigits 10 size) = some (Nat.toDigits 10 size) := by
    refine dropSeparators?_eq_some fun member => ?_
    exact (plain_of_isDigit (digits '_' member)).2.1 rfl
  have few : (Nat.toDigits 10 size).length ≤ greatestIntegerLength :=
    (Nat.length_toDigits_le_iff (by decide) (by decide)).mpr short
  have value := digitsValue_toDigits size
  obtain ⟨first, rest, shape⟩ := List.exists_cons_of_ne_nil (Nat.toDigits_ne_nil (n := size) (b := 10))
  simp only [readInteger?, written, separated, takeDigits_of_isDigit digits]
  rw [shape] at few value ⊢
  simp only [List.map_cons] at value ⊢
  rw [if_pos (by simpa using few), value]

private theorem notBlank_of_mem_toDigits {size : Nat} :
    ∀ character ∈ Nat.toDigits 10 size, isNumeralBlank character = false := by
  intro character member
  have digit := Nat.isDigit_of_mem_toDigits (by decide) (by decide) member
  simp [isNumeralBlank, (plain_of_isDigit digit).1]

theorem readInteger?_toString {value : Int} (short : value.natAbs < 10 ^ greatestIntegerLength) :
    readInteger? (toString value) = some value := by
  cases value with
  | ofNat size =>
      have written : (toString (Int.ofNat size)).toList = Nat.toDigits 10 size := Nat.toList_repr
      obtain ⟨first, rest, shape⟩ := List.exists_cons_of_ne_nil (Nat.toDigits_ne_nil (n := size) (b := 10))
      have digit : first.isDigit = true := by
        refine Nat.isDigit_of_mem_toDigits (b := 10) (n := size) (by decide) (by decide) ?_
        rw [shape]
        exact List.mem_cons_self
      obtain ⟨_, _, noMinus, noPlus, _⟩ := plain_of_isDigit digit
      refine readInteger?_of_toDigits false size ?_ short
      rw [written, trimWhere_eq_self notBlank_of_mem_toDigits, shape, splitSign_cons noMinus noPlus]
  | negSucc before =>
      have written : (toString (Int.negSucc before)).toList = '-' :: Nat.toDigits 10 (before + 1) := by
        change ("-" ++ Nat.repr (before + 1)).toList = _
        rw [String.toList_append, Nat.toList_repr]
        rfl
      refine readInteger?_of_toDigits true (before + 1) ?_ short
      have kept : ∀ character ∈ '-' :: Nat.toDigits 10 (before + 1), isNumeralBlank character = false :=
        List.forall_mem_cons.mpr ⟨by decide, notBlank_of_mem_toDigits⟩
      rw [written, trimWhere_eq_self kept]
      rfl

theorem natAbs_lt_of_readInteger? {text : String} {value : Int} (read : readInteger? text = some value) :
    value.natAbs < 10 ^ greatestIntegerLength := by
  rw [readInteger?] at read
  generalize splitSign (trimWhere isNumeralBlank text.toList) = parts at read
  obtain ⟨negative, rest⟩ := parts
  simp only at read
  split at read
  · cases read
  · next characters _ =>
      have small := takeDigits_lt characters
      split at read
      · cases read
      · next digits _ taken =>
          rw [taken] at small
          split at read
          · next few =>
              have size : digitsValue digits < 10 ^ greatestIntegerLength :=
                (digitsValue_lt small).trans_le (Nat.pow_le_pow_right (by decide) few)
              obtain rfl := Option.some.inj read
              split
              · rwa [Int.natAbs_neg, Int.natAbs_natCast]
              · rwa [Int.natAbs_natCast]
          · cases read
      · cases read

/-- What was read is written in a form that is read as the same number. -/
theorem readInteger?_toString_of_read {text : String} {value : Int}
    (read : readInteger? text = some value) : readInteger? (toString value) = some value :=
  readInteger?_toString (natAbs_lt_of_readInteger? read)

end Number
end MeshGauges
