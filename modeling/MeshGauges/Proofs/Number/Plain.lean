import MeshGauges.Number.Written
import MeshGauges.Proofs.Number.Digits
import MeshGauges.Proofs.Number.Numeral
import MeshGauges.Proofs.Number.Value

/-! Plain texts of decimals.

The plain digits of a decimal are a numeral without superfluous zeros, and its number is the size of the
decimal. They are found from that number alone: written in tenths, hundredths or smaller parts it has the
same plain numeral, so decimals of one sign and one size have the same text (`plainText_eq_of_abs_value_eq`). -/

set_option autoImplicit false

namespace MeshGauges

namespace Text

/-! ### ASCII digits -/

theorem isDigit_of_ascii {character : Char} (ascii : character.isDigit = true) :
    isDigit character = true := by
  obtain ⟨_, _, _, _, value⟩ := plain_of_isDigit ascii
  rw [isDigit, value]
  rfl

theorem digitsNumber_toDigits (number : ℕ) : digitsNumber (Nat.toDigits 10 number) = number := by
  have values : (Nat.toDigits 10 number).map digitOf =
      (Nat.toDigits 10 number).map fun character => character.toNat - '0'.toNat := by
    refine List.map_congr_left fun character member => ?_
    have ascii := Nat.isDigit_of_mem_toDigits (by decide) (by decide) member
    obtain ⟨_, _, _, _, value⟩ := plain_of_isDigit ascii
    rw [digitOf, value, Option.getD_some]
  rw [← digitsValue_map_digitOf, values, digitsValue_toDigits]

theorem toDigits_eq_of_head?_eq_zero {number : ℕ}
    (leading : (Nat.toDigits 10 number).head? = some '0') : Nat.toDigits 10 number = ['0'] := by
  induction number using Nat.strongRecOn with
  | ind number ih =>
      rcases Nat.lt_or_ge number 10 with small | large
      · rw [Nat.toDigits_of_lt_base small] at leading ⊢
        rw [Option.some.inj leading]
      · rw [Nat.toDigits_of_base_le (by decide) large,
          List.head?_append_of_ne_nil _ Nat.toDigits_ne_nil] at leading
        have zero := congrArg digitsNumber (ih (number / 10) (by omega) leading)
        rw [digitsNumber_toDigits] at zero
        have zero : number / 10 = 0 := zero
        omega

theorem toDigits_append_replicate {number : ℕ} (positive : 0 < number) (count : ℕ) :
    Nat.toDigits 10 number ++ List.replicate count '0' = Nat.toDigits 10 (number * 10 ^ count) := by
  induction count with
  | zero => simp
  | succ count ih =>
      have next := Nat.toDigits_append_toDigits (b := 10) (d := 0) (by decide)
        (Nat.mul_pos positive (Nat.pow_pos (n := count) (by decide : 0 < 10))) (by decide)
      rw [List.replicate_succ', ← List.append_assoc, ih, ← Nat.toDigits_zero 10, next]
      congr 1
      rw [Nat.pow_succ]
      ring

/-! ### The last digits of a number -/

/-- The last digits of a number, as many as asked for. -/
def lowDigits : ℕ → ℕ → List Char
  | 0, _ => []
  | count + 1, number => lowDigits count (number / 10) ++ [(number % 10).digitChar]

@[simp] theorem length_lowDigits (count number : ℕ) : (lowDigits count number).length = count := by
  induction count generalizing number with
  | zero => rfl
  | succ count ih => rw [lowDigits, List.length_append, ih, List.length_singleton]

theorem isDigit_of_mem_lowDigits {count number : ℕ} {character : Char}
    (member : character ∈ lowDigits count number) : character.isDigit = true := by
  induction count generalizing number with
  | zero => cases member
  | succ count ih =>
      rcases List.mem_append.mp member with before | last
      · exact ih before
      · rw [List.mem_singleton.mp last, Nat.isDigit_digitChar]
        simpa using Nat.mod_lt number (by decide)

theorem lowDigits_zero (count : ℕ) : lowDigits count 0 = List.replicate count '0' := by
  induction count with
  | zero => rfl
  | succ count ih => rw [lowDigits, Nat.zero_div, ih, List.replicate_succ']; rfl

theorem digitsNumber_lowDigits (count number : ℕ) :
    digitsNumber (lowDigits count number) = number % 10 ^ count := by
  induction count generalizing number with
  | zero => rw [Nat.pow_zero, Nat.mod_one]; rfl
  | succ count ih =>
      have last : digitsNumber [(number % 10).digitChar] = number % 10 := by
        rw [← Nat.toDigits_of_lt_base (Nat.mod_lt number (by decide)), digitsNumber_toDigits]
      rw [lowDigits, digitsNumber_append, ih, last, List.length_singleton, Nat.pow_one, Nat.pow_succ',
        Nat.mod_mul, Nat.add_comm, Nat.mul_comm]

/-- The digits of a number, with zeros in front where they are too few, are its higher digits and its
last ones. -/
theorem replicate_append_toDigits (count number : ℕ) :
    List.replicate (count + 1 - (Nat.toDigits 10 number).length) '0' ++ Nat.toDigits 10 number =
      Nat.toDigits 10 (number / 10 ^ count) ++ lowDigits count number := by
  induction count generalizing number with
  | zero =>
      have some : 0 < (Nat.toDigits 10 number).length := Nat.length_toDigits_pos
      rw [Nat.sub_eq_zero_of_le some, Nat.pow_zero, Nat.div_one, lowDigits, List.append_nil]
      rfl
  | succ count ih =>
      have higher : number / 10 ^ (count + 1) = number / 10 / 10 ^ count := by
        rw [Nat.pow_succ', Nat.div_div_eq_div_mul]
      rw [lowDigits, ← List.append_assoc, higher, ← ih (number / 10)]
      rcases Nat.lt_or_ge number 10 with small | large
      · rw [Nat.toDigits_of_lt_base small, Nat.div_eq_of_lt small, Nat.mod_eq_of_lt small,
          Nat.toDigits_zero, List.length_singleton, List.length_singleton, Nat.add_sub_cancel,
          Nat.add_sub_cancel, List.replicate_succ']
      · rw [Nat.toDigits_of_base_le (by decide) large, List.length_append, List.length_singleton,
          Nat.add_sub_add_right, List.append_assoc]

end Text

namespace Number

open Text

/-! ### Trailing zeros -/

namespace Decimal

theorem withoutTrailingZeros_concat (digits : List Char) (last : Char) :
    withoutTrailingZeros (digits ++ [last]) =
      if last = '0' then withoutTrailingZeros digits else digits ++ [last] := by
  by_cases zero : last = '0' <;> simp [withoutTrailingZeros, zero]

theorem withoutTrailingZeros_append (digits : List Char) :
    ∃ count, digits = withoutTrailingZeros digits ++ List.replicate count '0' := by
  induction digits using List.reverseRecOn with
  | nil => exact ⟨0, rfl⟩
  | append_singleton digits last ih =>
      rw [withoutTrailingZeros_concat]
      split
      · next zero =>
          obtain ⟨count, split⟩ := ih
          refine ⟨count + 1, ?_⟩
          rw [zero, List.replicate_succ', ← List.append_assoc, ← split]
      · exact ⟨0, (List.append_nil _).symm⟩

theorem getLast?_withoutTrailingZeros (digits : List Char) :
    (withoutTrailingZeros digits).getLast? ≠ some '0' := by
  induction digits using List.reverseRecOn with
  | nil => nofun
  | append_singleton digits last ih =>
      rw [withoutTrailingZeros_concat]
      split
      · exact ih
      · next nonzero => simpa using nonzero

end Decimal

/-! ### Plain numerals -/

namespace Numeral

/-- ASCII digits without superfluous zeros: none leads the whole digits unless it stands alone, none ends
the fraction, and a point has digits on either side. -/
structure IsPlain (numeral : Numeral) : Prop where
  ascii : ∀ character ∈ numeral.digits, character.isDigit = true
  whole : numeral.whole ≠ []
  leading : numeral.whole.head? = some '0' → numeral.whole = ['0']
  fraction : numeral.fraction? ≠ some []
  trailing : numeral.fraction.getLast? ≠ some '0'

theorem IsPlain.isWellFormed {numeral : Numeral} (plain : numeral.IsPlain) : numeral.IsWellFormed :=
  ⟨fun character member => isDigit_of_ascii (plain.ascii character member),
    List.append_ne_nil_of_left_ne_nil plain.whole _⟩

theorem mem_characters {numeral : Numeral} {character : Char} (member : character ∈ numeral.characters) :
    character ∈ numeral.digits ∨ character = '.' := by
  obtain ⟨whole, fraction?⟩ := numeral
  cases fraction? with
  | none =>
      rw [characters, tail, List.append_nil] at member
      exact .inl (List.mem_append_left _ member)
  | some fraction =>
      rw [characters, tail, List.mem_append, List.mem_cons] at member
      rcases member with member | point | member
      · exact .inl (List.mem_append_left _ member)
      · exact .inr point
      · exact .inl (List.mem_append_right _ member)

theorem IsPlain.isBlank_eq_false {numeral : Numeral} (plain : numeral.IsPlain) :
    ∀ character ∈ numeral.characters, isBlank character = false := by
  intro character member
  rcases mem_characters member with digit | rfl
  · exact (plain_of_isDigit (plain.ascii character digit)).1
  · decide

theorem IsPlain.not_mem_separator {numeral : Numeral} (plain : numeral.IsPlain) :
    '_' ∉ numeral.characters := by
  intro member
  rcases mem_characters member with digit | point
  · exact (plain_of_isDigit (plain.ascii '_' digit)).2.1 rfl
  · exact absurd point (by decide)

/-- The plain numeral of a number of parts, each one over a power of ten. -/
def ofParts (places number : ℕ) : Numeral :=
  let fraction := Decimal.withoutTrailingZeros (lowDigits places number)
  ⟨Nat.toDigits 10 (number / 10 ^ places), if fraction.isEmpty then none else some fraction⟩

theorem fraction_ofParts (places number : ℕ) :
    (ofParts places number).fraction = Decimal.withoutTrailingZeros (lowDigits places number) := by
  simp only [ofParts, fraction]
  split
  · next empty => rw [List.isEmpty_iff.mp empty]; rfl
  · rfl

theorem isPlain_ofParts (places number : ℕ) : (ofParts places number).IsPlain := by
  refine ⟨?_, Nat.toDigits_ne_nil, toDigits_eq_of_head?_eq_zero, ?_, ?_⟩
  · obtain ⟨count, split⟩ := Decimal.withoutTrailingZeros_append (lowDigits places number)
    rw [digits, fraction_ofParts, List.forall_mem_append]
    refine ⟨fun _ member => Nat.isDigit_of_mem_toDigits (by decide) (by decide) member, ?_⟩
    intro character member
    have low : character ∈ lowDigits places number := by
      rw [split]
      exact List.mem_append_left _ member
    exact isDigit_of_mem_lowDigits low
  · simp only [ofParts]
    split
    · exact (Option.some_ne_none []).symm
    · next some => simpa [List.isEmpty_iff] using some
  · rw [fraction_ofParts]
    exact Decimal.getLast?_withoutTrailingZeros _

theorem number_ofParts (places number : ℕ) : (ofParts places number).number = number / 10 ^ places := by
  obtain ⟨count, split⟩ := Decimal.withoutTrailingZeros_append (lowDigits places number)
  have zeros : digitsNumber (List.replicate count '0') = 0 := by
    rw [← lowDigits_zero, digitsNumber_lowDigits, Nat.zero_mod]
  have length : (ofParts places number).fraction.length + count = places := by
    have lengths := congrArg List.length split
    rw [length_lowDigits, List.length_append, List.length_replicate] at lengths
    rw [fraction_ofParts, ← lengths]
  have all : digitsNumber (ofParts places number).digits * 10 ^ count = number :=
    calc digitsNumber (ofParts places number).digits * 10 ^ count
        = digitsNumber ((ofParts places number).digits ++ List.replicate count '0') := by
          rw [digitsNumber_append, zeros, List.length_replicate, Nat.add_zero]
      _ = digitsNumber (Nat.toDigits 10 (number / 10 ^ places) ++ lowDigits places number) := by
          rw [digits, fraction_ofParts, List.append_assoc, ← split]
          rfl
      _ = number / 10 ^ places * 10 ^ places + number % 10 ^ places := by
          rw [digitsNumber_append, digitsNumber_toDigits, digitsNumber_lowDigits, length_lowDigits]
      _ = number := by rw [Nat.mul_comm, Nat.div_add_mod]
  rw [Numeral.number, div_eq_div_iff (by positivity) (by positivity)]
  have power : (10 : ℕ) ^ places = 10 ^ count * 10 ^ (ofParts places number).fraction.length := by
    rw [← Nat.pow_add, Nat.add_comm, length]
  have equal : digitsNumber (ofParts places number).digits * 10 ^ places =
      number * 10 ^ (ofParts places number).fraction.length := by
    rw [power, ← Nat.mul_assoc, all]
  exact_mod_cast equal

/-- Ten times as many parts of a tenth of the size make the same numeral. -/
theorem ofParts_mul_pow (places number count : ℕ) :
    ofParts (places + count) (number * 10 ^ count) = ofParts places number := by
  induction count with
  | zero => rw [Nat.pow_zero, Nat.mul_one, Nat.add_zero]
  | succ count ih =>
      rw [← ih, Nat.pow_succ, ← Nat.mul_assoc, ← Nat.add_assoc]
      generalize number * 10 ^ count = parts
      have whole : parts * 10 / 10 ^ (places + count + 1) = parts / 10 ^ (places + count) := by
        rw [Nat.pow_succ, Nat.mul_div_mul_right _ _ (by decide)]
      have low : lowDigits (places + count + 1) (parts * 10) = lowDigits (places + count) parts ++ ['0'] := by
        rw [lowDigits, Nat.mul_div_cancel _ (by decide), Nat.mul_mod_left]
        rfl
      rw [ofParts, ofParts, whole, low, Decimal.withoutTrailingZeros_concat, if_pos rfl]

end Numeral

namespace Decimal

/-- The plain numeral of the size of a decimal. -/
def numeral (decimal : Decimal) : Numeral :=
  .ofParts (-decimal.exponent).toNat (decimal.coefficient * 10 ^ decimal.exponent.toNat)

theorem plainDigits_eq (decimal : Decimal) : decimal.plainDigits = decimal.numeral.characters := by
  obtain ⟨negative, coefficient, exponent⟩ := decimal
  rcases Int.lt_or_le exponent 0 with below | above
  case inr =>
    obtain ⟨places, rfl⟩ := Int.eq_ofNat_of_zero_le above
    have whole : (numeral ⟨negative, coefficient, places⟩).characters =
        Nat.toDigits 10 (coefficient * 10 ^ places) := by
      simp [numeral, Numeral.ofParts, Numeral.characters, Numeral.tail, lowDigits, withoutTrailingZeros]
    rw [whole, plainDigits, if_pos above]
    split
    · next zero =>
        have zero : coefficient = 0 := zero
        rw [zero, Nat.zero_mul, Nat.toDigits_zero]
    · next nonzero => exact toDigits_append_replicate (Nat.pos_of_ne_zero nonzero) places
  case inl =>
    obtain ⟨places, equal⟩ : ∃ places : ℕ, (-exponent).toNat = places := ⟨_, rfl⟩
    have whole : exponent.toNat = 0 := Int.toNat_of_nonpos below.le
    have filled := replicate_append_toDigits places coefficient
    have length : (Nat.toDigits 10 (coefficient / 10 ^ places) ++ lowDigits places coefficient).length -
        places = (Nat.toDigits 10 (coefficient / 10 ^ places)).length := by
      rw [List.length_append, length_lowDigits, Nat.add_sub_cancel]
    simp only [plainDigits, if_neg (not_le.mpr below), equal, filled, length, List.take_left,
      List.drop_left, numeral, whole, Nat.pow_zero, Nat.mul_one, Numeral.ofParts, Numeral.characters,
      Numeral.tail]
    split
    · exact (List.append_nil _).symm
    · rfl

theorem isPlain_numeral (decimal : Decimal) : decimal.numeral.IsPlain := Numeral.isPlain_ofParts _ _

theorem number_numeral (decimal : Decimal) : decimal.numeral.number = |decimal.value| := by
  rw [numeral, Numeral.number_ofParts, abs_value]
  rcases Int.eq_nat_or_neg decimal.exponent with ⟨places, equal | equal⟩
  · rw [equal, zpow_natCast]
    simp
  · rw [equal, zpow_neg, zpow_natCast]
    simp [div_eq_mul_inv]

theorem numeral_eq_of_abs_value_eq {first second : Decimal} (same : |first.value| = |second.value|) :
    first.numeral = second.numeral := by
  rw [← number_numeral, ← number_numeral, numeral, numeral, Numeral.number_ofParts,
    Numeral.number_ofParts] at same
  rw [numeral, numeral]
  generalize first.coefficient * 10 ^ first.exponent.toNat = firstParts at same ⊢
  generalize second.coefficient * 10 ^ second.exponent.toNat = secondParts at same ⊢
  generalize (-first.exponent).toNat = firstPlaces at same ⊢
  generalize (-second.exponent).toNat = secondPlaces at same ⊢
  have crossed : firstParts * 10 ^ secondPlaces = secondParts * 10 ^ firstPlaces := by
    rw [div_eq_div_iff (by positivity) (by positivity)] at same
    exact_mod_cast same
  rw [← Numeral.ofParts_mul_pow firstPlaces firstParts secondPlaces, crossed, Nat.add_comm,
    Numeral.ofParts_mul_pow]

theorem toList_plainText (decimal : Decimal) :
    decimal.plainText.toList = signed decimal.negative decimal.numeral.characters := by
  rw [plainText, String.toList_ofList, plainDigits_eq, signed]

/-- Decimals of one sign and one size have the same plain text. -/
theorem plainText_eq_of_abs_value_eq {first second : Decimal} (signs : first.negative = second.negative)
    (same : |first.value| = |second.value|) : first.plainText = second.plainText := by
  rw [plainText, plainText, signs, plainDigits_eq, plainDigits_eq, numeral_eq_of_abs_value_eq same]

end Decimal
end Number
end MeshGauges
