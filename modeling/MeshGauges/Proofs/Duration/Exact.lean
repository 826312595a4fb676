import MeshGauges.Proofs.Duration.BareNumber
import MeshGauges.Proofs.Duration.Plain
import Mathlib.Algebra.Order.BigOperators.Group.List

/-! Durations that are not rounded.

Below 10^19 seconds a whole number of nanoseconds has no more than 28 digits. A sum of such parts is
exact at every step, so it does not depend on the order of the parts (`total_eq_length`), and the forms
that so many seconds and nanoseconds can be given in are read as one number (`Spells.isReadAs`). -/

set_option autoImplicit false

namespace MeshGauges

open Number Text

namespace Number.Numeral

/-- The digits of a natural number. -/
def ofNat (number : ℕ) : Numeral := ⟨Nat.toDigits 10 number, none⟩

theorem ofNat_eq_ofParts (number : ℕ) : ofNat number = ofParts 0 number := by
  rw [ofNat, ofParts, Nat.pow_zero, Nat.div_one]
  rfl

theorem isPlain_ofNat (number : ℕ) : (ofNat number).IsPlain := ofNat_eq_ofParts number ▸ isPlain_ofParts 0 number

theorem number_ofNat (number : ℕ) : (ofNat number).number = number := by
  rw [ofNat_eq_ofParts, number_ofParts, pow_zero, div_one]

/-- Of a plain numeral nothing is left out in front of the reader. -/
theorem IsPlain.stripped_characters {numeral : Numeral} (plain : numeral.IsPlain) :
    stripped numeral.characters = numeral.characters := by
  rw [stripped, trimWhere_eq_self plain.isBlank_eq_false]
  refine List.filter_eq_self.mpr fun character member => decide_eq_true ?_
  rintro rfl
  exact plain.not_mem_separator member

theorem characters_ofNat (number : ℕ) : (ofNat number).characters = Nat.toDigits 10 number :=
  List.append_nil _

end Number.Numeral

namespace Duration

/-! ### Whole nanoseconds -/

def IsNanoseconds (number : ℚ) : Prop := ∃ count : ℕ, number = count / 10 ^ 9

theorem IsNanoseconds.add {first second : ℚ} (firstWhole : IsNanoseconds first)
    (secondWhole : IsNanoseconds second) : IsNanoseconds (first + second) := by
  obtain ⟨firstCount, rfl⟩ := firstWhole
  obtain ⟨secondCount, rfl⟩ := secondWhole
  refine ⟨firstCount + secondCount, ?_⟩
  rw [Nat.cast_add, add_div]

theorem IsNanoseconds.nonneg {number : ℚ} (whole : IsNanoseconds number) : 0 ≤ number := by
  obtain ⟨count, rfl⟩ := whole
  positivity

theorem IsNanoseconds.isPrecise {number : ℚ} (whole : IsNanoseconds number) (few : number < 10 ^ 19) :
    IsPrecise number := by
  obtain ⟨count, rfl⟩ := whole
  have digits : count < 10 ^ 28 := by
    rw [div_lt_iff₀ (by norm_num), ← pow_add] at few
    exact_mod_cast few
  refine ⟨count, -9, by rw [Nat.abs_cast]; exact_mod_cast digits, ?_⟩
  rw [div_eq_mul_inv]
  rfl

theorem isNanoseconds_natCast (seconds : ℕ) : IsNanoseconds seconds := by
  refine ⟨seconds * 10 ^ 9, ?_⟩
  rw [Nat.cast_mul, Nat.cast_pow, Nat.cast_ofNat, mul_div_cancel_right₀ _ (by norm_num)]

/-- The length of a part in seconds. -/
def WrittenPart.seconds (part : WrittenPart) : ℚ := part.numeral.number * part.name.seconds

/-- The length of some parts in seconds, together. -/
def length (parts : List WrittenPart) : ℚ := (parts.map WrittenPart.seconds).sum

theorem length_nonneg {parts : List WrittenPart} (whole : ∀ part ∈ parts, IsNanoseconds part.seconds) :
    0 ≤ length parts := by
  refine List.sum_nonneg fun seconds member => ?_
  obtain ⟨part, listed, rfl⟩ := List.mem_map.mp member
  exact (whole part listed).nonneg

/-- Parts of whole nanoseconds are added to such a sum without rounding. -/
theorem foldl_addPart {parts : List WrittenPart} (whole : ∀ part ∈ parts, IsNanoseconds part.seconds)
    {sum : ℚ} (sumWhole : IsNanoseconds sum) (few : sum + length parts < 10 ^ 19) :
    parts.foldl addPart sum = sum + length parts := by
  induction parts generalizing sum with
  | nil => rw [List.foldl_nil, length, List.map_nil, List.sum_nil, add_zero]
  | cons part others ih =>
      obtain ⟨first, remaining⟩ := List.forall_mem_cons.mp whole
      have split : length (part :: others) = part.seconds + length others := by
        rw [length, List.map_cons, List.sum_cons, length]
      have rest := length_nonneg remaining
      have before := sumWhole.nonneg
      rw [split, ← add_assoc] at few ⊢
      have next := sumWhole.add first
      have added : addPart sum part = sum + part.seconds := by
        rw [addPart, ← WrittenPart.seconds, (first.isPrecise (by linarith)).toPrecision_eq,
          (next.isPrecise (by linarith)).toPrecision_eq]
      rw [List.foldl_cons, added, ih remaining next few]

theorem total_eq_length {parts : List WrittenPart} (whole : ∀ part ∈ parts, IsNanoseconds part.seconds)
    (few : length parts < 10 ^ 19) : total parts = length parts := by
  have zero : IsNanoseconds 0 := by exact_mod_cast isNanoseconds_natCast 0
  rw [total, foldl_addPart whole zero (by rwa [zero_add]), zero_add]

theorem length_eq_of_perm {parts others : List WrittenPart} (perm : parts.Perm others) :
    length parts = length others :=
  (perm.map WrittenPart.seconds).sum_eq

/-! ### Texts of parts -/

variable {text : String} {parts : List WrittenPart}

/-- Whether what was read is a number without a minus sign. -/
def IsReadAs (read? : Option Decimal) (number : ℚ) : Prop :=
  ∃ read, read? = some read ∧ read.negative = false ∧ read.value = number

theorem inRange_of_seconds? (written : IsWritten (unsigned text) parts)
    (read : (seconds? (.text text)).isSome = true) : ∀ part ∈ parts, InRange part.numeral.number := by
  rw [seconds?, secondsOfText?_eq, unsignedSeconds?_of_parts written, Option.isSome_map] at read
  obtain ⟨_, sums⟩ := Option.isSome_iff_exists.mp read
  exact inRange_of_sumParts? sums

/-- The sign of a text is put on what is read behind it. -/
theorem seconds?_of_unsigned {number : ℚ} (read : IsReadAs (unsignedSeconds? (unsigned text)) number)
    (precise : IsPrecise number) :
    ∃ seconds, seconds? (.text text) = some seconds ∧ seconds.negative = hasMinus text ∧
      seconds.value = withMinus (hasMinus text) number := by
  obtain ⟨size, read, positive, rfl⟩ := read
  refine ⟨signFactor (hasMinus text) * size, ?_, ?_, ?_⟩
  · rw [seconds?, secondsOfText?_eq, read, Option.map_some]
  · rw [Decimal.negative_mul, positive, Bool.bne_false]
    rfl
  · rw [value_signFactor_mul, precise.toPrecision_eq]

theorem isReadAs_of_unsigned {number : ℚ} (minus : hasMinus text = false)
    (read : IsReadAs (unsignedSeconds? (unsigned text)) number) (precise : IsPrecise number) :
    IsReadAs (seconds? (.text text)) number := by
  have signed := seconds?_of_unsigned read precise
  rwa [minus] at signed

theorem isReadAs_total (written : IsWritten (unsigned text) parts)
    (inRange : ∀ part ∈ parts, InRange part.numeral.number)
    (whole : ∀ part ∈ parts, IsNanoseconds part.seconds) (few : length parts < 10 ^ 19) :
    IsReadAs (unsignedSeconds? (unsigned text)) (length parts) := by
  rw [← total_eq_length whole few]
  exact unsignedSeconds?_eq_some written inRange

theorem isPrecise_length (whole : ∀ part ∈ parts, IsNanoseconds part.seconds) (few : length parts < 10 ^ 19) :
    IsPrecise (length parts) :=
  total_eq_length whole few ▸ isPrecise_total parts

/-! ### Natural numbers as they are written -/

theorem inRange_natCast {number : ℕ} (few : number < 10 ^ 19) : InRange number := by
  rcases Nat.eq_zero_or_pos number with rfl | positive
  · exact .inl Nat.cast_zero
  · refine .inr ⟨?_, ?_⟩
    · rw [Nat.abs_cast]
      have one : (1 : ℚ) ≤ number := by exact_mod_cast positive
      exact le_trans (by norm_num) one
    · rw [Nat.abs_cast]
      exact_mod_cast few

/-- A natural number as it is written. -/
def writtenNat (number : ℕ) : WrittenDecimal := ⟨.absent, .ofNat number, none⟩

theorem decimal_writtenNat (number : ℕ) : (writtenNat number).decimal = ⟨false, number, 0⟩ := by
  have digits : (Numeral.ofNat number).digits = Nat.toDigits 10 number := List.append_nil _
  rw [WrittenDecimal.decimal, writtenNat, digits, digitsNumber_toDigits]
  rfl

theorem number_writtenNat (number : ℕ) : (writtenNat number).number = number := by
  change (Numeral.ofNat number).number * 10 ^ (0 : ℤ) = number
  rw [Numeral.number_ofNat, zpow_zero, mul_one]

theorem isWrittenIn_toDigits {number : ℕ} (few : number < 10 ^ 19) :
    (writtenNat number).IsWrittenIn (Nat.toDigits 10 number) := by
  have plain := Numeral.isPlain_ofNat number
  refine ⟨⟨plain.isWellFormed, nofun⟩, ?_, ?_⟩
  · have digits : digitCount number ≤ 19 := (Nat.length_toDigits_le_iff (by decide) (by decide)).mpr few
    rw [decimal_writtenNat]
    change (0 : ℤ) + digitCount number - 1 ≤ 999999999999999999 ∧ -1999999999999999997 ≤ (0 : ℤ)
    omega
  · have characters : (writtenNat number).characters = (Numeral.ofNat number).characters := List.append_nil _
    rw [← Numeral.characters_ofNat, characters, plain.stripped_characters]

theorem isReadAs_toDigits {number : ℕ} (few : number < 10 ^ 19) :
    IsReadAs (readNumber? (Nat.toDigits 10 number)) number := by
  have inRange : InRange (writtenNat number).number := number_writtenNat number ▸ inRange_natCast few
  have read := readNumber?_eq_some_iff.mpr ⟨writtenNat number, isWrittenIn_toDigits few, inRange, rfl⟩
  refine ⟨_, read, negative_accepted (by rw [decimal_writtenNat]), ?_⟩
  rw [value_accepted, WrittenDecimal.value_decimal, number_writtenNat]

/-! ### Forms of a number of seconds and nanoseconds -/

section Forms

variable {seconds nanos : ℕ}

theorem isReadAs_member {number : ℕ} (few : number < 10 ^ 19) :
    IsReadAs (memberNumber? (.integer number)) number := by
  have text : ((Tree.integer number).orElse (.integer 0)).asText = toString (number : ℤ) := by
    rw [Tree.orElse]
    split
    · next vacant =>
        have zero : number = 0 := by simpa [Tree.isVacant] using vacant
        rw [zero]
        rfl
    · rfl
  have digits : (toString (number : ℤ)).toList = Nat.toDigits 10 number := Nat.toList_repr
  rw [memberNumber?, text, digits]
  exact isReadAs_toDigits few

theorem isReadAs_object {members : List (String × Tree)} {whole fraction : ℚ}
    (secondsRead : IsReadAs (memberNumber? ((Tree.object members).member "seconds")) whole)
    (nanosRead : IsReadAs (memberNumber? ((Tree.object members).member "nanos")) fraction)
    (precise : IsPrecise (fraction / 10 ^ 9)) (sumPrecise : IsPrecise (whole + fraction / 10 ^ 9)) :
    IsReadAs (seconds? (.object members)) (whole + fraction / 10 ^ 9) := by
  obtain ⟨secondsRead, secondsFound, secondsPositive, rfl⟩ := secondsRead
  obtain ⟨nanosRead, nanosFound, nanosPositive, rfl⟩ := nanosRead
  have unit : TimeUnit.nanosecond.seconds.value = 1 / 10 ^ 9 := value_seconds .ns
  refine ⟨secondsRead + nanosRead * TimeUnit.nanosecond.seconds, ?_, ?_, ?_⟩
  · rw [seconds?, secondsFound, nanosFound]
    rfl
  · refine Decimal.negative_add secondsPositive ?_
    rw [Decimal.negative_mul, nanosPositive]
    rfl
  · rw [Decimal.value_add, Decimal.value_mul, unit, mul_one_div, precise.toPrecision_eq,
      sumPrecise.toPrecision_eq]

/-- The two parts that so many seconds and nanoseconds are written in. -/
def secondsAndNanos (seconds nanos : ℕ) : List WrittenPart := [⟨.ofNat seconds, .s⟩, ⟨.ofNat nanos, .ns⟩]

theorem length_secondsAndNanos (seconds nanos : ℕ) :
    length (secondsAndNanos seconds nanos) = seconds + nanos / 10 ^ 9 := by
  simp [length, secondsAndNanos, WrittenPart.seconds, UnitName.seconds, Numeral.number_ofNat,
    div_eq_mul_inv]

theorem isNanoseconds_nanos (nanos : ℕ) : IsNanoseconds (nanos / 10 ^ 9) := ⟨nanos, rfl⟩

theorem isNanoseconds_secondsAndNanos (seconds nanos : ℕ) :
    ∀ part ∈ secondsAndNanos seconds nanos, IsNanoseconds part.seconds := by
  simp only [secondsAndNanos, List.forall_mem_cons, List.not_mem_nil, false_imp_iff, implies_true, and_true,
    WrittenPart.seconds, UnitName.seconds, Numeral.number_ofNat, mul_one, mul_one_div]
  exact ⟨isNanoseconds_natCast seconds, isNanoseconds_nanos nanos⟩

theorem isWritten_secondsAndNanos (seconds nanos : ℕ) :
    hasMinus (toString seconds ++ "s" ++ toString nanos ++ "ns") = false ∧
      IsWritten (unsigned (toString seconds ++ "s" ++ toString nanos ++ "ns"))
        (secondsAndNanos seconds nanos) := by
  let before := (Numeral.ofNat seconds).characters ++ ('s' :: (Nat.toDigits 10 nanos ++ ['n']))
  have shape : (toString seconds ++ "s" ++ toString nanos ++ "ns").toList = before ++ ['s'] := by
    simp [before, String.toList_append, Numeral.characters_ofNat]
  have plain : BeginsPlain (before ++ ['s']) := by
    rw [List.append_assoc]
    exact beginsPlain_append (Numeral.isPlain_ofNat seconds) _
  obtain ⟨minus, rest⟩ : hasMinus (toString seconds ++ "s" ++ toString nanos ++ "ns") = false ∧
      unsigned (toString seconds ++ "s" ++ toString nanos ++ "ns") = before ++ ['s'] :=
    trimmed_of_signed shape plain (List.rdropWhile_concat_neg _ _ _ (by decide))
  refine ⟨minus, List.cons_ne_nil _ _, ?_, ?_⟩
  · simp only [secondsAndNanos, List.forall_mem_cons, List.not_mem_nil, false_imp_iff, implies_true, and_true]
    exact ⟨(Numeral.isPlain_ofNat seconds).isWellFormed, (Numeral.isPlain_ofNat nanos).isWellFormed⟩
  · rw [rest]
    simp [before, secondsAndNanos, WrittenPart.characters, UnitName.spelling, Numeral.characters_ofNat]

theorem isReadAs_parts (fewSeconds : seconds < 10 ^ 19) (fewNanos : nanos < 10 ^ 19)
    (few : (seconds + nanos / 10 ^ 9 : ℚ) < 10 ^ 19) :
    IsReadAs (seconds? (.text (toString seconds ++ "s" ++ toString nanos ++ "ns")))
      (seconds + nanos / 10 ^ 9) := by
  obtain ⟨minus, written⟩ := isWritten_secondsAndNanos seconds nanos
  have inRange : ∀ part ∈ secondsAndNanos seconds nanos, InRange part.numeral.number := by
    simp only [secondsAndNanos, List.forall_mem_cons, List.not_mem_nil, false_imp_iff, implies_true,
      and_true, Numeral.number_ofNat]
    exact ⟨inRange_natCast fewSeconds, inRange_natCast fewNanos⟩
  have whole := isNanoseconds_secondsAndNanos seconds nanos
  rw [← length_secondsAndNanos] at few ⊢
  exact isReadAs_of_unsigned minus (isReadAs_total written inRange whole few) (isPrecise_length whole few)

theorem isReadAs_integer (few : seconds < 10 ^ 19) : IsReadAs (seconds? (.integer seconds)) seconds := by
  have size : (⟨decide ((seconds : ℤ) < 0), (seconds : ℤ).natAbs, 0⟩ : Decimal) = ⟨false, seconds, 0⟩ := by
    simp
  have value : (⟨false, seconds, 0⟩ : Decimal).value = seconds := by
    rw [← decimal_writtenNat, WrittenDecimal.value_decimal, number_writtenNat]
  refine ⟨accepted ⟨false, seconds, 0⟩, ?_, negative_accepted rfl, ?_⟩
  · rw [seconds?, size, accept?_eq, value, if_pos (inRange_natCast few)]
  · rw [value_accepted, value]

theorem isReadAs_digits (few : seconds < 10 ^ 19) : IsReadAs (seconds? (.text (toString seconds))) seconds := by
  have shape : (toString seconds).toList = (Numeral.ofNat seconds).characters := by
    rw [Numeral.characters_ofNat]
    exact Nat.toList_repr
  have plain := Numeral.isPlain_ofNat seconds
  have bare := endsLikeNumber_of_isPlain plain
  obtain ⟨minus, rest⟩ : hasMinus (toString seconds) = false ∧
      unsigned (toString seconds) = (Numeral.ofNat seconds).characters :=
    trimmed_of_signed shape (beginsPlain_characters plain) (rdropWhile_of_endsLikeNumber bare)
  have precise : IsPrecise (seconds : ℚ) := (isNanoseconds_natCast seconds).isPrecise (by exact_mod_cast few)
  refine isReadAs_of_unsigned minus ?_ precise
  rw [rest, unsignedSeconds?, if_pos bare, Numeral.characters_ofNat]
  exact isReadAs_toDigits few

/-- The trees that so many seconds and nanoseconds can be given as. The two forms without a unit have no
place for nanoseconds. -/
inductive Spells (seconds nanos : ℕ) : Tree → Prop where
  | object {members : List (String × Tree)} :
      (Tree.object members).member "seconds" = .integer seconds →
      (Tree.object members).member "nanos" = .integer nanos → Spells seconds nanos (.object members)
  | parts : Spells seconds nanos (.text (toString seconds ++ "s" ++ toString nanos ++ "ns"))
  | integer : nanos = 0 → Spells seconds nanos (.integer seconds)
  | digits : nanos = 0 → Spells seconds nanos (.text (toString seconds))

/-- Every form is read as the number that it spells. -/
theorem Spells.isReadAs {tree : Tree} (spells : Spells seconds nanos tree) (fewSeconds : seconds < 10 ^ 19)
    (fewNanos : nanos < 10 ^ 19) (few : (seconds + nanos / 10 ^ 9 : ℚ) < 10 ^ 19) :
    IsReadAs (seconds? tree) (seconds + nanos / 10 ^ 9) := by
  cases spells with
  | object secondsMember nanosMember =>
      have fraction := isNanoseconds_nanos nanos
      have whole := (isNanoseconds_natCast seconds).add fraction
      have fewer : (nanos / 10 ^ 9 : ℚ) < 10 ^ 19 := (le_add_of_nonneg_left seconds.cast_nonneg).trans_lt few
      exact isReadAs_object (secondsMember ▸ isReadAs_member fewSeconds) (nanosMember ▸ isReadAs_member fewNanos)
        (fraction.isPrecise fewer) (whole.isPrecise few)
  | parts => exact isReadAs_parts fewSeconds fewNanos few
  | integer none =>
      rw [none, Nat.cast_zero, zero_div, add_zero]
      exact isReadAs_integer fewSeconds
  | digits none =>
      rw [none, Nat.cast_zero, zero_div, add_zero]
      exact isReadAs_digits fewSeconds

end Forms
end Duration
end MeshGauges
