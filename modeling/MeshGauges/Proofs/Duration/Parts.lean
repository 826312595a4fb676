import MeshGauges.Duration
import MeshGauges.Proofs.Number.Digits
import MeshGauges.Proofs.Number.Value
import Mathlib.Tactic.NormNum

/-! Durations that are written in parts.

A text of parts is a sequence of numerals, each with the name of a unit behind it. A text is split into
parts exactly when it is such a sequence, so no two sequences share a text. Its seconds are the sum of the
parts from the left, each product and each sum rounded; where a number is out of range there are none. -/

set_option autoImplicit false

namespace MeshGauges.Duration

open MeshGauges.Number MeshGauges.Text

/-! ### The grammar -/

/-- The names of the units. A microsecond has two, one of them with the micro sign. -/
inductive UnitName where
  | ns | us | microSign | ms | s | m | h

namespace UnitName

def spelling : UnitName → List Char
  | .ns => ['n', 's']
  | .us => ['u', 's']
  | .microSign => ['µ', 's']
  | .ms => ['m', 's']
  | .s => ['s']
  | .m => ['m']
  | .h => ['h']

/-- The length of the unit in seconds. -/
def seconds : UnitName → ℚ
  | .ns => 1 / 10 ^ 9
  | .us => 1 / 10 ^ 6
  | .microSign => 1 / 10 ^ 6
  | .ms => 1 / 10 ^ 3
  | .s => 1
  | .m => 60
  | .h => 3600

def unit : UnitName → TimeUnit
  | .ns => .nanosecond
  | .us => .microsecond
  | .microSign => .microsecond
  | .ms => .millisecond
  | .s => .second
  | .m => .minute
  | .h => .hour

end UnitName

/-- A part as it is written: a number with the name of a unit. -/
structure WrittenPart where
  numeral : Numeral
  name : UnitName

def WrittenPart.characters (part : WrittenPart) : List Char :=
  part.numeral.characters ++ part.name.spelling

/-- Whether a text is the sequence of some parts, at least one. -/
structure IsWritten (text : List Char) (parts : List WrittenPart) : Prop where
  some : parts ≠ []
  wellFormed : ∀ part ∈ parts, part.numeral.IsWellFormed
  joined : text = parts.flatMap WrittenPart.characters

/-- Zero, and the numbers whose leading digit stands between the places of a nano and a quintillion. -/
def InRange (number : ℚ) : Prop :=
  number = 0 ∨ (10 : ℚ) ^ (-9 : ℤ) ≤ |number| ∧ |number| < 10 ^ (19 : ℤ)

instance (number : ℚ) : Decidable (InRange number) := inferInstanceAs (Decidable (_ ∨ _))

theorem inRange_abs {number : ℚ} : InRange |number| ↔ InRange number := by
  rw [InRange, InRange, abs_eq_zero, abs_abs]

/-- The product of a number and its unit, rounded and added to a sum that is rounded again. -/
def addPart (sum : ℚ) (part : WrittenPart) : ℚ :=
  toPrecision (sum + toPrecision (part.numeral.number * part.name.seconds))

/-- The sum of some parts from the left. -/
def total (parts : List WrittenPart) : ℚ := parts.foldl addPart 0

/-! ### Reading a part -/

/-- What is read of a part. -/
def WrittenPart.part (part : WrittenPart) : Part :=
  ⟨part.numeral.digits.map digitOf, -(part.numeral.fraction.length : ℤ), part.name.unit⟩

/-- Whether a text goes on with a letter or not at all, as the name of a unit does. -/
def StopsNumeral (rest : List Char) : Prop :=
  ∀ character ∈ rest.head?, isDigit character = false ∧ character ≠ '.'

theorem UnitName.stopsNumeral (name : UnitName) (rest : List Char) :
    StopsNumeral (name.spelling ++ rest) := by
  intro character head
  cases name <;> obtain rfl := Option.some.inj head <;> decide

theorem takeUnit?_spelling (name : UnitName) {rest : List Char} (apart : rest.head? ≠ some 's') :
    takeUnit? (name.spelling ++ rest) = some (name.unit, rest) := by
  cases name with
  | m =>
      -- the minute is the one name that begins another one
      cases rest with
      | nil => rfl
      | cons first others =>
          have apart : first ≠ 's' := fun same => apart (congrArg some same)
          simp [UnitName.spelling, takeUnit?, apart, UnitName.unit]
  | _ => rfl

theorem takeUnit?_eq_some {text rest : List Char} {unit : TimeUnit}
    (taken : takeUnit? text = some (unit, rest)) :
    ∃ name : UnitName, text = name.spelling ++ rest ∧ name.unit = unit := by
  unfold takeUnit? at taken
  split at taken
  case h_1 => cases taken; exact ⟨.ns, rfl, rfl⟩
  case h_2 => cases taken; exact ⟨.us, rfl, rfl⟩
  case h_3 => cases taken; exact ⟨.microSign, rfl, rfl⟩
  case h_4 => cases taken; exact ⟨.ms, rfl, rfl⟩
  case h_5 => cases taken; exact ⟨.s, rfl, rfl⟩
  case h_6 => cases taken; exact ⟨.m, rfl, rfl⟩
  case h_7 => cases taken; exact ⟨.h, rfl, rfl⟩
  case h_8 => cases taken

theorem takePart?_characters {part : WrittenPart} (wellFormed : part.numeral.IsWellFormed)
    {rest : List Char} (apart : rest.head? ≠ some 's') :
    takePart? (part.characters ++ rest) = some (part.part, rest) := by
  have stops : part.numeral.StopsAt (part.name.spelling ++ rest) := by
    refine ⟨fun character head => (part.name.stopsNumeral rest character head).1, fun _ point => ?_⟩
    exact (part.name.stopsNumeral rest '.' point).2 rfl
  obtain ⟨whole, fraction⟩ := Numeral.take_characters wellFormed stops
  rw [WrittenPart.characters, List.append_assoc]
  simp only [takePart?, whole, fraction, Numeral.isEmpty_values wellFormed, Bool.false_eq_true,
    if_false, takeUnit?_spelling _ apart, Option.map_some, List.length_map]
  rw [WrittenPart.part, Numeral.digits, List.map_append]

theorem takePart?_eq_some {text rest : List Char} {part : Part}
    (taken : takePart? text = some (part, rest)) :
    ∃ written : WrittenPart, written.numeral.IsWellFormed ∧ text = written.characters ++ rest ∧
      written.part = part := by
  obtain ⟨numeral, split, whole, fraction, all⟩ := Numeral.taken text
  simp only [takePart?] at taken
  split at taken
  case isTrue => cases taken
  case isFalse digits =>
    obtain ⟨⟨unit, others⟩, named, same⟩ := Option.map_eq_some_iff.mp taken
    obtain ⟨name, spelled, rfl⟩ := takeUnit?_eq_some named
    cases same
    refine ⟨⟨numeral, name⟩, ⟨all, ?_⟩, ?_, ?_⟩
    · intro none
      obtain ⟨noWhole, noFraction⟩ := List.append_eq_nil_iff.mp none
      rw [whole, fraction, noWhole, noFraction] at digits
      exact digits rfl
    · rw [WrittenPart.characters, List.append_assoc, ← spelled]
      exact split
    · rw [WrittenPart.part, whole, fraction, Numeral.digits, List.map_append, List.length_map]

/-- A part begins with a digit or a point. -/
theorem head?_characters {part : WrittenPart} (wellFormed : part.numeral.IsWellFormed) (rest : List Char) :
    ∃ first, (part.characters ++ rest).head? = some first ∧ (isDigit first = true ∨ first = '.') := by
  have all := wellFormed.all
  have some := wellFormed.some
  obtain ⟨⟨whole, fraction?⟩, name⟩ := part
  cases whole with
  | cons first others => exact ⟨first, rfl, .inl (all first List.mem_cons_self)⟩
  | nil =>
      cases fraction? with
      | none => exact absurd rfl some
      | some fraction => exact ⟨'.', rfl, .inr rfl⟩

/-! ### Splitting a text into parts -/

theorem head?_flatMap_ne {parts : List WrittenPart} (wellFormed : ∀ part ∈ parts, part.numeral.IsWellFormed)
    {character : Char} (other : isDigit character = false ∧ character ≠ '.') :
    (parts.flatMap WrittenPart.characters).head? ≠ some character := by
  cases parts with
  | nil => nofun
  | cons part others =>
      obtain ⟨first, head, digit | point⟩ := head?_characters (wellFormed part List.mem_cons_self)
        (others.flatMap WrittenPart.characters)
      · rw [List.flatMap_cons, head]
        rintro ⟨⟩
        rw [digit] at other
        exact absurd other.1 (by decide)
      · rw [List.flatMap_cons, head]
        rintro ⟨⟩
        exact other.2 point

theorem splitParts?_flatMap {parts : List WrittenPart}
    (wellFormed : ∀ part ∈ parts, part.numeral.IsWellFormed) {fuel : ℕ} (enough : parts.length ≤ fuel) :
    splitParts? fuel (parts.flatMap WrittenPart.characters) = some (parts.map WrittenPart.part) := by
  induction parts generalizing fuel with
  | nil =>
      unfold splitParts?
      rfl
  | cons part others ih =>
      obtain ⟨first, remaining⟩ := List.forall_mem_cons.mp wellFormed
      cases fuel with
      | zero => exact absurd enough (Nat.not_succ_le_zero _)
      | succ fuel =>
          have few : others.length ≤ fuel := Nat.le_of_succ_le_succ enough
          have apart : (others.flatMap WrittenPart.characters).head? ≠ some 's' :=
            head?_flatMap_ne remaining (by decide)
          have taken := takePart?_characters first apart
          obtain ⟨head, opens, -⟩ := head?_characters first (others.flatMap WrittenPart.characters)
          rw [List.flatMap_cons]
          generalize part.characters ++ others.flatMap WrittenPart.characters = text at taken opens
          cases text with
          | nil => cases opens
          | cons _ _ => simp only [splitParts?, taken, ih remaining few, Option.map_some, List.map_cons]

theorem splitParts?_eq_some {fuel : ℕ} {text : List Char} {parts : List Part}
    (split : splitParts? fuel text = some parts) :
    ∃ written : List WrittenPart, (∀ part ∈ written, part.numeral.IsWellFormed) ∧
      text = written.flatMap WrittenPart.characters ∧ written.map WrittenPart.part = parts := by
  fun_induction splitParts? fuel text generalizing parts with
  | case1 =>
      cases split
      exact ⟨[], nofun, rfl, rfl⟩
  | case2 => cases split
  | case3 => cases split
  | case4 fuel text _ part rest taken ih =>
      obtain ⟨others, restSplit, rfl⟩ := Option.map_eq_some_iff.mp split
      obtain ⟨written, wellFormed, whole, rfl⟩ := takePart?_eq_some taken
      obtain ⟨remaining, restWellFormed, rfl, rfl⟩ := ih restSplit
      exact ⟨written :: remaining, List.forall_mem_cons.mpr ⟨wellFormed, restWellFormed⟩, whole, rfl⟩

theorem length_le_length_flatMap (parts : List WrittenPart) :
    parts.length ≤ (parts.flatMap WrittenPart.characters).length := by
  induction parts with
  | nil => exact le_refl _
  | cons part others ih =>
      have named : 1 ≤ part.name.spelling.length := by cases part.name <;> decide
      rw [List.flatMap_cons, List.length_append, WrittenPart.characters, List.length_append,
        List.length_cons]
      omega

/-- A text is split exactly when it is a sequence of parts. -/
theorem parts?_eq_some_iff {text : List Char} {parts : List Part} :
    parts? text = some parts ↔ ∃ written, IsWritten text written ∧ written.map WrittenPart.part = parts := by
  rw [parts?]
  constructor
  · intro found
    split at found
    · cases found
    · next some =>
        obtain ⟨written, wellFormed, joined, same⟩ := splitParts?_eq_some found
        refine ⟨written, ⟨?_, wellFormed, joined⟩, same⟩
        rintro rfl
        rw [joined] at some
        exact some rfl
  · rintro ⟨written, ⟨some, wellFormed, rfl⟩, rfl⟩
    have nonempty : (written.flatMap WrittenPart.characters).isEmpty = false := by
      have positive := List.length_pos_iff.mpr some
      have long := length_le_length_flatMap written
      rw [List.isEmpty_eq_false_iff, ← List.length_pos_iff]
      omega
    rw [nonempty, if_neg Bool.false_ne_true]
    exact splitParts?_flatMap wellFormed (length_le_length_flatMap written)

/-- What is written in parts ends with the name of a unit. -/
theorem IsWritten.endsLikeNumber {text : List Char} {parts : List WrittenPart}
    (written : IsWritten text parts) : endsLikeNumber text = false := by
  obtain ⟨some, -, rfl⟩ := written
  obtain ⟨before, last, rfl⟩ := (List.eq_nil_or_concat' parts).resolve_left some
  rw [List.flatMap_append, List.flatMap_singleton, WrittenPart.characters, ← List.append_assoc,
    Duration.endsLikeNumber]
  cases last.name <;> simp [UnitName.spelling] <;> decide

/-! ### Numbers in range -/

/-- A number as it is accepted: a zero loses its sign and its exponent. -/
def accepted (number : Decimal) : Decimal := if number.isZero then .zero else number

theorem value_accepted (number : Decimal) : (accepted number).value = number.value := by
  rw [accepted]
  split
  · next zero =>
      have zero : number.coefficient = 0 := by simpa [Decimal.isZero] using zero
      rw [Decimal.value_eq_zero_iff.mpr zero]
      exact Decimal.value_eq_zero_iff.mpr rfl
  · rfl

theorem negative_accepted {number : Decimal} (positive : number.negative = false) :
    (accepted number).negative = false := by
  rw [accepted]
  split
  · rfl
  · exact positive

theorem accept?_eq (number : Decimal) :
    accept? number = if InRange number.value then some (accepted number) else none := by
  rw [accept?, accepted]
  by_cases zero : number.isZero = true
  · have inRange : InRange number.value := by
      refine .inl (Decimal.value_eq_zero_iff.mpr ?_)
      simpa [Decimal.isZero] using zero
    rw [if_pos zero, if_pos zero, if_pos inRange]
  · have nonzero : number.coefficient ≠ 0 := by simpa [Decimal.isZero] using zero
    have some : number.value ≠ 0 := mt Decimal.value_eq_zero_iff.mp nonzero
    have size : 0 < |number.value| := abs_pos.mpr some
    have least : leastLeadingExponent ≤ number.adjustedExponent ↔ (10 : ℚ) ^ (-9 : ℤ) ≤ |number.value| := by
      rw [← Decimal.log_abs_value nonzero, leastLeadingExponent,
        ← Int.zpow_le_iff_le_log (by norm_num) size, Nat.cast_ofNat]
    have greatest : number.adjustedExponent ≤ greatestLeadingExponent ↔
        |number.value| < (10 : ℚ) ^ (19 : ℤ) := by
      rw [← Decimal.log_abs_value nonzero, greatestLeadingExponent, ← Int.lt_add_one_iff,
        ← Int.lt_zpow_iff_log_lt (by norm_num) size, Nat.cast_ofNat]
      rfl
    have inRange_iff : InRange number.value ↔ (10 : ℚ) ^ (-9 : ℤ) ≤ |number.value| ∧
        |number.value| < 10 ^ (19 : ℤ) := or_iff_right some
    rw [if_neg zero, if_neg zero]
    simp only [Bool.and_eq_true, decide_eq_true_eq, least, greatest, inRange_iff]

/-! ### The sum of the parts -/

theorem value_number (part : WrittenPart) : part.part.number.value = part.numeral.number := by
  rw [Decimal.value, Decimal.signedCoefficient, Part.number, WrittenPart.part, digitsValue_map_digitOf,
    Numeral.number, zpow_neg, zpow_natCast, div_eq_mul_inv]
  rfl

theorem value_seconds (name : UnitName) : name.unit.seconds.value = name.seconds := by
  cases name <;> norm_num [UnitName.unit, UnitName.seconds, TimeUnit.seconds, Decimal.value,
    Decimal.signedCoefficient]

theorem negative_seconds (unit : TimeUnit) : unit.seconds.negative = false := by
  cases unit <;> rfl

theorem sumParts?_eq_some {parts : List WrittenPart}
    (inRange : ∀ part ∈ parts, InRange part.numeral.number) {sum : Decimal}
    (positive : sum.negative = false) :
    ∃ result, sumParts? sum (parts.map WrittenPart.part) = some result ∧ result.negative = false ∧
      result.value = parts.foldl addPart sum.value := by
  induction parts generalizing sum with
  | nil => exact ⟨sum, rfl, positive, rfl⟩
  | cons part others ih =>
      obtain ⟨first, remaining⟩ := List.forall_mem_cons.mp inRange
      have accepts : accept? part.part.number = some (accepted part.part.number) := by
        rw [accept?_eq, value_number, if_pos first]
      have unsigned : (accepted part.part.number * part.part.unit.seconds).negative = false := by
        rw [Decimal.negative_mul, negative_accepted rfl, negative_seconds]
        rfl
      have added : (sum + accepted part.part.number * part.part.unit.seconds).value =
          addPart sum.value part := by
        rw [Decimal.value_add, Decimal.value_mul, value_accepted, value_number, addPart,
          ← value_seconds]
        rfl
      obtain ⟨result, sums, notNegative, value⟩ := ih remaining (Decimal.negative_add positive unsigned)
      refine ⟨result, ?_, notNegative, ?_⟩
      · rw [List.map_cons, sumParts?, accepts]
        exact sums
      · rw [List.foldl_cons, ← added]
        exact value

theorem sumParts?_eq_none {parts : List WrittenPart}
    (outOfRange : ∃ part ∈ parts, ¬ InRange part.numeral.number) (sum : Decimal) :
    sumParts? sum (parts.map WrittenPart.part) = none := by
  induction parts generalizing sum with
  | nil =>
      obtain ⟨_, member, _⟩ := outOfRange
      cases member
  | cons part others ih =>
      rw [List.map_cons, sumParts?]
      by_cases inRange : InRange part.numeral.number
      · obtain ⟨other, member, outside⟩ := outOfRange
        rcases List.mem_cons.mp member with rfl | member
        · exact absurd inRange outside
        · rw [accept?_eq, value_number, if_pos inRange]
          exact ih ⟨other, member, outside⟩ _
      · rw [accept?_eq, value_number, if_neg inRange]
        rfl

theorem inRange_of_sumParts? {parts : List WrittenPart} {sum result : Decimal}
    (sums : sumParts? sum (parts.map WrittenPart.part) = some result) :
    ∀ part ∈ parts, InRange part.numeral.number := by
  by_contra! outOfRange
  rw [sumParts?_eq_none outOfRange] at sums
  cases sums

theorem isPrecise_total (parts : List WrittenPart) : IsPrecise (total parts) := by
  induction parts using List.reverseRecOn with
  | nil => exact ⟨0, 0, by norm_num, by norm_num [total]⟩
  | append_singleton parts last _ =>
      rw [total, List.foldl_append]
      exact isPrecise_toPrecision _

/-! ### Durations in parts -/

/-- Whether a duration has a minus sign. -/
def hasMinus (text : String) : Bool := (splitSign (trimWhere isBlank text.toList)).1

/-- The text of a duration without the white space around it and without its sign. -/
def unsigned (text : String) : List Char := (splitSign (trimWhere isBlank text.toList)).2

/-- A number with the sign of a duration. -/
def withMinus (negative : Bool) (number : ℚ) : ℚ := if negative then -number else number

theorem secondsOfText?_eq (text : String) :
    secondsOfText? text = (unsignedSeconds? (unsigned text)).map (signFactor (hasMinus text) * ·) := rfl

theorem value_signFactor_mul (negative : Bool) (number : Decimal) :
    (signFactor negative * number).value = withMinus negative (toPrecision number.value) := by
  rw [Decimal.value_mul]
  cases negative with
  | false =>
      have one : (signFactor false).value = 1 := by
        norm_num [signFactor, Decimal.value, Decimal.signedCoefficient]
      rw [one, one_mul]
      rfl
  | true =>
      have minusOne : (signFactor true).value = -1 := by
        norm_num [signFactor, Decimal.value, Decimal.signedCoefficient]
      rw [minusOne, neg_one_mul, toPrecision_neg]
      rfl

theorem unsignedSeconds?_of_parts {text : List Char} {parts : List WrittenPart}
    (written : IsWritten text parts) :
    unsignedSeconds? text = sumParts? .zero (parts.map WrittenPart.part) := by
  have split := parts?_eq_some_iff.mpr ⟨parts, written, rfl⟩
  rw [unsignedSeconds?, written.endsLikeNumber, if_neg Bool.false_ne_true, split, Option.bind_some]

theorem unsignedSeconds?_eq_some {text : List Char} {parts : List WrittenPart}
    (written : IsWritten text parts) (inRange : ∀ part ∈ parts, InRange part.numeral.number) :
    ∃ seconds, unsignedSeconds? text = some seconds ∧ seconds.negative = false ∧
      seconds.value = total parts := by
  have zero : Decimal.zero.value = 0 := Decimal.value_eq_zero_iff.mpr rfl
  rw [unsignedSeconds?_of_parts written, total, ← zero]
  exact sumParts?_eq_some inRange rfl

theorem unsignedSeconds?_eq_none {text : List Char} (named : endsLikeNumber text = false)
    (unwritten : ¬ ∃ parts, IsWritten text parts ∧ ∀ part ∈ parts, InRange part.numeral.number) :
    unsignedSeconds? text = none := by
  cases split : parts? text with
  | none => rw [unsignedSeconds?, named, if_neg Bool.false_ne_true, split, Option.bind_none]
  | some parts =>
      obtain ⟨written, isWritten, rfl⟩ := parts?_eq_some_iff.mp split
      rw [unsignedSeconds?_of_parts isWritten]
      refine sumParts?_eq_none ?_ _
      by_contra! inRange
      exact unwritten ⟨written, isWritten, inRange⟩

/-- Nothing but a digit or a point begins a text of parts. -/
theorem unsignedSeconds?_eq_none_of_head {first : Char} {rest : List Char}
    (other : isDigit first = false ∧ first ≠ '.') (named : endsLikeNumber (first :: rest) = false) :
    unsignedSeconds? (first :: rest) = none := by
  refine unsignedSeconds?_eq_none named ?_
  rintro ⟨parts, ⟨-, wellFormed, joined⟩, -⟩
  exact head?_flatMap_ne wellFormed other (joined ▸ rfl)

theorem endsLikeNumber_eq_false_iff {text : List Char} :
    endsLikeNumber text = false ↔ ∀ last ∈ text.getLast?, isDigit last = false ∧ last ≠ '.' := by
  rw [endsLikeNumber]
  cases text.getLast? <;> simp

/-- A text that is written in parts with numbers in range is read as their sum with the sign of the text.
Any other text is not read, unless it ends like a number. -/
theorem seconds_of_parts (text : String) :
    (∀ parts, IsWritten (unsigned text) parts → (∀ part ∈ parts, InRange part.numeral.number) →
      ∃ seconds, seconds? (.text text) = some seconds ∧ seconds.negative = hasMinus text ∧
        seconds.value = withMinus (hasMinus text) (total parts)) ∧
    ((∀ last ∈ (unsigned text).getLast?, isDigit last = false ∧ last ≠ '.') →
      (¬ ∃ parts, IsWritten (unsigned text) parts ∧ ∀ part ∈ parts, InRange part.numeral.number) →
      seconds? (.text text) = none) := by
  constructor
  · intro parts written inRange
    obtain ⟨seconds, read, positive, value⟩ := unsignedSeconds?_eq_some written inRange
    refine ⟨signFactor (hasMinus text) * seconds, ?_, ?_, ?_⟩
    · rw [seconds?, secondsOfText?_eq, read, Option.map_some]
    · rw [Decimal.negative_mul, positive, Bool.bne_false]
      rfl
    · rw [value_signFactor_mul, value, (isPrecise_total parts).toPrecision_eq]
  · intro letter unwritten
    have named := endsLikeNumber_eq_false_iff.mpr letter
    rw [seconds?, secondsOfText?_eq, unsignedSeconds?_eq_none named unwritten, Option.map_none]

namespace MixedParts

def text : String := " -1.5h٣m.5µs\n"

/-- Digits of two scripts, with a point among them, without one, and behind one. -/
def parts : List WrittenPart :=
  [⟨⟨['1'], some ['5']⟩, .h⟩, ⟨⟨['٣'], none⟩, .m⟩, ⟨⟨[], some ['5']⟩, .microSign⟩]

def parted : String := "1h 30m"

theorem isWritten_parts : IsWritten (unsigned text) parts := by
  refine ⟨nofun, ?_, by decide⟩
  simp only [parts, List.forall_mem_cons, List.not_mem_nil, false_imp_iff, implies_true, and_true]
  exact ⟨⟨List.all_eq_true.mp (by decide), nofun⟩, ⟨List.all_eq_true.mp (by decide), nofun⟩,
    ⟨List.all_eq_true.mp (by decide), nofun⟩⟩

theorem inRange_parts : ∀ part ∈ parts, InRange part.numeral.number := by
  simp only [parts, List.forall_mem_cons, List.not_mem_nil, false_imp_iff, implies_true, and_true]
  decide +kernel

theorem not_isWritten_parted : ¬ ∃ parts, IsWritten (unsigned parted) parts := by
  rintro ⟨parts, written⟩
  have none : parts? (unsigned parted) = none := by decide
  rw [parts?_eq_some_iff.mpr ⟨parts, written, rfl⟩] at none
  cases none

/-- The parts of the first text are summed, the second one has a gap. -/
theorem sum_of_parts :
    (IsWritten (unsigned text) parts ∧ (∀ part ∈ parts, InRange part.numeral.number) ∧
      ∃ seconds, seconds? (.text text) = some seconds ∧ seconds.negative = true ∧
        seconds.value = -(5580 + 5 / 10 ^ 7)) ∧
    ((∀ last ∈ (unsigned parted).getLast?, isDigit last = false ∧ last ≠ '.') ∧
      (¬ ∃ parts, IsWritten (unsigned parted) parts ∧ ∀ part ∈ parts, InRange part.numeral.number) ∧
      seconds? (.text parted) = none) := by
  have letter : ∀ last ∈ (unsigned parted).getLast?, isDigit last = false ∧ last ≠ '.' :=
    endsLikeNumber_eq_false_iff.mp (by decide)
  have gap : ¬ ∃ parts, IsWritten (unsigned parted) parts ∧
      ∀ part ∈ parts, InRange part.numeral.number :=
    fun ⟨parts, written, _⟩ => not_isWritten_parted ⟨parts, written⟩
  have sum : total parts = 5580 + 5 / 10 ^ 7 := by decide +kernel
  obtain ⟨seconds, read, negative, value⟩ :=
    (seconds_of_parts text).1 parts isWritten_parts inRange_parts
  refine ⟨⟨isWritten_parts, inRange_parts, seconds, read, negative, ?_⟩,
    letter, gap, (seconds_of_parts parted).2 letter gap⟩
  rw [value, sum]
  rfl

end MixedParts
end MeshGauges.Duration
