import MeshGauges.Proofs.Duration.Parts
import MeshGauges.Proofs.Number.Numeral

/-! Signs of durations.

One sign may stand in front of a duration, and a minus sign negates it. Behind the sign of a text of parts
there is no room for anything but the first part. A bare number is left to the reader of numbers, which
takes white space and a sign of its own: two signs in front of a bare number are both taken. -/

set_option autoImplicit false

namespace MeshGauges

namespace Duration

open MeshGauges.Number MeshGauges.Text

def IsSign (character : Char) : Prop := character = '+' ∨ character = '-'

/-- Whether a text begins with neither a sign nor white space. -/
def BeginsPlain (characters : List Char) : Prop :=
  ∀ first ∈ characters.head?, ¬ IsSign first ∧ isBlank first = false

theorem isBlank_of_isSign {sign : Char} (isSign : IsSign sign) : isBlank sign = false := by
  rcases isSign with rfl | rfl <;> decide

theorem splitSign_of_isSign {sign : Char} (isSign : IsSign sign) (rest : List Char) :
    splitSign (sign :: rest) = (decide (sign = '-'), rest) := by
  rcases isSign with rfl | rfl <;> rfl

theorem splitSign_of_beginsPlain {characters : List Char}
    (plain : ∀ first ∈ characters.head?, ¬ IsSign first) : splitSign characters = (false, characters) := by
  cases characters with
  | nil => rfl
  | cons first rest =>
      have noSign := plain first rfl
      exact splitSign_cons (fun minus => noSign (.inr minus)) (fun plus => noSign (.inl plus)) rest

theorem head?_rdropWhile {discards : Char → Bool} {characters : List Char} {first : Char}
    (head : first ∈ (characters.rdropWhile discards).head?) : first ∈ characters.head? := by
  obtain ⟨rest, split⟩ := characters.rdropWhile_prefix discards
  rw [← split, List.head?_append, Option.mem_def.mp head]
  rfl

theorem trimmed_of_beginsPlain {text : String} (plain : BeginsPlain text.toList) :
    hasMinus text = false ∧ unsigned text = text.toList.rdropWhile isBlank := by
  have trimmed := trimWhere_eq_rdropWhile fun first head => (plain first head).2
  have split : splitSign (text.toList.rdropWhile isBlank) = (false, text.toList.rdropWhile isBlank) :=
    splitSign_of_beginsPlain fun first head => (plain first (head?_rdropWhile head)).1
  rw [hasMinus, unsigned, trimmed, split]
  exact ⟨rfl, rfl⟩

theorem trimmed_of_isSign {text : String} {sign : Char} {rest : List Char} (isSign : IsSign sign)
    (begins : text.toList = sign :: rest) :
    hasMinus text = decide (sign = '-') ∧ unsigned text = rest.rdropWhile isBlank := by
  have kept := isBlank_of_isSign isSign
  have trimmed : trimWhere isBlank text.toList = sign :: rest.rdropWhile isBlank := by
    rw [begins, trimWhere_eq_rdropWhile fun first head => Option.some.inj head ▸ kept, rdropWhile_cons kept]
  rw [hasMinus, unsigned, trimmed, splitSign_of_isSign isSign]
  exact ⟨rfl, rfl⟩

/-- A sign in front of a text changes nothing but the sign of its seconds. -/
theorem seconds?_of_isSign {text signed : String} {sign : Char} (isSign : IsSign sign)
    (plain : BeginsPlain text.toList) (begins : signed.toList = sign :: text.toList) :
    seconds? (.text signed) =
      (unsignedSeconds? (unsigned text)).map (signFactor (decide (sign = '-')) * ·) := by
  obtain ⟨minus, rest⟩ := trimmed_of_isSign isSign begins
  rw [seconds?, secondsOfText?_eq, minus, rest, (trimmed_of_beginsPlain plain).2]

theorem seconds?_of_beginsPlain {text : String} (plain : BeginsPlain text.toList) :
    seconds? (.text text) = (unsignedSeconds? (unsigned text)).map (signFactor false * ·) := by
  rw [seconds?, secondsOfText?_eq, (trimmed_of_beginsPlain plain).1]

theorem map_value_signFactor (seconds? : Option Decimal) :
    (seconds?.map (signFactor true * ·)).map Decimal.value =
      (seconds?.map (signFactor false * ·)).map fun seconds => -seconds.value := by
  rw [Option.map_map, Option.map_map]
  refine Option.map_congr fun seconds _ => ?_
  rw [Function.comp, Function.comp, value_signFactor_mul, value_signFactor_mul]
  rfl

/-! ### Bare numbers -/

theorem negative_of_scanDecimal? {digits : List Char} {number : Decimal}
    (scanned : scanDecimal? digits = some number) : number.negative = false := by
  obtain ⟨found, -⟩ := Option.filter_eq_some_iff.mp scanned
  obtain ⟨_, _, rfl⟩ := Option.map_eq_some_iff.mp found
  rfl

/-- What is accepted of a number does not depend on its sign, except for the sign itself. -/
theorem map_value_accept? {number : Decimal} (positive : number.negative = false) (negative : Bool) :
    (accept? { number with negative := negative }).map Decimal.value =
      (accept? number).map fun accepted => withMinus negative accepted.value := by
  have signed : ({ number with negative := negative } : Decimal).value = withMinus negative number.value := by
    cases negative with
    | false =>
        have same : ({ number with negative := false } : Decimal) = number := by rw [← positive]
        rw [same]
        rfl
    | true =>
        rw [Decimal.value_of_negative rfl, Decimal.abs_value, Decimal.value_of_not_negative positive,
          Decimal.abs_value]
        rfl
  have size : InRange (withMinus negative number.value) ↔ InRange number.value := by
    cases negative with
    | false => rfl
    | true => simp only [InRange, withMinus, if_true, neg_eq_zero, abs_neg]
  rw [accept?_eq, accept?_eq, signed]
  simp only [size]
  split
  · rw [Option.map_some, Option.map_some, value_accepted, value_accepted, signed]
  · rfl

/-- The reader of numbers takes a sign of its own. -/
theorem map_value_readNumber? {sign : Char} (isSign : IsSign sign) {rest : List Char}
    (plain : BeginsPlain rest) (noSeparator : rest.head? ≠ some '_') :
    (readNumber? (sign :: rest)).map Decimal.value =
      (readNumber? rest).map fun number => withMinus (decide (sign = '-')) number.value := by
  have kept := isBlank_of_isSign isSign
  have noUnderscore : sign ≠ '_' := by rcases isSign with rfl | rfl <;> decide
  have trimmed := trimWhere_eq_rdropWhile fun first head => (plain first head).2
  have signTrimmed : trimWhere isBlank (sign :: rest) = sign :: rest.rdropWhile isBlank := by
    rw [trimWhere_eq_rdropWhile fun first head => Option.some.inj head ▸ kept, rdropWhile_cons kept]
  have digits : splitSign ((trimWhere isBlank rest).filter (· ≠ '_')) =
      (false, (rest.rdropWhile isBlank).filter (· ≠ '_')) := by
    rw [trimmed]
    refine splitSign_of_beginsPlain fun first head => ?_
    cases remaining : rest.rdropWhile isBlank with
    | nil =>
        rw [remaining] at head
        cases head
    | cons opening others =>
        have opens : opening ∈ rest.head? := head?_rdropWhile (by rw [remaining]; rfl)
        have noUnderscore : opening ≠ '_' := fun same => noSeparator (same ▸ opens)
        rw [remaining, List.filter_cons_of_pos (by simpa using noUnderscore)] at head
        obtain rfl := Option.some.inj head
        exact (plain opening opens).1
  have signDigits : splitSign ((trimWhere isBlank (sign :: rest)).filter (· ≠ '_')) =
      (decide (sign = '-'), (rest.rdropWhile isBlank).filter (· ≠ '_')) := by
    rw [signTrimmed, List.filter_cons_of_pos (by simpa using noUnderscore), splitSign_of_isSign isSign]
  rw [readNumber?, readNumber?, readDecimal?_of_splitSign digits, readDecimal?_of_splitSign signDigits]
  cases scanned : scanDecimal? ((rest.rdropWhile isBlank).filter (· ≠ '_')) with
  | none => rfl
  | some number =>
      have positive := negative_of_scanDecimal? scanned
      have same : ({ number with negative := false } : Decimal) = number := by rw [← positive]
      rw [Option.map_some, Option.map_some, Option.bind_some, Option.bind_some, same]
      exact map_value_accept? positive _

theorem withMinus_toPrecision (negative : Bool) (number : ℚ) :
    toPrecision (withMinus negative number) = withMinus negative (toPrecision number) := by
  cases negative with
  | false => rfl
  | true => exact toPrecision_neg number

/-- Two signs in front of a bare number are both taken. -/
theorem map_value_of_two_signs {text signed : String} {sign second : Char} (isSign : IsSign sign)
    (isSecond : IsSign second) (plain : BeginsPlain text.toList) (noSeparator : text.toList.head? ≠ some '_')
    (bare : endsLikeNumber (unsigned text) = true) (begins : signed.toList = sign :: second :: text.toList) :
    (seconds? (.text signed)).map Decimal.value = (seconds? (.text text)).map fun seconds =>
      withMinus (decide (sign = '-')) (withMinus (decide (second = '-')) seconds.value) := by
  obtain ⟨minus, remaining⟩ := trimmed_of_isSign isSign begins
  obtain ⟨-, rest⟩ := trimmed_of_beginsPlain plain
  rw [rdropWhile_cons (isBlank_of_isSign isSecond), ← rest] at remaining
  have bareSigned : endsLikeNumber (second :: unsigned text) = true := by
    rw [endsLikeNumber] at bare ⊢
    cases ends : (unsigned text).getLast? with
    | none => rw [ends] at bare; cases bare
    | some last => rwa [List.getLast?_cons, ends, Option.getD_some, ← ends]
  have begins : BeginsPlain (unsigned text) := fun first head => plain first (head?_rdropWhile (rest ▸ head))
  have separated : (unsigned text).head? ≠ some '_' := fun head =>
    noSeparator (head?_rdropWhile (rest ▸ Option.mem_def.mpr head))
  have number := map_value_readNumber? isSecond begins separated
  have values : ∀ negative (number? : Option Decimal),
      (number?.map (signFactor negative * ·)).map Decimal.value =
        (number?.map Decimal.value).map fun value => withMinus negative (toPrecision value) := by
    intro negative number?
    rw [Option.map_map, Option.map_map]
    exact Option.map_congr fun number _ => value_signFactor_mul negative number
  rw [seconds?_of_beginsPlain plain, seconds?, secondsOfText?_eq, minus, remaining, unsignedSeconds?,
    unsignedSeconds?, if_pos bareSigned, if_pos bare, values, number, Option.map_map, Option.map_map]
  refine Option.map_congr fun number _ => ?_
  rw [Function.comp, Function.comp, withMinus_toPrecision, value_signFactor_mul]
  rfl

theorem rdropWhile_of_endsLikeNumber {characters : List Char} (bare : endsLikeNumber characters = true) :
    characters.rdropWhile isBlank = characters := by
  rcases List.eq_nil_or_concat' characters with rfl | ⟨before, last, rfl⟩
  · rfl
  · refine List.rdropWhile_concat_neg _ _ _ ?_
    rw [endsLikeNumber, List.getLast?_concat] at bare
    simp only [Bool.or_eq_true, decide_eq_true_eq] at bare
    rcases bare with digit | rfl
    · rw [isBlank_of_isDigit digit]
      exact Bool.false_ne_true
    · decide

/-- White space between the sign and a bare number is left out. -/
theorem seconds?_of_blanks {text signed spaced : String} {sign : Char} {blanks : List Char}
    (isSign : IsSign sign) (all : ∀ character ∈ blanks, isBlank character = true)
    (bare : endsLikeNumber text.toList = true) (begins : signed.toList = sign :: text.toList)
    (spacedBegins : spaced.toList = sign :: (blanks ++ text.toList)) :
    seconds? (.text spaced) = seconds? (.text signed) := by
  have bareSpaced : endsLikeNumber (blanks ++ text.toList) = true := by
    rw [endsLikeNumber] at bare ⊢
    cases ends : text.toList.getLast? with
    | none => rw [ends] at bare; cases bare
    | some last => rwa [List.getLast?_append, ends, Option.some_or, ← ends]
  have number : readNumber? (blanks ++ text.toList) = readNumber? text.toList := by
    have trimmed : trimWhere isBlank (blanks ++ text.toList) = trimWhere isBlank text.toList := by
      rw [trimWhere, trimWhere, List.dropWhile_append_of_pos all]
    rw [readNumber?, readNumber?, readDecimal?, readDecimal?, trimmed]
  obtain ⟨minus, rest⟩ := trimmed_of_isSign isSign begins
  obtain ⟨spacedMinus, spacedRest⟩ := trimmed_of_isSign isSign spacedBegins
  rw [rdropWhile_of_endsLikeNumber bare] at rest
  rw [rdropWhile_of_endsLikeNumber bareSpaced] at spacedRest
  rw [seconds?, seconds?, secondsOfText?_eq, secondsOfText?_eq, minus, spacedMinus, rest, spacedRest,
    unsignedSeconds?, unsignedSeconds?, if_pos bare, if_pos bareSpaced, number]

/-! ### The rules of signs -/

/-- Whether what follows a sign is a bare number in range. The reader of numbers takes white space around
it and a sign of its own. -/
def IsBareNumber (characters : List Char) : Prop :=
  endsLikeNumber characters = true ∧ (readNumber? characters).isSome = true

/-- What the signs in front of a duration do. -/
structure SignRules (text : String) : Prop where
  /-- A text with another sign or white space behind its sign is refused unless a bare number follows. -/
  refused : ∀ (sign next : Char) (rest : List Char),
    trimWhere isBlank text.toList = sign :: next :: rest → IsSign sign → IsSign next ∨ isBlank next = true →
    (seconds? (.text text) = none ↔ ¬ IsBareNumber (next :: rest))
  negated : BeginsPlain text.toList →
    (seconds? (.text ("-" ++ text))).map Decimal.value =
      (seconds? (.text text)).map fun seconds => -seconds.value
  kept : BeginsPlain text.toList → seconds? (.text ("+" ++ text)) = seconds? (.text text)
  /-- Of two signs in front of a bare number both are taken. -/
  multiplied : ∀ sign second : Char, BeginsPlain text.toList → text.toList.head? ≠ some '_' →
    endsLikeNumber text.toList = true → IsSign sign → IsSign second →
    (seconds? (.text (String.ofList (sign :: second :: text.toList)))).map Decimal.value =
      (seconds? (.text text)).map fun seconds =>
        withMinus (decide (sign = '-')) (withMinus (decide (second = '-')) seconds.value)
  /-- White space between a sign and a bare number is left out. -/
  spaced : ∀ (sign : Char) (blanks : List Char), endsLikeNumber text.toList = true → IsSign sign →
    (∀ character ∈ blanks, isBlank character = true) →
    seconds? (.text (String.ofList (sign :: (blanks ++ text.toList)))) =
      seconds? (.text (String.ofList (sign :: text.toList)))

theorem isDigit_of_follows {next : Char} (follows : IsSign next ∨ isBlank next = true) :
    isDigit next = false ∧ next ≠ '.' := by
  rcases follows with (rfl | rfl) | blank
  · decide
  · decide
  · refine ⟨?_, by rintro rfl; exact absurd blank (by decide)⟩
    by_contra digit
    rw [isBlank_of_isDigit (by simpa using digit)] at blank
    cases blank

/-- Where no part begins, a text stands for seconds only as a bare number. -/
theorem unsignedSeconds?_eq_none_iff {first : Char} {rest : List Char}
    (other : isDigit first = false ∧ first ≠ '.') :
    unsignedSeconds? (first :: rest) = none ↔ ¬ IsBareNumber (first :: rest) := by
  rw [IsBareNumber]
  cases bare : endsLikeNumber (first :: rest) with
  | false => simp [unsignedSeconds?_eq_none_of_head other bare]
  | true => simp [unsignedSeconds?, bare]

/-- A duration in parts takes one sign, which only changes the sign of its seconds. A bare number takes a
second sign and white space before it. -/
theorem signRules (text : String) : SignRules text := by
  refine ⟨?refused, ?negated, ?kept, ?multiplied, ?spaced⟩
  case refused =>
    intro sign next rest trimmed isSign follows
    have rest : unsigned text = next :: rest := by rw [unsigned, trimmed, splitSign_of_isSign isSign]
    rw [seconds?, secondsOfText?_eq, rest, Option.map_eq_none_iff]
    exact unsignedSeconds?_eq_none_iff (isDigit_of_follows follows)
  case negated =>
    intro plain
    rw [seconds?_of_isSign (.inr rfl) plain (String.toList_append ..), seconds?_of_beginsPlain plain]
    exact map_value_signFactor _
  case kept =>
    intro plain
    rw [seconds?_of_isSign (.inl rfl) plain (String.toList_append ..), seconds?_of_beginsPlain plain]
    rfl
  case multiplied =>
    intro sign second plain noSeparator bare isSign isSecond
    have rest := (trimmed_of_beginsPlain plain).2
    rw [rdropWhile_of_endsLikeNumber bare] at rest
    exact map_value_of_two_signs isSign isSecond plain noSeparator (rest ▸ bare) String.toList_ofList
  case spaced =>
    intro sign blanks bare isSign all
    exact seconds?_of_blanks isSign all bare String.toList_ofList String.toList_ofList

/-- The two minus signs of a bare number make it positive. -/
theorem second_sign_taken :
    trimWhere isBlank "--2".toList = ['-', '-', '2'] ∧ seconds? (.text "--2") = some ⟨false, 2, 0⟩ := by
  decide

end Duration
end MeshGauges
