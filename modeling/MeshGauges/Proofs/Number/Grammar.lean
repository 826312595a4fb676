import MeshGauges.Proofs.Number.Digits
import MeshGauges.Proofs.Number.Value

/-! Decimal numerals as they are written.

A decimal numeral is an unsigned numeral that may have a sign in front and an exponent behind it. White
space around it and underscores in it do not count. The reader of decimals accepts exactly the texts that
are written so, as far as their exponents can be represented, and no two decimals share a text
(`readDecimal?_eq_some_iff`). -/

set_option autoImplicit false

namespace MeshGauges.Number

open Text

/-! ### Signs -/

inductive WrittenSign where
  | absent | plus | minus

namespace WrittenSign

def characters : WrittenSign → List Char
  | .absent => []
  | .plus => ['+']
  | .minus => ['-']

def isMinus : WrittenSign → Bool
  | .minus => true
  | _ => false

theorem splitSign_characters (sign : WrittenSign) {rest : List Char}
    (plain : ∀ first ∈ rest.head?, first ≠ '-' ∧ first ≠ '+') :
    splitSign (sign.characters ++ rest) = (sign.isMinus, rest) := by
  cases sign with
  | absent =>
      unfold splitSign
      split
      · next others same => exact absurd rfl (plain '-' (congrArg List.head? same)).1
      · next others same => exact absurd rfl (plain '+' (congrArg List.head? same)).2
      · rfl
  | plus => rfl
  | minus => rfl

theorem exists_of_splitSign {text rest : List Char} {negative : Bool}
    (split : splitSign text = (negative, rest)) :
    ∃ sign : WrittenSign, text = sign.characters ++ rest ∧ sign.isMinus = negative := by
  unfold splitSign at split
  split at split
  all_goals obtain ⟨rfl, rfl⟩ := Prod.mk.inj split
  · exact ⟨.minus, rfl, rfl⟩
  · exact ⟨.plus, rfl, rfl⟩
  · exact ⟨.absent, rfl, rfl⟩

end WrittenSign

theorem ne_sign_of_isDigit {character : Char} (digit : isDigit character = true) :
    character ≠ '-' ∧ character ≠ '+' := by
  constructor
  · rintro rfl
    exact absurd digit (by decide)
  · rintro rfl
    exact absurd digit (by decide)

/-! ### Exponents -/

/-- An exponent with the letter in front of it. -/
structure WrittenExponent where
  mark : Char
  sign : WrittenSign
  digits : List Char

namespace WrittenExponent

structure IsWellFormed (exponent : WrittenExponent) : Prop where
  mark : exponent.mark = 'e' ∨ exponent.mark = 'E'
  all : ∀ character ∈ exponent.digits, isDigit character = true
  some : exponent.digits ≠ []

def characters (exponent : WrittenExponent) : List Char :=
  exponent.mark :: (exponent.sign.characters ++ exponent.digits)

def value (exponent : WrittenExponent) : ℤ :=
  if exponent.sign.isMinus then -(digitsNumber exponent.digits : ℤ) else digitsNumber exponent.digits

variable {exponent : WrittenExponent}

theorem scanExponent?_characters (wellFormed : exponent.IsWellFormed) :
    scanExponent? (exponent.sign.characters ++ exponent.digits) = some exponent.value := by
  have all := wellFormed.all
  have some := wellFormed.some
  obtain ⟨mark, sign, digits⟩ := exponent
  have plain : ∀ first ∈ digits.head?, first ≠ '-' ∧ first ≠ '+' := fun first head =>
    ne_sign_of_isDigit (all first (List.mem_of_mem_head? head))
  have taken := takeDigits_append all (nofun : StopsDigits [])
  rw [List.append_nil] at taken
  have number := digitsValue_map_digitOf digits
  obtain ⟨first, others, rfl⟩ := List.exists_cons_of_ne_nil some
  simp only [scanExponent?, sign.splitSign_characters plain, taken, List.map_cons] at number ⊢
  rw [number]
  rfl

theorem exists_of_scanExponent? {rest : List Char} {value : ℤ} {mark : Char}
    (isMark : mark = 'e' ∨ mark = 'E') (scanned : scanExponent? rest = some value) :
    ∃ exponent : WrittenExponent, exponent.IsWellFormed ∧ exponent.characters = mark :: rest ∧
      exponent.value = value := by
  obtain ⟨negative, unsigned, split⟩ : ∃ negative unsigned, splitSign rest = (negative, unsigned) :=
    ⟨_, _, rfl⟩
  obtain ⟨sign, rfl, rfl⟩ := WrittenSign.exists_of_splitSign split
  obtain ⟨digits, whole, values, all, -⟩ := takeDigits_taken unsigned
  simp only [scanExponent?, split] at scanned
  split at scanned
  · cases scanned
  · next taken some found =>
      rw [found, List.append_nil] at whole
      rw [found] at values
      obtain rfl : unsigned = digits := whole
      obtain rfl : taken = unsigned.map digitOf := values
      refine ⟨⟨mark, sign, unsigned⟩, ⟨isMark, all, ?_⟩, rfl, ?_⟩
      · rintro rfl
        exact some rfl
      · rw [digitsValue_map_digitOf] at scanned
        exact Option.some.inj scanned
  · cases scanned

/-- Behind the digits of a numeral the letter of an exponent ends it. -/
theorem stopsAt_characters (wellFormed : exponent.IsWellFormed) (numeral : Numeral) :
    numeral.StopsAt exponent.characters := by
  have letter : isDigit exponent.mark = false ∧ exponent.mark ≠ '.' := by
    rcases wellFormed.mark with mark | mark <;> rw [mark] <;> decide
  refine ⟨fun character head => ?_, fun _ point => ?_⟩
  · rw [← Option.some.inj head]
    exact letter.1
  · exact letter.2 (Option.some.inj point)

end WrittenExponent

/-! ### Decimals -/

/-- A decimal numeral without white space and underscores. -/
structure WrittenDecimal where
  sign : WrittenSign
  numeral : Numeral
  exponent? : Option WrittenExponent

namespace WrittenDecimal

structure IsWellFormed (written : WrittenDecimal) : Prop where
  numeral : written.numeral.IsWellFormed
  exponent : ∀ exponent ∈ written.exponent?, exponent.IsWellFormed

def tail (written : WrittenDecimal) : List Char :=
  match written.exponent? with
  | none => []
  | some exponent => exponent.characters

def characters (written : WrittenDecimal) : List Char :=
  written.sign.characters ++ (written.numeral.characters ++ written.tail)

def shift (written : WrittenDecimal) : ℤ :=
  match written.exponent? with
  | none => 0
  | some exponent => exponent.value

/-- The number that is written. -/
def number (written : WrittenDecimal) : ℚ :=
  (if written.sign.isMinus then -written.numeral.number else written.numeral.number) * 10 ^ written.shift

/-- The number as a decimal whose last digit is the last one that is written. -/
def decimal (written : WrittenDecimal) : Decimal :=
  ⟨written.sign.isMinus, digitsNumber written.numeral.digits,
    written.shift - written.numeral.fraction.length⟩

end WrittenDecimal

/-- Whether the exponents of a decimal, that of its first digit and that of its last one, are within the
bounds of the reader. -/
def Decimal.IsRepresentable (decimal : Decimal) : Prop :=
  decimal.adjustedExponent ≤ greatestDecimalExponent ∧ leastDecimalExponent ≤ decimal.exponent

namespace WrittenDecimal

variable {written : WrittenDecimal}

theorem value_decimal (written : WrittenDecimal) : written.decimal.value = written.number := by
  have size : (digitsNumber written.numeral.digits : ℚ) *
      10 ^ (written.shift - written.numeral.fraction.length) = written.numeral.number * 10 ^ written.shift := by
    rw [Numeral.number, zpow_sub₀ (by norm_num), zpow_natCast]
    ring
  rw [Decimal.value, Decimal.signedCoefficient, number, decimal]
  split
  · push_cast
    rw [neg_mul, size, neg_mul]
  · rw [Int.cast_natCast, size]

theorem stopsAt_tail (wellFormed : written.IsWellFormed) : written.numeral.StopsAt written.tail := by
  obtain ⟨sign, numeral, exponent?⟩ := written
  cases exponent? with
  | none => exact ⟨nofun, nofun⟩
  | some exponent => exact WrittenExponent.stopsAt_characters (wellFormed.exponent exponent rfl) numeral

theorem scanNumeral?_append_tail (wellFormed : written.IsWellFormed) :
    scanNumeral? (written.numeral.characters ++ written.tail) =
      some ⟨written.numeral.digits.map digitOf, written.shift - written.numeral.fraction.length⟩ := by
  obtain ⟨whole, fraction⟩ := Numeral.take_characters wellFormed.numeral (stopsAt_tail wellFormed)
  simp only [scanNumeral?, whole, fraction, Numeral.isEmpty_values wellFormed.numeral, Bool.false_eq_true,
    if_false, List.length_map, ← List.map_append]
  obtain ⟨sign, numeral, exponent?⟩ := written
  cases exponent? with
  | none => simp [tail, shift, Numeral.digits]
  | some exponent =>
      have exponentWellFormed := wellFormed.exponent exponent rfl
      have mark : (exponent.mark = 'e' || exponent.mark = 'E') = true := by
        simpa using exponentWellFormed.mark
      have scanned := WrittenExponent.scanExponent?_characters exponentWellFormed
      simp only [tail, WrittenExponent.characters, mark, if_true, scanned, Option.map_some]
      rfl

theorem head?_ne_sign (wellFormed : written.IsWellFormed) :
    ∀ first ∈ (written.numeral.characters ++ written.tail).head?, first ≠ '-' ∧ first ≠ '+' := by
  obtain ⟨sign, ⟨whole, fraction?⟩, exponent?⟩ := written
  obtain ⟨⟨all, some⟩, -⟩ := wellFormed
  intro first head
  cases whole with
  | cons opening others =>
      obtain rfl := Option.some.inj head
      exact ne_sign_of_isDigit (all opening List.mem_cons_self)
  | nil =>
      cases fraction? with
      | none => exact absurd rfl some
      | some fraction =>
          obtain rfl := Option.some.inj head
          decide

theorem exists_of_scanNumeral? {text : List Char} {scanned : Scanned} (sign : WrittenSign)
    (found : scanNumeral? text = some scanned) :
    ∃ written : WrittenDecimal, written.IsWellFormed ∧ written.sign = sign ∧
      written.numeral.characters ++ written.tail = text ∧
      scanned = ⟨written.numeral.digits.map digitOf, written.shift - written.numeral.fraction.length⟩ := by
  obtain ⟨numeral, split, whole, fraction, all⟩ := Numeral.taken text
  simp only [scanNumeral?, whole, fraction] at found
  split at found
  · cases found
  · next nonempty =>
      have wellFormed : numeral.IsWellFormed := by
        refine ⟨all, fun none => ?_⟩
        obtain ⟨noWhole, noFraction⟩ := List.append_eq_nil_iff.mp none
        rw [noWhole, noFraction] at nonempty
        exact nonempty rfl
      cases remaining : (takeFraction (takeDigits text).2).2 with
      | nil =>
          rw [remaining] at split
          simp only [remaining] at found
          refine ⟨⟨sign, numeral, none⟩, ⟨wellFormed, ?_⟩, rfl, split.symm, ?_⟩
          · rintro _ ⟨⟩
          · rw [← Option.some.inj found, shift, Numeral.digits, List.map_append, List.length_map, zero_sub]
      | cons mark rest =>
          rw [remaining] at split
          simp only [remaining] at found
          split at found
          · next isMark =>
              obtain ⟨value, scannedExponent, rfl⟩ := Option.map_eq_some_iff.mp found
              obtain ⟨exponent, exponentWellFormed, characters, rfl⟩ :=
                WrittenExponent.exists_of_scanExponent? (by simpa using isMark) scannedExponent
              refine ⟨⟨sign, numeral, some exponent⟩, ⟨wellFormed, ?_⟩, rfl, ?_, ?_⟩
              · rintro _ ⟨⟩
                exact exponentWellFormed
              · change numeral.characters ++ exponent.characters = text
                rw [characters, split]
              · rw [shift, Numeral.digits, List.map_append, List.length_map]
          · cases found

end WrittenDecimal

/-- A text without the white space around it and without underscores. -/
def stripped (text : List Char) : List Char := (trimWhere isBlank text).filter (· ≠ '_')

/-- Whether a text is a decimal numeral, white space around it and underscores apart. -/
structure WrittenDecimal.IsWrittenIn (written : WrittenDecimal) (text : List Char) : Prop where
  wellFormed : written.IsWellFormed
  representable : written.decimal.IsRepresentable
  stripped : stripped text = written.characters

/-- Exactly the written decimals are read, each as its own decimal. -/
theorem readDecimal?_eq_some_iff {text : List Char} {decimal : Decimal} :
    readDecimal? text = some decimal ↔
      ∃ written : WrittenDecimal, written.IsWrittenIn text ∧ written.decimal = decimal := by
  constructor
  · intro read
    obtain ⟨negative, unsigned, split⟩ : ∃ negative unsigned, splitSign (stripped text) = (negative, unsigned) :=
      ⟨_, _, rfl⟩
    obtain ⟨sign, whole, rfl⟩ := WrittenSign.exists_of_splitSign split
    rw [readDecimal?_of_splitSign split] at read
    obtain ⟨number, scanned, rfl⟩ := Option.map_eq_some_iff.mp read
    obtain ⟨converted, bounds⟩ := Option.filter_eq_some_iff.mp scanned
    obtain ⟨_, found, rfl⟩ := Option.map_eq_some_iff.mp converted
    obtain ⟨written, wellFormed, rfl, characters, rfl⟩ := WrittenDecimal.exists_of_scanNumeral? sign found
    have same : written.decimal =
        { Scanned.decimal ⟨written.numeral.digits.map digitOf,
            written.shift - written.numeral.fraction.length⟩ with negative := written.sign.isMinus } := by
      rw [WrittenDecimal.decimal, Scanned.decimal, digitsValue_map_digitOf]
    refine ⟨written, ⟨wellFormed, ?_, ?_⟩, same⟩
    · rw [same]
      simp only [Bool.and_eq_true, decide_eq_true_eq] at bounds
      exact bounds
    · rw [whole, WrittenDecimal.characters, characters]
  · rintro ⟨written, ⟨wellFormed, representable, whole⟩, rfl⟩
    have split : splitSign (stripped text) =
        (written.sign.isMinus, written.numeral.characters ++ written.tail) := by
      rw [whole, WrittenDecimal.characters]
      exact written.sign.splitSign_characters (WrittenDecimal.head?_ne_sign wellFormed)
    have within : Decimal.IsRepresentable ⟨false, digitsNumber written.numeral.digits,
        written.shift - written.numeral.fraction.length⟩ := representable
    rw [readDecimal?_of_splitSign split, scanDecimal?, WrittenDecimal.scanNumeral?_append_tail wellFormed,
      Option.map_some, Scanned.decimal, digitsValue_map_digitOf, Option.filter_some, if_pos]
    · rfl
    · simpa [Decimal.IsRepresentable] using within

end MeshGauges.Number
