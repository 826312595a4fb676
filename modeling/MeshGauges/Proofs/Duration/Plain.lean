import MeshGauges.Proofs.Duration.Sign
import MeshGauges.Proofs.Number.Plain

/-! Plain numerals as durations.

A plain numeral with the name of the second is a duration of one part, which is read as it is written if it
has no more digits than fit (`seconds_of_plain`). Without the name it is a bare number. Either way it is
refused where the number is out of range. -/

set_option autoImplicit false

namespace MeshGauges.Duration

open MeshGauges.Number MeshGauges.Text

variable {text : String} {numeral : Numeral} {negative : Bool}

/-- A text that begins with a sign or with neither a sign nor white space is taken apart at the sign. -/
theorem trimmed_of_signed {characters : List Char} (begins : text.toList = signed negative characters)
    (plain : BeginsPlain characters) (ends : characters.rdropWhile isBlank = characters) :
    hasMinus text = negative ∧ unsigned text = characters := by
  cases negative with
  | true =>
      obtain ⟨minus, rest⟩ := trimmed_of_isSign (.inr rfl) begins
      exact ⟨minus, rest.trans ends⟩
  | false =>
      have begins : text.toList = characters := begins
      obtain ⟨minus, rest⟩ := trimmed_of_beginsPlain (begins ▸ plain)
      exact ⟨minus, rest.trans (begins ▸ ends)⟩

theorem beginsPlain_append (plain : numeral.IsPlain) (rest : List Char) :
    BeginsPlain (numeral.characters ++ rest) := by
  intro first head
  obtain ⟨opening, others, whole⟩ := List.exists_cons_of_ne_nil plain.whole
  have begins : (numeral.characters ++ rest).head? = some opening := by
    rw [Numeral.characters, whole]
    rfl
  obtain rfl := Option.some.inj (begins.symm.trans head)
  have ascii : opening.isDigit = true :=
    plain.ascii opening (List.mem_append_left _ (whole ▸ List.mem_cons_self))
  obtain ⟨kept, -, noMinus, noPlus, -⟩ := plain_of_isDigit ascii
  exact ⟨fun sign => sign.elim noPlus noMinus, kept⟩

theorem beginsPlain_characters (plain : numeral.IsPlain) : BeginsPlain numeral.characters := by
  have begins := beginsPlain_append plain []
  rwa [List.append_nil] at begins

/-! ### With a unit -/

theorem isWritten_append_s (plain : numeral.IsPlain) :
    IsWritten (numeral.characters ++ ['s']) [⟨numeral, .s⟩] := by
  refine ⟨List.cons_ne_nil _ _, ?_, ?_⟩
  · intro part member
    rw [List.mem_singleton.mp member]
    exact plain.isWellFormed
  · rw [List.flatMap_singleton]
    rfl

theorem total_singleton_s (precise : IsPrecise numeral.number) : total [⟨numeral, .s⟩] = numeral.number := by
  have product : toPrecision (numeral.number * UnitName.s.seconds) = numeral.number := by
    rw [UnitName.seconds, mul_one, precise.toPrecision_eq]
  rw [total, List.foldl_cons, List.foldl_nil, addPart, product, zero_add, precise.toPrecision_eq]

/-- Plain seconds are read as they are written, sign and all. -/
theorem seconds_of_plain (begins : text.toList = signed negative (numeral.characters ++ ['s']))
    (plain : numeral.IsPlain) (precise : IsPrecise numeral.number) (inRange : InRange numeral.number) :
    ∃ seconds, seconds? (.text text) = some seconds ∧ seconds.negative = negative ∧
      seconds.value = withMinus negative numeral.number := by
  obtain ⟨minus, rest⟩ := trimmed_of_signed begins (beginsPlain_append plain _)
    (List.rdropWhile_concat_neg _ _ _ (by decide))
  obtain ⟨number, read, positive, value⟩ := unsignedSeconds?_eq_some (isWritten_append_s plain)
    (fun part member => List.mem_singleton.mp member ▸ inRange)
  refine ⟨signFactor negative * number, ?_, ?_, ?_⟩
  · rw [seconds?, secondsOfText?_eq, minus, rest, read, Option.map_some]
  · rw [Decimal.negative_mul, positive, Bool.bne_false]
    rfl
  · rw [value_signFactor_mul, value, total_singleton_s precise, precise.toPrecision_eq]

theorem seconds?_of_plain_eq_none (begins : text.toList = signed negative (numeral.characters ++ ['s']))
    (plain : numeral.IsPlain) (outOfRange : ¬ InRange numeral.number) : seconds? (.text text) = none := by
  obtain ⟨-, rest⟩ := trimmed_of_signed begins (beginsPlain_append plain _)
    (List.rdropWhile_concat_neg _ _ _ (by decide))
  rw [seconds?, secondsOfText?_eq, rest, unsignedSeconds?_of_parts (isWritten_append_s plain),
    sumParts?_eq_none ⟨_, List.mem_singleton_self _, outOfRange⟩, Option.map_none]

/-! ### Without a unit -/

theorem endsLikeNumber_of_isPlain (plain : numeral.IsPlain) : endsLikeNumber numeral.characters = true := by
  have digit : ∀ last ∈ numeral.characters.getLast?, isDigit last = true ∨ last = '.' := by
    intro last ends
    rcases Numeral.mem_characters (List.mem_of_getLast? ends) with digit | point
    · exact .inl (isDigit_of_ascii (plain.ascii last digit))
    · exact .inr point
  have some : numeral.characters ≠ [] := List.append_ne_nil_of_left_ne_nil plain.whole _
  rw [endsLikeNumber]
  cases ends : numeral.characters.getLast? with
  | none => exact absurd (List.getLast?_eq_none_iff.mp ends) some
  | some last => simpa using digit last ends

theorem readNumber?_eq_none (plain : numeral.IsPlain) (outOfRange : ¬ InRange numeral.number) :
    readNumber? numeral.characters = none := by
  have kept : numeral.characters.filter (· ≠ '_') = numeral.characters := by
    refine List.filter_eq_self.mpr fun character member => decide_eq_true ?_
    rintro rfl
    exact plain.not_mem_separator member
  have noSign : splitSign numeral.characters = (false, numeral.characters) :=
    splitSign_of_beginsPlain fun first head => (beginsPlain_characters plain first head).1
  have split : splitSign ((trimWhere isBlank numeral.characters).filter (· ≠ '_')) =
      (false, numeral.characters) := by
    rw [trimWhere_eq_self plain.isBlank_eq_false, kept, noSign]
  rw [readNumber?, readDecimal?_of_splitSign split, scanDecimal?,
    Numeral.scanNumeral?_characters plain.isWellFormed, Option.map_some, Option.filter_some]
  split
  · -- the decimal that is scanned is the number of the same numeral with a unit
    have value := value_number ⟨numeral, .s⟩
    change accept? (WrittenPart.part ⟨numeral, .s⟩).number = none
    rw [accept?_eq, value, if_neg outOfRange]
  · rfl

theorem seconds?_plainText_eq_none {decimal : Decimal} (outOfRange : ¬ InRange decimal.value) :
    seconds? (.text decimal.plainText) = none := by
  have plain := decimal.isPlain_numeral
  have bare := endsLikeNumber_of_isPlain plain
  have size : ¬ InRange decimal.numeral.number := by rwa [Decimal.number_numeral, inRange_abs]
  obtain ⟨-, rest⟩ := trimmed_of_signed decimal.toList_plainText (beginsPlain_characters plain)
    (rdropWhile_of_endsLikeNumber bare)
  rw [seconds?, secondsOfText?_eq, rest, unsignedSeconds?, if_pos bare, readNumber?_eq_none plain size,
    Option.map_none]

end MeshGauges.Duration
