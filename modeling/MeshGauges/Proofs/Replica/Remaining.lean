import MeshGauges.Proofs.Number.Arithmetic
import MeshGauges.Proofs.Replica.WatchTiming

/-! The time left until the next listing, as a number.

Times that are multiples of a 1024th of a second are added and subtracted without rounding as long as they
are not too large. A resync period has no limit, though, and a deadline that is too far away may be
rounded; all that matters of it is that it stays out of reach (`Measures`). -/

set_option autoImplicit false

namespace MeshGauges

open MeshGauges.Number

/-- Whether a time is a multiple of a 1024th of a second. -/
def InTicks (time : ℚ) : Prop := ∃ ticks : ℤ, time = ticks / 1024

section Ticks

variable {first second time : ℚ}

theorem InTicks.add (left : InTicks first) (right : InTicks second) : InTicks (first + second) := by
  obtain ⟨ticks, rfl⟩ := left
  obtain ⟨more, rfl⟩ := right
  exact ⟨ticks + more, by rw [Int.cast_add, add_div]⟩

theorem InTicks.sub (left : InTicks first) (right : InTicks second) : InTicks (first - second) := by
  obtain ⟨ticks, rfl⟩ := left
  obtain ⟨more, rfl⟩ := right
  exact ⟨ticks - more, by rw [Int.cast_sub, sub_div]⟩

theorem InTicks.isShort (ticking : InTicks time) (near : |time| < 2 ^ 43) : IsShort |time| := by
  obtain ⟨ticks, rfl⟩ := ticking
  have size : |((ticks : ℚ) / 1024)| = ticks.natAbs / 1024 := by
    rw [abs_div, Nat.cast_natAbs, Int.cast_abs]
    norm_num
  rw [size] at near ⊢
  rw [div_lt_iff₀ (by norm_num)] at near
  have few : (ticks.natAbs : ℚ) < (2 ^ 53 : ℕ) := near.trans_le (by norm_num)
  exact ⟨ticks.natAbs, -10, by exact_mod_cast few, by decide, by norm_num [div_eq_mul_inv]⟩

theorem InTicks.number?_of_approximates {value : Float} (ticking : InTicks time) (near : |time| < 2 ^ 43)
    (approximates : Approximates value time) : number? value = some time := by
  refine approximates.exact (ticking.isShort near) (near.trans ?_)
  rw [← zpow_natCast]
  exact zpow_lt_zpow_right₀ (by norm_num) (by norm_num)

end Ticks

/-- The number that a span stands for, if it is finite. -/
def Span.number? : Span → Option ℚ
  | .whole seconds => some seconds
  | .float seconds => Number.number? seconds

/-- A float stands for a number that is below a limit; where it is not, the float reaches the limit. -/
structure Measures (value : Float) (number limit : ℚ) : Prop where
  exact : number < limit → number? value = some number
  reaches : limit ≤ number → Reaches value limit

/-- A clock shows a time that is a multiple of a 1024th of a second and not too large. -/
structure ShowsTime (value : Float) (time : ℚ) : Prop where
  stands : number? value = some time
  ticks : InTicks time
  bounded : |time| < 2 ^ 40

theorem showsTime_zero : ShowsTime 0.0 0 := ⟨number?_zero, ⟨0, by norm_num⟩, by norm_num⟩

theorem showsTime_one : ShowsTime 1.0 1 := ⟨number?_one, ⟨1024, by norm_num⟩, by norm_num⟩

theorem showsTime_two : ShowsTime 2.0 2 := ⟨number?_two, ⟨2048, by norm_num⟩, by norm_num⟩

namespace Measures

variable {value : Float} {number limit period : ℚ}

theorem of_approximates (positive : 0 < limit) (short : IsShort limit) (near : limit ≤ 2 ^ 43)
    (ticking : InTicks number) (above : -2 ^ 43 < number) (approximates : Approximates value number) :
    Measures value number limit where
  exact below := by
    refine ticking.number?_of_approximates (abs_lt.mpr ⟨?_, below.trans_le near⟩) approximates
    linarith
  reaches reached := approximates.reaches limit positive short reached

private theorem isShort_two_pow {power : ℕ} : IsShort (2 ^ power) := by
  rw [← zpow_natCast]
  refine isShort_two_zpow ?_
  rw [leastBinaryExponent]
  omega

private theorem isShort_three_mul : IsShort (3 * 2 ^ 40) := ⟨3, 40, by norm_num, by decide, by norm_num⟩

theorem of_toFloat? {span : Span} (rounded : span.toFloat? = some value)
    (stands : span.number? = some period) (positive : 0 < period) (ticking : InTicks period) :
    Measures value period (2 ^ 42) := by
  refine of_approximates (by norm_num) isShort_two_pow (by norm_num) ticking (by linarith) ?_
  cases span with
  | float seconds =>
      cases rounded
      exact .of_number? stands
  | whole seconds =>
      cases stands
      exact approximates_nearestFinite? rounded (by exact_mod_cast positive)

theorem deadline {now seconds : Float} {time : ℚ} (shows : ShowsTime now time)
    (measures : Measures seconds period (2 ^ 42)) (positive : 0 < period) (ticking : InTicks period) :
    Measures (now + seconds) (time + period) (3 * 2 ^ 40) := by
  obtain ⟨after, before⟩ := abs_lt.mp shows.bounded
  rcases lt_or_ge period (2 ^ 42) with near | far
  · refine of_approximates (by norm_num) isShort_three_mul (by norm_num) (shows.ticks.add ticking)
      (by linarith) ?_
    exact approximates_add shows.stands (measures.exact near)
  · constructor
    · intro below
      linarith
    · intro _
      refine Reaches.add shows.stands ((measures.reaches far).trans ?_) (by norm_num) isShort_three_mul
      linarith

theorem remaining {deadline now : Float} {time : ℚ} (measures : Measures deadline number (3 * 2 ^ 40))
    (ticking : InTicks number) (above : -2 ^ 40 < number) (shows : ShowsTime now time) :
    Measures (deadline - now) (number - time) (2 ^ 41) := by
  obtain ⟨after, before⟩ := abs_lt.mp shows.bounded
  rcases lt_or_ge number (3 * 2 ^ 40) with near | far
  · refine of_approximates (by norm_num) isShort_two_pow (by norm_num) (ticking.sub shows.ticks)
      (by linarith) ?_
    exact approximates_sub (measures.exact near) shows.stands
  · constructor
    · intro below
      linarith
    · intro _
      refine Reaches.sub ((measures.reaches far).trans ?_) shows.stands (by norm_num) isShort_two_pow
      linarith

end Measures

/-! ### What is made of the time left -/

section Left

variable {remaining : Float} {left longest pause : ℚ}

theorem Measures.le_zero_iff (measures : Measures remaining left (2 ^ 41)) :
    remaining ≤ 0.0 ↔ left ≤ 0 := by
  rcases lt_or_ge left (2 ^ 41) with near | far
  · exact le_iff_of_number? (measures.exact near) number?_zero
  · have never := (measures.reaches far).not_le number?_zero (by norm_num)
    exact iff_of_false never (not_le.mpr (lt_of_lt_of_le (by norm_num) far))

/-- A timeout that is at least a second, and longer than neither the longest one nor the time left unless
those are shorter than a second. -/
structure Timeout (seconds : ℤ) (left longest : ℚ) : Prop where
  positive : 1 ≤ seconds
  limited : (seconds : ℚ) ≤ max 1 longest
  fits : left < 2 ^ 41 → (seconds : ℚ) ≤ max 1 left

private theorem timeout_of_le {whole : ℤ} (limited : (whole : ℚ) ≤ max 0 longest)
    (fits : left < 2 ^ 41 → (whole : ℚ) ≤ max 0 left) : Timeout (max 1 whole) left longest where
  positive := le_max_left 1 whole
  limited := by
    push_cast
    exact max_le (le_max_left _ _) (limited.trans (max_le_max_right _ zero_le_one))
  fits near := by
    push_cast
    exact max_le (le_max_left _ _) ((fits near).trans (max_le_max_right _ zero_le_one))

theorem Measures.infinite_or_number (measures : Measures remaining left (2 ^ 41)) :
    (IsInfinite remaining ∧ 2 ^ 41 ≤ left) ∨
      ∃ number, number? remaining = some number ∧ (left < 2 ^ 41 → number = left) := by
  rcases lt_or_ge left (2 ^ 41) with near | far
  · exact .inr ⟨left, measures.exact near, fun _ => rfl⟩
  · obtain infinite | ⟨number, stands, _⟩ := measures.reaches far
    · exact .inl ⟨infinite, far⟩
    · exact .inr ⟨number, stands, fun near => absurd near far.not_gt⟩

private theorem wholeSeconds_eq_ok {value : Float} {number : ℚ} (stands : number? value = some number) :
    ∃ whole, wholeSeconds value = .ok (max 1 whole) ∧ (whole : ℚ) ≤ max 0 number := by
  obtain ⟨whole, cut, bounded⟩ := truncate?_le stands
  exact ⟨whole, wholeSeconds_of_truncate? cut, bounded⟩

theorem Measures.requestTimeout_eq_ok (measures : Measures remaining left (2 ^ 41)) {limit : Span}
    (limited : limit.number? = some longest) :
    ∃ seconds, requestTimeout remaining limit = .ok seconds ∧ Timeout seconds left longest := by
  obtain ⟨infinite, far⟩ | ⟨number, stands, same⟩ := measures.infinite_or_number
  · have notNear : ¬ left < 2 ^ 41 := far.not_gt
    cases limit with
    | whole seconds =>
        cases limited
        rw [requestTimeout, isBelow_of_isInfinite seconds infinite, if_pos rfl]
        exact ⟨_, rfl, timeout_of_le (le_max_right _ _) fun near => absurd near notNear⟩
    | float seconds =>
        obtain ⟨whole, cut, bounded⟩ := wholeSeconds_eq_ok limited
        rw [requestTimeout, Number.earlier, if_pos (lt_of_isInfinite limited infinite), cut]
        exact ⟨_, rfl, timeout_of_le bounded fun near => absurd near notNear⟩
  · cases limit with
    | whole seconds =>
        cases limited
        rw [requestTimeout]
        have below := isBelow_iff seconds stands
        split
        · rename_i shorter
          refine ⟨_, rfl, timeout_of_le (le_max_right _ _) fun near => le_max_of_le_right ?_⟩
          rw [← same near]
          exact (below.mp shorter).le
        · rename_i notShorter
          obtain ⟨whole, cut, bounded⟩ := wholeSeconds_eq_ok stands
          refine ⟨_, cut, timeout_of_le (bounded.trans (max_le_max_left 0 ?_)) fun near => ?_⟩
          · exact not_lt.mp (mt below.mpr notShorter)
          · rw [← same near]
            exact bounded
    | float seconds =>
        obtain ⟨whole, cut, bounded⟩ := wholeSeconds_eq_ok (number?_earlier stands limited)
        refine ⟨_, cut, timeout_of_le (bounded.trans (max_le_max_left 0 (min_le_right _ _))) fun near => ?_⟩
        rw [← same near]
        exact bounded.trans (max_le_max_left 0 (min_le_left _ _))

/-- A pause is the shorter one of the first pause and the time left. -/
theorem Measures.earlier (measures : Measures remaining left (2 ^ 41)) {seconds : Float}
    (stands : number? seconds = some pause) :
    ∃ length, number? (Number.earlier seconds remaining) = some length ∧
      (left < 2 ^ 41 → length = min pause left) ∧ (2 ^ 41 ≤ left → min pause (2 ^ 41) ≤ length) := by
  rcases lt_or_ge left (2 ^ 41) with near | far
  · refine ⟨_, number?_earlier stands (measures.exact near), fun _ => rfl, fun far => ?_⟩
    exact absurd near far.not_gt
  · obtain infinite | ⟨number, other, reached⟩ := measures.reaches far
    · refine ⟨pause, ?_, fun near => absurd near far.not_gt, fun _ => min_le_left _ _⟩
      rw [earlier_of_isInfinite infinite, stands]
    · refine ⟨_, number?_earlier stands other, fun near => absurd near far.not_gt, fun _ => ?_⟩
      exact min_le_min_left pause reached

end Left

end MeshGauges
