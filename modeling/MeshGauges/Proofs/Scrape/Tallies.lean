import MeshGauges.Scrape.Telemetry
import Mathlib.Algebra.Ring.Nat
import Mathlib.Data.List.Nodup

/-! What the counters of scrapes count.

Every collection that is attempted, failed or not, is an entry of a log. The counters can be read off
the log: a kind has an error series from its first attempt on and series about resources from its first
success on, and their values are numbers of entries and sums over them. -/

set_option autoImplicit false

namespace MeshGauges

/-- One collection of a kind: the number of resources that it saw, or nothing when it failed. -/
structure Attempt where
  kind : String
  seen? : Option Nat
  deriving Repr, DecidableEq

namespace Attempt

variable (kind : String) (log : List Attempt)

def attempted : Nat := log.countP fun attempt => attempt.kind = kind

def failed : Nat := log.countP fun attempt => attempt.kind = kind ∧ attempt.seen? = none

def succeeded : Nat := log.countP fun attempt => attempt.kind = kind ∧ attempt.seen? ≠ none

/-- The number of resources that the successful collections of a kind saw together. -/
def seen : Nat := ((log.filter fun attempt => attempt.kind = kind).filterMap Attempt.seen?).sum

def tallyOf : Tally := ⟨failed kind log, succeeded kind log, seen kind log⟩

def count (attempt : Attempt) (tally : Tally) : Tally :=
  match attempt.seen? with
  | none => { tally with failures := tally.failures + 1 }
  | some number =>
      { tally with successes := tally.successes + 1, resources := tally.resources + number }

variable {kind log}

theorem failed_add_succeeded : failed kind log + succeeded kind log = attempted kind log := by
  induction log with
  | nil => rfl
  | cons attempt rest ih =>
      simp only [failed, succeeded, attempted, List.countP_cons, decide_eq_true_eq] at ih ⊢
      by_cases named : attempt.kind = kind
      · by_cases broken : attempt.seen? = none
        · simp only [named, broken, not_true_eq_false, and_true, and_false, if_true, if_false,
            ne_eq] at ih ⊢
          omega
        · simp only [named, broken, not_false_eq_true, and_true, and_false, if_true, if_false,
            ne_eq] at ih ⊢
          omega
      · simp only [named, false_and, if_false]
        omega

theorem attempted_concat (attempt : Attempt) :
    attempted kind (log ++ [attempt]) =
      attempted kind log + if attempt.kind = kind then 1 else 0 := by
  simp [attempted, List.countP_append, List.countP_singleton]

theorem tallyOf_concat (attempt : Attempt) :
    tallyOf kind (log ++ [attempt]) =
      if attempt.kind = kind then attempt.count (tallyOf kind log) else tallyOf kind log := by
  by_cases named : attempt.kind = kind
  · cases outcome : attempt.seen? with
    | none => simp [tallyOf, failed, succeeded, seen, count, named, outcome]
    | some number => simp [tallyOf, failed, succeeded, seen, count, named, outcome]
  · simp [tallyOf, failed, succeeded, seen, named]

theorem tallyOf_eq_of_attempted_eq_zero (unattempted : attempted kind log = 0) :
    tallyOf kind log = {} := by
  have other : ∀ attempt ∈ log, attempt.kind ≠ kind := by
    simpa [attempted] using unattempted
  have none : log.filter (fun attempt => attempt.kind = kind) = [] := by
    simpa using other
  have apart : failed kind log + succeeded kind log = attempted kind log := failed_add_succeeded
  rw [unattempted, Nat.add_eq_zero_iff] at apart
  rw [tallyOf, apart.1, apart.2, seen, none]
  rfl

end Attempt

namespace Telemetry

open Attempt

variable {telemetry : Telemetry} {log : List Attempt}

def record (telemetry : Telemetry) (attempt : Attempt) : Telemetry :=
  telemetry.update attempt.count attempt.kind

def kinds (telemetry : Telemetry) : List String := telemetry.map Prod.fst

/-- There is one tally for each kind that was attempted, and it counts the attempts of that kind. -/
structure Tallies (telemetry : Telemetry) (log : List Attempt) : Prop where
  distinct : telemetry.kinds.Nodup
  mem_iff : ∀ kind tally, (kind, tally) ∈ telemetry ↔ 0 < attempted kind log ∧ tally = tallyOf kind log

theorem tally_cons (other : String) (counted : Tally) (rest : Telemetry) (kind : String) :
    tally ((other, counted) :: rest) kind = if other = kind then counted else rest.tally kind := by
  by_cases same : other = kind
  · subst same
    simp [tally]
  · have apart : (kind == other) = false := by simpa using Ne.symm same
    simp [tally, List.lookup_cons, apart, same]

@[simp] theorem kinds_cons (entry : String × Tally) (rest : Telemetry) :
    kinds (entry :: rest) = entry.1 :: rest.kinds := rfl

theorem mem_kinds_iff {kind : String} : kind ∈ telemetry.kinds ↔ ∃ tally, (kind, tally) ∈ telemetry := by
  simp [kinds]

theorem tally_eq_of_mem (distinct : telemetry.kinds.Nodup) {kind : String} {counted : Tally}
    (member : (kind, counted) ∈ telemetry) : telemetry.tally kind = counted := by
  induction telemetry with
  | nil => simp at member
  | cons entry rest ih =>
      obtain ⟨absent, distinct⟩ := List.nodup_cons.mp distinct
      rw [tally_cons]
      rcases List.mem_cons.mp member with here | later
      · simp [← here]
      · have apart : entry.1 ≠ kind := by
          rintro rfl
          exact absent (mem_kinds_iff.mpr ⟨counted, later⟩)
        rw [if_neg apart]
        exact ih distinct later

theorem tally_eq_of_not_mem {kind : String} (absent : kind ∉ telemetry.kinds) :
    telemetry.tally kind = {} := by
  induction telemetry with
  | nil => rfl
  | cons entry rest ih =>
      simp only [kinds_cons, List.mem_cons, not_or] at absent
      rw [tally_cons, if_neg (Ne.symm absent.1)]
      exact ih absent.2

theorem kinds_update (change : Tally → Tally) (kind : String) :
    (telemetry.update change kind).kinds =
      if kind ∈ telemetry.kinds then telemetry.kinds else telemetry.kinds ++ [kind] := by
  induction telemetry with
  | nil => rfl
  | cons entry rest ih =>
      obtain ⟨first, held⟩ := entry
      by_cases here : first = kind
      · simp [update, kinds, here]
      · rw [update, if_neg here, kinds_cons, kinds_cons, ih]
        by_cases later : kind ∈ kinds rest
        · rw [if_pos later, if_pos (List.mem_cons_of_mem _ later)]
        · have absent : kind ∉ first :: kinds rest := by
            simp [later, Ne.symm here]
          rw [if_neg later, if_neg absent, List.cons_append]

theorem mem_update_iff (distinct : telemetry.kinds.Nodup) {change : Tally → Tally}
    {kind other : String} {counted : Tally} :
    (other, counted) ∈ telemetry.update change kind ↔
      if other = kind then counted = change (telemetry.tally kind)
      else (other, counted) ∈ telemetry := by
  induction telemetry with
  | nil => by_cases same : other = kind <;> simp [update, tally, same]
  | cons entry rest ih =>
      obtain ⟨first, held⟩ := entry
      obtain ⟨absent, distinct⟩ := List.nodup_cons.mp distinct
      rw [tally_cons]
      by_cases here : first = kind
      · subst here
        rw [update, if_pos rfl, if_pos rfl]
        by_cases same : other = first
        · subst same
          have unheld : (other, counted) ∉ rest :=
            fun member => absent (mem_kinds_iff.mpr ⟨counted, member⟩)
          simp [unheld]
        · simp [same]
      · rw [update, if_neg here, if_neg here, List.mem_cons, ih distinct, List.mem_cons]
        by_cases same : other = kind
        · subst same
          simp [Ne.symm here]
        · simp [same]

theorem tallies_nil : Tallies [] [] where
  distinct := List.nodup_nil
  mem_iff kind tally := by simp [attempted]

theorem Tallies.tally_eq (tallies : telemetry.Tallies log) (kind : String) :
    telemetry.tally kind = tallyOf kind log := by
  rcases Nat.eq_zero_or_pos (attempted kind log) with never | attemptedOnce
  · rw [tallyOf_eq_of_attempted_eq_zero never]
    refine tally_eq_of_not_mem fun member => ?_
    obtain ⟨counted, member⟩ := mem_kinds_iff.mp member
    have positive := ((tallies.mem_iff kind counted).mp member).1
    omega
  · exact tally_eq_of_mem tallies.distinct ((tallies.mem_iff kind _).mpr ⟨attemptedOnce, rfl⟩)

theorem Tallies.record (tallies : telemetry.Tallies log) (attempt : Attempt) :
    (telemetry.record attempt).Tallies (log ++ [attempt]) where
  distinct := by
    rw [Telemetry.record, kinds_update]
    split
    · exact tallies.distinct
    · next absent =>
        rw [← List.concat_eq_append]
        exact tallies.distinct.concat absent
  mem_iff kind counted := by
    rw [Telemetry.record, mem_update_iff tallies.distinct, attempted_concat, tallyOf_concat]
    by_cases same : attempt.kind = kind
    · rw [if_pos same.symm, if_pos same, if_pos same, same, tallies.tally_eq]
      simp
    · rw [if_neg (Ne.symm same), if_neg same, if_neg same]
      exact tallies.mem_iff kind counted

theorem Tallies.foldl_record (tallies : telemetry.Tallies log) (attempts : List Attempt) :
    (attempts.foldl Telemetry.record telemetry).Tallies (log ++ attempts) := by
  induction attempts generalizing telemetry log with
  | nil => simpa using tallies
  | cons attempt rest ih => simpa using ih (tallies.record attempt)

/-- The series say of every kind what the log says of it, each in one series at the most, and there are
no others. -/
structure Accounts (telemetry : Telemetry) (log : List Attempt) : Prop where
  errors : ∀ kind value, ⟨errorSeries, kind, value⟩ ∈ telemetry.series ↔
    0 < attempted kind log ∧ value = failed kind log
  counts : ∀ kind value, ⟨countSeries, kind, value⟩ ∈ telemetry.series ↔
    0 < succeeded kind log ∧ value = succeeded kind log
  sums : ∀ kind value, ⟨sumSeries, kind, value⟩ ∈ telemetry.series ↔
    0 < succeeded kind log ∧ value = seen kind log
  total : ∀ kind,
    (telemetry.tally kind).failures + (telemetry.tally kind).successes = attempted kind log
  named : ∀ series ∈ telemetry.series, series.name ∈ [errorSeries, countSeries, sumSeries]
  distinct : (telemetry.series.map fun series => (series.name, series.kind)).Nodup

theorem mem_series_iff {series : Series} :
    series ∈ telemetry.series ↔ ∃ entry ∈ telemetry, series ∈ seriesOf entry.1 entry.2 := by
  rw [Telemetry.series, List.mem_mergeSort, List.mem_flatMap]

theorem mem_seriesOf_iff {series : Series} {kind : String} {counted : Tally} :
    series ∈ seriesOf kind counted ↔ series = ⟨errorSeries, kind, counted.failures⟩ ∨
      counted.successes ≠ 0 ∧ (series = ⟨countSeries, kind, counted.successes⟩ ∨
        series = ⟨sumSeries, kind, counted.resources⟩) := by
  by_cases never : counted.successes = 0
  · simp [seriesOf, never]
  · simp [seriesOf, never, or_comm, or_left_comm]

theorem kind_of_mem_seriesOf {series : Series} {kind : String} {counted : Tally}
    (member : series ∈ seriesOf kind counted) : series.kind = kind := by
  rcases mem_seriesOf_iff.mp member with rfl | ⟨_, rfl | rfl⟩ <;> rfl

theorem errorSeries_ne_countSeries : errorSeries ≠ countSeries := by decide

theorem errorSeries_ne_sumSeries : errorSeries ≠ sumSeries := by decide

theorem countSeries_ne_sumSeries : countSeries ≠ sumSeries := by decide

theorem nodup_names_seriesOf (kind : String) (counted : Tally) :
    ((seriesOf kind counted).map fun series => (series.name, series.kind)).Nodup := by
  by_cases never : counted.successes = 0
  · simp [seriesOf, never]
  · simp [seriesOf, never, errorSeries_ne_countSeries.symm, errorSeries_ne_sumSeries.symm,
      countSeries_ne_sumSeries]

theorem nodup_names_series (distinct : telemetry.kinds.Nodup) :
    (telemetry.series.map fun series => (series.name, series.kind)).Nodup := by
  rw [Telemetry.series, ((List.mergeSort_perm _ _).map _).nodup_iff, List.map_flatMap,
    List.nodup_flatMap]
  refine ⟨fun entry _ => nodup_names_seriesOf entry.1 entry.2, ?_⟩
  have apart : telemetry.Pairwise fun first second => first.1 ≠ second.1 := List.pairwise_map.mp distinct
  refine apart.imp fun {first second} different => ?_
  rintro ⟨name, kind⟩ here there
  obtain ⟨series, member, named⟩ := List.mem_map.mp here
  obtain ⟨other, otherMember, otherNamed⟩ := List.mem_map.mp there
  have sameKind : series.kind = other.kind := by
    rw [(Prod.mk.inj named).2, (Prod.mk.inj otherNamed).2]
  rw [kind_of_mem_seriesOf member, kind_of_mem_seriesOf otherMember] at sameKind
  exact different sameKind

theorem Tallies.mem_series_iff (tallies : telemetry.Tallies log) {series : Series} :
    series ∈ telemetry.series ↔ 0 < attempted series.kind log ∧
      series ∈ seriesOf series.kind (tallyOf series.kind log) := by
  rw [Telemetry.mem_series_iff]
  constructor
  · rintro ⟨⟨kind, counted⟩, held, member⟩
    obtain ⟨positive, rfl⟩ := (tallies.mem_iff kind counted).mp held
    obtain rfl := kind_of_mem_seriesOf member
    exact ⟨positive, member⟩
  · rintro ⟨positive, member⟩
    exact ⟨(series.kind, tallyOf series.kind log),
      (tallies.mem_iff _ _).mpr ⟨positive, rfl⟩, member⟩

theorem Tallies.accounts (tallies : telemetry.Tallies log) : telemetry.Accounts log where
  errors kind value := by
    rw [tallies.mem_series_iff, mem_seriesOf_iff]
    simp [tallyOf, errorSeries_ne_countSeries, errorSeries_ne_sumSeries]
  counts kind value := by
    have apart : failed kind log + succeeded kind log = attempted kind log := failed_add_succeeded
    rw [tallies.mem_series_iff, mem_seriesOf_iff]
    simp only [tallyOf, Series.mk.injEq, errorSeries_ne_countSeries.symm, countSeries_ne_sumSeries,
      true_and, false_and, false_or, or_false]
    constructor
    · rintro ⟨_, positive, rfl⟩
      exact ⟨by omega, rfl⟩
    · rintro ⟨positive, rfl⟩
      exact ⟨by omega, by omega, rfl⟩
  sums kind value := by
    have apart : failed kind log + succeeded kind log = attempted kind log := failed_add_succeeded
    rw [tallies.mem_series_iff, mem_seriesOf_iff]
    simp only [tallyOf, Series.mk.injEq, errorSeries_ne_sumSeries.symm,
      countSeries_ne_sumSeries.symm, true_and, false_and, false_or]
    constructor
    · rintro ⟨_, positive, rfl⟩
      exact ⟨by omega, rfl⟩
    · rintro ⟨positive, rfl⟩
      exact ⟨by omega, by omega, rfl⟩
  total kind := by
    rw [tallies.tally_eq]
    exact failed_add_succeeded
  named series member := by
    rcases mem_seriesOf_iff.mp (tallies.mem_series_iff.mp member).2 with same | ⟨_, same | same⟩
    all_goals rw [same]; simp
  distinct := nodup_names_series tallies.distinct

end Telemetry
end MeshGauges
