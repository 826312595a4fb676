import MeshGauges.Proofs.Scrape.Distinct
import MeshGauges.Proofs.Scrape.Tallies
import MeshGauges.Scrape.Exposition

/-! Failing collectors are left out and counted, and nothing else.

Collectors are registered, their resources are replaced, their supplies break and are repaired, and in
between they are scraped, with or without the rows put under their families. However such a history
goes, a scrape returns the rows of the collectors that work, in the order of registration, and the
series account for all collections that any scrape of the history has attempted. -/

set_option autoImplicit false

namespace MeshGauges

namespace Collector

variable (collector : Collector)

def works : Bool := collector.supply.fault.isNone

/-- The rows of a collector that works: those of all its resources, each identity once. -/
def fullRows : List Row :=
  keepFirst [] (collector.supply.resources.flatMap collector.schema.extract)

def attempt : Attempt :=
  ⟨collector.resource, if collector.works then some collector.supply.resources.length else none⟩

theorem collect_of_works (working : collector.works) :
    collector.collect = .ok ⟨collector.supply.resources.length, collector.fullRows⟩ := by
  have repaired : collector.supply.fault = none := by simpa [works] using working
  rw [collect, Supply.list, repaired]
  rfl

theorem collect_of_not_works (broken : ¬ collector.works) :
    ∃ text, collector.collect = .error text := by
  cases fault : collector.supply.fault with
  | none => simp [works, fault] at broken
  | some text =>
      refine ⟨text, ?_⟩
      rw [collect, Supply.list, fault]
      rfl

def workingRows (collectors : List Collector) : List Row :=
  (collectors.filter Collector.works).flatMap Collector.fullRows

theorem workingRows_append (collectors others : List Collector) :
    workingRows (collectors ++ others) = workingRows collectors ++ workingRows others := by
  simp [workingRows]

theorem workingRows_cons (others : List Collector) :
    workingRows (collector :: others) =
      (if collector.works then collector.fullRows else []) ++ workingRows others := by
  by_cases working : collector.works
  · simp [workingRows, working]
  · simp [workingRows, working]

end Collector

namespace Coordinator

open Collector

variable {coordinator : Coordinator}

theorem contribution_eq (collector : Collector) :
    contribution collector = if collector.works then collector.fullRows else [] := by
  by_cases working : collector.works
  · rw [contribution, collect_of_works collector working, if_pos working]
  · obtain ⟨text, failed⟩ := collect_of_not_works collector working
    rw [contribution, failed, if_neg working]

theorem countCollection_eq (telemetry : Telemetry) (collector : Collector) :
    countCollection telemetry collector = telemetry.record collector.attempt := by
  by_cases working : collector.works
  · rw [countCollection, collect_of_works collector working, attempt, if_pos working]
    rfl
  · obtain ⟨text, failed⟩ := collect_of_not_works collector working
    rw [countCollection, failed, attempt, if_neg working]
    rfl

theorem rows_scrape (coordinator : Coordinator) :
    coordinator.scrape.2.rows = workingRows coordinator.collectors := by
  change coordinator.collectors.flatMap contribution = _
  induction coordinator.collectors with
  | nil => rfl
  | cons collector rest ih => rw [List.flatMap_cons, ih, contribution_eq, workingRows_cons]

theorem telemetry_scrape (coordinator : Coordinator) :
    coordinator.scrape.1.telemetry =
      (coordinator.collectors.map Collector.attempt).foldl Telemetry.record coordinator.telemetry := by
  change coordinator.collectors.foldl countCollection coordinator.telemetry = _
  rw [List.foldl_map]
  exact congrArg (fun count => coordinator.collectors.foldl count coordinator.telemetry)
    (funext fun telemetry => funext fun collector => countCollection_eq telemetry collector)

/-- What the collectors are made of: their names and schemas. -/
def makeup (coordinator : Coordinator) : List (String × ResourceSchema) :=
  coordinator.collectors.map fun collector => (collector.name, collector.schema)

theorem names_eq_makeup (coordinator : Coordinator) : coordinator.names = coordinator.makeup.map Prod.fst := by
  simp [names, makeup, Function.comp_def]

theorem families_eq_makeup (coordinator : Coordinator) :
    coordinator.families = coordinator.makeup.flatMap fun entry => entry.2.metricFamilies := by
  rw [makeup, List.flatMap_map]
  rfl

theorem makeup_updateSupply (coordinator : Coordinator) (name : String) (change : Supply → Supply) :
    (coordinator.updateSupply name change).makeup = coordinator.makeup := by
  simp only [makeup, updateSupply, List.map_map]
  refine List.map_congr_left fun collector _ => ?_
  simp only [Function.comp_apply]
  split <;> rfl

/-! ### Histories of a coordinator -/

inductive Operation where
  | register (collector : Collector)
  | replaceResources (name : String) (resources : List Resource)
  | setFault (name : String) (fault : Option String)
  | scrape
  | collect

/-- The coordinator after an operation. A registration that is refused changes nothing. -/
def perform (coordinator : Coordinator) : Operation → Coordinator
  | .register collector =>
      match coordinator.register collector with
      | .ok after => after
      | .error _ => coordinator
  | .replaceResources name resources => coordinator.replaceResources name resources
  | .setFault name fault => coordinator.setFault name fault
  | .scrape => coordinator.scrape.1
  | .collect => coordinator.collect.1

def Operation.name? : Operation → Option String
  | .register collector => some collector.name
  | _ => none

/-- The collections that an operation attempts: a scrape asks every collector. -/
def attempts (coordinator : Coordinator) : Operation → List Attempt
  | .scrape => coordinator.collectors.map Collector.attempt
  | .collect => coordinator.collectors.map Collector.attempt
  | _ => []

def run (coordinator : Coordinator) (operations : List Operation) : Coordinator :=
  operations.foldl perform coordinator

def log (coordinator : Coordinator) : List Operation → List Attempt
  | [] => []
  | operation :: later => coordinator.attempts operation ++ (coordinator.perform operation).log later

/-- What a history leaves: the collectors in the order of first registration, and tallies of what was
attempted. -/
structure Kept (coordinator : Coordinator) (registered : List String) (past : List Attempt) : Prop where
  names : coordinator.names = registered.eraseDups
  tallies : coordinator.telemetry.Tallies past

variable {registered : List String} {past : List Attempt}

theorem names_updateSupply (name : String) (change : Supply → Supply) :
    (coordinator.updateSupply name change).names = coordinator.names := by
  rw [names_eq_makeup, makeup_updateSupply, ← names_eq_makeup]

theorem names_perform_register (collector : Collector) :
    (coordinator.perform (.register collector)).names =
      if collector.name ∈ coordinator.names then coordinator.names
      else coordinator.names ++ [collector.name] := by
  by_cases taken : collector.name ∈ coordinator.names
  · simp [perform, Coordinator.register, taken]
  · simp only [perform, Coordinator.register, taken, if_false]
    simp [names]

theorem telemetry_perform_register (collector : Collector) :
    (coordinator.perform (.register collector)).telemetry = coordinator.telemetry := by
  by_cases taken : collector.name ∈ coordinator.names
  · simp [perform, Coordinator.register, taken]
  · simp [perform, Coordinator.register, taken]

theorem kept_new : ({} : Coordinator).Kept [] [] where
  names := rfl
  tallies := Telemetry.tallies_nil

theorem Kept.updateSupply (kept : coordinator.Kept registered past) (name : String)
    (change : Supply → Supply) : (coordinator.updateSupply name change).Kept registered past where
  names := (names_updateSupply name change).trans kept.names
  tallies := kept.tallies

theorem Kept.scrape (kept : coordinator.Kept registered past) :
    coordinator.scrape.1.Kept registered (past ++ coordinator.collectors.map Collector.attempt) where
  names := kept.names
  tallies := by
    rw [telemetry_scrape]
    exact kept.tallies.foldl_record _

theorem Kept.perform (kept : coordinator.Kept registered past) (operation : Operation) :
    (coordinator.perform operation).Kept (registered ++ operation.name?.toList)
      (past ++ coordinator.attempts operation) := by
  cases operation with
  | register collector =>
      refine ⟨?_, ?_⟩
      · have mentioned : collector.name ∈ coordinator.names ↔ collector.name ∈ registered := by
          rw [kept.names, List.mem_eraseDups]
        rw [names_perform_register, Operation.name?, Option.toList_some, eraseDups_concat, kept.names]
        simp only [← kept.names, mentioned]
      · rw [telemetry_perform_register]
        simpa [attempts] using kept.tallies
  | replaceResources name resources =>
      have after : (coordinator.replaceResources name resources).Kept registered past :=
        kept.updateSupply name _
      simpa [Operation.name?, attempts, Coordinator.perform] using after
  | setFault name fault =>
      have after : (coordinator.setFault name fault).Kept registered past := kept.updateSupply name _
      simpa [Operation.name?, attempts, Coordinator.perform] using after
  | scrape => simpa [Operation.name?, attempts, Coordinator.perform] using kept.scrape
  | collect =>
      have after : coordinator.collect.1.Kept registered
          (past ++ coordinator.collectors.map Collector.attempt) := kept.scrape
      simpa [Operation.name?, attempts, Coordinator.perform] using after

theorem Kept.run (kept : coordinator.Kept registered past) (operations : List Operation) :
    (coordinator.run operations).Kept (registered ++ operations.filterMap Operation.name?)
      (past ++ coordinator.log operations) := by
  induction operations generalizing coordinator registered past with
  | nil => simpa [run, log] using kept
  | cons operation later ih =>
      have after := ih (kept.perform operation)
      have asked : (operation :: later).filterMap Operation.name? =
          operation.name?.toList ++ later.filterMap Operation.name? := by
        cases named : operation.name? <;> simp [named]
      rw [asked, log, ← List.append_assoc, ← List.append_assoc]
      exact after

/-! ### One collector breaks -/

theorem collectors_setFault {before after : List Collector} {collector : Collector}
    (distinct : coordinator.names.Nodup)
    (registered : coordinator.collectors = before ++ collector :: after) (fault : Option String) :
    (coordinator.setFault collector.name fault).collectors =
      before ++ { collector with supply.fault := fault } :: after := by
  rw [names, registered, List.map_append, List.map_cons] at distinct
  obtain ⟨_, later, apart⟩ := List.nodup_append.mp distinct
  have others : ∀ other ∈ before ++ after, other.name ≠ collector.name := by
    intro other member same
    rcases List.mem_append.mp member with earlier | further
    · exact apart other.name (List.mem_map_of_mem earlier) collector.name (by simp) same
    · exact (List.nodup_cons.mp later).1 (same ▸ List.mem_map_of_mem further)
  have unchanged : ∀ part : List Collector, (∀ other ∈ part, other ∈ before ++ after) →
      part.map (fun other =>
        if other.name = collector.name then { other with supply.fault := fault } else other) = part := by
    intro part within
    refine (List.map_congr_left fun other member => ?_).trans (List.map_id part)
    rw [if_neg (others other (within other member)), id]
  rw [setFault, updateSupply, registered, List.map_append, List.map_cons, if_pos rfl]
  rw [unchanged before fun other member => List.mem_append_left _ member,
    unchanged after fun other member => List.mem_append_right _ member]

/-- A scrape returns the rows of the collectors that work, also when they are put under their families;
whether one collector works is seen in its own rows only. -/
structure Isolates (coordinator : Coordinator) : Prop where
  rows : coordinator.scrape.2.rows = workingRows coordinator.collectors
  grouped : coordinator.collect.2 = coordinator.families.map fun family =>
    (family, (workingRows coordinator.collectors).filter fun row => row.family.name = family.name)
  broken : ∀ before collector after, coordinator.collectors = before ++ collector :: after → ∀ text,
    (coordinator.setFault collector.name (some text)).scrape.2.rows =
      workingRows before ++ workingRows after
  repaired : ∀ before collector after, coordinator.collectors = before ++ collector :: after →
    (coordinator.setFault collector.name none).scrape.2.rows =
      workingRows before ++ collector.fullRows ++ workingRows after

theorem isolates_of_nodup (distinct : coordinator.names.Nodup) : coordinator.Isolates where
  rows := rows_scrape coordinator
  grouped := by
    rw [collect, Exposition.grouped, rows_scrape]
    refine List.map_congr_left fun family _ => ?_
    simp [Exposition.rowsOf, beq_eq_decide]
  broken before collector after registered text := by
    rw [rows_scrape, collectors_setFault distinct registered, workingRows_append, workingRows_cons]
    rfl
  repaired before collector after registered := by
    rw [rows_scrape, collectors_setFault distinct registered, workingRows_append, workingRows_cons,
      List.append_assoc]
    rfl

/-- After every history a scrape takes the collectors in the order in which their names were first
registered, leaves out what fails and nothing else, and all attempts so far are accounted for. -/
theorem scrapes_accounted (operations : List Operation) :
    (({} : Coordinator).run operations).names = (operations.filterMap Operation.name?).eraseDups ∧
      (({} : Coordinator).run operations).Isolates ∧
      (({} : Coordinator).run operations).telemetry.Accounts (({} : Coordinator).log operations) := by
  have kept := kept_new.run operations
  rw [List.nil_append, List.nil_append] at kept
  refine ⟨kept.names, isolates_of_nodup ?_, kept.tallies.accounts⟩
  rw [kept.names]
  exact nodup_eraseDups _

end Coordinator
end MeshGauges
