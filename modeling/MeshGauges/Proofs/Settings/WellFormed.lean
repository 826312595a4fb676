import MeshGauges.Proofs.Scrape.Production
import MeshGauges.Proofs.Settings.Loading
import MeshGauges.Proofs.Settings.Namespaces

/-! Settings that start the program are well formed.

Whatever the sources are, loading either gives well-formed settings or refuses the texts with a fault of the
settings, and it gives settings exactly for the texts that `Acceptable` describes. -/

set_option autoImplicit false

namespace MeshGauges

open CommandLine Number

namespace Settings

structure IsWellFormed (settings : Settings) : Prop where
  metricsPort : 1 ≤ settings.metricsPort ∧ settings.metricsPort ≤ 65535
  telemetryPort : 1 ≤ settings.telemetryPort ∧ settings.telemetryPort ≤ 65535
  namespaces : settings.namespaces = [everyNamespace] ∨
    settings.namespaces ≠ [] ∧ settings.namespaces.Nodup ∧
      ∀ name ∈ settings.namespaces, IsDnsLabel name ∧ name ≠ everyNamespace
  collectors : settings.collectors ≠ [] ∧ settings.collectors.Nodup ∧
    ∀ name ∈ settings.collectors, name ∈ Catalog.names
  kubeconfig : settings.kubeconfig ≠ some ""
  apiserver : settings.apiserver ≠ some ""

/-- A text of a port, where there is one, is a whole numeral in the range of ports. -/
def IsPortText (text? : Option String) : Prop :=
  ∀ text, text? = some text → ∃ port, readInteger? text = some port ∧ 1 ≤ port ∧ port ≤ 65535

/-- A text of a period, where there is one, is a numeral that is not at most zero. -/
def IsPeriodText (text? : Option String) : Prop :=
  ∀ text, text? = some text → ∃ period, readFloat? text = some period ∧ ¬ period ≤ 0.0

structure Acceptable (text? : Setting → Option String) : Prop where
  metricsPort : IsPortText (text? .metricsPort)
  telemetryPort : IsPortText (text? .telemetryPort)
  resyncPeriod : IsPeriodText (text? .resyncPeriod)
  namespaces : optionalItems (text? .namespaces) = [everyNamespaceToken] ∨
    ∀ token ∈ optionalItems (text? .namespaces), IsDnsLabel token
  collectors : ∀ name ∈ optionalItems (text? .collectors), name ∈ Catalog.names

/-! ### One setting -/

theorem isPort_iff {port : Int} : isPort port = true ↔ 1 ≤ port ∧ port ≤ 65535 := by
  simp only [isPort, Bool.and_eq_true, decide_eq_true_eq]
  omega

theorem isPortText_iff (setting : Setting) (default : Int) {text? : Option String}
    (within : isPort default = true) :
    IsPortText text? ↔ ∃ port, integerOf setting text? default = .ok port ∧ isPort port = true := by
  cases text? with
  | none =>
      constructor
      · intro _
        exact ⟨default, rfl, within⟩
      · intro _ text given
        cases given
  | some text =>
      simp only [IsPortText, Option.some.injEq, forall_eq', isPort_iff, integerOf]
      cases readInteger? text <;> simp

theorem isPeriodText_iff (setting : Setting) (default : Float) {text? : Option String}
    (positive : ¬ default ≤ 0.0) :
    IsPeriodText text? ↔ ∃ period, floatOf setting text? default = .ok period ∧ ¬ period ≤ 0.0 := by
  cases text? with
  | none =>
      constructor
      · intro _
        exact ⟨default, rfl, positive⟩
      · intro _ text given
        cases given
  | some text =>
      simp only [IsPeriodText, Option.some.injEq, forall_eq', floatOf]
      cases readFloat? text <;> simp

theorem nonEmpty_ne_some_empty (text? : Option String) : nonEmpty text? ≠ some "" := by
  intro empty
  have kept := (Option.filter_eq_some_iff.mp empty).2
  simp at kept

theorem selectNamespaces_optionalItems_iff {text? : Option String} {selected : List String} :
    selectNamespaces (optionalItems text?) = .ok selected ↔
      (optionalItems text? = [everyNamespaceToken] ∨ ∀ token ∈ optionalItems text?, IsDnsLabel token) ∧
        selected = chosen (optionalItems text?) := by
  have labels : (∀ token ∈ optionalItems text?, isNamespaceName token = true) ↔
      ∀ token ∈ optionalItems text?, IsDnsLabel token :=
    forall₂_congr fun token member => isNamespaceName_iff (getLast?_of_mem_optionalItems member)
  rw [selectNamespaces_eq_ok_iff, labels]

/-- The selection of a list of labels is every namespace, or each of the labels once. -/
theorem chosen_wellFormed {tokens : List String}
    (accepted : tokens = [everyNamespaceToken] ∨ ∀ token ∈ tokens, IsDnsLabel token) :
    chosen tokens = [everyNamespace] ∨
      chosen tokens ≠ [] ∧ (chosen tokens).Nodup ∧
        ∀ name ∈ chosen tokens, IsDnsLabel name ∧ name ≠ everyNamespace := by
  by_cases every : tokens = [] ∨ tokens = [everyNamespaceToken]
  · exact .inl (if_pos every)
  · obtain ⟨nonempty, others⟩ := not_or.mp every
    have labels := accepted.resolve_left others
    rw [chosen, if_neg every]
    refine .inr ⟨?_, nodup_eraseDups tokens, fun name member => ?_⟩
    · exact mt eraseDups_eq_nil_iff.mp nonempty
    · have label := labels name (List.mem_eraseDups.mp member)
      refine ⟨label, ?_⟩
      rintro rfl
      exact absurd label.nonempty (by decide)

/-! ### All of them -/

variable {text? : Setting → Option String} {settings : Settings}

theorem isWellFormed_of_load (loaded : loadTexts text? = .ok settings) :
    settings.IsWellFormed ∧ Acceptable text? := by
  obtain ⟨reads, valid⟩ := loadTexts_eq_ok_iff.mp loaded
  obtain ⟨positive, metrics, telemetry⟩ := validate_eq_ok_iff.mp valid
  obtain ⟨_, readMetrics, same⟩ := map_eq_ok_iff.mp (reads .metricsPort)
  obtain rfl := SettingValue.integer.inj same
  obtain ⟨_, readTelemetry, same⟩ := map_eq_ok_iff.mp (reads .telemetryPort)
  obtain rfl := SettingValue.integer.inj same
  obtain ⟨_, readPeriod, same⟩ := map_eq_ok_iff.mp (reads .resyncPeriod)
  obtain rfl := SettingValue.period.inj same
  obtain ⟨_, readNamespaces, same⟩ := map_eq_ok_iff.mp (reads .namespaces)
  obtain rfl := SettingValue.names.inj same
  obtain ⟨selected, selects, same⟩ := map_eq_ok_iff.mp (reads .collectors)
  have collectors : selected.map CatalogEntry.name = settings.collectors := SettingValue.names.inj same
  have kubeconfig : nonEmpty (text? .kubeconfig) = settings.kubeconfig :=
    SettingValue.optional.inj (Except.ok.inj (reads .kubeconfig))
  have apiserver : nonEmpty (text? .apiserver) = settings.apiserver :=
    SettingValue.optional.inj (Except.ok.inj (reads .apiserver))
  obtain ⟨accepted, namespaces⟩ := selectNamespaces_optionalItems_iff.mp readNamespaces
  obtain ⟨named, listed⟩ := Catalog.selects_of_select selects
  constructor
  · refine ⟨isPort_iff.mp metrics, isPort_iff.mp telemetry, ?_, ⟨?_, ?_, ?_⟩, ?_, ?_⟩
    · rw [namespaces]
      exact chosen_wellFormed accepted
    · rw [← collectors, named]
      exact Catalog.enabled_ne_nil _
    · rw [← collectors, named]
      exact Catalog.nodup_enabled _
    · rw [← collectors]
      exact List.map_subset _ listed
    · rw [← kubeconfig]
      exact nonEmpty_ne_some_empty _
    · rw [← apiserver]
      exact nonEmpty_ne_some_empty _
  · exact ⟨(isPortText_iff .metricsPort 9090 rfl).mpr ⟨_, readMetrics, metrics⟩,
      (isPortText_iff .telemetryPort 9093 rfl).mpr ⟨_, readTelemetry, telemetry⟩,
      (isPeriodText_iff .resyncPeriod 300.0 (by decide)).mpr ⟨_, readPeriod, positive⟩, accepted,
      Catalog.select_eq_ok_iff.mp ⟨selected, selects⟩⟩

theorem exists_load_of_acceptable (acceptable : Acceptable text?) :
    ∃ settings, loadTexts text? = .ok settings := by
  obtain ⟨metricsPort, readMetrics, metrics⟩ :=
    (isPortText_iff .metricsPort 9090 rfl).mp acceptable.metricsPort
  obtain ⟨telemetryPort, readTelemetry, telemetry⟩ :=
    (isPortText_iff .telemetryPort 9093 rfl).mp acceptable.telemetryPort
  obtain ⟨resyncPeriod, readPeriod, positive⟩ :=
    (isPeriodText_iff .resyncPeriod 300.0 (by decide)).mp acceptable.resyncPeriod
  have selectsNamespaces := selectNamespaces_optionalItems_iff.mpr ⟨acceptable.namespaces, rfl⟩
  obtain ⟨selected, selects⟩ := Catalog.select_eq_ok_iff.mpr acceptable.collectors
  refine ⟨{
    metricsHost := (text? .metricsHost).getD "0.0.0.0"
    metricsPort := metricsPort
    telemetryHost := (text? .telemetryHost).getD "0.0.0.0"
    telemetryPort := telemetryPort
    collectors := selected.map CatalogEntry.name
    namespaces := chosen (optionalItems (text? .namespaces))
    kubeconfig := nonEmpty (text? .kubeconfig)
    apiserver := nonEmpty (text? .apiserver)
    resyncPeriod := resyncPeriod
    logLevel := (text? .logLevel).getD "INFO" }, loadTexts_eq_ok_iff.mpr ⟨fun setting => ?_, ?_⟩⟩
  · cases setting with
    | metricsPort => exact map_eq_ok_iff.mpr ⟨_, readMetrics, rfl⟩
    | telemetryPort => exact map_eq_ok_iff.mpr ⟨_, readTelemetry, rfl⟩
    | resyncPeriod => exact map_eq_ok_iff.mpr ⟨_, readPeriod, rfl⟩
    | namespaces => exact map_eq_ok_iff.mpr ⟨_, selectsNamespaces, rfl⟩
    | collectors => exact map_eq_ok_iff.mpr ⟨_, selects, rfl⟩
    | apiserver | kubeconfig | metricsHost | telemetryHost | logLevel => rfl
  · exact validate_eq_ok_iff.mpr ⟨positive, metrics, telemetry⟩

/-- Loading gives well-formed settings or a fault of the settings, and which of the two is told by the texts.
So the settings of every start are well formed. -/
theorem wellFormed_or_refused (sources : SettingSources) (arguments : List String) :
    ((∃ settings, loadSettings sources = .ok settings ∧ settings.IsWellFormed ∧
        Acceptable sources.resolve) ∨
      ∃ error, loadSettings sources = .error error ∧ ¬ Acceptable sources.resolve) ∧
    ∀ settings, decideOutcome arguments sources.environment sources.environmentFile = .start settings →
      settings.IsWellFormed := by
  constructor
  · rw [loadSettings_eq]
    cases loaded : loadTexts sources.resolve with
    | error error =>
        refine .inr ⟨error, rfl, fun acceptable => ?_⟩
        obtain ⟨settings, succeeds⟩ := exists_load_of_acceptable acceptable
        rw [loaded] at succeeds
        cases succeeds
    | ok settings => exact .inl ⟨settings, rfl, isWellFormed_of_load loaded⟩
  · intro settings starts
    unfold decideOutcome at starts
    split at starts
    · cases starts
    · cases starts
    · split at starts
      · cases starts
      · next loaded =>
          obtain rfl := Outcome.start.inj starts
          exact (isWellFormed_of_load loaded).1

/-! Names that are given several times, one of them before a line feed. -/

namespace RepeatedNames

def environment : Variables :=
  [("COLLECTORS", " rules,virtualservices ,rules"), ("NAMESPACES", "mesh,edge-1\n,mesh"), ("KUBECONFIG", "")]

theorem repeated_names_wellFormed :
    ∃ settings, decideOutcome ["--port=80"] environment [] = .start settings ∧ settings.IsWellFormed ∧
      settings.namespaces = ["mesh", "edge-1"] ∧ settings.collectors = ["rules", "virtualservices"] := by
  refine ⟨_, rfl, ?_, rfl, rfl⟩
  exact (wellFormed_or_refused ⟨[], environment, []⟩ ["--port=80"]).2 _ rfl

end RepeatedNames
end Settings
end MeshGauges
