import MeshGauges.CommandLine
import MeshGauges.Proofs.Settings.Refusal

/-! Settings, one at a time.

What a run holds for a setting is read from the text of that setting alone (`Setting.read`). Settings are
loaded exactly when each of them can be read and what was read is in range, and then they hold what was
read (`loadTexts_eq_ok_iff`). A setting without a text is read like its default text. -/

set_option autoImplicit false

namespace MeshGauges

open CommandLine Number

/-- What a run holds for one setting. -/
inductive SettingValue where
  | text (text : String)
  | optional (text? : Option String)
  | integer (value : Int)
  | period (value : Float)
  | names (names : List String)

def Settings.value (settings : Settings) : Setting → SettingValue
  | .apiserver => .optional settings.apiserver
  | .kubeconfig => .optional settings.kubeconfig
  | .metricsPort => .integer settings.metricsPort
  | .metricsHost => .text settings.metricsHost
  | .telemetryPort => .integer settings.telemetryPort
  | .telemetryHost => .text settings.telemetryHost
  | .collectors => .names settings.collectors
  | .namespaces => .names settings.namespaces
  | .resyncPeriod => .period settings.resyncPeriod
  | .logLevel => .text settings.logLevel

namespace Setting

/-- Read a setting from its own text. -/
def read (setting : Setting) (text? : Option String) : Except SettingsError SettingValue :=
  match setting with
  | .apiserver | .kubeconfig => .ok (.optional (Settings.nonEmpty text?))
  | .metricsPort => (Settings.integerOf .metricsPort text? 9090).map .integer
  | .telemetryPort => (Settings.integerOf .telemetryPort text? 9093).map .integer
  | .metricsHost | .telemetryHost => .ok (.text (text?.getD "0.0.0.0"))
  | .collectors =>
      (Catalog.select (Settings.optionalItems text?)).map fun selected =>
        .names (selected.map CatalogEntry.name)
  | .namespaces => (Settings.selectNamespaces (Settings.optionalItems text?)).map .names
  | .resyncPeriod => (Settings.floatOf .resyncPeriod text? 300.0).map .period
  | .logLevel => .ok (.text (text?.getD "INFO"))

def defaultText : Setting → String
  | .apiserver | .kubeconfig => ""
  | .metricsPort => "9090"
  | .telemetryPort => "9093"
  | .metricsHost | .telemetryHost => "0.0.0.0"
  | .collectors => "destinationrules,rules,virtualservices"
  | .namespaces => "*"
  | .resyncPeriod => "300.0"
  | .logLevel => "INFO"

theorem read_defaultText (setting : Setting) : setting.read (some setting.defaultText) = setting.read none := by
  cases setting <;> rfl

end Setting

namespace Settings

/-- Settings are in range when the period is not at most zero and the ports are ports. -/
theorem validate_eq_ok_iff {settings : Settings} :
    settings.validate = .ok () ↔ ¬ settings.resyncPeriod ≤ 0.0 ∧ isPort settings.metricsPort = true ∧
      isPort settings.telemetryPort = true := by
  unfold validate
  constructor
  · intro valid
    split at valid
    · cases valid
    · next positive =>
        split at valid
        · cases valid
        · next metrics =>
            split at valid
            · cases valid
            · next telemetry => exact ⟨positive, by simpa using metrics, by simpa using telemetry⟩
  · rintro ⟨positive, metrics, telemetry⟩
    simp [positive, metrics, telemetry]

end Settings

/-- Load settings from one text for each of them, with the collectors that they select. -/
def loadTexts (text? : Setting → Option String) : Except SettingsError Settings := do
  let settings ← Settings.load text?
  let selected ← Catalog.select settings.collectors
  return { settings with collectors := selected.map CatalogEntry.name }

theorem loadSettings_eq (sources : SettingSources) : loadSettings sources = loadTexts sources.resolve := rfl

variable {text? other : Setting → Option String} {settings : Settings}

theorem loadTexts_eq_ok_iff : loadTexts text? = .ok settings ↔
    (∀ setting : Setting, setting.read (text? setting) = .ok (settings.value setting)) ∧
      settings.validate = .ok () := by
  constructor
  · intro loaded
    obtain ⟨early, accepted, loaded⟩ := bind_eq_ok_iff.mp loaded
    obtain ⟨selected, selects, final⟩ := bind_eq_ok_iff.mp loaded
    obtain ⟨_, made, accepted⟩ := bind_eq_ok_iff.mp accepted
    obtain ⟨⟨⟩, valid, same⟩ := bind_eq_ok_iff.mp accepted
    obtain ⟨metricsPort, readMetricsPort, made⟩ := bind_eq_ok_iff.mp made
    obtain ⟨telemetryPort, readTelemetryPort, made⟩ := bind_eq_ok_iff.mp made
    obtain ⟨namespaces, readNamespaces, made⟩ := bind_eq_ok_iff.mp made
    obtain ⟨resyncPeriod, readPeriod, made⟩ := bind_eq_ok_iff.mp made
    cases made
    cases same
    cases final
    refine ⟨fun setting => ?_, valid⟩
    cases setting with
    | metricsPort => exact map_eq_ok_iff.mpr ⟨_, readMetricsPort, rfl⟩
    | telemetryPort => exact map_eq_ok_iff.mpr ⟨_, readTelemetryPort, rfl⟩
    | namespaces => exact map_eq_ok_iff.mpr ⟨_, readNamespaces, rfl⟩
    | resyncPeriod => exact map_eq_ok_iff.mpr ⟨_, readPeriod, rfl⟩
    | collectors => exact map_eq_ok_iff.mpr ⟨_, selects, rfl⟩
    | apiserver | kubeconfig | metricsHost | telemetryHost | logLevel => rfl
  · rintro ⟨reads, valid⟩
    obtain ⟨metricsHost, metricsPort, telemetryHost, telemetryPort, collectors, namespaces, kubeconfig,
      apiserver, resyncPeriod, logLevel⟩ := settings
    obtain ⟨_, readMetricsPort, ⟨⟩⟩ := map_eq_ok_iff.mp (reads .metricsPort)
    obtain ⟨_, readTelemetryPort, ⟨⟩⟩ := map_eq_ok_iff.mp (reads .telemetryPort)
    obtain ⟨_, readNamespaces, ⟨⟩⟩ := map_eq_ok_iff.mp (reads .namespaces)
    obtain ⟨_, readPeriod, ⟨⟩⟩ := map_eq_ok_iff.mp (reads .resyncPeriod)
    obtain ⟨selected, selects, ⟨⟩⟩ := map_eq_ok_iff.mp (reads .collectors)
    cases reads .apiserver
    cases reads .kubeconfig
    cases reads .metricsHost
    cases reads .telemetryHost
    cases reads .logLevel
    rw [loadTexts, Settings.load, Settings.ofTexts, readMetricsPort, readTelemetryPort, readNamespaces,
      readPeriod]
    refine bind_eq_ok_iff.mpr ⟨_, bind_eq_ok_iff.mpr ⟨_, rfl, bind_eq_ok_iff.mpr ⟨(), valid, rfl⟩⟩, ?_⟩
    exact bind_eq_ok_iff.mpr ⟨selected, selects, rfl⟩

/-- Texts that are read alike are loaded alike, faults included. -/
theorem loadTexts_congr
    (same : ∀ setting : Setting, setting.read (text? setting) = setting.read (other setting)) :
    loadTexts text? = loadTexts other := by
  have metricsPort := map_injective (fun _ _ => SettingValue.integer.inj) (same .metricsPort)
  have telemetryPort := map_injective (fun _ _ => SettingValue.integer.inj) (same .telemetryPort)
  have namespaces := map_injective (fun _ _ => SettingValue.names.inj) (same .namespaces)
  have resyncPeriod := map_injective (fun _ _ => SettingValue.period.inj) (same .resyncPeriod)
  have metricsHost := SettingValue.text.inj (Except.ok.inj (same .metricsHost))
  have telemetryHost := SettingValue.text.inj (Except.ok.inj (same .telemetryHost))
  have logLevel := SettingValue.text.inj (Except.ok.inj (same .logLevel))
  have apiserver := SettingValue.optional.inj (Except.ok.inj (same .apiserver))
  have kubeconfig := SettingValue.optional.inj (Except.ok.inj (same .kubeconfig))
  have collectors : List.map CatalogEntry.name <$> Catalog.select (Settings.optionalItems (text? .collectors)) =
      List.map CatalogEntry.name <$> Catalog.select (Settings.optionalItems (other .collectors)) := by
    refine map_injective (fun _ _ => SettingValue.names.inj) ?_
    rw [← comp_map, ← comp_map]
    exact same .collectors
  simp only [loadTexts, Settings.load, Settings.ofTexts, bind_assoc, pure_bind, metricsPort, telemetryPort,
    namespaces, resyncPeriod, metricsHost, telemetryHost, logLevel, apiserver, kubeconfig]
  refine bind_congr fun metricsPort => bind_congr fun telemetryPort => bind_congr fun namespaces =>
    bind_congr fun resyncPeriod => bind_congr fun _ => ?_
  generalize Catalog.select (Settings.optionalItems (text? .collectors)) = first at collectors ⊢
  generalize Catalog.select (Settings.optionalItems (other .collectors)) = second at collectors ⊢
  cases first with
  | error =>
      cases second with
      | error => cases collectors; rfl
      | ok => cases collectors
  | ok selected =>
      cases second with
      | error => cases collectors
      | ok others =>
          have named : selected.map CatalogEntry.name = others.map CatalogEntry.name :=
            Except.ok.inj collectors
          simp only [bind, Except.bind, named]

end MeshGauges
