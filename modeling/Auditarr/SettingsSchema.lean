/-
  Auditarr/SettingsSchema.lean
  ============================
  **Settings that may be edited at runtime** (`app/core/runtime_settings_schema.py`,
  `app/core/settings.py`).

  A key on the list may be given another value while the process runs.  The value is first
  brought into the shape of the field, and then validated by the field's type and
  constraints.  What the validation returns it accepts again unchanged
  (`validateRuntimeSetting_again`), which is what lets a stored value be validated anew at
  each load.
-/
import Auditarr.PyValues

namespace SettingsSchema

open PyValues

inductive FieldType where
  | str | int | bool | stringList
deriving DecidableEq, Repr

/-- `field_constraints`. -/
structure Constraints where
  ge : Option Int := none
  le : Option Int := none
  minLength : Option Nat := none
  maxLength : Option Nat := none
  pattern : Option String := none

/-- `RuntimeFieldSpec`, as far as a write reads it. -/
structure RuntimeFieldSpec where
  key : String
  fieldType : FieldType
  fieldDefault : PyValue
  fieldConstraints : Constraints

def between (low high : Int) : Constraints := { ge := some low, le := some high }

/-- `RUNTIME_EDITABLE`. -/
def RUNTIME_EDITABLE : List RuntimeFieldSpec :=
  [⟨"log_level", .str, .str "info", { pattern := some "^(debug|info|warning|error|critical)$" }⟩,
   ⟨"access_token_ttl_minutes", .int, .int 30, between 1 1440⟩,
   ⟨"refresh_token_ttl_days", .int, .int 14, between 1 90⟩,
   ⟨"ws_require_auth", .bool, .bool true, {}⟩,
   ⟨"auth_rate_limit_attempts", .int, .int 10, between 1 1000⟩,
   ⟨"auth_rate_limit_window_seconds", .int, .int 300, between 10 86400⟩,
   ⟨"scanner_ffprobe_timeout_seconds", .int, .int 30, between 1 600⟩,
   ⟨"scanner_worker_concurrency", .int, .int 4, between 1 32⟩,
   ⟨"scanner_max_file_size_mb", .int, .int 51200, between 1 1048576⟩,
   ⟨"update_feed_url", .str, .str "https://api.github.com/repos/ShogyX/Auditarr/commits/main",
     { minLength := some 1, maxLength := some 1024, pattern := some "^https?://" }⟩,
   ⟨"update_check_interval_minutes", .int, .int 60, between 5 1440⟩,
   ⟨"update_install_mode", .str, .str "auto",
     { pattern := some "^(auto|docker|bare-metal|unmanaged)$" }⟩,
   ⟨"plugin_gallery_url", .str,
     .str "https://raw.githubusercontent.com/auditarr/plugins/main/gallery.json",
     { maxLength := some 1024 }⟩,
   ⟨"housekeeping_delivery_retention_days", .int, .int 30, between 0 3650⟩,
   ⟨"housekeeping_update_check_retention_days", .int, .int 90, between 0 3650⟩,
   ⟨"housekeeping_rule_evaluation_retention_days", .int, .int 0, between 0 3650⟩,
   ⟨"housekeeping_job_run_retention_days", .int, .int 60, between 0 3650⟩,
   ⟨"notifications_webhook_default_timeout_seconds", .int, .int 10, between 1 120⟩,
   ⟨"notifications_webhook_max_retries", .int, .int 3, between 0 10⟩,
   ⟨"virustotal_enabled", .bool, .bool false, {}⟩,
   ⟨"virustotal_scan_on_import", .bool, .bool false, {}⟩,
   ⟨"virustotal_rescan_interval_days", .int, .int 30, between 0 365⟩,
   ⟨"virustotal_daily_quota", .int, .int 250, between 0 100000⟩,
   ⟨"dashboard_issue_min_severity", .str, .str "warn",
     { pattern := some "^(info|warn|high|error|crit)$" }⟩,
   ⟨"optimization_in_process_runner_enabled", .bool, .bool true, {}⟩,
   ⟨"optimization_hwaccel_warning_acknowledged", .bool, .bool false, {}⟩,
   ⟨"preferred_audio_languages", .stringList, .ofStrings ["eng"], {}⟩,
   ⟨"preferred_subtitle_languages", .stringList, .ofStrings ["eng"], {}⟩]

/-- `RUNTIME_EDITABLE_BY_KEY.get(key)`. -/
def specOf (key : String) : Option RuntimeFieldSpec := RUNTIME_EDITABLE.find? (·.key = key)

/-- What an attribute of `Settings` may hold. -/
inductive Setting where
  | value (v : PyValue)
  /-- `PydanticUndefined`. -/
  | undefined

/-- `Settings.model_fields[key].default` of the fields that may be edited.  The two that have
    a factory have no default. -/
def modelFieldDefaults : List (String × Setting) :=
  [("log_level", .value (.str "info")),
   ("access_token_ttl_minutes", .value (.int 30)),
   ("refresh_token_ttl_days", .value (.int 14)),
   ("ws_require_auth", .value (.bool true)),
   ("auth_rate_limit_attempts", .value (.int 10)),
   ("auth_rate_limit_window_seconds", .value (.int 300)),
   ("scanner_ffprobe_timeout_seconds", .value (.int 30)),
   ("scanner_worker_concurrency", .value (.int 4)),
   ("scanner_max_file_size_mb", .value (.int 51200)),
   ("update_feed_url", .value (.str "https://api.github.com/repos/ShogyX/Auditarr/commits/main")),
   ("update_check_interval_minutes", .value (.int 60)),
   ("update_install_mode", .value (.str "auto")),
   ("plugin_gallery_url",
     .value (.str "https://raw.githubusercontent.com/auditarr/plugins/main/gallery.json")),
   ("housekeeping_delivery_retention_days", .value (.int 30)),
   ("housekeeping_update_check_retention_days", .value (.int 90)),
   ("housekeeping_rule_evaluation_retention_days", .value (.int 0)),
   ("housekeeping_job_run_retention_days", .value (.int 60)),
   ("notifications_webhook_default_timeout_seconds", .value (.int 10)),
   ("notifications_webhook_max_retries", .value (.int 3)),
   ("virustotal_enabled", .value (.bool false)),
   ("virustotal_scan_on_import", .value (.bool false)),
   ("virustotal_rescan_interval_days", .value (.int 30)),
   ("virustotal_daily_quota", .value (.int 250)),
   ("dashboard_issue_min_severity", .value (.str "warn")),
   ("optimization_in_process_runner_enabled", .value (.bool true)),
   ("optimization_hwaccel_warning_acknowledged", .value (.bool false)),
   ("preferred_audio_languages", .undefined),
   ("preferred_subtitle_languages", .undefined)]

/-! ### Validation -/

/-- Library functions: `str.lower`, `str` of a value that is no string, `repr`, and the
    validator built for a field, which returns the value or the message of its first
    error. -/
structure SettingsRuntime where
  lower : String → String
  str : PyValue → String
  repr : String → String
  validated : RuntimeFieldSpec → PyValue → Except String PyValue

/-- What the library promises: lowering twice is lowering once, and brings in no blanks; a
    value that a validator returned it accepts as it is; of the values of a document, a
    field of text or of texts accepts its own only, and keeps them. -/
structure SettingsRuntime.Lawful (rt : SettingsRuntime) : Prop where
  lower_lower : ∀ s, rt.lower (rt.lower s) = rt.lower s
  strip_lower : ∀ s, strip (rt.lower (strip s)) = rt.lower (strip s)
  lower_ne : ∀ s, s ≠ "" → rt.lower s ≠ ""
  validated_again : ∀ spec v w, rt.validated spec v = .ok w → rt.validated spec w = .ok w
  text_kept : ∀ spec, spec.fieldType = .str ∨ spec.fieldType = .stringList → ∀ v w,
    rt.validated spec v = .ok w → w = v

section Validation

variable (rt : SettingsRuntime)

/-- `str(v)`. -/
def text : PyValue → String
  | .str s => s
  | v => rt.str v

/-- `s.strip().lower()`, unless `s` is blank. -/
def lowered (s : String) : Option String :=
  if strip s = "" then none else some (rt.lower (strip s))

/-- A list of texts from the text that an operator typed, or from a list. -/
def precoerced (spec : RuntimeFieldSpec) (value : PyValue) : PyValue :=
  match spec.fieldType, value with
  | .stringList, .str s =>
      .ofStrings ((s.toList.splitOn ',').filterMap fun part => lowered rt (String.ofList part))
  | .stringList, .list items => .ofStrings (items.filterMap fun v => lowered rt (text rt v))
  | _, v => v

def isHttpUrl (s : String) : Bool :=
  "http://".toList.isPrefixOf s.toList || "https://".toList.isPrefixOf s.toList

/-- The check that the gallery's address has of its own. -/
def galleryRefused (key : String) : PyValue → Bool
  | .str s => decide (key = "plugin_gallery_url" ∧ s ≠ "") && !isHttpUrl s
  | _ => false

def withoutValueError (msg : String) : String :=
  if "Value error, ".toList.isPrefixOf msg.toList then
    String.ofList (msg.toList.drop "Value error, ".length)
  else msg

/-- `validate_runtime_setting`; an error is the text of a `RuntimeSettingValidationError`. -/
def validateRuntimeSetting (key : String) (value : PyValue) : Except String PyValue :=
  match specOf key with
  | none => .error (rt.repr key ++ " is not a runtime-editable setting. " ++
      "Edit the env file and restart the service to change it.")
  | some spec =>
      if galleryRefused key value then
        .error "plugin_gallery_url must be empty (to disable) or an http(s) URL."
      else match rt.validated spec (precoerced rt spec value) with
        | .ok w => .ok w
        | .error msg => .error (key ++ ": " ++ withoutValueError msg)

variable {rt}

theorem validateRuntimeSetting_ok {key : String} {v w : PyValue} :
    validateRuntimeSetting rt key v = .ok w ↔ ∃ spec, specOf key = some spec ∧
      galleryRefused key v = false ∧ rt.validated spec (precoerced rt spec v) = .ok w := by
  unfold validateRuntimeSetting
  cases specOf key with
  | none => simp
  | some spec =>
    cases galleryRefused key v with
    | true => simp
    | false => cases hvalid : rt.validated spec (precoerced rt spec v) <;> simp [hvalid]

theorem lowered_again (hrt : rt.Lawful) {s t : String} (h : lowered rt s = some t) :
    lowered rt t = some t := by
  unfold lowered at h
  split at h
  · cases h
  · rename_i hblank
    cases h
    have hne := hrt.lower_ne _ hblank
    rw [lowered, hrt.strip_lower, if_neg hne, hrt.lower_lower]

theorem filterMap_lowered_again (ss : List String)
    (h : ∀ s ∈ ss, lowered rt s = some s) :
    (ss.map PyValue.str).filterMap (fun v => lowered rt (text rt v)) = ss := by
  induction ss with
  | nil => rfl
  | cons s rest ih =>
    have hs : lowered rt (text rt (.str s)) = some s := h s (List.mem_cons_self ..)
    rw [List.map_cons, List.filterMap_cons, hs, ih fun t ht => h t (List.mem_cons_of_mem _ ht)]

theorem precoerced_again (hrt : rt.Lawful) (spec : RuntimeFieldSpec) (v : PyValue) :
    precoerced rt spec (precoerced rt spec v) = precoerced rt spec v := by
  have hlist : ∀ {α : Type} (f : α → String) (items : List α), spec.fieldType = .stringList →
      precoerced rt spec (.ofStrings (items.filterMap fun a => lowered rt (f a))) =
        .ofStrings (items.filterMap fun a => lowered rt (f a)) := by
    intro α f items htype
    simp only [precoerced, htype, PyValue.ofStrings]
    rw [filterMap_lowered_again]
    intro t ht
    obtain ⟨a, -, ha⟩ := List.mem_filterMap.mp ht
    exact lowered_again hrt ha
  cases htype : spec.fieldType with
  | stringList =>
    cases v with
    | str s => simpa only [precoerced, htype] using hlist String.ofList (s.toList.splitOn ',') htype
    | list items => simpa only [precoerced, htype] using hlist (text rt) items htype
    | _ => simp only [precoerced, htype]
  | _ => simp only [precoerced, htype]

theorem validateRuntimeSetting_again (hrt : rt.Lawful) {key : String} {v w : PyValue}
    (h : validateRuntimeSetting rt key v = .ok w) : validateRuntimeSetting rt key w = .ok w := by
  obtain ⟨spec, hspec, hgallery, hvalid⟩ := validateRuntimeSetting_ok.mp h
  rw [validateRuntimeSetting_ok]
  refine ⟨spec, hspec, ?_, ?_⟩
  · by_cases hkey : key = "plugin_gallery_url"
    · subst hkey
      have hstr : spec.fieldType = .str := by
        cases hspec
        rfl
      have hkept := hrt.text_kept spec (.inl hstr) _ _ hvalid
      simp only [precoerced, hstr] at hkept
      rw [hkept]
      exact hgallery
    · cases w <;> simp [galleryRefused, hkey]
  · cases htype : spec.fieldType with
    | stringList =>
      have hkept := hrt.text_kept spec (.inr htype) _ _ hvalid
      rw [hkept, precoerced_again hrt, ← hkept]
      exact hrt.validated_again spec _ w hvalid
    | _ =>
      simp only [precoerced, htype]
      exact hrt.validated_again spec _ w hvalid

end Validation

end SettingsSchema
