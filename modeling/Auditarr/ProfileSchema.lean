/-
  Auditarr/ProfileSchema.lean
  ===========================
  **Optimization profiles** (`app/optimization/profile_schema.py`).

  The settings of a profile as far as the queue and the worker read them; what
  only the ffmpeg command line is built from is left out.  As with rules, the
  validators are fields, so that a `ProfileDefinition` is one the schema accepts.
-/
import Auditarr.PyValues

namespace ProfileSchema

open PyValues

inductive VideoCodec where
  | libx265 | libx264 | libaomAv1 | copy
deriving DecidableEq, Repr

inductive AudioCodec where
  | libopus | aac | libmp3lame | copy
deriving DecidableEq, Repr

/-- `SUPPORTED_CONTAINERS`. -/
inductive Container where
  | mkv | mp4 | webm
deriving DecidableEq, Repr

/-- The container as a file name extension. -/
def Container.extension : Container → String
  | .mkv => "mkv"
  | .mp4 => "mp4"
  | .webm => "webm"

inductive TranscodeScope where
  | videoAndAudio | videoOnly | audioOnly
deriving DecidableEq, Repr

inductive RoutingTarget where
  | inProcess | plex | jellyfin | tdarr
deriving DecidableEq, Repr

/-- The target as the integration kind that runs it. -/
def RoutingTarget.kind : RoutingTarget → String
  | .inProcess => "in_process"
  | .plex => "plex"
  | .jellyfin => "jellyfin"
  | .tdarr => "tdarr"

structure OutputSettings where
  container : Container
  replaceInput : Bool
  keepBackup : Bool
deriving DecidableEq

structure ScheduleWindow where
  startHour : Nat
  endHour : Nat
  timezone : String
  start_lt : startHour < 24
  end_lt : endHour < 24
deriving DecidableEq

structure ProfileDefinition where
  videoCodec : VideoCodec
  audioCodec : AudioCodec
  output : OutputSettings
  skipIfBitrateBelowKbps : Option Nat
  transcodeScope : TranscodeScope
  tagScope : List String
  routingTarget : RoutingTarget
  scheduleWindow : Option ScheduleWindow
  /-- `provider_metadata["provider_profile_id"]`. -/
  providerProfileId : Option String
  tags_nonblank : ∀ tag ∈ tagScope, strip tag ≠ ""
  tags_length : ∀ tag ∈ tagScope, tag.length ≤ 64
  tags_nodup : tagScope.Nodup
  audio_reencodes : transcodeScope = .audioOnly → audioCodec ≠ .copy
  video_reencodes : transcodeScope = .videoOnly → videoCodec ≠ .copy
  not_jellyfin : routingTarget ≠ .jellyfin
  tdarr_profile : routingTarget = .tdarr → ∃ id, providerProfileId = some id ∧ strip id ≠ ""

/-! ### Profiles without tags that transcode in process -/

theorem no_tags_nonblank : ∀ tag ∈ ([] : List String), strip tag ≠ "" := by
  simp

theorem no_tags_length : ∀ tag ∈ ([] : List String), tag.length ≤ 64 := by
  simp

theorem no_tags_nodup : ([] : List String).Nodup :=
  List.nodup_nil

theorem both_not_audioOnly {codec : AudioCodec} :
    TranscodeScope.videoAndAudio = .audioOnly → codec ≠ .copy := by
  simp

theorem both_not_videoOnly {codec : VideoCodec} :
    TranscodeScope.videoAndAudio = .videoOnly → codec ≠ .copy := by
  simp

theorem inProcess_not_jellyfin : RoutingTarget.inProcess ≠ .jellyfin := by
  simp

theorem inProcess_not_tdarr :
    RoutingTarget.inProcess = .tdarr → ∃ id, (none : Option String) = some id ∧ strip id ≠ "" := by
  simp

/-! ### Windows -/

/-- `schedule_window_is_open`; `hourIn` is the hour of the moment in a time zone. -/
def scheduleWindowIsOpen (hourIn : String → Nat) : Option ScheduleWindow → Bool
  | none => true
  | some window =>
      let h := hourIn window.timezone
      if window.startHour = window.endHour then true
      else if window.startHour < window.endHour then window.startHour ≤ h && h < window.endHour
      else window.startHour ≤ h || h < window.endHour

end ProfileSchema
