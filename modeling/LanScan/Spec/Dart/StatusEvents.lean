import Mathlib.Data.List.Destutter
import LanScan.Native.Dart.MethodChannel

/-!
# The WiFi status on the Dart side

`distinct` leaves one event of each run of equal ones: no status is repeated, none is made up, and
the last one stands for the last event.

## Key results

- `wifiConnectionStatusChange_eq_destutter`: what `distinct` is as a list
- `getLast?_wifiConnectionStatusChange`: the stream is up to date
-/

namespace LanScan.Dart

/-- Behind an event, the ones that differ from the last are let through. -/
theorem go_some_eq (previous : Bool) (events : List Bool) :
    previous :: wifiConnectionStatusChange.go (some previous) events =
      events.destutter' (· ≠ ·) previous := by
  induction events generalizing previous with
  | nil => rfl
  | cons event events ih =>
    rw [wifiConnectionStatusChange.go]
    by_cases h : previous = event
    · rw [if_pos (congrArg some h), List.destutter'_cons_neg _ (by simpa using h), ih]
    · rw [if_neg (by simpa using h), List.destutter'_cons_pos _ h, ih]

/-- `distinct` lets one event of each group of equal ones through. -/
theorem wifiConnectionStatusChange_eq_destutter (events : List Bool) :
    wifiConnectionStatusChange events = events.destutter (· ≠ ·) := by
  cases events with
  | nil => rfl
  | cons event events =>
    rw [wifiConnectionStatusChange, wifiConnectionStatusChange.go, if_neg nofun, go_some_eq,
      List.destutter_cons']

/-- No status is followed by the same one. -/
theorem isChain_wifiConnectionStatusChange (events : List Bool) :
    (wifiConnectionStatusChange events).IsChain (· ≠ ·) := by
  rw [wifiConnectionStatusChange_eq_destutter]
  exact List.isChain_destutter _ events

/-- The last event is that of the last group. -/
theorem getLast?_destutter' (previous : Bool) (events : List Bool) :
    (events.destutter' (· ≠ ·) previous).getLast? = (previous :: events).getLast? := by
  induction events generalizing previous with
  | nil => rfl
  | cons event events ih =>
    by_cases h : previous = event
    · rw [List.destutter'_cons_neg _ (by simpa using h), ih, h]
      simp
    · rw [List.destutter'_cons_pos _ h, List.getLast?_cons, ih]
      simp [List.getLast?_cons]

/-- The last status of the stream is that of the last event. -/
theorem getLast?_wifiConnectionStatusChange (events : List Bool) :
    (wifiConnectionStatusChange events).getLast? = events.getLast? := by
  rw [wifiConnectionStatusChange_eq_destutter]
  cases events with
  | nil => rfl
  | cons event events => exact getLast?_destutter' event events

end LanScan.Dart
