import LanScan.Native.Android.Handler
import LanScan.Spec.Android.ScannerStep
import LanScan.Spec.Sessions

/-!
# What one step of the handler can do (Android)

A step of the handler starts a session, or is a step of one scanner at most: the one that
`lanDeviceScanner` refers to in `onCancel`, any other one on its own.

## Key results

- `evolves_of_step`: a step of the handler is at most one step of one scanner
-/

namespace LanScan.Android.Handler

variable {s s' : State} {l : Label}

/-- The step of a scanner that a step of the handler is. -/
def State.scannerLabel (s : State) : Label → Option (Nat × Scanner.Label)
  | .onCancel => s.lanDeviceScanner.map (·, .stopCancel)
  | .onCancelPost => s.lanDeviceScanner.map (·, .stopPost)
  | .session i label => some (i, label)
  | .onListen _ _ _ => none

/-- A step of the handler is no step of a scanner, or one that meets `c`. -/
def Lifted (c : Scanner.State → Scanner.Label → Prop) (s : State) (l : Label) : Prop :=
  StepMeets State.sessions State.scannerLabel (Session.Meets c) s l

instance (c : Scanner.State → Scanner.Label → Prop) [∀ scanner label, Decidable (c scanner label)]
    (s : State) (l : Label) : Decidable (Lifted c s l) :=
  inferInstanceAs (Decidable (StepMeets _ _ _ s l))

/-- A step of a scanner that meets `c`. -/
def ScannerStep (c : Scanner.State → Scanner.Label → Prop) (cfg : Scanner.Config)
    (scanner scanner' : Scanner.State) : Prop :=
  ∃ label, c scanner label ∧ Scanner.Transition cfg scanner label scanner'

/-- A step of the scanner of session `i`. -/
theorem evolves_of_stepScanner {c : Scanner.State → Scanner.Label → Prop} {i : Nat}
    {cfg : Scanner.Config} {scanner : Scanner.State} {label : Scanner.Label} (t : State)
    (hi : t.sessions[i]? = some (.scan cfg scanner)) (hc : c scanner label)
    (h : t.stepScanner i cfg scanner label = some s') :
    Evolves (Session.Fresh Scanner.init) (Session.Step (ScannerStep c)) t.sessions s'.sessions := by
  obtain ⟨scanner', hstep, rfl⟩ := Option.map_eq_some_iff.mp h
  exact .move hi (.scan ⟨label, hc, Scanner.transition_of_step hstep⟩)

/-- A step of the handler starts a session, or is a step of at most one. -/
theorem evolves_of_step {c : Scanner.State → Scanner.Label → Prop} (hc : Lifted c s l)
    (h : step s l = some s') :
    Evolves (Session.Fresh Scanner.init) (Session.Step (ScannerStep c)) s.sessions s'.sessions := by
  cases l with
  | onListen isEnabled isConnectedWifi cfg =>
    simp only [step] at h
    split at h
    · cases h
    · split at h <;> cases h
      -- a session starts, with a scan or without WiFi
      · exact .start (.scan cfg)
      · exact .start .noWifi
  | onCancel =>
    simp only [step] at h
    split at h
    · split at h
      · cases h
        exact .same
      · next i cfg scanner hscanner =>
        -- `stopScanning` takes its first step in the last session
        obtain ⟨hlast, hi⟩ := Session.getElem?_of_scannerOf hscanner
        have hc := hc.of_label (by rw [State.scannerLabel, hlast]; rfl) hi
        exact evolves_of_stepScanner { s with listening := false, cancelling := true } hi hc h
    · cases h
  | onCancelPost =>
    simp only [step] at h
    split at h
    · split at h
      · cases h
      · next i cfg scanner hscanner =>
        obtain ⟨hlast, hi⟩ := Session.getElem?_of_scannerOf hscanner
        have hc := hc.of_label (by rw [State.scannerLabel, hlast]; rfl) hi
        -- and posts its null there
        exact evolves_of_stepScanner { s with cancelling := false } hi hc h
    · cases h
  | session i label =>
    simp only [step] at h
    split at h
    · cases h
    · next cfg scanner hi =>
      have hc := hc.of_label rfl hi
      split at h
      · cases h
      · cases h
      · exact evolves_of_stepScanner s hi hc h
    · next looper hi =>
      split at h
      -- without WiFi the session can only deliver its null
      · obtain ⟨looper', hdeliver, rfl⟩ := Option.map_eq_some_iff.mp h
        exact .move hi (.deliver hdeliver)
      · cases h

/-- What holds of a scanner when it is started, and is kept by its steps that meet `c`, holds of
    the scanners of all sessions in a run whose steps meet `d`. -/
theorem forall_session_of_run {c : Scanner.State → Scanner.Label → Prop}
    (d : State → Label → Prop) [∀ s l, Decidable (d s l)]
    (hlift : ∀ s l s', d s l → step s l = some s' → Lifted c s l) {P : Scanner.State → Prop}
    (hinit : P Scanner.init)
    (hstep : ∀ cfg scanner label scanner', P scanner → c scanner label →
      Scanner.Transition cfg scanner label scanner' → P scanner') {ls : List Label}
    (h : (handler.restrict d).run init ls = some s) :
    ∀ session ∈ s.sessions, session.Holds P := by
  refine handler.forall_component_of_run d (fun _ => True) State.sessions
    (fun s l s' _ hd hstep => ⟨trivial, evolves_of_step (hlift s l s' hd hstep) hstep⟩)
    (Session.Holds.of_fresh hinit) (Session.Holds.of_step ?_) trivial
    (fun _ hmem => absurd hmem List.not_mem_nil) h
  rintro cfg scanner scanner' hP ⟨label, hc, htransition⟩
  exact hstep cfg scanner label scanner' hP hc htransition

end LanScan.Android.Handler
