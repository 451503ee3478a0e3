import LanScan.ForStd.Components
import LanScan.Native.Session

/-!
# How sessions evolve

The sessions of a handler are components: `onListen` adds a fresh one, and every other step
concerns one of them at most.  What a scanner keeps from its start on holds of the scanners of
all sessions.

## Key results

- `getElem?_of_scannerOf`: the scanner that a handler refers to is the one of its session
- `Holds.of_fresh`, `Holds.of_step`: what carries over from the scanners to the sessions
-/

namespace LanScan.Session

variable {Config Scanner Label : Type}

/-- The scanner of `lanDeviceScanner` is the one of its session. -/
theorem getElem?_of_scannerOf {sessions : List (Session Config Scanner)}
    {lanDeviceScanner : Option Nat} {i : Nat} {cfg : Config} {scanner : Scanner}
    (h : scannerOf sessions lanDeviceScanner = some (i, cfg, scanner)) :
    lanDeviceScanner = some i ∧ sessions[i]? = some (.scan cfg scanner) := by
  simp only [scannerOf] at h
  split at h
  · cases h
  · split at h
    · next hi =>
      cases h
      exact ⟨rfl, hi⟩
    · cases h

/-- A session as `onListen` leaves it, with a scanner in state `init`. -/
inductive Fresh (init : Scanner) : Session Config Scanner → Prop
  | scan (cfg : Config) : Fresh init (.scan cfg init)
  | noWifi : Fresh init (.noWifi (Fifo.empty.post .null))

/-- A step of one session: its scanner takes a step in `R`, or its null is delivered. -/
inductive Step (R : Config → Scanner → Scanner → Prop) :
    Session Config Scanner → Session Config Scanner → Prop
  | scan {cfg : Config} {scanner scanner' : Scanner} (h : R cfg scanner scanner') :
      Step R (.scan cfg scanner) (.scan cfg scanner')
  | deliver {queue queue' : Fifo Event} (h : queue.deliver = some queue') :
      Step R (.noWifi queue) (.noWifi queue')

/-- The scanner of a session meets `c` with a label. -/
def Meets (c : Scanner → Label → Prop) : Session Config Scanner → Label → Prop
  | .scan _ scanner, label => c scanner label
  | .noWifi _, _ => True

instance (c : Scanner → Label → Prop) [∀ scanner label, Decidable (c scanner label)] :
    ∀ (session : Session Config Scanner) (label : Label), Decidable (session.Meets c label)
  | .scan _ scanner, label => inferInstanceAs (Decidable (c scanner label))
  | .noWifi _, _ => inferInstanceAs (Decidable True)

/-- `P` holds of the scanner of a session.  Without WiFi the null is all there is. -/
def Holds (P : Scanner → Prop) : Session Config Scanner → Prop
  | .scan _ scanner => P scanner
  | .noWifi queue => queue.all = [.null]

/-- A new session has what a new scan has. -/
theorem Holds.of_fresh {P : Scanner → Prop} {init : Scanner} (hinit : P init)
    (session : Session Config Scanner) (h : Fresh init session) : session.Holds P := by
  cases h with
  | scan => exact hinit
  | noWifi => rfl

/-- A step of the scan that keeps it keeps it for the session. -/
theorem Holds.of_step {P : Scanner → Prop} {R : Config → Scanner → Scanner → Prop}
    (hstep : ∀ cfg scanner scanner', P scanner → R cfg scanner scanner' → P scanner')
    (session session' : Session Config Scanner) (hs : session.Holds P)
    (h : Step R session session') : session'.Holds P := by
  cases h with
  | scan hR => exact hstep _ _ _ hs hR
  | deliver hdeliver => exact (Fifo.all_of_deliver hdeliver).trans hs

end LanScan.Session
