import LanScan.Spec.Android.ProbesAfterStop
import LanScan.Spec.Android.ScanCorrect
import LanScan.Spec.Ios.PingsAfterStop
import LanScan.Spec.Ios.ScannerOrder

/-!
# Probes after `stopScanning`

A stopped scan goes quiet on both platforms: what each worker has begun with its last check
is all that it still probes.
-/

namespace LanScan

/-- **Bounded probing.** Once a call of `stopScanning` has cancelled the scan, each worker
    starts at most one more probe, and all of them at most `(32 - prefix) * 4`. -/
theorem probes_after_stop :
    (∀ (cfg : Android.Scanner.Config) (ls ks : List Android.Scanner.Label)
        (t s : Android.Scanner.State),
      (Android.Scanner.scanner cfg).run Android.Scanner.init ls = some t →
      .stopCancel ∈ ls → (Android.Scanner.scanner cfg).run t ks = some s →
      (∀ k, (Android.Scanner.scanner cfg).stepCount (Android.Scanner.startsProbe cfg k) t ks ≤ 1) ∧
      s.probed.length ≤ t.probed.length + cfg.workerCount ∧
      (-32768 ≤ cfg.cidrPrefixLength.toInt → cfg.cidrPrefixLength.toInt ≤ 32767 →
        cfg.workerCount = ((32 - cfg.cidrPrefixLength.toInt) * 4).toNat)) ∧
    (∀ (cfg : Ios.Scanner.Config) (ls ks : List Ios.Scanner.Label) (t s : Ios.Scanner.State),
      (Ios.Scanner.scanner cfg).run Ios.Scanner.init ls = some t →
      t.cancelled = true → (Ios.Scanner.scanner cfg).run t ks = some s →
      (∀ k, (Ios.Scanner.scanner cfg).stepCount (Ios.Scanner.startsPing cfg k) t ks ≤ 1) ∧
      s.pings.length ≤ t.pings.length + ((32 - cfg.cidrPrefixLength.toInt) * 4).toNat) := by
  constructor
  · intro cfg ls ks t s ht hstop hs
    -- on Android the coroutine is cancelled, on iOS the task
    have hcancelled := Android.Scanner.cancelled_of_run ht hstop
    exact ⟨Android.Scanner.probes_of_worker_le_one hcancelled hs,
      Android.Scanner.probes_le hcancelled hs, Android.Scanner.workerCount_eq⟩
  · intro cfg ls ks t s ht hcancelled hs
    have hcancelled' : Ios.Scanner.Cancelled cfg t :=
      ⟨hcancelled, Ios.Scanner.length_workers_le_of_run ht⟩
    exact ⟨Ios.Scanner.pings_of_worker_le_one hcancelled' hs, Ios.Scanner.pings_le hcancelled' hs⟩

section Pair

open Android.Scanner in
/-- Both workers with an address have checked `isActive` when the job is cancelled. -/
def stoppedPair : Android.Scanner.State :=
  ((scanner pairConfig).run init [.launch, .worker 0, .worker 1, .stopCancel]).get (by decide)

open Ios.Scanner in
/-- Both workers with an address have checked `Task.isCancelled` when the task is cancelled. -/
def cancelledPair : Ios.Scanner.State :=
  ((scanner pairConfig).run init
    [.assign, .body, .worker 0, .worker 1, .stop, .stop]).get (by decide)

/-- Both then probe. -/
theorem probes_after_stop_pair :
    (∃ s, (Android.Scanner.scanner Android.Scanner.pairConfig).run stoppedPair
        [.worker 0, .worker 1] = some s ∧ s.probed.length = 2 ∧
      s.probed.length ≤ stoppedPair.probed.length + Android.Scanner.pairConfig.workerCount) ∧
    ∃ s, (Ios.Scanner.scanner Ios.Scanner.pairConfig).run cancelledPair
        [.worker 0, .worker 1] = some s ∧ s.pings.length = 2 ∧
      s.pings.length ≤ cancelledPair.pings.length +
        ((32 - Ios.Scanner.pairConfig.cidrPrefixLength.toInt) * 4).toNat :=
  ⟨⟨_, (Option.some_get (by decide)).symm, by decide,
      (probes_after_stop.1 _ _ _ _ _ (Option.some_get _).symm (by decide)
        (Option.some_get (by decide)).symm).2.1⟩,
    ⟨_, (Option.some_get (by decide)).symm, by decide,
      (probes_after_stop.2 _ _ _ _ _ (Option.some_get _).symm (by decide)
        (Option.some_get (by decide)).symm).2⟩⟩

end Pair

end LanScan
