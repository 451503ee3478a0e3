import LanScan.Spec.Ios.ScannerCoverage

/-!
# Correctness of a scan (iOS)

What a scan that is left alone pings and dispatches, whatever the schedule of its
workers and the outcomes of the pings.
-/

namespace LanScan.Ios.Scanner

/-- **Correctness of the scan.** For every IPv4 address and every prefix of 0 to 32 bits
    nothing traps, and every run leads on to a completed one.  A completed run has pinged
    every address strictly between network and broadcast exactly once, as a dotted quad,
    and has delivered one host for each ping that succeeded. -/
theorem scan_covers_subnet (cfg : Config) (hipv4 : 0 ≤ cfg.ipv4.toInt ∧ cfg.ipv4.toInt < 2 ^ 32)
    (hcidr : 0 ≤ cfg.cidrPrefixLength.toInt ∧ cfg.cidrPrefixLength.toInt ≤ 32)
    (ls : List Label) (s : State) (h : (undisturbed cfg).run init ls = some s) :
    s.crashed = false ∧
    (∃ ks t, (undisturbed cfg).run s ks = some t ∧ (undisturbed cfg).Terminal t) ∧
    ((undisturbed cfg).Terminal s →
      s.pings.Nodup ∧
      (∀ ip, ip ∈ s.pings ↔ ∃ x, networkAddress cfg.ipv4 cfg.cidrPrefixLength < x ∧
        x < broadcastAddress cfg.ipv4 cfg.cidrPrefixLength ∧ ip = (Ipv4.ofInt x).text) ∧
      (31 ≤ cfg.cidrPrefixLength.toInt → s.pings = []) ∧
      s.main.queue = [] ∧
      ((hostsOf s.main.delivered).map Host.ip).Perm (s.pings.filter cfg.ping)) := by
  obtain ⟨plan, hplan, -⟩ := scanPlan_eq hipv4 hcidr
  have ha := accounted_of_run hipv4 hcidr hplan h
  refine ⟨ha.crashed, exists_completed_run cfg s, fun hterm => ?_⟩
  -- a scan that can go no further has pinged all addresses of its plan
  obtain ⟨hpings, hhosts⟩ := covered_of_terminal ha hterm
  refine ⟨?_, fun ip => ?_, fun hp => ?_, ?_, hhosts⟩
  · exact hpings.nodup_iff.mpr (nodup_addresses hipv4 hcidr hplan)
  · rw [hpings.mem_iff, mem_addresses hipv4 hcidr hplan]
  · rw [addresses_eq_nil hipv4 hcidr hplan hp] at hpings
    exact hpings.eq_nil
  · exact (completed_of_terminal ha.wellFormed ha.crashed hterm).2.2

/-- A worker of a /30 with an index pings its address and finds a name with mDNS. -/
def workerRun (k : Nat) (hostname : String) : List Label :=
  List.replicate 5 (.worker k) ++ [.stageReturns k (some hostname)] ++ List.replicate 2 (.worker k)

/-- A scan of 192.168.0.0/30, in which both addresses answer. -/
def pairRun : List Label :=
  [.assign, .body] ++ workerRun 0 "tv.local" ++ workerRun 1 "printer" ++
    [2, 3, 4, 5, 6, 7].map .worker ++ [.body, .body, .body, .body, .deliver, .deliver, .deliver]

/-- The state after it. -/
def pairState : State := ((undisturbed pairConfig).run init pairRun).get (by decide)

/-- The run leads there. -/
theorem run_pairRun : (undisturbed pairConfig).run init pairRun = some pairState :=
  (Option.some_get _).symm

/-- There nothing is left to do. -/
theorem terminal_pairState : (undisturbed pairConfig).Terminal pairState :=
  (terminal_iff (wellFormed_of_run (run_of_undisturbed run_pairRun)) (by decide)).mpr (by decide)

/-- Both addresses of the subnet are pinged. -/
theorem scan_covers_subnet_pair :
    pairState.pings.Nodup ∧
    (∀ ip, ip ∈ pairState.pings ↔ ∃ x, networkAddress 3232235521 30 < x ∧
      x < broadcastAddress 3232235521 30 ∧ ip = (Ipv4.ofInt x).text) ∧
    (31 ≤ (30 : Int64).toInt → pairState.pings = []) ∧
    pairState.main.queue = [] ∧
    ((hostsOf pairState.main.delivered).map Host.ip).Perm
      (pairState.pings.filter pairConfig.ping) :=
  (scan_covers_subnet pairConfig (by decide) (by decide) pairRun pairState run_pairRun).2.2
    terminal_pairState

end LanScan.Ios.Scanner
