import LanScan.Spec.Android.ScanCorrect
import LanScan.Spec.Ios.ScannerCoverage

/-!
# Both platforms scan the same addresses

Both scanners start their workers with the indices that each of them will visit; the
address of an index is computed by each platform in its own arithmetic.  The scans
agree unless Android's arithmetic saturates or `getByAddress` rejects an address.

## Key results

- `probes_eq_of_encodable`: when the workers of both platforms probe the same addresses
- `encodable_of_probes_eq`: in no other case
-/

namespace LanScan

/-- What a worker of the Android scanner probes, in order, as text; `none` stands for an
    address that `getByAddress` rejects.  A step takes the next one from the front
    (`WorkerStep.remaining_eq`), and so on iOS. -/
def Android.Scanner.Worker.probes (cfg : Android.Scanner.Config) (w : Android.Scanner.Worker) :
    List (Option String) :=
  (w.remaining cfg).map fun x => (InetAddress.getByAddress (toByteArray x.toInt)).map
    InetAddress.hostAddress

/-- What a worker of the iOS scanner probes, in order; `none` stands for a trap. -/
def Ios.Scanner.Worker.probes (plan : Ios.ScanPlan) (w : Ios.Scanner.Worker) :
    List (Option String) :=
  w.pending.map plan.ipAddress

variable {a : Android.Scanner.Config} {i : Ios.Scanner.Config} {plan : Ios.ScanPlan}

/-! ## The sequences at the start -/

/-- What the workers of Android probe, in their order. -/
theorem probes_launchWorkers_android (a : Android.Scanner.Config) :
    (Android.Scanner.launchWorkers a).map (Android.Scanner.Worker.probes a) =
      (List.range (Android.scanThreads a.cidrPrefixLength).toInt.toNat).map fun k =>
        (Android.workerIndices a.cidrPrefixLength k).map fun index =>
          (Android.InetAddress.getByAddress (Android.toByteArray
            (Android.numericIp a.ipv4 a.cidrPrefixLength index).toInt)).map
              Android.InetAddress.hostAddress := by
  rw [Android.Scanner.launchWorkers, List.map_map]
  apply List.map_congr_left
  intro k _
  exact List.map_map

/-- What the workers of iOS ping, in their order. -/
theorem probes_launchWorkers_ios (plan : Ios.ScanPlan) :
    (Ios.Scanner.launchWorkers plan).map (Ios.Scanner.Worker.probes plan) =
      (List.range plan.concurrentThreads.toInt.toNat).map fun k =>
        (plan.workerIndices k).map plan.ipAddress := by
  rw [Ios.Scanner.launchWorkers, List.map_map]
  rfl

/-- Both network addresses have the same low 32 bits. -/
theorem networkAddress_emod_eq (hlo : 0 ≤ a.cidrPrefixLength.toInt)
    (hcidr : i.cidrPrefixLength.toInt = a.cidrPrefixLength.toInt)
    (hipv4 : i.ipv4.toInt = a.ipv4.toInt % 2 ^ 32) :
    ∃ c, Android.networkAddress a.ipv4 a.cidrPrefixLength =
      Ios.networkAddress i.ipv4 i.cidrPrefixLength + 2 ^ 32 * c := by
  have hdvd := Int.two_pow_dvd_two_pow (show (32 - a.cidrPrefixLength.toInt).toNat ≤ 32 by omega)
  have hmod := Int.emod_emod_of_dvd a.ipv4.toInt hdvd
  have hdiv := Int.mul_ediv_add_emod a.ipv4.toInt (2 ^ 32)
  refine ⟨a.ipv4.toInt / 2 ^ 32, ?_⟩
  rw [Android.networkAddress, Ios.networkAddress, hcidr, hipv4, hmod]
  omega

/-- Where `getByAddress` accepts the address of an index, both platforms mean the same. -/
theorem probe_eq (hlo : 2 ≤ a.cidrPrefixLength.toInt) (hhi : a.cidrPrefixLength.toInt ≤ 32)
    (hcidr : i.cidrPrefixLength.toInt = a.cidrPrefixLength.toInt)
    (hipv4 : i.ipv4.toInt = a.ipv4.toInt % 2 ^ 32)
    (hplan : Ios.scanPlan i.ipv4 i.cidrPrefixLength = some plan) {index : Int}
    (hindex : index ∈ List.stride 0 (Android.numberOfHosts a.cidrPrefixLength).toInt 1)
    (hiosIndex : index ∈ List.stride 0 plan.numberOfHosts.toInt 1)
    (hfour : Android.HasFourBytes (Android.numericIp a.ipv4 a.cidrPrefixLength index)) :
    (Android.InetAddress.getByAddress (Android.toByteArray
      (Android.numericIp a.ipv4 a.cidrPrefixLength index).toInt)).map
        Android.InetAddress.hostAddress = plan.ipAddress index := by
  obtain ⟨hge, hlt, -⟩ := (List.mem_stride Int.one_pos).mp hindex
  obtain ⟨c, hc⟩ := networkAddress_emod_eq (by omega) hcidr hipv4
  have hipv4' : 0 ≤ i.ipv4.toInt ∧ i.ipv4.toInt < 2 ^ 32 := by omega
  have hcidr' : 0 ≤ i.cidrPrefixLength.toInt ∧ i.cidrPrefixLength.toInt ≤ 32 := by omega
  obtain ⟨-, -, hfirst⟩ := Ios.toInt_of_scanPlan hipv4' hcidr' hplan
  -- Android counts from a negative number for the upper half of the addresses
  have hnumber := Android.toInt_numericIp a.ipv4 (by omega) hhi hge hlt
  rw [Android.getByAddress_toByteArray hfour, Ios.ipAddress_of_mem hipv4' hcidr' hplan hiosIndex,
    Option.map_some, Ios.ScanPlan.address, hfirst]
  have htext :
      (Android.inetAddress (Android.numericIp a.ipv4 a.cidrPrefixLength index)).hostAddress =
      (Ipv4.ofInt (Android.numericIp a.ipv4 a.cidrPrefixLength index).toInt).text := rfl
  rw [htext, hnumber]
  -- which is the same address
  have hofInt : Ipv4.ofInt (Android.networkAddress a.ipv4 a.cidrPrefixLength + 1 + index) =
      Ipv4.ofInt (Ios.networkAddress i.ipv4 i.cidrPrefixLength + 1 + index) := by
    rw [Ipv4.ofInt_eq_ofInt_iff, hc]
    omega
  rw [hofInt]

/-! ## Agreement -/

/-- From 2 bits on, the number of hosts does not saturate, and the loops are the same. -/
theorem loops_eq (hlo : 2 ≤ a.cidrPrefixLength.toInt) (hhi : a.cidrPrefixLength.toInt ≤ 32)
    (hcidr : i.cidrPrefixLength.toInt = a.cidrPrefixLength.toInt)
    (hipv4 : i.ipv4.toInt = a.ipv4.toInt % 2 ^ 32)
    (hplan : Ios.scanPlan i.ipv4 i.cidrPrefixLength = some plan) :
    (Android.numberOfHosts a.cidrPrefixLength).toInt = plan.numberOfHosts.toInt ∧
      (Android.scanThreads a.cidrPrefixLength).toInt = plan.concurrentThreads.toInt := by
  obtain ⟨hhosts, hthreads, -⟩ := Ios.toInt_of_scanPlan (by omega) (by omega) hplan
  rw [hhosts, hthreads, hcidr, Android.toInt_numberOfHosts, if_neg (by omega), if_neg (by omega),
    Android.toInt_scanThreads (by omega) (by omega)]
  exact ⟨rfl, by omega⟩

/-- If `getByAddress` accepts the subnet the workers probe the same addresses in the same order.
    -/
theorem probes_eq_of_encodable (hlo : 2 ≤ a.cidrPrefixLength.toInt)
    (hhi : a.cidrPrefixLength.toInt ≤ 32)
    (hcidr : i.cidrPrefixLength.toInt = a.cidrPrefixLength.toInt)
    (hipv4 : i.ipv4.toInt = a.ipv4.toInt % 2 ^ 32)
    (hplan : Ios.scanPlan i.ipv4 i.cidrPrefixLength = some plan)
    (henc : Android.EncodableSubnet a.ipv4 a.cidrPrefixLength) :
    (Android.Scanner.launchWorkers a).map (Android.Scanner.Worker.probes a) =
      (Ios.Scanner.launchWorkers plan).map (Ios.Scanner.Worker.probes plan) := by
  obtain ⟨hhosts, hthreads⟩ := loops_eq hlo hhi hcidr hipv4 hplan
  have hlo' : -32768 ≤ a.cidrPrefixLength.toInt := by omega
  have hperm := Android.flatMap_workerIndices_perm hlo' hhi
  have hfour := (Android.encodableSubnet_iff a.ipv4 (by omega)).mp henc
  rw [probes_launchWorkers_android, probes_launchWorkers_ios, hthreads]
  apply List.map_congr_left
  intro k hk
  -- the workers have the same stripes
  have hindices : Android.workerIndices a.cidrPrefixLength k = plan.workerIndices k := by
    rw [Android.workerIndices, Ios.ScanPlan.workerIndices, hhosts, hthreads]
  rw [hindices]
  apply List.map_congr_left
  intro index hindex
  -- and each index of a stripe is one of the subnet
  have hmem : index ∈ List.stride 0 (Android.numberOfHosts a.cidrPrefixLength).toInt 1 := by
    rw [← hperm.mem_iff, hthreads]
    exact List.mem_flatMap.mpr ⟨k, hk, hindices ▸ hindex⟩
  exact probe_eq hlo hhi hcidr hipv4 hplan hmem (hhosts ▸ hmem)
    (hfour _ (List.mem_map_of_mem hmem))

/-- If the workers probe the same, the prefix has two bits at least and `getByAddress` accepts the
    subnet. -/
theorem encodable_of_probes_eq (hlo : 0 ≤ a.cidrPrefixLength.toInt)
    (hhi : a.cidrPrefixLength.toInt ≤ 32)
    (hcidr : i.cidrPrefixLength.toInt = a.cidrPrefixLength.toInt)
    (hipv4 : i.ipv4.toInt = a.ipv4.toInt % 2 ^ 32)
    (hplan : Ios.scanPlan i.ipv4 i.cidrPrefixLength = some plan)
    (h : (Android.Scanner.launchWorkers a).map (Android.Scanner.Worker.probes a) =
      (Ios.Scanner.launchWorkers plan).map (Ios.Scanner.Worker.probes plan)) :
    2 ≤ a.cidrPrefixLength.toInt ∧ Android.EncodableSubnet a.ipv4 a.cidrPrefixLength := by
  have hipv4' : 0 ≤ i.ipv4.toInt ∧ i.ipv4.toInt < 2 ^ 32 := by omega
  have hcidr' : 0 ≤ i.cidrPrefixLength.toInt ∧ i.cidrPrefixLength.toInt ≤ 32 := by omega
  have hlo' : -32768 ≤ a.cidrPrefixLength.toInt := by omega
  have hperm := Android.flatMap_workerIndices_perm hlo' hhi
  have hpermIos := Ios.flatMap_workerIndices_perm hipv4' hcidr' hplan
  rw [probes_launchWorkers_android, probes_launchWorkers_ios] at h
  have hflat := congrArg List.flatten h
  rw [← List.flatMap_def, ← List.flatMap_def, ← List.map_flatMap, ← List.map_flatMap] at hflat
  constructor
  · -- with fewer than 2 bits Android has fewer addresses
    have hlength := congrArg List.length hflat
    obtain ⟨hhosts, -, -⟩ := Ios.toInt_of_scanPlan hipv4' hcidr' hplan
    rw [List.length_map, List.length_map, hperm.length_eq, hpermIos.length_eq,
      List.length_stride_one, List.length_stride_one, hhosts, hcidr,
      Android.toInt_numberOfHosts, if_neg (by omega)] at hlength
    apply Int.not_lt.mp
    intro hp
    rw [if_pos (by omega)] at hlength
    obtain hp | hp : a.cidrPrefixLength.toInt = 0 ∨ a.cidrPrefixLength.toInt = 1 := by omega
    · rw [hp] at hlength
      revert hlength
      decide
    · rw [hp] at hlength
      revert hlength
      decide
  · rw [Android.encodableSubnet_iff a.ipv4 (by omega)]
    intro x hx
    obtain ⟨index, hindex, rfl⟩ := List.mem_map.mp hx
    apply Classical.not_not.mp
    intro hfour
    -- on iOS no probe is missing
    have hmem := List.mem_map_of_mem (f := fun index => (Android.InetAddress.getByAddress
      (Android.toByteArray (Android.numericIp a.ipv4 a.cidrPrefixLength index).toInt)).map
        Android.InetAddress.hostAddress) (hperm.mem_iff.mpr hindex)
    rw [hflat] at hmem
    obtain ⟨j, hj, heq⟩ := List.mem_map.mp hmem
    rw [Ios.ipAddress_of_mem hipv4' hcidr' hplan (hpermIos.mem_iff.mp hj)] at heq
    simp only [Android.getByAddress_toByteArray_eq_none hfour, Option.map_none] at heq
    cases heq

/-- **Agreement.** For the same 32 bits of an address and the same prefix of 0 to 32 bits
    both platforms start the same number of workers, each of which probes the same
    sequence of addresses, if and only if the prefix has at least 2 bits and `getByAddress`
    accepts every address of the scan. -/
theorem scans_agree_iff (a : Android.Scanner.Config) (i : Ios.Scanner.Config)
    (hlo : 0 ≤ a.cidrPrefixLength.toInt) (hhi : a.cidrPrefixLength.toInt ≤ 32)
    (hcidr : i.cidrPrefixLength.toInt = a.cidrPrefixLength.toInt)
    (hipv4 : i.ipv4.toInt = a.ipv4.toInt % 2 ^ 32) :
    (∃ plan, Ios.scanPlan i.ipv4 i.cidrPrefixLength = some plan ∧
      (Android.Scanner.launchWorkers a).map (Android.Scanner.Worker.probes a) =
        (Ios.Scanner.launchWorkers plan).map (Ios.Scanner.Worker.probes plan)) ↔
    2 ≤ a.cidrPrefixLength.toInt ∧ Android.EncodableSubnet a.ipv4 a.cidrPrefixLength := by
  constructor
  · rintro ⟨plan, hplan, h⟩
    exact encodable_of_probes_eq hlo hhi hcidr hipv4 hplan h
  · rintro ⟨hlo, henc⟩
    obtain ⟨plan, hplan, -⟩ := @Ios.scanPlan_eq i.ipv4 i.cidrPrefixLength (by omega) (by omega)
    exact ⟨plan, hplan, probes_eq_of_encodable hlo hhi hcidr hipv4 hplan henc⟩

/-- In 192.168.0.0/30 both platforms probe the same pair of addresses. -/
theorem scans_agree_pair :
    ∃ plan, Ios.scanPlan 3232235521 30 = some plan ∧
      (Android.Scanner.launchWorkers Android.Scanner.pairConfig).map
        (Android.Scanner.Worker.probes Android.Scanner.pairConfig) =
        (Ios.Scanner.launchWorkers plan).map (Ios.Scanner.Worker.probes plan) :=
  (scans_agree_iff Android.Scanner.pairConfig Ios.Scanner.pairConfig (by decide) (by decide)
    (by decide) (by decide)).mpr ⟨by decide, by decide⟩

/-- In 0.0.0.0/24 Android rejects 0.0.0.1, which iOS pings. -/
theorem scans_differ : ¬ ∀ (a : Android.Scanner.Config) (i : Ios.Scanner.Config),
    0 ≤ a.cidrPrefixLength.toInt → a.cidrPrefixLength.toInt ≤ 32 →
    i.cidrPrefixLength.toInt = a.cidrPrefixLength.toInt →
    i.ipv4.toInt = a.ipv4.toInt % 2 ^ 32 →
    ∃ plan, Ios.scanPlan i.ipv4 i.cidrPrefixLength = some plan ∧
      (Android.Scanner.launchWorkers a).map (Android.Scanner.Worker.probes a) =
        (Ios.Scanner.launchWorkers plan).map (Ios.Scanner.Worker.probes plan) := by
  intro h
  let i : Ios.Scanner.Config := { ipv4 := 0, cidrPrefixLength := 24, ping := fun _ => false }
  obtain ⟨plan, hplan, hprobes⟩ := h (Android.Scanner.silentConfig 0 24) i (by decide) (by decide)
    (by decide) (by decide)
  have henc := (encodable_of_probes_eq (a := Android.Scanner.silentConfig 0 24) (i := i) (by decide)
    (by decide) (by decide) (by decide) hplan hprobes).2
  exact absurd henc (by decide)

end LanScan
