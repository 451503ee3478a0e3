import LanScan.Spec.Android.ScannerInvariant
import LanScan.Spec.Android.SubnetCorrect

/-!
# What the workers handle (Android)

In every run, whatever is cancelled and whenever: the workers handle only
addresses of the subnet, probe only addresses they have handled, and one that
raised did so for an address that `getByAddress` rejects or whose probe raised.

## Key results

- `traced_of_run`: the invariant `Traced` holds in every reachable state
-/

namespace LanScan.Android.Scanner

variable {cfg : Config} {s s' : State} {l : Label}

/-- The indices for which a worker has yet to compute the address. -/
def Worker.pending (w : Worker) : List Int :=
  match w.pc with
  | .checked index => index :: w.rest
  | _ => w.rest

/-- The address that the worker is probing. -/
def Worker.probing (w : Worker) : Option InetAddress :=
  match w.pc with
  | .probing address => some address
  | _ => none

/-- An address of the scan is to blame for an exception of a worker. -/
def Blamed (cfg : Config) (s : State) : Prop :=
  (∃ x ∈ s.handled, ¬ HasFourBytes x) ∨
    (tiramisu ≤ cfg.sdkInt ∧ ∃ x ∈ s.handled, cfg.probe (inetAddress x) = .ioException)

/-- Where the addresses handled and probed come from. -/
structure Traced (cfg : Config) (s : State) : Prop where
  pending : ∀ w ∈ s.workers, ∀ index ∈ w.pending,
    numericIp cfg.ipv4 cfg.cidrPrefixLength index ∈ scanAddresses cfg.ipv4 cfg.cidrPrefixLength
  handled : ∀ x ∈ s.handled, x ∈ scanAddresses cfg.ipv4 cfg.cidrPrefixLength
  probing : ∀ w ∈ s.workers, ∀ address, w.probing = some address →
    ∃ x ∈ s.handled, address = inetAddress x
  raised : ∀ w ∈ s.workers, w.pc = .raised → Blamed cfg s

/-- Every index of a worker is one of an address of the scan. -/
theorem mem_scanAddresses_of_mem_workerIndices {ipv4 p : Int32} {k : Nat} {index : Int}
    (hlo : -32768 ≤ p.toInt) (hhi : p.toInt ≤ 32) (hk : k < (scanThreads p).toInt.toNat)
    (h : index ∈ workerIndices p k) : numericIp ipv4 p index ∈ scanAddresses ipv4 p := by
  have hmem : index ∈ (List.range (scanThreads p).toInt.toNat).flatMap (workerIndices p) :=
    List.mem_flatMap.mpr ⟨k, List.mem_range.mpr hk, h⟩
  exact List.mem_map_of_mem ((flatMap_workerIndices_perm hlo hhi).mem_iff.mp hmem)

/-- What has been handled stays so. -/
theorem Blamed.mono (hsub : ∀ x ∈ s.handled, x ∈ s'.handled) (h : Blamed cfg s) :
    Blamed cfg s' := by
  rcases h with ⟨x, hx, hfour⟩ | ⟨hsdk, x, hx, hio⟩
  · exact .inl ⟨x, hsub x hx, hfour⟩
  · exact .inr ⟨hsdk, x, hsub x hx, hio⟩

section Worker

variable {isActive : Bool} {w w' : Worker} {effect : Effect} {address : InetAddress}

/-- A worker never takes on a new index. -/
theorem WorkerStep.pending_subset (h : WorkerStep cfg isActive w w' effect) :
    ∀ index ∈ w'.pending, index ∈ w.pending := by
  cases h with
  -- the index that is handled is pending no more
  | raiseAddress | probe => exact fun index hindex => List.mem_cons_of_mem _ hindex
  | _ => exact fun index hindex => hindex

/-- An address that is handled comes from a pending index. -/
theorem WorkerStep.eq_numericIp_of_handled (h : WorkerStep cfg isActive w w' effect) {x : Int32}
    (hx : effect.handled = some x) :
    ∃ index ∈ w.pending, x = numericIp cfg.ipv4 cfg.cidrPrefixLength index := by
  cases h with
  | raiseAddress | probe => cases hx; exact ⟨_, List.mem_cons_self, rfl⟩
  | _ => exact nomatch hx

/-- A worker starts probing the address it has just handled. -/
theorem WorkerStep.handled_of_probing (h : WorkerStep cfg isActive w w' effect)
    (hprobing : w'.probing = some address) :
    ∃ x, effect.handled = some x ∧ address = inetAddress x := by
  cases h with
  | probe haddr => cases hprobing; exact ⟨_, rfl, (eq_inetAddress_of_getByAddress haddr).2⟩
  | _ => exact nomatch hprobing

/-- A worker raises in `getByAddress` or in the probe. -/
theorem WorkerStep.cause_of_raised (h : WorkerStep cfg isActive w w' effect)
    (hraised : w'.pc = .raised) :
    (∃ x, effect.handled = some x ∧ ¬ HasFourBytes x) ∨
      (tiramisu ≤ cfg.sdkInt ∧
        ∃ address, w.probing = some address ∧ cfg.probe address = .ioException) := by
  cases h with
  | raiseAddress haddr =>
    left
    refine ⟨_, rfl, fun hfour => ?_⟩
    -- a four-byte address would not have raised
    rw [getByAddress_toByteArray hfour] at haddr
    exact nomatch haddr
  | raiseProbe hsdk hprobe => right; exact ⟨hsdk, _, rfl, hprobe⟩
  | _ => exact nomatch hraised

end Worker

/-- A step of a worker keeps the trace. -/
theorem traced_advance (ht : Traced cfg s) {k : Nat} {w w' : Worker} {effect : Effect}
    (hk : s.workers[k]? = some w) (hw : WorkerStep cfg s.isActive w w' effect) :
    Traced cfg (s.advance k w' effect) := by
  have hmem := List.mem_of_getElem? hk
  have hold : ∀ x ∈ s.handled, x ∈ (s.advance k w' effect).handled := fun x hx =>
    List.mem_append_left _ hx
  have hnew : ∀ x, effect.handled = some x → x ∈ (s.advance k w' effect).handled := fun x hx =>
    List.mem_append_right _ (Option.mem_toList.mpr hx)
  constructor
  · apply List.forall_mem_set ht.pending
    intro index hindex
    exact ht.pending w hmem index (hw.pending_subset index hindex)
  · intro x hx
    rcases List.mem_append.mp hx with hx | hx
    · exact ht.handled x hx
    · obtain ⟨index, hindex, rfl⟩ := hw.eq_numericIp_of_handled (Option.mem_toList.mp hx)
      exact ht.pending w hmem index hindex
  · apply List.forall_mem_set
    · intro v hv address haddress
      obtain ⟨x, hx, heq⟩ := ht.probing v hv address haddress
      exact ⟨x, hold x hx, heq⟩
    · intro address haddress
      obtain ⟨x, hx, heq⟩ := hw.handled_of_probing haddress
      exact ⟨x, hnew x hx, heq⟩
  · apply List.forall_mem_set
    · intro v hv hpc
      exact (ht.raised v hv hpc).mono hold
    · intro hpc
      rcases hw.cause_of_raised hpc with ⟨x, hx, hfour⟩ | ⟨hsdk, address, haddress, hio⟩
      · exact .inl ⟨x, hnew x hx, hfour⟩
      -- a worker that raises in its probe was probing an address handled before
      · obtain ⟨x, hx, rfl⟩ := ht.probing w hmem address haddress
        exact .inr ⟨hsdk, x, hold x hx, hio⟩

/-- `processHost` does not touch the trace. -/
theorem traced_processHost (ht : Traced cfg s) {k : Nat} {host : Host} {rest : List Int}
    {hostname : Option String} (hk : s.workers[k]? = some ⟨.resolving host, rest⟩) :
    Traced cfg (s.advance k ⟨.resolved { host with hostname := hostname }, rest⟩ {}) := by
  have hpending := ht.pending ⟨.resolving host, rest⟩ (List.mem_of_getElem? hk)
  -- Resolving a name handles no further address.
  have hsame : (s.advance k ⟨.resolved { host with hostname := hostname }, rest⟩ {}).handled =
      s.handled := List.append_nil _
  constructor
  · exact List.forall_mem_set ht.pending hpending
  · rw [hsame]
    exact ht.handled
  · rw [hsame]
    exact List.forall_mem_set ht.probing nofun
  · apply List.forall_mem_set
    · intro v hv hpc
      exact (ht.raised v hv hpc).mono fun x hx => hsame ▸ hx
    · nofun

/-- The workers start with indices of the scan, and with nothing else. -/
theorem traced_launch (ht : Traced cfg s) (hlo : -32768 ≤ cfg.cidrPrefixLength.toInt)
    (hhi : cfg.cidrPrefixLength.toInt ≤ 32) :
    Traced cfg { s with pc := .joining, workers := launchWorkers cfg } := by
  constructor
  · intro w hw index hindex
    -- Each worker starts with its own share of the addresses.
    obtain ⟨k, hk, rfl⟩ := List.mem_map.mp hw
    exact mem_scanAddresses_of_mem_workerIndices hlo hhi (List.mem_range.mp hk) hindex
  · exact ht.handled
  · intro w hw address haddress
    obtain ⟨k, _, rfl⟩ := List.mem_map.mp hw
    exact nomatch haddress
  · intro w hw hpc
    obtain ⟨k, _, rfl⟩ := List.mem_map.mp hw
    exact nomatch hpc

/-- Every step keeps it. -/
theorem traced_step (hlo : -32768 ≤ cfg.cidrPrefixLength.toInt)
    (hhi : cfg.cidrPrefixLength.toInt ≤ 32767) (ht : Traced cfg s) (h : Transition cfg s l s') :
    Traced cfg s' := by
  cases h with
  | launch _ _ hsize =>
    -- `List(scanThreads)` with a size that is not negative: the prefix is at most 32
    rw [toInt_scanThreads hlo hhi] at hsize
    exact traced_launch ht hlo (by omega)
  | worker hk hw => exact traced_advance ht hk hw
  | processHost hk => exact traced_processHost ht hk
  -- no other transition touches the workers or what they handled
  | _ => exact ⟨ht.pending, ht.handled, ht.probing, ht.raised⟩

/-- The trace is kept by every run, for every prefix that `Wireless` returns. -/
theorem traced_of_run (hlo : -32768 ≤ cfg.cidrPrefixLength.toInt)
    (hhi : cfg.cidrPrefixLength.toInt ≤ 32767) {ls : List Label}
    (h : (scanner cfg).run init ls = some s) : Traced cfg s := by
  refine (scanner cfg).run_invariant (Traced cfg) ?_ ?_ h
  · intro t l t' ht hs
    exact traced_step hlo hhi ht (transition_of_step hs)
  · constructor <;> exact fun _ h => absurd h List.not_mem_nil

end LanScan.Android.Scanner
