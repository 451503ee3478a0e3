import LanScan.Native.Android.ProcessHost
import LanScan.Native.Android.Scanner
import LanScan.Spec.Android.NetBIOSLookup

/-!
# The host name of a host (Android)

What `resolveHostName` does with an outcome of a resolver depends on three things only:
whether it is raised past the `catch`, whether it is an empty array, and the name in it
that is not blank.  `processHost` is then a choice between three names.

## Key results

- `settle_of_isUncaught`, `settle_of_isAnswer`: what becomes of an outcome
- `calls_processHost`, `host_processHost`: the calls and the host that are left
- `namedInOrder_iff`: when the name is the first one of mDNS, NetBIOS and reverse DNS
-/

namespace LanScan.Android.ProcessHost

/-- What a resolver can return or raise. -/
abbrev Outcome := Except Throwable (Option (List (Option String)))

/-! ## Names -/

/-- The text without one `.local` at its end. -/
def withoutLocal (text : String) : String :=
  if dotLocal <:+ text.toList then String.ofList (text.toList.take (text.toList.length - 6))
  else text

/-- The suffix is taken off. -/
@[simp] theorem withoutLocal_append (text : String) : withoutLocal (text ++ ".local") = text := by
  have hlocal : (".local" : String).toList = dotLocal := rfl
  rw [withoutLocal, String.toList_append, hlocal, if_pos (List.suffix_append _ _),
    List.length_append]
  simp [show dotLocal.length = 6 from rfl]

/-- The setter raises for the empty text only. -/
theorem hostnameField_of_ne {text : String} (h : text ≠ "") :
    hostnameField (some text) = .ok (some (withoutLocal text)) := by
  have hne : text.toList ≠ [] := fun hnil => h (String.toList_eq_nil_iff.mp hnil)
  simp only [hostnameField, withoutLocal]
  by_cases hlocal : dotLocal <:+ text.toList
  · have hlength : 6 ≤ text.toList.length := hlocal.length_le
    rw [if_pos (.inr hlocal), if_neg (by omega), if_pos hlocal]
    rfl
  · rw [if_neg (not_or.mpr ⟨hne, hlocal⟩), if_neg hlocal]
    rfl

/-- A name that is not blank is not empty. -/
theorem ne_empty_of_not_isNullOrBlank {text : String} (h : isNullOrBlank (some text) = false) :
    text ≠ "" := by
  rintro rfl
  exact absurd h (by decide)

/-! ## Outcomes of a resolver -/

/-- The first name, unless it is blank. -/
def nonBlankName : Outcome → Option String
  | .ok (some (some text :: _)) => if isNullOrBlank (some text) then none else some text
  | _ => none

/-- Raised, and not caught by `resolveHostName`. -/
def IsUncaught : Outcome → Prop
  | .error e => e ≠ .ioException
  | .ok _ => False

instance : DecidablePred IsUncaught
  | .error _ => inferInstanceAs (Decidable (_ ≠ _))
  | .ok _ => inferInstanceAs (Decidable False)

/-- An `IOException`, or something returned other than an empty array. -/
def IsAnswer (outcome : Outcome) : Prop := ¬ IsUncaught outcome ∧ outcome ≠ .ok (some [])

instance (outcome : Outcome) : Decidable (IsAnswer outcome) := inferInstanceAs (Decidable (_ ∧ _))

/-- Without an answer there is no name. -/
theorem nonBlankName_of_not_isAnswer {outcome : Outcome} (h : ¬ IsAnswer outcome) :
    nonBlankName outcome = none := by
  match outcome with
  | .error _ | .ok none | .ok (some []) | .ok (some (none :: _)) => rfl
  | .ok (some (some text :: names)) => exact absurd ⟨not_false, by simp⟩ h

/-! ## resolveHostName -/

/-- The state after more calls. -/
def HostState.called (s : HostState) (calls : List Call) : HostState :=
  { s with calls := s.calls ++ calls }

/-- The state with another name. -/
def HostState.named (s : HostState) (text : String) : HostState :=
  { s with host := { s.host with hostname := some (withoutLocal text) } }

/-- The calls of two steps are those of one behind the other. -/
@[simp] theorem HostState.called_called (s : HostState) (calls calls' : List Call) :
    (s.called calls).called calls' = s.called (calls ++ calls') := by
  simp only [HostState.called, List.append_assoc]

/-- The setter takes a name that is not empty. -/
theorem setHostname_of_ne {text : String} (h : text ≠ "") (s : HostState) :
    setHostname (some text) s = .ok () (s.named text) := by
  unfold setHostname
  rw [hostnameField_of_ne h]
  rfl

/-- The code behind the setter sees the name. -/
theorem setHostname_bind {α : Type} {text : String} (h : text ≠ "") (f : Unit → Exec α)
    (s : HostState) : (setHostname (some text) >>= f) s = f () (s.named text) := by
  simp only [bind, EStateM.bind, setHostname_of_ne h]

/-- The code sees the host as it is. -/
theorem get_bind {α : Type} (f : HostState → Exec α) (s : HostState) : (get >>= f) s = f s s := rfl

section ResolveHostName

variable {network : Network} {resolver : Resolver} {s : HostState} {add : InetAddress}

/-- Without an address the resolver is closed. -/
theorem resolveHostName_of_getByName_eq_none (h : network.getByName s.host.ip.toList = none) :
    resolveHostName network resolver s = .ok false (s.called [.close resolver]) := by
  simp only [resolveHostName, get_bind, h]
  rfl

/-- What `resolveHostName` does with an outcome of `resolve`. -/
def settle (resolver : Resolver) : Outcome → Exec Bool
  | .error .ioException => do
    call (.close resolver)
    return false
  | .error e => throw e
  | .ok none => do
    call (.close resolver)
    return false
  | .ok (some names) => do
    call (.close resolver)
    let name ← first names
    if isNullOrBlank name then return false
    else
      setHostname name
      return true

/-- `resolveHostName` makes the request and settles what comes of it. -/
theorem resolveHostName_eq (hadd : network.getByName s.host.ip.toList = some add) :
    resolveHostName network resolver s =
      settle resolver (network.resolve resolver add) (s.called [.resolve resolver]) := by
  simp only [resolveHostName, get_bind, hadd]
  cases network.resolve resolver add with
  | error e => cases e <;> rfl
  | ok names => cases names <;> rfl

/-- An exception that is not caught leaves the resolver open. -/
theorem settle_of_isUncaught {outcome : Outcome} (h : IsUncaught outcome) :
    ∃ e, settle resolver outcome s = .error e s := by
  match outcome, h with
  | .error e, h =>
    refine ⟨e, ?_⟩
    cases e with
    | ioException => exact absurd rfl h
    | _ => rfl

/-- An empty array has no first element. -/
theorem settle_empty : settle resolver (.ok (some [])) s =
    .error .noSuchElementException (s.called [.close resolver]) := rfl

/-- The name of an answer is set, if it has one. -/
theorem settle_of_isAnswer {outcome : Outcome} (h : IsAnswer outcome) :
    settle resolver outcome s =
      match nonBlankName outcome with
      | none => .ok false (s.called [.close resolver])
      | some text => .ok true ((s.called [.close resolver]).named text) := by
  match outcome, h with
  | .error e, h =>
    obtain rfl : e = .ioException := not_not.mp h.1
    rfl
  -- `firstOrNull` of null, of a list that starts with null, and of one with a text
  | .ok none, _ => rfl
  | .ok (some []), h => exact absurd rfl h.2
  | .ok (some (none :: _)), _ => rfl
  | .ok (some (some text :: names)), _ =>
    -- a text is the name unless it is blank
    have hsettle : settle resolver (.ok (some (some text :: names))) s =
        (if isNullOrBlank (some text) then (return false : Exec Bool) else do
          setHostname (some text)
          return true) (s.called [.close resolver]) := rfl
    rw [hsettle, nonBlankName]
    cases hblank : isNullOrBlank (some text) with
    | true => rfl
    | false =>
      simp only [Bool.false_eq_true, if_false,
        setHostname_bind (ne_empty_of_not_isNullOrBlank hblank)]
      rfl

/-- The resolver is closed unless an exception is not caught. -/
theorem calls_settle (resolver : Resolver) (outcome : Outcome) (s : HostState) :
    (finalState (settle resolver outcome) s).calls =
      s.calls ++ if IsUncaught outcome then [] else [.close resolver] := by
  unfold finalState
  by_cases huncaught : IsUncaught outcome
  -- An uncaught exception leaves before `close` is called.
  · obtain ⟨e, he⟩ := settle_of_isUncaught (s := s) huncaught
    rw [he, if_pos huncaught, List.append_nil]
  · rw [if_neg huncaught]
    by_cases hempty : outcome = .ok (some [])
    · rw [hempty]
      rfl
    · rw [settle_of_isAnswer ⟨huncaught, hempty⟩]
      cases nonBlankName outcome <;> rfl

end ResolveHostName

/-! ## processHost -/

/-- The calls of a resolver that is constructed and asked. -/
def lookupCalls (network : Network) (resolver : Resolver) (add : InetAddress) : List Call :=
  match network.construct resolver with
  | .socketRaises _ => []
  | .initRaises _ => [.created resolver]
  | .constructed =>
    if IsUncaught (network.resolve resolver add) then [.created resolver, .resolve resolver]
    else [.created resolver, .resolve resolver, .close resolver]

/-- The name that a lookup finds. -/
def foundName (network : Network) (resolver : Resolver) (add : InetAddress) : Option String :=
  if network.construct resolver = .constructed then nonBlankName (network.resolve resolver add)
  else none

/-- The resolver is there, and its answer has no name. -/
def GivesNoName (network : Network) (resolver : Resolver) (add : InetAddress) : Prop :=
  network.construct resolver = .constructed ∧ IsAnswer (network.resolve resolver add) ∧
    nonBlankName (network.resolve resolver add) = none

instance (network : Network) (resolver : Resolver) (add : InetAddress) :
    Decidable (GivesNoName network resolver add) := inferInstanceAs (Decidable (_ ∧ _ ∧ _))

section Lookup

variable {network : Network} {resolver : Resolver} {s : HostState} {add : InetAddress}

/-- With a resolver, `lookup` makes the request and closes it. -/
theorem lookup_of_constructed (h : network.construct resolver = .constructed)
    (hadd : network.getByName s.host.ip.toList = some add) :
    lookup network resolver s = settle resolver (network.resolve resolver add)
      (s.called [.created resolver, .resolve resolver]) := by
  have hlookup : lookup network resolver s =
      resolveHostName network resolver (s.called [.created resolver]) := by
    simp only [lookup, construct, h]
    rfl
  have hadd' : network.getByName (s.called [.created resolver]).host.ip.toList = some add := hadd
  rw [hlookup, resolveHostName_eq hadd', HostState.called_called]
  rfl

/-- An answer ends the lookup normally. -/
theorem lookup_of_isAnswer (hadd : network.getByName s.host.ip.toList = some add)
    (hconstruct : network.construct resolver = .constructed)
    (h : IsAnswer (network.resolve resolver add)) :
    lookup network resolver s =
      match nonBlankName (network.resolve resolver add) with
      | none => .ok false (s.called (lookupCalls network resolver add))
      | some text => .ok true ((s.called (lookupCalls network resolver add)).named text) := by
  rw [lookup_of_constructed hconstruct hadd, settle_of_isAnswer h, HostState.called_called]
  simp only [lookupCalls, hconstruct, if_neg h.1]
  rfl

/-- Without an answer, an exception leaves the name as it is. -/
theorem lookup_of_not_isAnswer (hadd : network.getByName s.host.ip.toList = some add)
    (h : network.construct resolver = .constructed → ¬ IsAnswer (network.resolve resolver add)) :
    ∃ e, lookup network resolver s = .error e (s.called (lookupCalls network resolver add)) := by
  cases hconstruct : network.construct resolver with
  | constructed =>
    rw [lookup_of_constructed hconstruct hadd]
    simp only [lookupCalls, hconstruct]
    -- what the request raises passes through, and an empty list makes `first` raise
    by_cases huncaught : IsUncaught (network.resolve resolver add)
    · rw [if_pos huncaught]
      exact settle_of_isUncaught huncaught
    · have hempty : network.resolve resolver add = .ok (some []) := by
        by_contra hne
        exact h hconstruct ⟨huncaught, hne⟩
      rw [if_neg huncaught, hempty, settle_empty, HostState.called_called]
      exact ⟨_, rfl⟩
  -- without a resolver nothing is asked
  | socketRaises e =>
    refine ⟨e, ?_⟩
    simp only [lookup, construct, lookupCalls, hconstruct, HostState.called, List.append_nil]
    rfl
  | initRaises e =>
    refine ⟨e, ?_⟩
    simp only [lookup, construct, lookupCalls, hconstruct]
    rfl

/-- A lookup sets the name that it finds. -/
theorem host_finalState_lookup (hadd : network.getByName s.host.ip.toList = some add) :
    (finalState (lookup network resolver) s).host =
      match foundName network resolver add with
      | none => s.host
      | some text => (s.named text).host := by
  unfold finalState
  by_cases h : network.construct resolver = .constructed ∧ IsAnswer (network.resolve resolver add)
  -- an answer names the host if it is not blank
  · rw [lookup_of_isAnswer hadd h.1 h.2, foundName, if_pos h.1]
    cases nonBlankName (network.resolve resolver add) <;> rfl
  · obtain ⟨e, he⟩ := lookup_of_not_isAnswer hadd (not_and.mp h)
    -- without one the host stays as it is
    have hfound : foundName network resolver add = none := by
      unfold foundName
      split
      · rename_i hconstruct
        exact nonBlankName_of_not_isAnswer (not_and.mp h hconstruct)
      · rfl
    rw [he, hfound]
    rfl

/-- The calls of a lookup. -/
theorem calls_finalState_lookup (hadd : network.getByName s.host.ip.toList = some add) :
    (finalState (lookup network resolver) s).calls =
      s.calls ++ lookupCalls network resolver add := by
  unfold finalState
  by_cases h : network.construct resolver = .constructed ∧ IsAnswer (network.resolve resolver add)
  · rw [lookup_of_isAnswer hadd h.1 h.2]
    cases nonBlankName (network.resolve resolver add) <;> rfl
  · obtain ⟨e, he⟩ := lookup_of_not_isAnswer hadd (not_and.mp h)
    rw [he]
    rfl

end Lookup

section ProcessHost

variable {network : Network} {host : Host} {add : InetAddress}

/-- A host whose address cannot be read is left as it is. -/
theorem processHost_of_getByName_eq_none (h : network.getByName host.ip.toList = none) :
    processHost network host = { host := host } := by
  simp only [processHost, finalState, processHostBody, get_bind, h]
  rfl

/-- An empty reverse-DNS name ends it, in the setter. -/
theorem processHost_of_canonicalHostName_eq_empty
    (hadd : network.getByName host.ip.toList = some add)
    (h : network.canonicalHostName add = "") : processHost network host = { host := host } := by
  simp only [processHost, finalState, processHostBody, get_bind, hadd, h]
  rfl

/-- The state behind two steps is that of the second one, or of the first one if it raises. -/
theorem finalState_bind {α β : Type} (x : Exec α) (f : α → Exec β) (s : HostState) :
    finalState (x >>= f) s =
      match x s with
      | .ok a s' => finalState (f a) s'
      | .error _ s' => s' := by
  simp only [finalState, bind, EStateM.bind]
  cases x s <;> rfl

/-- The host with its name from reverse DNS, before a resolver is called. -/
def reverseNamed (network : Network) (host : Host) (add : InetAddress) : HostState :=
  HostState.named { host := host } (network.canonicalHostName add)

/-- The canonical name does not change the address. -/
theorem getByName_reverseNamed (hadd : network.getByName host.ip.toList = some add) :
    network.getByName (reverseNamed network host add).host.ip.toList = some add := hadd

variable (hadd : network.getByName host.ip.toList = some add)
  (hname : network.canonicalHostName add ≠ "")
include hadd hname

/-- With an address and a reverse-DNS name, mDNS is asked, and then maybe NetBIOS. -/
theorem processHost_eq : processHost network host =
    match lookup network .mdns (reverseNamed network host add) with
    | .ok true s => s
    | .ok false s => finalState (lookup network .netBIOS) s
    | .error _ s => s := by
  -- the canonical name is set first, and then mDNS is asked
  have hbody : processHostBody network { host := host } = (do
      let isResolveHostName ← lookup network .mdns
      if !isResolveHostName then
        let _ ← lookup network .netBIOS : Exec Unit) (reverseNamed network host add) := by
    simp only [processHostBody, get_bind, hadd, setHostname_bind hname]
    rfl
  rw [processHost, finalState, hbody]
  refine (finalState_bind _ _ _).trans ?_
  cases lookup network .mdns _ with
  -- what mDNS raises ends the host, and NetBIOS is asked only behind its `false`
  | error e s => rfl
  | ok isResolveHostName s =>
    cases isResolveHostName with
    | true => rfl
    | false =>
      refine (finalState_bind (lookup network .netBIOS) _ s).trans ?_
      simp only [finalState]
      cases lookup network .netBIOS s <;> rfl

/-- NetBIOS is asked when mDNS gives no name. -/
theorem processHost_of_givesNoName (h : GivesNoName network .mdns add) :
    processHost network host = finalState (lookup network .netBIOS)
      ((reverseNamed network host add).called (lookupCalls network .mdns add)) := by
  have hadd' := getByName_reverseNamed hadd
  rw [processHost_eq hadd hname, lookup_of_isAnswer hadd' h.1 h.2.1, h.2.2]

/-- Otherwise mDNS decides. -/
theorem processHost_of_not_givesNoName (h : ¬ GivesNoName network .mdns add) :
    processHost network host =
      finalState (lookup network .mdns) (reverseNamed network host add) := by
  have hadd' := getByName_reverseNamed hadd
  rw [processHost_eq hadd hname, finalState]
  by_cases hanswer : network.construct .mdns = .constructed ∧ IsAnswer (network.resolve .mdns add)
  · rw [lookup_of_isAnswer hadd' hanswer.1 hanswer.2]
    -- A name that is not blank ends the search at mDNS.
    cases htext : nonBlankName (network.resolve .mdns add) with
    | none => exact absurd ⟨hanswer.1, hanswer.2, htext⟩ h
    | some text => rfl
  -- Without an answer there is an exception, and NetBIOS is not asked.
  · obtain ⟨e, he⟩ := lookup_of_not_isAnswer hadd' (not_and.mp hanswer)
    rw [he]

/-- The calls that both resolvers get. -/
theorem calls_processHost : (processHost network host).calls =
    lookupCalls network .mdns add ++
      if GivesNoName network .mdns add then lookupCalls network .netBIOS add else [] := by
  have hadd' := getByName_reverseNamed hadd
  by_cases h : GivesNoName network .mdns add
  · rw [processHost_of_givesNoName hadd hname h, if_pos h]
    exact calls_finalState_lookup hadd'
  · rw [processHost_of_not_givesNoName hadd hname h, if_neg h, List.append_nil]
    exact calls_finalState_lookup hadd'

/-- The host gets one of three names. -/
theorem host_processHost : (processHost network host).host =
    { host with
      hostname := some (withoutLocal (((foundName network .mdns add).or
        (if GivesNoName network .mdns add then foundName network .netBIOS add else none)).getD
          (network.canonicalHostName add))) } := by
  have hadd' := getByName_reverseNamed hadd
  by_cases h : GivesNoName network .mdns add
  · have hfound : foundName network .mdns add = none := (if_pos h.1).trans h.2.2
    have hcalled : network.getByName ((reverseNamed network host add).called
      (lookupCalls network .mdns add)).host.ip.toList = some add := hadd
    -- NetBIOS is asked, and its name counts if it has one
    rw [processHost_of_givesNoName hadd hname h, if_pos h, hfound, host_finalState_lookup hcalled]
    cases foundName network .netBIOS add <;> rfl
  -- mDNS has named the host or raised
  · rw [processHost_of_not_givesNoName hadd hname h, if_neg h, host_finalState_lookup hadd']
    cases foundName network .mdns add <;> rfl

end ProcessHost

/-- Nothing but the name of the host changes, whatever is raised. -/
theorem host_processHost_eq (network : Network) (host : Host) : (processHost network host).host =
    { host with hostname := (processHost network host).host.hostname } := by
  cases hadd : network.getByName host.ip.toList with
  | none => rw [processHost_of_getByName_eq_none hadd]
  | some add =>
    by_cases hname : network.canonicalHostName add = ""
    · rw [processHost_of_canonicalHostName_eq_empty hadd hname]
    · rw [host_processHost hadd hname]

/-- A worker goes on with what `processHost` returns. -/
theorem worker_processHost (network : Network) (host : Host) (rest : List Int) :
    Scanner.Worker.processHost (processHost network host).host.hostname
        ⟨.resolving host, rest⟩ =
      some ⟨.resolved (processHost network host).host, rest⟩ := by
  rw [host_processHost_eq]
  rfl

/-- So does a coroutine of `handleArpTable`. -/
theorem arpTask_processHost (network : Network) (host : Host) :
    Scanner.ArpTask.processHost (processHost network host).host.hostname (.resolving host) =
      some (.posting (processHost network host).host) := by
  rw [host_processHost_eq]
  rfl

/-! ## The order of the names -/

/-- The host keeps its address, and has the first of its names. -/
structure NamedInOrder (network : Network) (host : Host) (add : InetAddress) (s : HostState) :
    Prop where
  ip_eq : s.host.ip = host.ip
  mac_eq : s.host.mac = host.mac
  queried_iff : .resolve .netBIOS ∈ s.calls ↔ nonBlankName (network.resolve .mdns add) = none
  hostname_eq : s.host.hostname = some (withoutLocal
    (((nonBlankName (network.resolve .mdns add)).or
      (nonBlankName (network.resolve .netBIOS add))).getD (network.canonicalHostName add)))

/-- A lookup asks its own resolver. -/
theorem resolve_mem_lookupCalls {network : Network} {resolver resolver' : Resolver}
    {add : InetAddress} (h : network.construct resolver = .constructed) :
    .resolve resolver' ∈ lookupCalls network resolver add ↔ resolver' = resolver := by
  simp only [lookupCalls, h]
  split <;> simp

/-- The host is named in order, and NetBIOS asked in time, if and only if mDNS raises
    nothing but an `IOException`, and returns no empty array. -/
theorem namedInOrder_iff {network : Network} {host : Host} {add : InetAddress}
    (hadd : network.getByName host.ip.toList = some add)
    (hconstruct : ∀ resolver, network.construct resolver = .constructed)
    (hname : network.canonicalHostName add ≠ "") :
    NamedInOrder network host add (processHost network host) ↔
      IsAnswer (network.resolve .mdns add) := by
  have hfound (resolver : Resolver) :
      foundName network resolver add = nonBlankName (network.resolve resolver add) :=
    if_pos (hconstruct resolver)
  have hqueried : .resolve .netBIOS ∈ (processHost network host).calls ↔
      GivesNoName network .mdns add := by
    rw [calls_processHost hadd hname, List.mem_append, resolve_mem_lookupCalls (hconstruct _)]
    split
    · rename_i h
      simp [resolve_mem_lookupCalls (hconstruct _), h]
    · rename_i h
      simp [h]
  constructor
  · intro h
    by_contra hanswer
    -- an exception jumps past NetBIOS, although there is no name
    have hnone := nonBlankName_of_not_isAnswer hanswer
    exact hanswer (hqueried.mp (h.queried_iff.mpr hnone)).2.1
  · intro hanswer
    have hgives : GivesNoName network .mdns add ↔
        nonBlankName (network.resolve .mdns add) = none :=
      ⟨fun h => h.2.2, fun h => ⟨hconstruct _, hanswer, h⟩⟩
    refine ⟨?_, ?_, hqueried.trans hgives, ?_⟩
    · rw [host_processHost hadd hname]
    · rw [host_processHost hadd hname]
    · rw [host_processHost hadd hname, hfound, hfound]
      cases htext : nonBlankName (network.resolve .mdns add) with
      | none => rw [if_pos (hgives.mpr htext)]
      | some text => rfl

/-- A device that knows the address and the name of the host at 10.0.0.5. -/
def boxPlatform : Platform where
  getByName _ := some (.inet4 10 0 0 5)
  canonicalHostName _ := "box.local"
  construct _ := .constructed

/-- Nothing comes for the mDNS request, and for the NetBIOS request the names of a box. -/
def silentNetwork : Network := boxPlatform.receiving (fun _ => []) fun
  | .mdns, _ => none
  | .netBIOS, _ => some (NetBIOSResolver.workgroupStatus 0).bytes

/-- Where nobody answers the host keeps its canonical name. -/
theorem namedInOrder_silent : NamedInOrder silentNetwork { ip := "10.0.0.5" }
    (.inet4 10 0 0 5) (processHost silentNetwork { ip := "10.0.0.5" }) :=
  (namedInOrder_iff rfl (fun _ => rfl) (by decide)).mpr (by decide)

/-- An empty datagram comes for the mDNS request. -/
def emptyNetwork : Network := boxPlatform.receiving (fun _ => []) fun
  | .mdns, _ => some []
  | .netBIOS, _ => some (NetBIOSResolver.workgroupStatus 0).bytes

/-- The empty datagram is decoded, and the exception jumps past NetBIOS. -/
theorem name_missed : ¬ ∀ (network : Network) (host : Host) (add : InetAddress),
    network.getByName host.ip.toList = some add →
    (∀ resolver, network.construct resolver = .constructed) →
    network.canonicalHostName add ≠ "" →
    NamedInOrder network host add (processHost network host) := by
  intro h
  have hnamed := h emptyNetwork { ip := "10.0.0.5" } (.inet4 10 0 0 5) rfl (fun _ => rfl)
    (by decide)
  have hqueried := hnamed.queried_iff.mpr (by decide)
  exact absurd hqueried (by decide)

end LanScan.Android.ProcessHost
