import LanScan.Native.Host
import LanScan.Native.Android.MDNSResolver
import LanScan.Native.Android.NetBIOSResolver

/-!
# The host name of a host (Android)

`LanDeviceScanner.processHost` asks for the name of a host, by mDNS and then by NetBIOS.
It mutates the host, so an exception leaves behind what was set before.  What the
network answers is a parameter, and the calls that a resolver gets are recorded.
-/

namespace LanScan.Android.ProcessHost

/-- The implementations of `Resolver`. -/
inductive Resolver where
  | mdns
  | netBIOS
  deriving DecidableEq, Repr

/-- What happens to a resolver. -/
inductive Call where
  /-- its socket is created -/
  | created (resolver : Resolver)
  | resolve (resolver : Resolver)
  | close (resolver : Resolver)
  deriving DecidableEq, Repr

/-- How a constructor of a resolver ends. -/
inductive Construction where
  | constructed
  /-- without a socket -/
  | socketRaises (e : Throwable)
  /-- in the `init` block, where the socket is there already -/
  | initRaises (e : Throwable)
  deriving DecidableEq, Repr

/-- What `processHost` finds on the device. -/
structure Platform where
  /-- `InetAddress.getByName`, with `none` for an `UnknownHostException` -/
  getByName : List Char → Option InetAddress
  canonicalHostName : InetAddress → String
  construct : Resolver → Construction

/-- The device, and what comes of `resolve`. -/
structure Network extends Platform where
  resolve : Resolver → InetAddress → Except Throwable (Option (List (Option String)))

/-- The network in which these datagrams come for the requests of the resolvers, or an
    `IOException` for `none`. -/
def Platform.receiving (platform : Platform) (malformed : List UInt8 → List Char)
    (receive : Resolver → InetAddress → Option (List UInt8)) : Network :=
  { platform with
    resolve := fun resolver ip =>
      match resolver with
      | .mdns => MDNSResolver.resolve malformed (fun _ => receive .mdns ip) ip
      | .netBIOS => NetBIOSResolver.resolve malformed (fun _ _ => receive .netBIOS ip) ip }

/-! ## Names -/

/-- `Char.isWhitespace` -/
def isWhitespace (c : Char) : Bool :=
  c ∈ [' ', '\u00a0', '\u1680', '\u2028', '\u2029', '\u202f', '\u205f', '\u3000'] ||
    0x9 ≤ c.toNat && c.toNat ≤ 0xD || 0x1C ≤ c.toNat && c.toNat ≤ 0x1F ||
    0x2000 ≤ c.toNat && c.toNat ≤ 0x200A

/-- `isNullOrBlank` -/
def isNullOrBlank : Option String → Bool
  | none => true
  | some text => text.toList.all isWhitespace

/-- `".local"` -/
def dotLocal : List Char := ".local".toList

/-- What the setter of `Host.hostname` stores. -/
def hostnameField : Option String → Except Throwable (Option String)
  | none => return none
  | some value =>
    if value.toList = [] ∨ dotLocal <:+ value.toList then
      -- value.substring(0, value.length - 6)
      if value.toList.length < 6 then throw .stringIndexOutOfBoundsException
      else return some (String.ofList (value.toList.take (value.toList.length - 6)))
    else return some value

/-! ## processHost -/

/-- The host, as it is now, and the calls so far. -/
structure HostState where
  host : Host
  calls : List Call := []
  deriving DecidableEq, Repr

/-- A computation on the host that can raise. -/
abbrev Exec := EStateM Throwable HostState

def call (c : Call) : Exec Unit := modify fun s => { s with calls := s.calls ++ [c] }

/-- `host.hostname = value` -/
def setHostname (value : Option String) : Exec Unit :=
  match hostnameField value with
  | .ok hostname => modify fun s => { s with host := { s.host with hostname := hostname } }
  | .error e => throw e

/-- `name.first()` -/
def first : List (Option String) → Exec (Option String)
  | [] => throw .noSuchElementException
  | name :: _ => return name

/-- `MDNSResolver(lanSocketTimeout)` and `NetBIOSResolver(lanSocketTimeout)` -/
def construct (network : Network) (resolver : Resolver) : Exec Unit :=
  match network.construct resolver with
  | .constructed => call (.created resolver)
  | .socketRaises e => throw e
  | .initRaises e => do
    call (.created resolver)
    throw e

/-- `resolveHostName` -/
def resolveHostName (network : Network) (resolver : Resolver) : Exec Bool := do
  match network.getByName (← get).host.ip.toList with
  | none =>
    call (.close resolver)
    return false
  | some add =>
    call (.resolve resolver)
    match network.resolve resolver add with
    -- catch (e: IOException)
    | .error .ioException =>
      call (.close resolver)
      return false
    | .error e => throw e
    | .ok names =>
      call (.close resolver)
      match names with
      | none => return false
      | some names =>
        let name ← first names
        if isNullOrBlank name then return false
        else
          setHostname name
          return true

/-- `resolveHostName(host, MDNSResolver(lanSocketTimeout))`, and the same for NetBIOS. -/
def lookup (network : Network) (resolver : Resolver) : Exec Bool := do
  construct network resolver
  resolveHostName network resolver

/-- The body of the outer `try` of `processHost`. -/
def processHostBody (network : Network) : Exec Unit := do
  match network.getByName (← get).host.ip.toList with
  | none => return
  | some add =>
    setHostname (some (network.canonicalHostName add))
    let isResolveHostName ← lookup network .mdns
    if !isResolveHostName then
      let _ ← lookup network .netBIOS

/-- The state that is left, also by an exception. -/
def finalState {α : Type} (x : Exec α) (s : HostState) : HostState :=
  match x s with
  | .ok _ s => s
  | .error _ s => s

/-- `processHost`: every exception is caught, and the host is returned as it is by then. -/
def processHost (network : Network) (host : Host) : HostState :=
  finalState (processHostBody network) { host := host }

end LanScan.Android.ProcessHost
