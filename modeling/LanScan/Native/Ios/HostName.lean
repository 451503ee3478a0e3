import LanScan.Native.Ios.MDNSResolver
import LanScan.Native.Ios.Scanner

/-!
# The host name of a host (iOS)

What becomes of a name on its way into a `Host`: `ChatMessageDecoder.channelRead` cuts it
at a dot, `LanDeviceScanner.resolveHostname` asks one resolver after the other, and the
observer of `Host.hostname` cuts a suffix off.  All of it is about `Character`s.
-/

namespace LanScan.Ios.HostName

open Scanner (Stage)

/-- `"."` as a `Character`. -/
def dot : List Char := ['.']

/-- `resolveHostname`, given what `scanningTask?.isCancelled == true` is before each stage
    and what the stage finds. -/
def resolveHostname (g : Graphemes) (ipAddress : String) (isCancelled : Stage → Bool)
    (find : Stage → Option String) : Option Host := do
  let host : Host := { ip := ipAddress }
  let mut hostname := host.hostname
  if hostname = none then
    if isCancelled .mdns then return host
    hostname := find .mdns
  if hostname = none then
    if isCancelled .netBIOS then return host
    hostname := find .netBIOS
  if hostname = none then
    if isCancelled .getHostName then return host
    hostname := find .getHostName
  -- host.hostname = hostname
  return { host with hostname := ← didSet g hostname }

/-- `ChatMessageDecoder.channelRead`: `split` cuts the decoded name at its dots. -/
def channelRead (g : Graphemes) (ip : String) (responseBytes : List UInt8) :
    Option (Option String) :=
  MDNSResolver.channelReadWith (fun hostName => (g.split dot hostName).head?.map String.ofList) ip
    responseBytes

/-- The host for an address whose mDNS request is answered with a datagram, given what
    the other stages find. -/
def answeredHost (g : Graphemes) (ipAddress : String) (responseBytes : List UInt8)
    (find : Stage → Option String) : Option Host := do
  let name ← channelRead g ipAddress responseBytes
  resolveHostname g ipAddress (fun _ => false) fun
    | .mdns => name
    | stage => find stage

end LanScan.Ios.HostName
