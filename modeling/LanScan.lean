import LanScan.ForStd.Buffer
import LanScan.ForStd.Components
import LanScan.ForStd.Fifo
import LanScan.ForStd.Int
import LanScan.ForStd.Interleaving
import LanScan.ForStd.Json
import LanScan.ForStd.JsonCorrect
import LanScan.ForStd.JsonWriter
import LanScan.ForStd.Labels
import LanScan.ForStd.List
import LanScan.ForStd.LittleEndian
import LanScan.ForStd.Lts
import LanScan.ForStd.OnesComplement
import LanScan.ForStd.Popcount
import LanScan.ForStd.Records
import LanScan.ForStd.Segments
import LanScan.ForStd.Split
import LanScan.ForStd.StepCount
import LanScan.ForStd.Utf16
import LanScan.ForStd.Utf8
import LanScan.Native.Android.ArpPipe
import LanScan.Native.Android.ArpTable
import LanScan.Native.Android.Handler
import LanScan.Native.Android.IpNeigh
import LanScan.Native.Android.MDNSResolver
import LanScan.Native.Android.NativeIPNeigh
import LanScan.Native.Android.NativeIPNeighCalls
import LanScan.Native.Android.NetBIOSResolver
import LanScan.Native.Android.Netlink
import LanScan.Native.Android.ProcessHost
import LanScan.Native.Android.Scanner
import LanScan.Native.Android.Subnet
import LanScan.Native.Android.WiFiConnectionStatus
import LanScan.Native.Android.Wireless
import LanScan.Native.Dart.MethodChannel
import LanScan.Native.Host
import LanScan.Native.Ios.Handler
import LanScan.Native.Ios.Host
import LanScan.Native.Ios.HostName
import LanScan.Native.Ios.ICMPPacket
import LanScan.Native.Ios.ICMPPing
import LanScan.Native.Ios.ICMPSockets
import LanScan.Native.Ios.MDNSChannel
import LanScan.Native.Ios.MDNSResolver
import LanScan.Native.Ios.PingHelper
import LanScan.Native.Ios.Scanner
import LanScan.Native.Ios.Subnet
import LanScan.Native.Ios.Wireless
import LanScan.Native.Session
import LanScan.Spec.Android.AddedAttributes
import LanScan.Spec.Android.AddressBytes
import LanScan.Spec.Android.ArpEntry
import LanScan.Spec.Android.ArpHosts
import LanScan.Spec.Android.ArpRoundTrip
import LanScan.Spec.Android.EncodableSubnet
import LanScan.Spec.Android.HandlerEvents
import LanScan.Spec.Android.HandlerNull
import LanScan.Spec.Android.HandlerStep
import LanScan.Spec.Android.HostNames
import LanScan.Spec.Android.MDNSDecode
import LanScan.Spec.Android.MDNSLookup
import LanScan.Spec.Android.MDNSReceived
import LanScan.Spec.Android.NativeIPNeighCallsCorrect
import LanScan.Spec.Android.NativeIPNeighCorrect
import LanScan.Spec.Android.NetBIOSLookup
import LanScan.Spec.Android.NetlinkAccepted
import LanScan.Spec.Android.NetlinkAttributes
import LanScan.Spec.Android.NetlinkDecode
import LanScan.Spec.Android.NetlinkDump
import LanScan.Spec.Android.NetlinkTable
import LanScan.Spec.Android.NodeStatus
import LanScan.Spec.Android.OverlappingCalls
import LanScan.Spec.Android.PipeCapacity
import LanScan.Spec.Android.ProbesAfterStop
import LanScan.Spec.Android.QuestionNames
import LanScan.Spec.Android.ResolverSockets
import LanScan.Spec.Android.ScanCorrect
import LanScan.Spec.Android.ScannerCoverage
import LanScan.Spec.Android.ScannerInvariant
import LanScan.Spec.Android.ScannerOrder
import LanScan.Spec.Android.ScannerStep
import LanScan.Spec.Android.ScannerTermination
import LanScan.Spec.Android.ScannerTrace
import LanScan.Spec.Android.StatusEvents
import LanScan.Spec.Android.SubnetCorrect
import LanScan.Spec.Android.TableHosts
import LanScan.Spec.Android.TableStream
import LanScan.Spec.Android.WirelessNumbers
import LanScan.Spec.Dart.HostEvents
import LanScan.Spec.Dart.StatusEvents
import LanScan.Spec.Events
import LanScan.Spec.HostNameAgreement
import LanScan.Spec.Ios.ChannelRelease
import LanScan.Spec.Ios.EchoReplies
import LanScan.Spec.Ios.EndSignal
import LanScan.Spec.Ios.HandlerSignals
import LanScan.Spec.Ios.HostNames
import LanScan.Spec.Ios.ICMPChecksum
import LanScan.Spec.Ios.LateStage
import LanScan.Spec.Ios.MDNSBounds
import LanScan.Spec.Ios.MDNSIsolation
import LanScan.Spec.Ios.MDNSLookup
import LanScan.Spec.Ios.PingCompletion
import LanScan.Spec.Ios.PingTermination
import LanScan.Spec.Ios.PingsAfterStop
import LanScan.Spec.Ios.Reachability
import LanScan.Spec.Ios.ScanCorrect
import LanScan.Spec.Ios.ScannerCoverage
import LanScan.Spec.Ios.ScannerInvariant
import LanScan.Spec.Ios.ScannerOrder
import LanScan.Spec.Ios.ScannerStep
import LanScan.Spec.Ios.ScannerTermination
import LanScan.Spec.Ios.SubnetCorrect
import LanScan.Spec.Ios.WirelessNumbers
import LanScan.Spec.Ipv4
import LanScan.Spec.LookupCorrect
import LanScan.Spec.Network
import LanScan.Spec.NetworkStream
import LanScan.Spec.ProbesAfterStop
import LanScan.Spec.RequestBytes
import LanScan.Spec.RequestIds
import LanScan.Spec.ReverseLookup
import LanScan.Spec.ScanAgreement
import LanScan.Spec.Sessions
import LanScan.Spec.StreamAgreement
import LanScan.Spec.WirelessAgreement
