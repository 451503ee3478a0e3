import LanScan.Native.Ios.ICMPPing

/-!
# The sockets of many pings (iOS)

Several instances of `ICMPPingTool` that run at the same time, and the datagrams that
are delivered to their sockets.  Whether a datagram is a matching reply is decided by
the callback that `createSocket` registers; what the callback leads to is the ping of
`ICMPPing`.  All callbacks and all blocks of the main queue run on the main run loop,
one at a time.
-/

namespace LanScan.Ios.ICMPSockets

/-- An `ICMPPingTool`: the address of its host, and its identifier. -/
structure ICMPPingTool where
  host : List UInt8
  identifier : UInt16
  deriving DecidableEq, Repr

/-- What a socket hands to its callback: the address of the sender, and the datagram with
    its IP header. -/
structure Datagram where
  address : List UInt8
  data : List UInt8
  deriving DecidableEq, Repr

/-- The fields of an `ICMPHeader` that matter here. -/
structure ICMPHeader where
  type : UInt8
  identifier : UInt16
  deriving DecidableEq, Repr

/-- The header behind 20 bytes of IP header, if there is room for its 8 bytes.  A field
    of 16 bits is in native order. -/
def icmpHeader (icmpData : List UInt8) : Option ICMPHeader :=
  if 20 + 8 ≤ icmpData.length then
    some {
      type := icmpData.getD 20 0
      identifier := (icmpData.getD 24 0).toUInt16 ||| (icmpData.getD 25 0).toUInt16 <<< 8 }
  else none

/-- The guards of the callback, in front of `handleSocketData`. -/
def callback (icmpTool : ICMPPingTool) (datagram : Datagram) : Bool :=
  match icmpHeader datagram.data with
  | none => false
  | some header => header.identifier == icmpTool.identifier

/-- State of the pings.  `delivered` records the datagrams, each with the instance to
    whose socket it was delivered. -/
structure State where
  pings : List ICMPPing.State
  delivered : List (Nat × Datagram)
  deriving DecidableEq, Repr

/-- Who moves next. -/
inductive Label where
  /-- instance `k` takes a step of its own -/
  | ping (k : Nat) (l : ICMPPing.Label)
  /-- a datagram arrives at the socket of instance `k` -/
  | deliver (k : Nat) (datagram : Datagram)
  deriving DecidableEq, Repr

/-- The main run loop is free for a callback or a block of the main queue. -/
def State.mainFree (s : State) : Bool :=
  s.pings.all fun ping => ping.handler == .idle && !ping.mainBusy

/-- A datagram at the socket of instance `k`. -/
def stepDeliver (tools : List ICMPPingTool) (s : State) (k : Nat) (datagram : Datagram) :
    Option State :=
  match tools[k]?, s.pings[k]? with
  | some icmpTool, some ping =>
    if ping.socket ∧ s.mainFree then
      let s := { s with delivered := s.delivered ++ [(k, datagram)] }
      if callback icmpTool datagram then
        (ICMPPing.step ping .reply).map fun ping => { s with pings := s.pings.set k ping }
      else some s
    else none
  | _, _ => none

/-- One atomic step. -/
def step (tools : List ICMPPingTool) (s : State) : Label → Option State
  -- replies come as datagrams
  | .ping _ .reply => none
  | .ping k l =>
    match s.pings[k]? with
    | none => none
    | some ping =>
      -- `createSocket` is called in a block of the main queue
      if (∃ created, l = .createSocket created) ∧ !s.mainFree then none
      else (ICMPPing.step ping l).map fun ping => { s with pings := s.pings.set k ping }
  | .deliver k datagram => stepDeliver tools s k datagram

/-- The state when `startPing` is called on every instance. -/
def init (tools : List ICMPPingTool) : State where
  pings := tools.map fun _ => ICMPPing.init
  delivered := []

/-- The pings as a transition system. -/
def pings (tools : List ICMPPingTool) : Lts State Label where
  init := init tools
  step := step tools

end LanScan.Ios.ICMPSockets
