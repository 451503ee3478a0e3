import LanScan.ForStd.Lts
import LanScan.Native.Ios.MDNSResolver

/-!
# One mDNS lookup (iOS)

`MDNSResolver.resolve` as a labelled transition system: the function itself, from one
`await` to the next, the datagrams that its channel reads, and the timeout task that it
schedules.  An error that is thrown goes to the `catch` block, which returns `nil`.
-/

namespace LanScan.Ios.MDNSChannel

open MDNSResolver

/-- Where `resolve` stands. -/
inductive Pc where
  /-- in `createDatagramChannel`, about to bind -/
  | binding
  /-- in `createDatagramChannel`, about to join the group -/
  | joining
  /-- about to schedule the timeout task -/
  | scheduling
  /-- in `writeRequest`, about to compute the request -/
  | requesting
  /-- in `writeRequest`, inside `writeAndFlush` -/
  | writing
  /-- inside `futureResult.get()` -/
  | awaiting
  /-- about to cancel the timeout task -/
  | cancelling (name : Option String)
  /-- about to close the channel -/
  | closing (name : Option String)
  | returned (name : Option String)
  /-- something trapped, here or in the channel -/
  | trapped
  deriving DecidableEq, Repr

/-- The datagram channel. -/
inductive Channel where
  | unbound
  | open
  | closed
  deriving DecidableEq, Repr

/-- The timeout task. -/
inductive Timer where
  | unscheduled
  | pending
  | ran
  | cancelled
  deriving DecidableEq, Repr

/-- State of one lookup. -/
structure State where
  pc : Pc
  channel : Channel
  timer : Timer
  /-- the value of `responsePromise`, once it has one -/
  promise : Option (Option String)
  deriving DecidableEq, Repr

/-- Who moves next. -/
inductive Label where
  /-- `bind` comes to its result -/
  | bind (bound : Bool)
  /-- `joinGroup` comes to its result -/
  | joinGroup (joined : Bool)
  /-- `writeAndFlush` comes to its result -/
  | writeAndFlush (written : Bool)
  /-- `resolve` takes its next step -/
  | next
  /-- the channel reads a datagram -/
  | channelRead (responseBytes : List UInt8)
  /-- the timeout task runs -/
  | timer
  deriving DecidableEq, Repr

/-- `responsePromise.succeed(name)`: only the first value counts. -/
def State.succeed (s : State) (name : Option String) : State :=
  { s with promise := s.promise.or (some name) }

/-- `timeoutFuture.cancel()` -/
def Timer.cancel : Timer → Timer
  | .pending => .cancelled
  | timer => timer

/-- `return nil`, in the `catch` block. -/
def State.catch (s : State) : State := { s with pc := .returned none }

/-- The steps of `resolve`, `createDatagramChannel` and `writeRequest`. -/
def stepResolve (ip : String) (s : State) : Label → Option State
  | .bind bound =>
    if s.pc = .binding then
      match getBindPort ip with
      | none => some { s with pc := .trapped }
      | some _ => some (if bound then { s with pc := .joining, channel := .open } else s.catch)
    else none
  | .joinGroup joined =>
    if s.pc = .joining then some (if joined then { s with pc := .scheduling } else s.catch)
    else none
  | .writeAndFlush written =>
    if s.pc = .writing then some (if written then { s with pc := .awaiting } else s.catch)
    else none
  | .next =>
    match s.pc with
    | .scheduling => some { s with pc := .requesting, timer := .pending }
    | .requesting =>
      match writeRequest ip with
      | none => some { s with pc := .trapped }
      -- without a request there is nothing to write, and only the timeout ends the lookup
      | some none => some { s with pc := .awaiting }
      | some (some _) => some { s with pc := .writing }
    | .awaiting => s.promise.map fun name => { s with pc := .cancelling name }
    | .cancelling name => some { s with pc := .closing name, timer := s.timer.cancel }
    -- try? datagramChannel.close().wait()
    | .closing name => some { s with pc := .returned name, channel := .closed }
    | .binding | .joining | .writing | .returned _ | .trapped => none
  | _ => none

/-- One atomic step. -/
def step (ip : String) (s : State) (l : Label) : Option State :=
  if s.pc = .trapped then none
  else
    match l with
    | .channelRead responseBytes =>
      if s.channel = .open then
        match channelRead ip responseBytes with
        | none => some { s with pc := .trapped }
        | some none => some s
        | some (some name) => some (s.succeed name)
      else none
    | .timer =>
      if s.timer = .pending then some { s.succeed none with timer := .ran } else none
    | l => stepResolve ip s l

/-- The state when `resolve` is called. -/
def init : State where
  pc := .binding
  channel := .unbound
  timer := .unscheduled
  promise := none

/-- One lookup as a transition system. -/
def mdnsLookup (ip : String) : Lts State Label where
  init := init
  step := step ip

end LanScan.Ios.MDNSChannel
