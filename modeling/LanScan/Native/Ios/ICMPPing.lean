import LanScan.ForStd.Lts

/-!
# One ping (iOS)

`ICMPPingTool` as a labelled transition system.  `startPing` runs from queue to
queue (the background queue of `resolveHost`, the main queue for `createSocket`,
a global queue for `sendPing`); the timeout work item fires on a global queue;
matching replies are handled on the main run loop as long as the socket is valid.
`calls` records the arguments of all calls of the completion closure, which
`PingHelper.start` uses to resume a continuation.
-/

namespace LanScan.Ios.ICMPPing

/-- Where `startPing` stands, with all it has handed on to other queues. -/
inductive PingPc where
  /-- inside `resolveHost` -/
  | resolving
  /-- `hostResolved(false)`: about to call the completion -/
  | resolveFailed
  /-- `hostResolved(true)`: about to dispatch to the main queue -/
  | resolved
  /-- on the main queue, about to create the socket -/
  | creating
  /-- `createSocket` has no socket: about to call the completion -/
  | socketFailed
  /-- `createSocket` has returned: about to dispatch `sendPing` to a global queue -/
  | created
  /-- in `sendPing`, about to test `addressData` -/
  | sending
  /-- there is no `addressData`: about to call the completion -/
  | noAddress
  /-- about to send the packet -/
  | sendPacket
  /-- the packet is sent: about to assign `timeoutWorkItem` -/
  | assigning
  /-- about to hand the work item to `asyncAfter` -/
  | scheduling
  | finished
  deriving DecidableEq, Repr

/-- Where the timeout work item stands. -/
inductive TimerPc where
  /-- not handed to `asyncAfter` yet -/
  | unscheduled
  | scheduled
  /-- the closure runs: about to call the completion -/
  | firing
  /-- about to call `stopPing` -/
  | stopping
  /-- over, or cancelled before it ran -/
  | done
  deriving DecidableEq, Repr

/-- Where `handleSocketData` stands on the main run loop. -/
inductive HandlerPc where
  /-- no reply is being handled -/
  | idle
  /-- about to cancel `timeoutWorkItem` -/
  | cancelling
  /-- about to call the completion -/
  | completing
  /-- about to call `stopPing` -/
  | stopping
  deriving DecidableEq, Repr

/-- State of one ping. -/
structure State where
  pc : PingPc
  /-- `addressData != nil` -/
  addressData : Bool
  /-- `socket != nil`: the socket has been created and not been invalidated -/
  socket : Bool
  /-- `timeoutWorkItem != nil` -/
  timeoutWorkItem : Bool
  /-- the work item has been cancelled -/
  itemCancelled : Bool
  timer : TimerPc
  handler : HandlerPc
  calls : List Bool
  deriving DecidableEq, Repr

/-- Who moves next. -/
inductive Label where
  /-- `resolveHost` comes to its result -/
  | resolve (resolved : Bool)
  /-- `CFSocketCreate` comes to its result -/
  | createSocket (created : Bool)
  /-- `startPing` takes its next step, on whichever queue it is -/
  | next
  /-- the timeout work item takes its next step -/
  | timer
  /-- a matching reply arrives -/
  | reply
  /-- `handleSocketData` takes its next step -/
  | handler
  deriving DecidableEq, Repr

/-- The main queue is inside the block that `startPing` dispatched to it. -/
def State.mainBusy (s : State) : Bool := s.pc = .socketFailed || s.pc = .created

/-- `completion?(success)` -/
def State.complete (s : State) (success : Bool) : State := { s with calls := s.calls ++ [success] }

/-- `stopPing()`: invalidates the socket if there still is one. -/
def State.stopPing (s : State) : State := { s with socket := false }

/-- The steps of `startPing`, `createSocket` and `sendPing`. -/
def stepPing (s : State) : Label → Option State
  | .resolve resolved =>
    if s.pc = .resolving then
      if resolved then some { s with pc := .resolved, addressData := true }
      else some { s with pc := .resolveFailed }
    else none
  | .createSocket created =>
    -- a block of the main queue does not run inside a callback of the run loop
    if s.pc = .creating ∧ s.handler = .idle then
      if created then some { s with pc := .created, socket := true }
      else some { s with pc := .socketFailed }
    else none
  | .next =>
    match s.pc with
    | .resolveFailed => some { s.complete false with pc := .finished }
    | .resolved => some { s with pc := .creating }
    -- the failure ends createSocket, but not the block that called it
    | .socketFailed => some { s.complete false with pc := .created }
    | .created => some { s with pc := .sending }
    | .sending => some { s with pc := if s.addressData then .sendPacket else .noAddress }
    | .noAddress => some { s.complete false with pc := .finished }
    | .sendPacket => some { s with pc := .assigning }
    | .assigning => some { s with pc := .scheduling, timeoutWorkItem := true }
    -- asyncAfter
    | .scheduling => some { s with pc := .finished, timer := .scheduled }
    | .resolving | .creating | .finished => none
  | _ => none

/-- The steps of the timeout work item. -/
def stepTimer (s : State) : Option State :=
  match s.timer with
  -- a cancelled work item does not run
  | .scheduled => some { s with timer := if s.itemCancelled then .done else .firing }
  | .firing => some { s.complete false with timer := .stopping }
  | .stopping => some { s.stopPing with timer := .done }
  | .unscheduled | .done => none

/-- The steps of `handleSocketData`. -/
def stepHandler (s : State) : Option State :=
  match s.handler with
  | .idle => none
  | .cancelling =>
    -- timeoutWorkItem?.cancel()
    some { s with handler := .completing, itemCancelled := s.itemCancelled || s.timeoutWorkItem }
  | .completing => some { s.complete true with handler := .stopping }
  | .stopping => some { s.stopPing with handler := .idle }

/-- One atomic step. -/
def step (s : State) : Label → Option State
  | .timer => stepTimer s
  | .reply =>
    -- the main run loop calls back for a valid socket, and does one thing at a time
    if s.socket ∧ s.handler = .idle ∧ ¬ s.mainBusy then some { s with handler := .cancelling }
    else none
  | .handler => stepHandler s
  | label => stepPing s label

/-- The state when `startPing` is called. -/
def init : State where
  pc := .resolving
  addressData := false
  socket := false
  timeoutWorkItem := false
  itemCancelled := false
  timer := .unscheduled
  handler := .idle
  calls := []

/-- One ping as a transition system. -/
def icmpPing : Lts State Label where
  init := init
  step := step

end LanScan.Ios.ICMPPing
