import LanScan.Spec.Ios.ScannerOrder

/-!
# The nil that ends a scan (iOS)

The end of a scan is signalled by whoever finds `scanningTask` non-nil: the body
behind its task group, or `stopScanning`.  Check and clear are separate steps, and
the variable is assigned only after the task has been created, so the right to
dispatch the nil can be lost (the body checks before the assignment) or taken
twice (both check before either clears).  `Token` says that neither happens when
the checks keep clear of each other.

## Key results

- `token_step`: the right to dispatch the nil is passed on, not copied or lost
- `nullCount_eq_one_of_timelySignal`: exactly one nil when the checks are timely
- `nil_lost`: a run with no nil; the example behind it has two
-/

namespace LanScan.Ios.Scanner

variable {cfg : Config} {s s' : State} {l : Label}

/-- The call of `stopScanning` is made after `startScanning` has returned. -/
def AfterStart (s : State) (l : Label) : Prop :=
  l = .stop → s.stop = .idle → s.assigned = true

instance (s : State) (l : Label) : Decidable (AfterStart s l) :=
  inferInstanceAs (Decidable (_ → _ → _))

/-- The body's final check comes after the assignment, and neither party checks
    `scanningTask` while the other is between its own check and its clear. -/
def TimelySignal (s : State) (l : Label) : Prop :=
  match l with
  | .body => s.body = .finalCheck →
      s.assigned = true ∧ s.stop ≠ .cancelling ∧ s.stop ≠ .clearing
  | .stop => s.stop = .idle → s.body ≠ .clearing
  | _ => True

instance (s : State) (l : Label) : Decidable (TimelySignal s l) :=
  match l with
  | .body => inferInstanceAs (Decidable (_ → _))
  | .stop => inferInstanceAs (Decidable (_ → _))
  | .assign | .worker _ | .stageReturns _ _ | .deliver => isTrue trivial

/-! ## The token -/

/-- The body has found the task and has not yet dispatched its nil. -/
@[grind] def State.bodyClaims (s : State) : Bool := s.body = .clearing || s.body = .dispatching

/-- `stopScanning` has found the task and has not yet dispatched its nil. -/
@[grind] def State.stopClaims (s : State) : Bool :=
  s.stop = .cancelling || s.stop = .clearing || s.stop = .dispatching

/-- Nobody has claimed the end of the scan yet. -/
@[grind] def State.unclaimed (s : State) : Bool :=
  !s.assigned || (s.scanningTask && !s.bodyClaims && !s.stopClaims)

/-- The nils dispatched, and those that are still to come. -/
@[grind] def State.signals (s : State) : Nat :=
  nullCount s.main.all + s.bodyClaims.toNat + s.stopClaims.toNat + s.unclaimed.toNat

/-- There is one right to dispatch the nil, and one place where it is. -/
structure Token (s : State) : Prop where
  one : s.signals = 1
  early : s.assigned = false → s.bodyClaims = false ∧ s.body ≠ .finished ∧ s.stop = .idle
  held : s.body = .clearing ∨ s.stop = .cancelling ∨ s.stop = .clearing → s.scanningTask = true
  spent : s.body = .dispatching ∨ s.body = .finished ∨ s.stop = .dispatching ∨
    s.stop = .completed → s.scanningTask = false

/-- A scan starts with the nil still to come. -/
theorem token_init : Token init where
  one := rfl
  early _ := ⟨rfl, nofun, rfl⟩
  held h := by simp [init] at h
  spent h := by simp [init] at h

/-- Steps that leave the parties and the variable alone keep the token. -/
theorem Token.congr (ht : Token s) (hcount : nullCount s'.main.all = nullCount s.main.all)
    (hbody : s'.body = s.body) (hstop : s'.stop = s.stop) (hassigned : s'.assigned = s.assigned)
    (htask : s'.scanningTask = s.scanningTask) : Token s' := by
  -- The counted signals depend on the fields that are equal only.
  have hbodyClaims : s'.bodyClaims = s.bodyClaims := by simp only [State.bodyClaims, hbody]
  have hstopClaims : s'.stopClaims = s.stopClaims := by simp only [State.stopClaims, hstop]
  have hsignals : s'.signals = s.signals := by
    simp only [State.signals, State.unclaimed, hcount, hbodyClaims, hstopClaims, hassigned, htask]
  constructor
  · rw [hsignals]; exact ht.one
  · rw [hassigned, hbodyClaims, hbody, hstop]; exact ht.early
  · rw [hbody, hstop, htask]; exact ht.held
  · rw [hbody, hstop, htask]; exact ht.spent

/-- A worker dispatches hosts only. -/
theorem nullCount_advance (s : State) (k : Nat) (w : Worker) (effect : Effect) :
    nullCount (s.advance k w effect).main.all = nullCount s.main.all := by
  rw [main_all_advance]
  exact nullCount_append_hosts _ _

/-- While the variable is non-nil, a `stopScanning` that is not about to clear it
    has not been called yet. -/
theorem Token.idle_of_task (ht : Token s) (htask : s.scanningTask = true)
    (hcancelling : s.stop ≠ .cancelling) (hclearing : s.stop ≠ .clearing) : s.stop = .idle := by
  have hspent := ht.spent
  cases hstop : s.stop with
  | idle => rfl
  | cancelling => exact absurd hstop hcancelling
  | clearing => exact absurd hstop hclearing
  | dispatching | completed => simp [hstop, htask] at hspent

/-- While the variable is non-nil, the body has neither cleared it nor finished. -/
theorem Token.early_of_task (ht : Token s) (htask : s.scanningTask = true) :
    s.body ≠ .dispatching ∧ s.body ≠ .finished := by
  have hspent := ht.spent
  constructor <;> intro hbody <;> simp [hbody, htask] at hspent

/-- The two parties never hold the token together. -/
theorem Token.not_both (ht : Token s) (hbody : s.bodyClaims = true) : s.stopClaims = false := by
  have hone := ht.one
  -- together they would make two
  apply Bool.of_not_eq_true
  intro hstop
  rw [State.signals, hbody, hstop] at hone
  simp only [Bool.toNat_true] at hone
  omega

/-- Each step passes the nil on, or spends it. -/
theorem token_step (ht : Token s) (hafter : AfterStart s l) (htimely : TimelySignal s l)
    (h : Transition cfg s l s') : Token s' := by
  have hone := ht.one
  have hearly := ht.early
  have hheld := ht.held
  have hspent := ht.spent
  cases h with
  | assign hassigned =>
    -- nobody has come to a check yet: the token stays unclaimed
    have ⟨hbodyClaims, hbody, hstop⟩ := hearly hassigned
    constructor <;> grind -ring -linarith
  | start hbody | joined hbody => constructor <;> grind -ring -linarith
  | finalCheck hbody htask =>
    -- the body claims the token
    have ⟨hassigned, hcancelling, hclearing⟩ := htimely hbody
    have hidle := ht.idle_of_task htask hcancelling hclearing
    constructor <;> grind -ring -linarith
  | finalCheckNil hbody htask =>
    -- `stopScanning` has claimed it before
    have ⟨hassigned, hcancelling, hclearing⟩ := htimely hbody
    constructor <;> grind -ring -linarith
  | clear hbody | dispatch hbody =>
    -- the body holds the token: it clears the variable and then gives the token up
    have hclaims := ht.not_both (by simp [State.bodyClaims, hbody])
    constructor <;> grind -ring -linarith [Fifo.all_post, nullCount_append_null]
  | stopCheck hstop htask =>
    -- `stopScanning` claims the token
    have hassigned := hafter rfl hstop
    have hclearing : s.body ≠ .clearing := htimely hstop
    have ⟨hdispatching, hfinished⟩ := ht.early_of_task htask
    constructor <;> grind -ring -linarith
  | stopCheckNil hstop htask =>
    -- the body has claimed it before
    have hassigned := hafter rfl hstop
    constructor <;> grind -ring -linarith
  | stopCancel hstop | stopClear hstop | stopDispatch hstop =>
    -- `stopScanning` holds the token
    have hclaims : s.bodyClaims = false := by
      apply Bool.of_not_eq_true
      intro hbody
      have hstopClaims := ht.not_both hbody
      simp [State.stopClaims, hstop] at hstopClaims
    constructor <;> grind -ring -linarith [Fifo.all_post, nullCount_append_null]
  | worker | stageReturns => exact ht.congr (nullCount_advance ..) rfl rfl rfl rfl
  | startTrap | workerTrap | stageTrap => exact ht.congr rfl rfl rfl rfl rfl
  | deliver hdeliver =>
    exact ht.congr (congrArg nullCount (Fifo.all_of_deliver hdeliver)) rfl rfl rfl rfl

/-! ## Exactly one nil -/

/-- **The end signal.** In every run in which `stopScanning` is called only after
    `startScanning` has returned and the checks of `scanningTask` are timely, the
    nil has been dispatched exactly once when the body and any call of
    `stopScanning` have finished. -/
theorem nullCount_eq_one_of_timelySignal (cfg : Config) (ls : List Label) (s : State)
    (h : (((scanner cfg).restrict AfterStart).restrict TimelySignal).run init ls = some s)
    (hbody : s.body = .finished) (hstop : s.stop = .idle ∨ s.stop = .completed) :
    nullCount s.main.all = 1 := by
  have ht : Token s := by
    refine ((scanner cfg).restrict AfterStart).run_restrict_invariant TimelySignal Token ?_
      token_init h
    intro t l t' ht htimely hs
    obtain ⟨hafter, hs⟩ := ((scanner cfg).restrict_step_eq_some AfterStart).mp hs
    exact token_step ht hafter htimely (transition_of_step hs).2
  -- the body finishes only after its check, which comes after the assignment
  have hassigned : s.assigned = true :=
    Bool.of_not_eq_false fun hassigned => (ht.early hassigned).2.1 hbody
  have htask := ht.spent (.inr (.inl hbody))
  have hone := ht.one
  have hbodyClaims : s.bodyClaims = false := by simp [State.bodyClaims, hbody]
  have hstopClaims : s.stopClaims = false := by
    rcases hstop with hstop | hstop <;> simp [State.stopClaims, hstop]
  have hunclaimed : s.unclaimed = false := by simp [State.unclaimed, hassigned, htask]
  rw [State.signals, hbodyClaims, hstopClaims, hunclaimed] at hone
  simpa using hone

/-! ## Runs -/

/-- A single address: a scan without workers. -/
def hostConfig : Config where
  ipv4 := 3232235521
  cidrPrefixLength := 32
  ping _ := false

/-- The scan of a single address ends, and `stopScanning` is called afterwards. -/
def endedScan : List Label :=
  [.assign, .body, .body, .body, .body, .body, .stop, .deliver]

/-- The state after it. -/
def endedState : State :=
  ((((scanner hostConfig).restrict AfterStart).restrict TimelySignal).run init endedScan).get
    (by decide)

/-- The scan that ends in time brings one nil. -/
theorem nullCount_eq_one_of_timelySignal_ended : nullCount endedState.main.all = 1 :=
  nullCount_eq_one_of_timelySignal hostConfig endedScan endedState (Option.some_get _).symm
    (by decide) (by decide)

/-- The body of a scan without workers comes to its final check before the task is
    assigned, and finishes without a nil. -/
theorem nil_lost : ¬ ∀ (cfg : Config) (ls : List Label) (s : State),
    ((scanner cfg).restrict AfterStart).run init ls = some s → s.body = .finished →
    s.stop = .idle ∨ s.stop = .completed → nullCount s.main.all = 1 := by
  intro h
  have hrun : (((scanner hostConfig).restrict AfterStart).run init
      [.body, .body, .body, .assign]).map (fun s => (s.body, s.stop, s.main.all)) =
      some (.finished, .idle, []) := by decide
  obtain ⟨s, hs, hfinal⟩ := Option.map_eq_some_iff.mp hrun
  simp only [Prod.mk.injEq] at hfinal
  have hone := h hostConfig _ s hs hfinal.1 (.inl hfinal.2.1)
  rw [hfinal.2.2] at hone
  exact absurd hone (by decide)

-- `stopScanning` checks between the body's check and its clear: two nils.
example : (((scanner hostConfig).restrict AfterStart).run init
    [.assign, .body, .body, .body, .stop, .body, .body, .stop, .stop, .stop]).map
    (fun s => s.main.all) = some [.null, .null] := by decide

end LanScan.Ios.Scanner
