import Mathlib.Data.List.Basic

/-!
# The mitigation timer of the generic receive path

The comment above `generic_timer_handler` gives the design. The first packet on an idle
receiver notifies at once and starts `mit_timer` (`netmap_mitigation_start`). Later packets
only set `mit_pending` until the timer expires. Then, if work is pending, the handler notifies
and restarts the timer (`netmap_mitigation_restart`); otherwise it lets the timer stop.

The arrival path and the handler run in different contexts with no lock between them, so
each step of the handler is atomic on its own and arrivals may come between them (`mitStep`).
An arrival between the handler's test and its `HRTIMER_NORESTART` return is left pending with
the timer stopped (`generic_timer_handler_loses_arrival`). That race is the only way a run
loses a wake-up (`mitRun_lostWakeup_race`). With the test and the return made one step
(`mitStepLocked`), no reachable state loses one, and every run is a run of the comment's
three-state coalescer with the same notifications (`mitStepLocked_run_refines`).
-/

namespace Netmap

/-- Where `generic_timer_handler` stands: about to test `mit_pending`, about to return
`HRTIMER_NORESTART`, or about to clear `mit_pending`, notify, restart the timer and return
`HRTIMER_RESTART`. -/
inductive HandlerPc where
  | test
  | noRestart
  | restart
  deriving DecidableEq, Repr

/-- The state of `mit_timer`: not queued, queued to expire, or its callback running. -/
inductive MitTimer where
  | inactive
  | queued
  | running (pc : HandlerPc)
  deriving DecidableEq, Repr

/-- Whether the timer's callback is running. -/
def MitTimer.isRunning : MitTimer → Bool
  | .running _ => true
  | _ => false

/-- The mitigation fields of a `netmap_generic_adapter`, the `IFCAP_NETMAP` bit the handler
reads, and how many notifications have been sent so far. -/
structure MitState where
  mitPending : Bool
  timer : MitTimer
  ifcapNetmap : Bool
  notifications : Nat
  deriving DecidableEq, Repr

/-- The steps that interleave: an arrival, the timer's expiry (its callback starts), and the
handler's test of `mit_pending` and its two returns. -/
inductive MitEvent where
  | arrival
  | expire
  | test
  | returnNoRestart
  | returnRestart
  deriving DecidableEq, Repr

/-- `netmap_mitigation_init`: the timer set up but not started, nothing pending. -/
def netmapMitigationInit (ifcapNetmap : Bool) : MitState :=
  ⟨false, .inactive, ifcapNetmap, 0⟩

/-- `netmap_mitigation_start`, that is `hrtimer_start`: the timer is queued to expire. The
interval `netmap_generic_mit` is not modelled. -/
def netmapMitigationStart (s : MitState) : MitState :=
  { s with timer := .queued }

/-- `netmap_mitigation_restart`, that is `hrtimer_forward_now` from the callback: with the
`HRTIMER_RESTART` return that follows it, the timer is queued to expire again. -/
def netmapMitigationRestart (s : MitState) : MitState :=
  { s with timer := .queued }

/-- `netmap_mitigation_active`, that is `hrtimer_active`: the timer is queued or its callback
is running. -/
def netmapMitigationActive (s : MitState) : Bool :=
  s.timer != .inactive

/-- An arrival. The receive path, `generic_rx_handler`, is not in this file; this is what the
comment above `generic_timer_handler` says it does: while the timer is active it records
pending work, otherwise it notifies at once and calls `netmap_mitigation_start`. -/
def mitArrival (s : MitState) : MitState :=
  if netmapMitigationActive s then { s with mitPending := true }
  else netmapMitigationStart { s with notifications := s.notifications + 1 }

theorem mitArrival_of_active {s : MitState} (active : netmapMitigationActive s = true) :
    mitArrival s = { s with mitPending := true } :=
  if_pos active

/-- An arrival on an idle receiver queues the timer. -/
theorem mitArrival_timer_of_inactive {s : MitState} (idle : s.timer = .inactive) :
    (mitArrival s).timer = .queued := by
  simp [mitArrival, netmapMitigationActive, netmapMitigationStart, idle]

/-- The `HRTIMER_RESTART` branch of `generic_timer_handler`: clear `mit_pending`, notify if
the interface is in netmap mode, and `netmap_mitigation_restart`. -/
def mitRestart (s : MitState) : MitState :=
  netmapMitigationRestart { s with
    mitPending := false
    notifications := if s.ifcapNetmap then s.notifications + 1 else s.notifications }

/-- `generic_timer_handler`, one atomic step at a time: its start when the timer expires, its
test of `mit_pending`, and its two returns; `none` when the handler is not at that step. -/
def genericTimerHandler (s : MitState) : MitEvent → Option MitState
  | .expire => if s.timer = .queued then some { s with timer := .running .test } else none
  | .test =>
    if s.timer = .running .test then
      some { s with timer := .running (if s.mitPending then .restart else .noRestart) }
    else none
  | .returnNoRestart =>
    if s.timer = .running .noRestart then some { s with timer := .inactive } else none
  | .returnRestart => if s.timer = .running .restart then some (mitRestart s) else none
  | .arrival => none

/-- One atomic step of the receive side: an arrival, or a step of the handler. -/
def mitStep (s : MitState) : MitEvent → Option MitState
  | .arrival => some (mitArrival s)
  | e => genericTimerHandler s e

/-- A sequence of steps from `s`; `none` as soon as one cannot happen. -/
def mitRun (step : MitState → MitEvent → Option MitState) (s : MitState) :
    List MitEvent → Option MitState
  | [] => some s
  | e :: es => (step s e).bind fun s' => mitRun step s' es

/-- The states reachable from `init` by steps of `step`. -/
inductive MitReachable (step : MitState → MitEvent → Option MitState) (init : MitState) :
    MitState → Prop where
  | init : MitReachable step init init
  | step {s s' : MitState} (e : MitEvent) :
      MitReachable step init s → step s e = some s' → MitReachable step init s'

theorem MitReachable.of_run {step : MitState → MitEvent → Option MitState} {init s : MitState}
    (reached : MitReachable step init s) :
    ∀ {es : List MitEvent} {s' : MitState}, mitRun step s es = some s' →
      MitReachable step init s'
  | [], _, ran => by
    cases ran
    exact reached
  | e :: es, _, ran => by
    obtain ⟨s₁, stepped, rest⟩ := Option.bind_eq_some.mp ran
    exact (reached.step e stepped).of_run rest

theorem mitRun_append (step : MitState → MitEvent → Option MitState) (s : MitState)
    (es es' : List MitEvent) :
    mitRun step s (es ++ es') = (mitRun step s es).bind fun s' => mitRun step s' es' := by
  induction es generalizing s with
  | nil => rfl
  | cons e es ih =>
    simp only [List.cons_append, mitRun, Option.bind_assoc]
    exact congrArg (Option.bind _) (funext fun s' => ih s')

/-- A run's last step: the run up to it, and the step. -/
theorem mitRun_concat {step : MitState → MitEvent → Option MitState} {s s' : MitState}
    {es : List MitEvent} {e : MitEvent} (ran : mitRun step s (es ++ [e]) = some s') :
    ∃ s₁, mitRun step s es = some s₁ ∧ step s₁ e = some s' := by
  rw [mitRun_append] at ran
  obtain ⟨s₁, ranEs, last⟩ := Option.bind_eq_some.mp ran
  obtain ⟨s₂, stepped, done⟩ := Option.bind_eq_some.mp last
  cases done
  exact ⟨s₁, ranEs, stepped⟩

/-- Everything one step can do, with its guard. -/
theorem mitStep_cases {s s' : MitState} {e : MitEvent} (stepped : mitStep s e = some s') :
    e = .arrival ∧ s' = mitArrival s ∨
    e = .expire ∧ s.timer = .queued ∧ s' = { s with timer := .running .test } ∨
    e = .test ∧ s.timer = .running .test ∧
      s' = { s with timer := .running (if s.mitPending then .restart else .noRestart) } ∨
    e = .returnNoRestart ∧ s.timer = .running .noRestart ∧ s' = { s with timer := .inactive } ∨
    e = .returnRestart ∧ s.timer = .running .restart ∧ s' = mitRestart s := by
  cases e with
  | arrival => exact .inl ⟨rfl, (Option.some.inj stepped).symm⟩
  | expire =>
    change genericTimerHandler s .expire = some s' at stepped
    simp only [genericTimerHandler] at stepped
    split at stepped <;> cases stepped
    exact .inr (.inl ⟨rfl, ‹_›, rfl⟩)
  | test =>
    change genericTimerHandler s .test = some s' at stepped
    simp only [genericTimerHandler] at stepped
    split at stepped <;> cases stepped
    exact .inr (.inr (.inl ⟨rfl, ‹_›, rfl⟩))
  | returnNoRestart =>
    change genericTimerHandler s .returnNoRestart = some s' at stepped
    simp only [genericTimerHandler] at stepped
    split at stepped <;> cases stepped
    exact .inr (.inr (.inr (.inl ⟨rfl, ‹_›, rfl⟩)))
  | returnRestart =>
    change genericTimerHandler s .returnRestart = some s' at stepped
    simp only [genericTimerHandler] at stepped
    split at stepped <;> cases stepped
    exact .inr (.inr (.inr (.inr ⟨rfl, ‹_›, rfl⟩)))

/-- No arrival waits with nothing to flush it: while the handler is not running, pending work
means the timer is queued. -/
def NoLostWakeup (s : MitState) : Prop :=
  s.timer.isRunning = false → s.mitPending = true → s.timer = .queued

instance (s : MitState) : Decidable (NoLostWakeup s) :=
  inferInstanceAs (Decidable (_ → _ → _))

/-! ## The race -/

/-- An arrival, the expiry, the handler's test, a second arrival and the `HRTIMER_NORESTART`
return: the second arrival is left pending with the timer stopped, and only another arrival
can follow. -/
theorem generic_timer_handler_loses_arrival :
    let lost : MitState := ⟨true, .inactive, true, 1⟩
    mitRun mitStep (netmapMitigationInit true)
        [.arrival, .expire, .test, .arrival, .returnNoRestart] = some lost ∧
      MitReachable mitStep (netmapMitigationInit true) lost ∧ ¬ NoLostWakeup lost ∧
      ∀ e, e ≠ .arrival → mitStep lost e = none := by
  have ran : mitRun mitStep (netmapMitigationInit true)
      [.arrival, .expire, .test, .arrival, .returnNoRestart] = some ⟨true, .inactive, true, 1⟩ :=
    rfl
  refine ⟨ran, MitReachable.init.of_run ran, by decide, fun e notArrival => ?_⟩
  cases e <;> first | exact absurd rfl notArrival | rfl

theorem noLostWakeup_of_running {s : MitState} {pc : HandlerPc}
    (running : s.timer = .running pc) : NoLostWakeup s := fun notRunning => by
  simp [running, MitTimer.isRunning] at notRunning

theorem noLostWakeup_of_clear {s : MitState} (clear : s.mitPending = false) : NoLostWakeup s :=
  fun _ pending => absurd (clear ▸ pending) Bool.false_ne_true

/-- An arrival keeps pending work covered: it finds the timer active, or it queues it. -/
theorem noLostWakeup_arrival {s : MitState} (kept : NoLostWakeup s) :
    NoLostWakeup (mitArrival s) := by
  obtain ⟨pending, timer, ifcapNetmap, notifications⟩ := s
  cases timer with
  | inactive => exact fun _ _ => rfl
  | queued => exact fun _ _ => rfl
  | running pc => exact noLostWakeup_of_running rfl

/-- With the timer inactive only an arrival can happen: no callback starts. -/
theorem mitStep_of_inactive {s s' : MitState} {e : MitEvent} (idle : s.timer = .inactive)
    (stepped : mitStep s e = some s') : e = .arrival := by
  rcases mitStep_cases stepped with ⟨rfl, -⟩ | ⟨-, timer, -⟩ | ⟨-, timer, -⟩ | ⟨-, timer, -⟩ |
    ⟨-, timer, -⟩ <;> first | rfl | (rw [idle] at timer; cases timer)

/-- One step keeps `NoLostWakeup`, except the `HRTIMER_NORESTART` return taken while
`mit_pending` is set. -/
theorem mitStep_noLostWakeup {s s' : MitState} {e : MitEvent} (kept : NoLostWakeup s)
    (stepped : mitStep s e = some s') :
    NoLostWakeup s' ∨ e = .returnNoRestart ∧ s.timer = .running .noRestart ∧ s.mitPending = true := by
  rcases mitStep_cases stepped with ⟨-, rfl⟩ | ⟨-, -, rfl⟩ | ⟨-, -, rfl⟩ | ⟨rfl, running, rfl⟩ |
    ⟨-, -, rfl⟩
  · exact .inl (noLostWakeup_arrival kept)
  · exact .inl (noLostWakeup_of_running rfl)
  · exact .inl (noLostWakeup_of_running rfl)
  · cases pending : s.mitPending
    · exact .inl (noLostWakeup_of_clear rfl)
    · exact .inr ⟨rfl, running, rfl⟩
  · exact .inl (noLostWakeup_of_clear rfl)

/-- How the handler came to stand at its `HRTIMER_NORESTART` return, in a run from a state
where it was not running: by a test that found nothing pending, then arrivals only. Work is
pending there exactly when one of those arrivals came. -/
theorem mitRun_noRestart_history {s : MitState} (idle : s.timer.isRunning = false) :
    ∀ {es : List MitEvent} {s' : MitState}, mitRun mitStep s es = some s' →
      s'.timer = .running .noRestart →
      ∃ pre arrivals t, es = pre ++ .test :: arrivals ∧ (∀ e ∈ arrivals, e = .arrival) ∧
        mitRun mitStep s pre = some t ∧ t.timer = .running .test ∧ t.mitPending = false ∧
        (s'.mitPending = true ↔ arrivals ≠ []) := by
  intro es
  induction es using List.reverseRecOn with
  | nil =>
    intro s' ran atReturn
    cases ran
    rw [atReturn] at idle
    cases idle
  | append_singleton es e ih =>
    intro s' ran atReturn
    obtain ⟨s₁, ranEs, stepped⟩ := mitRun_concat ran
    rcases mitStep_cases stepped with ⟨rfl, rfl⟩ | ⟨-, -, rfl⟩ | ⟨rfl, tested, rfl⟩ |
      ⟨-, -, rfl⟩ | ⟨-, -, rfl⟩
    · -- an arrival while the handler stands at its return only sets `mit_pending`
      have active : netmapMitigationActive s₁ = true := by
        by_contra inactive
        have idle : s₁.timer = .inactive := by simpa [netmapMitigationActive] using inactive
        rw [mitArrival_timer_of_inactive idle] at atReturn
        cases atReturn
      rw [mitArrival_of_active active] at atReturn ⊢
      obtain ⟨pre, arrivals, t, rfl, onlyArrivals, ranPre, atTest, clear, -⟩ := ih ranEs atReturn
      refine ⟨pre, arrivals ++ [.arrival], t, by simp, fun e mem => ?_, ranPre, atTest, clear,
        by simp⟩
      rcases List.mem_append.mp mem with old | new
      · exact onlyArrivals e old
      · exact List.mem_singleton.mp new
    · cases atReturn
    · -- the test found nothing pending
      have clear : s₁.mitPending = false := by
        cases pending : s₁.mitPending
        · rfl
        · simp [pending] at atReturn
      exact ⟨es, [], s₁, rfl, fun _ mem => absurd mem (List.not_mem_nil _), ranEs, tested, clear,
        by simp [clear]⟩
    · cases atReturn
    · cases atReturn

/-- Over every run from a state where the handler is not running and no wake-up is lost, a
lost wake-up at the end comes from the race: the handler's test found nothing pending, one or
more arrivals came, and then the `HRTIMER_NORESTART` return. -/
theorem mitRun_lostWakeup_race {s s' : MitState} {es : List MitEvent}
    (idle : s.timer.isRunning = false) (kept : NoLostWakeup s)
    (ran : mitRun mitStep s es = some s') (lost : ¬ NoLostWakeup s') :
    ∃ pre arrivals t, es = pre ++ .test :: arrivals ++ [.returnNoRestart] ∧ arrivals ≠ [] ∧
      (∀ e ∈ arrivals, e = .arrival) ∧ mitRun mitStep s pre = some t ∧
      t.timer = .running .test ∧ t.mitPending = false := by
  induction es using List.reverseRecOn with
  | nil =>
    cases ran
    exact absurd kept lost
  | append_singleton es e _ =>
    obtain ⟨s₁, ranEs, stepped⟩ := mitRun_concat ran
    have keptBefore : NoLostWakeup s₁ := by
      -- a lost state is inactive, and an arrival there queues the timer
      by_contra lostBefore
      have idle₁ : s₁.timer = .inactive := by
        cases timer : s₁.timer with
        | inactive => rfl
        | queued => exact absurd (fun _ _ => timer) lostBefore
        | running pc => exact absurd (noLostWakeup_of_running timer) lostBefore
      obtain rfl := mitStep_of_inactive idle₁ stepped
      cases stepped
      exact lost fun _ _ => mitArrival_timer_of_inactive idle₁
    rcases mitStep_noLostWakeup keptBefore stepped with keptAfter | ⟨rfl, atReturn, pending⟩
    · exact absurd keptAfter lost
    obtain ⟨pre, arrivals, t, rfl, onlyArrivals, ranPre, atTest, clear, came⟩ :=
      mitRun_noRestart_history idle ranEs atReturn
    exact ⟨pre, arrivals, t, by simp, came.mp pending, onlyArrivals, ranPre, atTest, clear⟩

/-- The run of `generic_timer_handler_loses_arrival`: the race is its test, its second arrival
and its return. -/
theorem mitRun_lostWakeup_race_at_init :
    (netmapMitigationInit true).timer.isRunning = false ∧ NoLostWakeup (netmapMitigationInit true) ∧
      mitRun mitStep (netmapMitigationInit true)
        [.arrival, .expire, .test, .arrival, .returnNoRestart] = some ⟨true, .inactive, true, 1⟩ ∧
      ¬ NoLostWakeup ⟨true, .inactive, true, 1⟩ ∧
      ∃ pre arrivals t, [MitEvent.arrival, .expire, .test, .arrival, .returnNoRestart] =
          pre ++ .test :: arrivals ++ [.returnNoRestart] ∧ arrivals ≠ [] ∧
        (∀ e ∈ arrivals, e = .arrival) ∧ mitRun mitStep (netmapMitigationInit true) pre = some t ∧
        t.timer = .running .test ∧ t.mitPending = false :=
  ⟨rfl, by decide, rfl, by decide, mitRun_lostWakeup_race rfl (by decide) rfl (by decide)⟩

/-- `netmap_mitigation_cleanup`, that is `hrtimer_cancel`: it waits while the callback runs (the
step cannot happen yet), then takes the timer off its queue, whatever is pending. -/
def netmapMitigationCleanup (s : MitState) : Option MitState :=
  if s.timer.isRunning then none else some { s with timer := .inactive }

/-! ## The handler's test and return as one step -/

/-- The handler's test of `mit_pending` and the return it leads to, taken as one step, as a
lock held from the test to the return would make them; the other steps are as before. -/
def mitStepLocked (s : MitState) : MitEvent → Option MitState
  | .test => (mitStep s .test).bind fun s' =>
      mitStep s' (if s.mitPending then .returnRestart else .returnNoRestart)
  | .returnNoRestart => none
  | .returnRestart => none
  | e => mitStep s e

/-- Every state the locked steps reach, the code's steps reach too. -/
theorem MitReachable.of_locked {init s : MitState} (reached : MitReachable mitStepLocked init s) :
    MitReachable mitStep init s := by
  induction reached with
  | init => exact .init
  | step e _ stepped ih =>
    cases e with
    | arrival => exact ih.step .arrival stepped
    | expire => exact ih.step .expire stepped
    | test =>
      obtain ⟨s₁, tested, returned⟩ := Option.bind_eq_some.mp stepped
      exact (ih.step .test tested).step _ returned
    | returnNoRestart => cases stepped
    | returnRestart => cases stepped

/-- The locked test: the handler tests and returns at once, through the branch `mit_pending`
selects. -/
theorem mitStepLocked_test {s s' : MitState} (stepped : mitStepLocked s .test = some s') :
    s.timer = .running .test ∧
      s' = if s.mitPending then mitRestart s else { s with timer := .inactive } := by
  obtain ⟨s₁, tested, returned⟩ := Option.bind_eq_some.mp stepped
  rcases mitStep_cases tested with ⟨⟨⟩, -⟩ | ⟨⟨⟩, -⟩ | ⟨-, atTest, rfl⟩ | ⟨⟨⟩, -⟩ | ⟨⟨⟩, -⟩
  refine ⟨atTest, ?_⟩
  cases pending : s.mitPending <;>
    simp only [pending, Bool.false_eq_true, ↓reduceIte] at returned ⊢
  · rcases mitStep_cases returned with ⟨⟨⟩, -⟩ | ⟨⟨⟩, -⟩ | ⟨⟨⟩, -⟩ | ⟨-, -, rfl⟩ | ⟨⟨⟩, -⟩
    rfl
  · rcases mitStep_cases returned with ⟨⟨⟩, -⟩ | ⟨⟨⟩, -⟩ | ⟨⟨⟩, -⟩ | ⟨⟨⟩, -⟩ | ⟨-, -, rfl⟩
    rfl

/-- What every state of the locked steps keeps: pending work is covered by a queued timer or
by a handler that has not tested yet, and the handler is never between its test and its
return. -/
structure LockedInv (s : MitState) : Prop where
  pending_covered : s.mitPending = true → s.timer = .queued ∨ s.timer = .running .test
  at_test : ∀ pc, s.timer = .running pc → pc = .test

/-- A state with nothing pending and no handler running keeps the invariant. -/
theorem lockedInv_of_idle {s : MitState} (clear : s.mitPending = false)
    (notRunning : s.timer.isRunning = false) : LockedInv s where
  pending_covered pending := absurd (clear ▸ pending) Bool.false_ne_true
  at_test pc running := by simp [running, MitTimer.isRunning] at notRunning

theorem lockedInv_arrival {s : MitState} (inv : LockedInv s) : LockedInv (mitArrival s) := by
  obtain ⟨pending, timer, ifcapNetmap, notifications⟩ := s
  cases timer with
  | inactive => constructor <;> simp [mitArrival, netmapMitigationActive, netmapMitigationStart]
  | queued => constructor <;> simp [mitArrival, netmapMitigationActive]
  | running pc =>
    obtain rfl := inv.at_test pc rfl
    constructor <;> simp [mitArrival, netmapMitigationActive]

/-- One locked step keeps the invariant. -/
theorem lockedInv_step {s s' : MitState} {e : MitEvent} (inv : LockedInv s)
    (stepped : mitStepLocked s e = some s') : LockedInv s' := by
  cases e with
  | arrival =>
    cases stepped
    exact lockedInv_arrival inv
  | expire =>
    rcases mitStep_cases (show mitStep s .expire = some s' from stepped) with
      ⟨⟨⟩, -⟩ | ⟨-, -, rfl⟩ | ⟨⟨⟩, -⟩ | ⟨⟨⟩, -⟩ | ⟨⟨⟩, -⟩
    exact ⟨fun _ => .inr rfl, fun _ running => (MitTimer.running.inj running).symm⟩
  | test =>
    -- the handler tests and returns at once, leaving nothing pending and the timer not running
    obtain ⟨-, rfl⟩ := mitStepLocked_test stepped
    cases s.mitPending
    · exact lockedInv_of_idle rfl rfl
    · exact lockedInv_of_idle rfl rfl
  | returnNoRestart => cases stepped
  | returnRestart => cases stepped

theorem lockedInv_of_reachable {ifcapNetmap : Bool} {s : MitState}
    (reached : MitReachable mitStepLocked (netmapMitigationInit ifcapNetmap) s) : LockedInv s := by
  induction reached with
  | init => exact lockedInv_of_idle rfl rfl
  | step _ _ stepped ih => exact lockedInv_step ih stepped

/-- With the handler's test and return made one step, no arrival is ever left pending without
a queued timer, in any reachable state. -/
theorem mitStepLocked_noLostWakeup {ifcapNetmap : Bool} {s : MitState}
    (reached : MitReachable mitStepLocked (netmapMitigationInit ifcapNetmap) s) :
    NoLostWakeup s := fun notRunning pending => by
  rcases (lockedInv_of_reachable reached).pending_covered pending with queued | running
  · exact queued
  · simp [running, MitTimer.isRunning] at notRunning

/-- Two arrivals under the locked steps: the second is pending, and the timer is queued. -/
theorem mitStepLocked_noLostWakeup_two_arrivals :
    MitReachable mitStepLocked (netmapMitigationInit true) ⟨true, .queued, true, 1⟩ ∧
      NoLostWakeup ⟨true, .queued, true, 1⟩ :=
  have reached : MitReachable mitStepLocked (netmapMitigationInit true) ⟨true, .queued, true, 1⟩ :=
    MitReachable.init.of_run
      (show mitRun mitStepLocked _ [.arrival, .arrival] = some ⟨true, .queued, true, 1⟩ from rfl)
  ⟨reached, mitStepLocked_noLostWakeup reached⟩

/-! ## The coalescer of the design comment -/

/-- The states of the coalescer the comment above `generic_timer_handler` describes: idle,
armed with nothing pending, armed with packets pending. -/
inductive CoalescerState where
  | idle
  | armedClean
  | armedPending
  deriving DecidableEq, Repr

/-- Its inputs: a packet and the timer's expiry. -/
inductive CoalescerEvent where
  | arrival
  | expiry
  deriving DecidableEq, Repr

/-- Its transitions, each with whether it notifies; an expiry needs an armed timer. -/
def coalescerStep : CoalescerState → CoalescerEvent → Option (CoalescerState × Bool)
  | .idle, .arrival => some (.armedClean, true)
  | _, .arrival => some (.armedPending, false)
  | .armedPending, .expiry => some (.armedClean, true)
  | .armedClean, .expiry => some (.idle, false)
  | .idle, .expiry => none

/-- The coalescer over a sequence of inputs from state `c` with `n` notifications sent. -/
def coalescerRun (c : CoalescerState) (n : Nat) : List CoalescerEvent → Option (CoalescerState × Nat)
  | [] => some (c, n)
  | e :: es => (coalescerStep c e).bind fun (c', notify) => coalescerRun c' (n + notify.toNat) es

/-- The coalescer state a state of the timer stands for: an expired timer whose handler has
not tested yet is still armed. -/
def MitState.coalescer (s : MitState) : CoalescerState :=
  if s.timer = .inactive then .idle
  else if s.mitPending then .armedPending else .armedClean

/-- What a locked step is to the coalescer: an arrival, an expiry (the handler's test and
return), or nothing (the callback starting). -/
def MitEvent.coalescerEvent : MitEvent → Option CoalescerEvent
  | .arrival => some .arrival
  | .test => some .expiry
  | _ => none

/-- Every step leaves the interface's `IFCAP_NETMAP` bit as it was. -/
theorem mitStep_ifcapNetmap {s s' : MitState} {e : MitEvent} (stepped : mitStep s e = some s') :
    s'.ifcapNetmap = s.ifcapNetmap := by
  rcases mitStep_cases stepped with ⟨-, rfl⟩ | ⟨-, -, rfl⟩ | ⟨-, -, rfl⟩ | ⟨-, -, rfl⟩ | ⟨-, -, rfl⟩
  · unfold mitArrival
    split <;> rfl
  all_goals rfl

theorem mitStepLocked_ifcapNetmap {s s' : MitState} {e : MitEvent}
    (stepped : mitStepLocked s e = some s') : s'.ifcapNetmap = s.ifcapNetmap := by
  cases e with
  | test =>
    obtain ⟨s₁, tested, returned⟩ := Option.bind_eq_some.mp stepped
    exact (mitStep_ifcapNetmap returned).trans (mitStep_ifcapNetmap tested)
  | returnNoRestart | returnRestart => cases stepped
  | arrival => exact @mitStep_ifcapNetmap s s' .arrival stepped
  | expire => exact @mitStep_ifcapNetmap s s' .expire stepped

theorem MitReachable.ifcapNetmap {ifcapNetmap : Bool} {s : MitState}
    (reached : MitReachable mitStepLocked (netmapMitigationInit ifcapNetmap) s) :
    s.ifcapNetmap = ifcapNetmap := by
  induction reached with
  | init => rfl
  | step _ _ stepped ih => exact (mitStepLocked_ifcapNetmap stepped).trans ih

/-- One locked step, in netmap mode, is the coalescer's step on the input the event stands
for, with the same notifications; the callback starting changes nothing the coalescer sees. -/
theorem mitStepLocked_refines {s s' : MitState} {e : MitEvent} (netmapMode : s.ifcapNetmap = true)
    (inv : LockedInv s) (stepped : mitStepLocked s e = some s') (es : List CoalescerEvent) :
    coalescerRun s.coalescer s.notifications (e.coalescerEvent.toList ++ es) =
      coalescerRun s'.coalescer s'.notifications es := by
  obtain ⟨pending, timer, ifcapNetmap, notifications⟩ := s
  subst netmapMode
  cases e with
  | arrival =>
    -- notifying exactly when the timer was not active
    cases stepped
    have covered := inv.pending_covered
    have atTest := inv.at_test
    cases timer <;> (try cases ‹HandlerPc›) <;> cases pending <;>
      simp_all [MitEvent.coalescerEvent, coalescerRun, coalescerStep, mitArrival,
        netmapMitigationActive, netmapMitigationStart, MitState.coalescer]
  | expire =>
    -- the callback starts: the timer stays armed
    rcases mitStep_cases (show mitStep _ .expire = some s' from stepped) with
      ⟨⟨⟩, -⟩ | ⟨-, queued, rfl⟩ | ⟨⟨⟩, -⟩ | ⟨⟨⟩, -⟩ | ⟨⟨⟩, -⟩
    cases queued
    rfl
  | test =>
    -- an expiry, notifying if work was pending
    obtain ⟨atTest, rfl⟩ := mitStepLocked_test stepped
    cases atTest
    cases pending <;> simp [MitEvent.coalescerEvent, coalescerRun, coalescerStep, mitRestart,
      netmapMitigationRestart, MitState.coalescer]
  | returnNoRestart => cases stepped
  | returnRestart => cases stepped

/-- With the handler's test and return made one step and the interface in netmap mode, every
run from `netmap_mitigation_init` is the comment's coalescer run on the same inputs: it ends
in the state the timer stands for, having sent the same number of notifications. -/
theorem mitStepLocked_run_refines {es : List MitEvent} {s' : MitState}
    (ran : mitRun mitStepLocked (netmapMitigationInit true) es = some s') :
    coalescerRun .idle 0 (es.filterMap MitEvent.coalescerEvent) =
      some (s'.coalescer, s'.notifications) := by
  suffices from_reached : ∀ {s : MitState} {es : List MitEvent},
      MitReachable mitStepLocked (netmapMitigationInit true) s →
      mitRun mitStepLocked s es = some s' →
      coalescerRun s.coalescer s.notifications (es.filterMap MitEvent.coalescerEvent) =
        some (s'.coalescer, s'.notifications) from
    from_reached .init ran
  intro s es reached ran
  induction es generalizing s with
  | nil =>
    cases ran
    rfl
  | cons e es ih =>
    obtain ⟨s₁, stepped, rest⟩ := Option.bind_eq_some.mp ran
    rw [← ih (reached.step e stepped) rest, ← mitStepLocked_refines reached.ifcapNetmap
      (lockedInv_of_reachable reached) stepped]
    cases e <;> rfl

/-- Two arrivals, the expiry and the locked test: the coalescer's idle, armed-clean,
armed-pending and armed-clean, with two notifications. -/
theorem mitStepLocked_run_refines_burst :
    mitRun mitStepLocked (netmapMitigationInit true) [.arrival, .arrival, .expire, .test] =
        some ⟨false, .queued, true, 2⟩ ∧
      coalescerRun .idle 0 ([MitEvent.arrival, .arrival, .expire, .test].filterMap
          MitEvent.coalescerEvent) =
        some (MitState.coalescer ⟨false, .queued, true, 2⟩,
          MitState.notifications ⟨false, .queued, true, 2⟩) :=
  ⟨rfl, mitStepLocked_run_refines rfl⟩

end Netmap
