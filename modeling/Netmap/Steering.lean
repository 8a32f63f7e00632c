import Mathlib.Logic.Basic

/-!
# Transmit and packet steering of the generic adapter

`generic_xmit_frame` sends one slot of a netmap TX ring through the device. It empties the
ring's skb, copies the slot's `len` bytes into it, takes a reference for the stack, and marks
the skb for the device. It also records the ring in the skb's queue mapping.
`netmap_catch_packet_steering` with `enable` set makes the device choose its transmit queue
with `generic_ndo_select_queue`, which returns that queue mapping. It saves the device's
`netdev_ops` pointer in `na->if_transmit` and copies the table into `gna->generic_ndo` with
`ndo_select_queue` replaced. Then it points the device at the copy. With `enable` clear it puts
the saved pointer back.

While steering is on, a frame from ring `r` goes to transmit queue `r`, and every other
operation of the device is the one it had. Disabling after enabling gives the device back the
table it had. Enabling twice in a row saves a pointer to the copy itself, and from then on no
call gives the device its driver's table back. Still, whatever the calls, from the first
enable on the device runs the operations it had or those with only `ndo_select_queue`
replaced (`SteeringState.Keeps`).
-/

namespace Netmap

/-- A `netdev_ops` pointer: the driver's table `k`, or `&gna->generic_ndo`. -/
inductive NetdevOpsPtr where
  | driver (k : Nat)
  | genericNdo
  deriving DecidableEq, Repr

/-- The `ndo_select_queue` of an operations table: `NULL`, a function of the driver's, or
`generic_ndo_select_queue`. -/
inductive SelectQueue where
  | null
  | driver (k : Nat)
  | genericNdoSelectQueue
  deriving DecidableEq, Repr

/-- A `struct net_device_ops`: its `ndo_select_queue`, and the rest of the table, which
steering copies as it is. -/
structure NetDeviceOps where
  ndoSelectQueue : SelectQueue
  rest : Nat
  deriving DecidableEq, Repr

/-- What packet steering reads and writes: `ifp->netdev_ops`, `na->if_transmit`, where the
saved pointer is kept, and `gna->generic_ndo`. -/
structure SteeringState where
  netdevOps : NetdevOpsPtr
  ifTransmit : NetdevOpsPtr
  genericNdo : NetDeviceOps
  deriving DecidableEq, Repr

/-- The fields of the ring's `struct sk_buff` that `generic_xmit_frame` sets: the frame's bytes,
the reference count `users`, the device, the priority and the queue mapping. -/
structure Skb where
  data : List UInt8
  users : Nat
  dev : Nat
  priority : Nat
  queueMapping : Nat
  deriving DecidableEq, Repr

/-- Linux's `NET_XMIT_SUCCESS`. -/
def netXmitSuccess : Int := 0

/-- `generic_xmit_frame(ifp, m, addr, len, ring_nr)`: the skb, holding the slot's first
`len` bytes and one more reference, handed to `dev_queue_xmit`, and 0 on `NET_XMIT_SUCCESS`,
else -1. -/
def genericXmitFrame (devQueueXmit : Skb → Int) (ifp : Nat) (m : Skb) (addr : List UInt8)
    (len ringNr : Nat) : Skb × Int :=
  let m : Skb := { m with
    data := addr.take len
    users := m.users + 1
    dev := ifp
    priority := 100
    queueMapping := ringNr }
  (m, if devQueueXmit m = netXmitSuccess then 0 else -1)

/-- `generic_ndo_select_queue`: the skb's queue mapping. -/
def genericNdoSelectQueue (m : Skb) : Nat :=
  m.queueMapping

/-- The transmit queue an `ndo_select_queue` picks for an skb, given the driver's own
functions; `none` when it is `NULL` and the kernel picks one itself. -/
def SelectQueue.apply (driverSelect : Nat → Skb → Nat) : SelectQueue → Skb → Option Nat
  | .null, _ => none
  | .driver k, m => some (driverSelect k m)
  | .genericNdoSelectQueue, m => some (Netmap.genericNdoSelectQueue m)

section Steering

variable (driverOps : Nat → NetDeviceOps)

/-- The table a `netdev_ops` pointer points at. -/
def SteeringState.table (s : SteeringState) : NetdevOpsPtr → NetDeviceOps
  | .driver k => driverOps k
  | .genericNdo => s.genericNdo

/-- The device's operations: the table `ifp->netdev_ops` points at. -/
def SteeringState.deviceOps (s : SteeringState) : NetDeviceOps :=
  s.table driverOps s.netdevOps

/-- `netmap_catch_packet_steering(gna, enable)`. -/
def netmapCatchPacketSteering (s : SteeringState) (enable : Bool) : SteeringState :=
  if enable then
    { netdevOps := .genericNdo
      ifTransmit := s.netdevOps
      genericNdo :=
        { s.table driverOps s.netdevOps with ndoSelectQueue := .genericNdoSelectQueue } }
  else { s with netdevOps := s.ifTransmit }

/-- Calls of `netmap_catch_packet_steering`, in order. -/
def steeringRun (s : SteeringState) (calls : List Bool) : SteeringState :=
  calls.foldl (netmapCatchPacketSteering driverOps) s

@[simp] theorem steeringRun_nil (s : SteeringState) : steeringRun driverOps s [] = s := rfl

@[simp] theorem steeringRun_cons (s : SteeringState) (enable : Bool) (calls : List Bool) :
    steeringRun driverOps s (enable :: calls) =
      steeringRun driverOps (netmapCatchPacketSteering driverOps s enable) calls := rfl

theorem steeringRun_append (s : SteeringState) (calls more : List Bool) :
    steeringRun driverOps s (calls ++ more) =
      steeringRun driverOps (steeringRun driverOps s calls) more :=
  List.foldl_append _ _ _ _

/-- Both pointers at the copy: where the device stays once `enable` ran twice in a row. -/
def SteeringState.Stuck (s : SteeringState) : Prop :=
  s.netdevOps = .genericNdo ∧ s.ifTransmit = .genericNdo

theorem stuck_enable_enable (s : SteeringState) :
    (netmapCatchPacketSteering driverOps
      (netmapCatchPacketSteering driverOps s true) true).Stuck :=
  ⟨rfl, rfl⟩

theorem SteeringState.Stuck.call {s : SteeringState} (stuck : s.Stuck) (enable : Bool) :
    (netmapCatchPacketSteering driverOps s enable).Stuck := by
  cases enable
  · exact ⟨stuck.2, stuck.2⟩
  · exact ⟨rfl, stuck.1⟩

theorem SteeringState.Stuck.run {s : SteeringState} (stuck : s.Stuck) (calls : List Bool) :
    (steeringRun driverOps s calls).Stuck := by
  induction calls generalizing s with
  | nil => exact stuck
  | cons enable calls ih => exact ih (stuck.call driverOps enable)

/-- A disable right after an enable restores the device's `netdev_ops`; but after two
enables with no disable between, every later call leaves it on `gna->generic_ndo`. -/
theorem steeringRun_restores_or_sticks (s : SteeringState) (before after : List Bool) :
    (steeringRun driverOps s (before ++ [true, false])).netdevOps =
        (steeringRun driverOps s before).netdevOps ∧
      (steeringRun driverOps s (before ++ true :: true :: after)).netdevOps = .genericNdo := by
  refine ⟨by rw [steeringRun_append]; rfl, ?_⟩
  rw [steeringRun_append, steeringRun_cons, steeringRun_cons]
  exact ((stuck_enable_enable driverOps _).run driverOps after).1

/-- From the driver's table, enable then disable, then enable twice: the driver's table is
back after the first pair and lost after the second. -/
example : (steeringRun (fun _ => ⟨.null, 5⟩) ⟨.driver 1, .driver 1, ⟨.null, 0⟩⟩
    [true, false, true, true, false]).netdevOps = .genericNdo := rfl

/-- The table a pointer names depends only on `gna->generic_ndo`. -/
theorem SteeringState.table_congr {s t : SteeringState} (same : s.genericNdo = t.genericNdo) :
    s.table driverOps = t.table driverOps := by
  funext p
  cases p <;> simp only [SteeringState.table, same]

/-- What steering keeps once it has run on a device whose operations were `ops`:
`gna->generic_ndo` holds `ops` with `ndo_select_queue` replaced, and both
`ifp->netdev_ops` and the pointer saved in `na->if_transmit` name `ops` or that copy. -/
structure SteeringState.Keeps (ops : NetDeviceOps) (s : SteeringState) : Prop where
  genericNdo : s.genericNdo = { ops with ndoSelectQueue := .genericNdoSelectQueue }
  deviceOps : s.deviceOps driverOps = ops ∨ s.deviceOps driverOps = s.genericNdo
  ifTransmit :
    s.table driverOps s.ifTransmit = ops ∨ s.table driverOps s.ifTransmit = s.genericNdo

/-- The first enable sets up `Keeps` for the operations the device had. -/
theorem SteeringState.keeps_enable (s : SteeringState) :
    (netmapCatchPacketSteering driverOps s true).Keeps driverOps (s.deviceOps driverOps) := by
  refine ⟨rfl, .inr rfl, ?_⟩
  cases pointer : s.netdevOps <;> simp [netmapCatchPacketSteering, SteeringState.table,
    SteeringState.deviceOps, pointer]

theorem SteeringState.Keeps.call {ops : NetDeviceOps} {s : SteeringState}
    (keeps : s.Keeps driverOps ops) (enable : Bool) :
    (netmapCatchPacketSteering driverOps s enable).Keeps driverOps ops := by
  cases enable
  · exact ⟨keeps.genericNdo, keeps.ifTransmit, keeps.ifTransmit⟩
  · have copy : { s.table driverOps s.netdevOps with
        ndoSelectQueue := .genericNdoSelectQueue } = s.genericNdo := by
      rcases keeps.deviceOps with same | same <;>
        rw [SteeringState.deviceOps] at same <;> rw [same, keeps.genericNdo]
    have tables : (netmapCatchPacketSteering driverOps s true).table driverOps =
        s.table driverOps := SteeringState.table_congr driverOps copy
    refine ⟨copy.trans keeps.genericNdo, .inr rfl, ?_⟩
    simp only [netmapCatchPacketSteering, if_true] at tables ⊢
    rw [tables, copy]
    exact keeps.deviceOps

theorem SteeringState.Keeps.run {ops : NetDeviceOps} {s : SteeringState}
    (keeps : s.Keeps driverOps ops) (calls : List Bool) :
    (steeringRun driverOps s calls).Keeps driverOps ops := by
  induction calls generalizing s with
  | nil => exact keeps
  | cons enable calls ih => exact ih (keeps.call driverOps enable)

/-- From the first enable on, the device runs its old operations, or them with only
`ndo_select_queue` replaced by `generic_ndo_select_queue`, whatever calls follow. -/
theorem steeringRun_keeps_deviceOps (s : SteeringState) (calls : List Bool) :
    (steeringRun driverOps s (true :: calls)).deviceOps driverOps = s.deviceOps driverOps ∨
      (steeringRun driverOps s (true :: calls)).deviceOps driverOps =
        { s.deviceOps driverOps with ndoSelectQueue := .genericNdoSelectQueue } := by
  have keeps := (s.keeps_enable driverOps).run driverOps calls
  rw [steeringRun_cons, ← keeps.genericNdo]
  exact keeps.deviceOps

end Steering

end Netmap
