import Netmap.Sendmsg
import Netmap.Recvmsg

/-!
# The cursor invariant over runs of socket calls

`sendmsg` moves the TX ring's `cur` and `avail` and `recvmsg` the RX ring's; each keeps its
ring valid (`NetmapRing.Valid`) and leaves the end `cur + avail` of its window where it was,
so neither takes slots that belong to the kernel side. `SocketRun` is every adapter
state a sequence of calls reaches, and the invariant holds of all of them.
-/

namespace Netmap

/-- The adapter states that a sequence of `sendmsg` and `recvmsg` calls, with any arguments,
reaches from `na`. -/
inductive SocketRun (nf : NsFlags) (na : NetmapAdapter) : NetmapAdapter → Prop where
  | refl : SocketRun nf na na
  | sendmsg {na' : NetmapAdapter} (m : Msghdr) (totalLen : Nat) :
      SocketRun nf na na' → SocketRun nf na (netmapSocketSendmsg nf na' m totalLen).na
  | recvmsg {na' : NetmapAdapter} {r : RecvResult} (m : Msghdr) (totalLen : Nat) :
      SocketRun nf na na' → netmapSocketRecvmsg nf na' m totalLen = some r →
        SocketRun nf na r.na

variable (nf : NsFlags)

theorem netmapSocketRecvmsg_txRing {na : NetmapAdapter} {m : Msghdr} {totalLen : Nat}
    {r : RecvResult} (returned : netmapSocketRecvmsg nf na m totalLen = some r) :
    r.na.txRing = na.txRing := by
  obtain ⟨r', returned', a, -, changed⟩ := netmapSocketRecvmsg_cursor nf na m totalLen
  rw [returned] at returned'
  cases returned'
  rw [changed]

/-- Every adapter state a run reaches is a cursor step away from the start, in both rings. -/
theorem SocketRun.cursorStep {na na' : NetmapAdapter} (txValid : na.txRing.Valid)
    (rxValid : na.rxRing.Valid) (run : SocketRun nf na na') :
    na.txRing.CursorStep na'.txRing ∧ na.rxRing.CursorStep na'.rxRing := by
  induction run with
  | refl => exact ⟨.refl txValid, .refl rxValid⟩
  | sendmsg m totalLen _ ih =>
      refine ⟨ih.1.trans (netmapSocketSendmsg_cursorStep nf _ m totalLen (ih.1.valid txValid)), ?_⟩
      simpa using ih.2
  | recvmsg m totalLen _ returned ih =>
      obtain ⟨r, returned', step⟩ :=
        netmapSocketRecvmsg_cursorStep nf _ m totalLen (ih.2.valid rxValid)
      rw [returned] at returned'
      cases returned'
      exact ⟨(netmapSocketRecvmsg_txRing nf returned).symm ▸ ih.1, ih.2.trans step⟩

/-- From valid rings, every `sendmsg` and `recvmsg`, and every sequence of them, keeps the
rings valid, never raises `avail`, keeps each window's end `(cur + avail) mod N` fixed, and
leaves the other direction's ring untouched. -/
theorem socket_calls_keep_cursor_invariant (na : NetmapAdapter) (txValid : na.txRing.Valid)
    (rxValid : na.rxRing.Valid) :
    (∀ m totalLen, na.txRing.CursorStep (netmapSocketSendmsg nf na m totalLen).na.txRing ∧
      (netmapSocketSendmsg nf na m totalLen).na.rxRing = na.rxRing) ∧
    (∀ m totalLen, ∃ r, netmapSocketRecvmsg nf na m totalLen = some r ∧
      na.rxRing.CursorStep r.na.rxRing ∧ r.na.txRing = na.txRing) ∧
    (∀ na', SocketRun nf na na' →
      na.txRing.CursorStep na'.txRing ∧ na.rxRing.CursorStep na'.rxRing) := by
  refine ⟨fun m totalLen => ⟨netmapSocketSendmsg_cursorStep nf na m totalLen txValid,
    netmapSocketSendmsg_rxRing nf na m totalLen⟩, fun m totalLen => ?_,
    fun _ run => run.cursorStep nf txValid rxValid⟩
  obtain ⟨r, returned, step⟩ := netmapSocketRecvmsg_cursorStep nf na m totalLen rxValid
  exact ⟨r, returned, step, netmapSocketRecvmsg_txRing nf returned⟩

theorem socket_calls_keep_cursor_invariant_two_slots :
    let na : NetmapAdapter := ⟨⟨2, 4, 1, 2, fun _ => ⟨0, 0, 0⟩⟩, ⟨2, 4, 0, 1, fun p => ⟨p, 3, 0⟩⟩,
      fun _ _ => 0⟩
    na.txRing.Valid ∧ na.rxRing.Valid ∧
    (∀ m totalLen,
      na.txRing.CursorStep (netmapSocketSendmsg NsFlags.sample na m totalLen).na.txRing ∧
      (netmapSocketSendmsg NsFlags.sample na m totalLen).na.rxRing = na.rxRing) ∧
    (∀ m totalLen, ∃ r, netmapSocketRecvmsg NsFlags.sample na m totalLen = some r ∧
      na.rxRing.CursorStep r.na.rxRing ∧ r.na.txRing = na.txRing) ∧
    (∀ na', SocketRun NsFlags.sample na na' →
      na.txRing.CursorStep na'.txRing ∧ na.rxRing.CursorStep na'.rxRing) :=
  have txValid : NetmapRing.Valid ⟨2, 4, 1, 2, fun _ => ⟨0, 0, 0⟩⟩ :=
    ⟨by decide, by decide, by decide, fun _ _ => Nat.zero_le _⟩
  have rxValid : NetmapRing.Valid ⟨2, 4, 0, 1, fun p => ⟨p, 3, 0⟩⟩ :=
    ⟨by decide, by decide, by decide, fun _ _ => Nat.le_succ 3⟩
  ⟨txValid, rxValid, socket_calls_keep_cursor_invariant NsFlags.sample _ txValid rxValid⟩

end Netmap
