import Netmap.SendmsgLayout
import Netmap.Recvmsg

/-!
# User copies that fault

`copy_from_user` and `copy_to_user` stop at the first byte of the user range they cannot
reach and return how many bytes they did not copy; `copy_from_user` zeroes the rest of its
kernel destination. `netmap_socket_sendmsg` only logs that return value and
`netmap_socket_recvmsg` drops it, so a fault changes bytes and nothing else. The same slots
are published with the same lengths and flags, `nm_txsync` is called as often, and both calls
return what they return without faults. A call whose every copy faults still reports every
byte as sent or received.

Faults are given per call: the `c`-th user copy of a call leaves `faults c` of its bytes
uncopied, or all of them if it has fewer. That covers any user range becoming unreachable at
any time. The loops are those of `Sendmsg.lean` and `Recvmsg.lean` (`copyIovWith`,
`recvLoopWith`) with a faulting pass in place of the plain one, and with no faults the models
are the plain ones (`netmapSocketSendmsgFaulting_no_faults`,
`netmapSocketRecvmsgFaulting_no_faults`).
-/

namespace Netmap

/-- How many of its `n` bytes the `c`-th user copy of a call leaves uncopied under `faults`. -/
def copyLeft (faults : Nat → Nat) (c n : Nat) : Nat :=
  min (faults c) n

@[simp] theorem copyLeft_no_faults (c n : Nat) : copyLeft (fun _ => 0) c n = 0 :=
  Nat.zero_min n

/-- A loop's exit seen through `view`: which exit, `avail`, and the view of the state. -/
def exitView {σ α : Type} (view : σ → α) : Except σ (Nat × σ) → Except α (Nat × α)
  | .error s => .error (view s)
  | .ok (avail, s) => .ok (avail, view s)

/-- The state a loop exits with, whichever way. -/
def exitState {σ : Type} : Except σ (Nat × σ) → σ
  | .error s => s
  | .ok (_, s) => s

/-- A pass of a loop seen through `view`: whether it breaks, and the view of the state. -/
def stepView {σ α : Type} (view : σ → α) : ForInStep σ → ForInStep α
  | .done s => .done (view s)
  | .yield s => .yield (view s)

section Views

variable {σ α β : Type}

theorem exitView_exitView (f : α → β) (g : σ → α) (e : Except σ (Nat × σ)) :
    exitView f (exitView g e) = exitView (fun s => f (g s)) e := by
  cases e <;> rfl

theorem exitView_id (e : Except σ (Nat × σ)) : exitView (fun s => s) e = e := by
  rcases e with _ | ⟨_, _⟩ <;> rfl

theorem exitState_exitView (f : σ → α) (e : Except σ (Nat × σ)) :
    exitState (exitView f e) = f (exitState e) := by
  cases e <;> rfl

theorem stepView_stepView (f : α → β) (g : σ → α) (p : ForInStep σ) :
    stepView f (stepView g p) = stepView (fun s => f (g s)) p := by
  cases p <;> rfl

end Views

/-! ## `netmap_socket_sendmsg` -/

/-- The copy loop's state under faults: the loop state, the user copies made so far, and the
bytes they left uncopied in all. -/
structure SendFaultState where
  st : SendState
  calls : Nat
  notCopied : Nat

section SendLoop

variable (nf : NsFlags) (numSlots nmBufSize : Nat) (faults : Nat → Nat)

/-- One pass of the inner loop after its `avail == 0` test, with `copy_from_user` as the
loop's `calls`-th user copy: it copies the bytes before the fault, zeroes the rest of the
`n`, and returns the number it left uncopied, which the code only logs. -/
def SendFaultState.fill (s : SendFaultState) (n : Nat) (src : List UInt8) : SendFaultState :=
  let left := copyLeft faults s.calls n
  ⟨s.st.fill nf numSlots n (src.take (n - left) ++ List.replicate left 0), s.calls + 1,
    s.notCopied + left⟩

end SendLoop

/-- `netmap_socket_sendmsg` with faulting user copies, and the bytes they left uncopied. -/
def netmapSocketSendmsgFaulting (nf : NsFlags) (faults : Nat → Nat) (na : NetmapAdapter)
    (m : Msghdr) (totalLen : Nat) : SendResult × Nat :=
  let ring := na.txRing
  if ring.avail < m.msgIovlen then (⟨0, na, 0⟩, 0) else
  let loop := copyIovWith (SendFaultState.fill nf ring.numSlots faults) ring.nrBufSize m.iovs
    ring.avail ⟨sendInit nf na, 0, 0⟩
  (sendPublish nf na totalLen (exitView SendFaultState.st loop), (exitState loop).notCopied)

section SendSimulation

variable {σ τ α : Type} {fill : σ → Nat → List UInt8 → σ} {fill' : τ → Nat → List UInt8 → τ}
  {nmBufSize : Nat} (view : σ → α) (view' : τ → α)

/-- Two copy loops that differ only in their passes take the same exit with the same `avail`,
if every pass keeps what `view` and `view'` see of their states equal. -/
theorem copyFragWith_simulates
    (pass : ∀ s t n src, view s = view' t → view (fill s n src) = view' (fill' t n src))
    (frag : List UInt8) :
    ∀ avail offset iovFragSize s t, view s = view' t →
      exitView view (copyFragWith fill nmBufSize frag offset iovFragSize avail s) =
        exitView view' (copyFragWith fill' nmBufSize frag offset iovFragSize avail t)
  | avail, offset, 0, s, t, same => by
    rw [copyFragWith_of_used, copyFragWith_of_used]
    simp only [exitView, same]
  | 0, offset, iovFragSize + 1, s, t, same => by
    rw [copyFragWith_of_full _ _ iovFragSize.succ_ne_zero,
      copyFragWith_of_full _ _ iovFragSize.succ_ne_zero]
    simp only [exitView, same]
  | avail + 1, offset, iovFragSize + 1, s, t, same => by
    rw [copyFragWith_of_pass _ _ iovFragSize.succ_ne_zero,
      copyFragWith_of_pass _ _ iovFragSize.succ_ne_zero]
    exact copyFragWith_simulates pass frag avail _ _ _ _ (pass _ _ _ _ same)

/-- The same for the whole copy loop. -/
theorem copyIovWith_simulates
    (pass : ∀ s t n src, view s = view' t → view (fill s n src) = view' (fill' t n src)) :
    ∀ iov avail s t, view s = view' t →
      exitView view (copyIovWith fill nmBufSize iov avail s) =
        exitView view' (copyIovWith fill' nmBufSize iov avail t)
  | [], avail, s, t, same => by simp only [copyIovWith_nil, exitView, same]
  | frag :: iov, avail, s, t, same => by
    have inner := @copyFragWith_simulates _ _ _ fill fill' nmBufSize view view' pass frag avail 0
      frag.length s t same
    rw [copyIovWith_cons, copyIovWith_cons]
    rcases left : copyFragWith fill nmBufSize frag 0 frag.length avail s with s' | ⟨a, s'⟩ <;>
      rcases right : copyFragWith fill' nmBufSize frag 0 frag.length avail t with t' | ⟨b, t'⟩ <;>
      rw [left, right] at inner <;>
      simp only [exitView, Except.error.injEq, Except.ok.injEq, Prod.mk.injEq, reduceCtorEq] at inner
    · simp only [exitView, inner]
    · obtain ⟨rfl, same'⟩ := inner
      exact copyIovWith_simulates pass iov a s' t' same'

end SendSimulation

/-- The part of the loop state outside the buffer pool. -/
def SendState.ringPart (st : SendState) : (Nat → NetmapSlot) × Nat × Nat × BitVec 16 :=
  (st.slot, st.i, st.last, st.slotFlags)

section SendAgreement

variable (nf : NsFlags) (na : NetmapAdapter) (m : Msghdr) (totalLen : Nat)

/-- What a pass leaves outside the buffer pool does not depend on the bytes it copies. -/
theorem SendState.fill_ringPart {numSlots : Nat} {st st' : SendState}
    (same : st.ringPart = st'.ringPart) (n : Nat) (src src' : List UInt8) :
    (st.fill nf numSlots n src).ringPart = (st'.fill nf numSlots n src').ringPart := by
  obtain ⟨slot, buffers, i, last, slotFlags⟩ := st
  obtain ⟨slot', buffers', i', last', slotFlags'⟩ := st'
  simp only [SendState.ringPart, Prod.mk.injEq] at same
  obtain ⟨rfl, rfl, rfl, rfl⟩ := same
  rfl

/-- The end of the call reads nothing of the loop's exit outside the ring but the buffer
pool, so exits that agree on the rest return, publish and call the same. -/
theorem sendPublish_congr {e e' : Except SendState (Nat × SendState)}
    (same : exitView SendState.ringPart e = exitView SendState.ringPart e') :
    (sendPublish nf na totalLen e).ret = (sendPublish nf na totalLen e').ret ∧
      (sendPublish nf na totalLen e).txsyncs = (sendPublish nf na totalLen e').txsyncs ∧
      (sendPublish nf na totalLen e).na.txRing = (sendPublish nf na totalLen e').na.txRing ∧
      (sendPublish nf na totalLen e).na.rxRing = (sendPublish nf na totalLen e').na.rxRing := by
  rcases e with st | ⟨avail, st⟩ <;> rcases e' with st' | ⟨avail', st'⟩ <;>
    simp only [exitView, SendState.ringPart, Except.error.injEq, Except.ok.injEq, Prod.mk.injEq,
      reduceCtorEq] at same
  · simp [sendPublish, same.1]
  · obtain ⟨rfl, slotEq, iEq, lastEq, -⟩ := same
    simp [sendPublish, slotEq, iEq, lastEq]

/-- Whatever the faults, `netmap_socket_sendmsg` returns the same, calls `nm_txsync` as often,
and leaves both rings as it does without faults: the slots it publishes, with their lengths
and flags, and the new `cur` and `avail`. Faults change only the bytes in the buffers. -/
theorem netmapSocketSendmsgFaulting_agrees (faults : Nat → Nat) :
    (netmapSocketSendmsgFaulting nf faults na m totalLen).1.ret =
        (netmapSocketSendmsg nf na m totalLen).ret ∧
      (netmapSocketSendmsgFaulting nf faults na m totalLen).1.txsyncs =
        (netmapSocketSendmsg nf na m totalLen).txsyncs ∧
      (netmapSocketSendmsgFaulting nf faults na m totalLen).1.na.txRing =
        (netmapSocketSendmsg nf na m totalLen).na.txRing ∧
      (netmapSocketSendmsgFaulting nf faults na m totalLen).1.na.rxRing =
        (netmapSocketSendmsg nf na m totalLen).na.rxRing := by
  unfold netmapSocketSendmsg netmapSocketSendmsgFaulting
  by_cases few : na.txRing.avail < m.msgIovlen
  · simp only [few, if_true, and_self]
  · simp only [few, if_false]
    apply sendPublish_congr
    rw [exitView_exitView]
    exact copyIovWith_simulates (fun s : SendFaultState => s.st.ringPart) SendState.ringPart
      (fun _ _ n _ same => SendState.fill_ringPart nf same n _ _) m.iovs na.txRing.avail _ _ rfl

/-- With no faults the faulting model is `netmap_socket_sendmsg`'s, and no byte is left
uncopied. -/
theorem netmapSocketSendmsgFaulting_no_faults :
    netmapSocketSendmsgFaulting nf (fun _ => 0) na m totalLen =
      (netmapSocketSendmsg nf na m totalLen, 0) := by
  unfold netmapSocketSendmsg netmapSocketSendmsgFaulting
  by_cases few : na.txRing.avail < m.msgIovlen
  · simp only [few, if_true]
  · simp only [few, if_false]
    have exact := @copyIovWith_simulates _ _ _ (SendFaultState.fill nf na.txRing.numSlots fun _ => 0)
      (SendState.fill nf na.txRing.numSlots) na.txRing.nrBufSize (fun s => (s.st, s.notCopied))
      (fun st => (st, 0))
      (fun s st n src same => by
        obtain ⟨rfl, none⟩ := Prod.mk.inj_iff.mp same
        simp only [SendFaultState.fill, copyLeft_no_faults, Nat.sub_zero, List.replicate_zero,
          List.append_nil, none, Nat.add_zero, SendState.fill_take _ _ (Nat.le_refl n)])
      m.iovs na.txRing.avail ⟨sendInit nf na, 0, 0⟩ (sendInit nf na) rfl
    have exits := congrArg (exitView Prod.fst) exact
    have left := congrArg (fun e => (exitState e).2) exact
    simp only [exitView_exitView, exitView_id, exitState_exitView] at exits left
    rw [exits, left, copyIov]

end SendAgreement

/-! ## `netmap_socket_recvmsg` -/

/-- The receive loop's state under faults: the loop state, the user copies made so far, and
the bytes they left uncopied in all. -/
structure RecvFaultState where
  st : RecvState
  calls : Nat
  notCopied : Nat

section RecvLoop

variable (nf : NsFlags) (ring : NetmapRing) (buffers : Nat → Nat → UInt8) (m : Msghdr)
  (faults : Nat → Nat)

/-- The copy that opens the loop body, with `copy_to_user` as the loop's `calls`-th user copy:
segment `j` gets only the bytes before the fault, and every counter moves by `copy_size` as
without faults, since the code drops the return value. -/
def RecvFaultState.copy (s : RecvFaultState) : RecvFaultState :=
  let st := s.st
  let copySize := min st.nmFragSize st.iovFragSize
  let left := copyLeft faults s.calls copySize
  let src := readBuf (buffers (ring.slot st.i).bufIdx) st.nmFragOfs (copySize - left)
  ⟨{ st.copy ring buffers with
      user := Function.update st.user st.j (copyToUser (st.user st.j) st.iovFragOfs src) },
    s.calls + 1, s.notCopied + left⟩

/-- One pass with a faulting copy. -/
def recvStepFaulting (s : RecvFaultState) : ForInStep RecvFaultState :=
  let s := s.copy ring buffers faults
  match recvAfterCopy nf ring m s.st with
  | .done st => .done { s with st := st }
  | .yield st => .yield { s with st := st }

end RecvLoop

/-- `netmap_socket_recvmsg` with faulting user copies, and the bytes they left uncopied. -/
def netmapSocketRecvmsgFaulting (nf : NsFlags) (faults : Nat → Nat) (na : NetmapAdapter)
    (m : Msghdr) (totalLen : Nat) : Option (RecvResult × Nat) :=
  let ring := na.rxRing
  if ring.avail = 0 then some (⟨0, na, m, false⟩, 0) else
  (recvLoopWith (fun s => s.st.copied) (recvStepFaulting nf ring na.buffers m faults) totalLen
    (ring.avail + m.msgIovlen + 1) ⟨recvInit nf ring m, 0, 0⟩).map fun s =>
      (recvResult na m s.st, s.notCopied)

/-- The loop state without the caller's memory. -/
def RecvState.eraseUser (st : RecvState) : RecvState :=
  { st with user := fun _ => [] }

section RecvSimulation

variable {nf : NsFlags} {ring : NetmapRing} {buffers : Nat → Nat → UInt8} {m : Msghdr}
  {faults : Nat → Nat}

theorem recvStepFaulting_eq (s : RecvFaultState) :
    recvStepFaulting nf ring buffers m faults s =
      stepView (fun st => { s.copy ring buffers faults with st := st })
        (recvAfterCopy nf ring m (s.copy ring buffers faults).st) := by
  unfold recvStepFaulting
  dsimp only
  cases recvAfterCopy nf ring m (s.copy ring buffers faults).st <;> rfl

theorem RecvState.nextIov_eraseUser (st : RecvState) :
    stepView RecvState.eraseUser (st.nextIov m) = st.eraseUser.nextIov m := by
  unfold RecvState.nextIov
  rw [apply_ite (stepView RecvState.eraseUser), apply_ite (stepView RecvState.eraseUser)]
  rfl

/-- The rest of a pass neither reads nor writes the caller's memory. -/
theorem recvAfterCopy_eraseUser (st : RecvState) :
    stepView RecvState.eraseUser (recvAfterCopy nf ring m st) =
      recvAfterCopy nf ring m st.eraseUser := by
  unfold recvAfterCopy
  rw [apply_ite (stepView RecvState.eraseUser), apply_ite (stepView RecvState.eraseUser),
    RecvState.nextIov_eraseUser, RecvState.nextIov_eraseUser]
  rfl

variable {σ τ α : Type} (view : σ → α) (view' : τ → α)

/-- Two receive loops end alike, if what `view` and `view'` see decides `copied` and every
pass keeps it equal. -/
theorem recvLoopWith_simulates {copied : σ → Nat} {copied' : τ → Nat}
    {step : σ → ForInStep σ} {step' : τ → ForInStep τ} (totalLen : Nat)
    (sameCopied : ∀ s t, view s = view' t → copied s = copied' t)
    (pass : ∀ s t, view s = view' t → stepView view (step s) = stepView view' (step' t)) :
    ∀ fuel s t, view s = view' t →
      (recvLoopWith copied step totalLen fuel s).map view =
        (recvLoopWith copied' step' totalLen fuel t).map view'
  | 0, _, _, _ => rfl
  | fuel + 1, s, t, same => by
    rw [recvLoopWith, recvLoopWith, sameCopied s t same]
    split
    · have stepped := pass s t same
      rcases left : step s with s' | s' <;> rcases right : step' t with t' | t' <;>
        rw [left, right] at stepped <;> simp only [stepView, reduceCtorEq] at stepped <;>
        injection stepped with stepped
      · simp only [Option.map_some', stepped]
      · exact recvLoopWith_simulates totalLen sameCopied pass fuel s' t' stepped
    · simp only [Option.map_some', same]

end RecvSimulation

section RecvAgreement

variable (nf : NsFlags) (na : NetmapAdapter) (m : Msghdr) (totalLen : Nat)

/-- Whatever the faults, the loop ends as without them but for the caller's memory. -/
theorem recvLoopWith_faults_eraseUser (faults : Nat → Nat) (fuel : Nat) (s : RecvFaultState)
    (st : RecvState) (same : s.st.eraseUser = st.eraseUser) :
    (recvLoopWith (fun s => s.st.copied) (recvStepFaulting nf na.rxRing na.buffers m faults)
        totalLen fuel s).map (fun s => s.st.eraseUser) =
      (recvLoop nf na.rxRing na.buffers m totalLen fuel st).map RecvState.eraseUser := by
  refine recvLoopWith_simulates (fun s => s.st.eraseUser) RecvState.eraseUser totalLen
    (fun _ _ same => (congrArg RecvState.copied same :)) (fun s st same => ?_) fuel s st same
  -- the copy writes the caller's memory and reads the rest of the state only
  have copied : (s.copy na.rxRing na.buffers faults).st.eraseUser =
      (st.copy na.rxRing na.buffers).eraseUser :=
    congrArg (fun st => (RecvState.copy na.rxRing na.buffers st).eraseUser) same
  rw [recvStepFaulting_eq, stepView_stepView, recvStep]
  change stepView RecvState.eraseUser _ = _
  rw [recvAfterCopy_eraseUser, recvAfterCopy_eraseUser, copied]

/-- Whatever the faults, `netmap_socket_recvmsg` returns the same and leaves the adapter as it
does without faults: the same `cur` and `avail`, and the same report of running out of slots.
Faults change only what reaches the caller's segments. -/
theorem netmapSocketRecvmsgFaulting_agrees (faults : Nat → Nat) :
    ∃ r notCopied r₀, netmapSocketRecvmsgFaulting nf faults na m totalLen = some (r, notCopied) ∧
      netmapSocketRecvmsg nf na m totalLen = some r₀ ∧
      r.ret = r₀.ret ∧ r.na = r₀.na ∧ r.outOfSlots = r₀.outOfSlots := by
  unfold netmapSocketRecvmsgFaulting netmapSocketRecvmsg
  by_cases spurious : na.rxRing.avail = 0
  · simp only [spurious, if_true]
    exact ⟨_, _, _, rfl, rfl, rfl, rfl, rfl⟩
  · simp only [spurious, if_false]
    obtain ⟨st, ended⟩ := @recvLoop_isSome nf na.rxRing na.buffers m totalLen
      (na.rxRing.avail + m.msgIovlen + 1) (recvInit nf na.rxRing m)
      (by simp [recvMeasure, recvInit])
    have agree := recvLoopWith_faults_eraseUser nf na m totalLen faults
      (na.rxRing.avail + m.msgIovlen + 1) ⟨recvInit nf na.rxRing m, 0, 0⟩ _ rfl
    rw [ended, Option.map_some'] at agree
    obtain ⟨s, endedFaulting, same⟩ := Option.map_eq_some'.mp agree
    have copied : s.st.copied = st.copied := (congrArg RecvState.copied same :)
    have i : s.st.i = st.i := (congrArg RecvState.i same :)
    have avail : s.st.avail = st.avail := (congrArg RecvState.avail same :)
    have morefrag : s.st.morefrag = st.morefrag := (congrArg RecvState.morefrag same :)
    rw [ended, endedFaulting]
    refine ⟨_, _, _, rfl, rfl, ?_, ?_, ?_⟩ <;> simp only [recvResult, copied, i, avail, morefrag]

/-- With no faults the copy is `RecvState.copy`. -/
theorem RecvFaultState.copy_no_faults (s : RecvFaultState) :
    s.copy na.rxRing na.buffers (fun _ => 0) = ⟨s.st.copy na.rxRing na.buffers, s.calls + 1, s.notCopied⟩ := by
  simp only [RecvFaultState.copy, copyLeft_no_faults, Nat.sub_zero, Nat.add_zero]
  rfl

/-- With no faults the faulting model is `netmap_socket_recvmsg`'s, and no byte is left
uncopied. -/
theorem netmapSocketRecvmsgFaulting_no_faults :
    netmapSocketRecvmsgFaulting nf (fun _ => 0) na m totalLen =
      (netmapSocketRecvmsg nf na m totalLen).map fun r => (r, 0) := by
  unfold netmapSocketRecvmsgFaulting netmapSocketRecvmsg
  by_cases spurious : na.rxRing.avail = 0
  · simp only [spurious, if_true, Option.map_some']
  · simp only [spurious, if_false]
    have exact := @recvLoopWith_simulates _ _ _ (fun s => (s.st, s.notCopied)) (fun st => (st, 0))
      (fun s => s.st.copied) RecvState.copied (recvStepFaulting nf na.rxRing na.buffers m fun _ => 0)
      (recvStep nf na.rxRing na.buffers m) totalLen
      (fun _ _ same => congrArg (fun p => p.1.copied) same)
      (fun s st same => by
        obtain ⟨rfl, none⟩ := Prod.mk.inj_iff.mp same
        rw [recvStepFaulting_eq, stepView_stepView, RecvFaultState.copy_no_faults, recvStep, none])
      (na.rxRing.avail + m.msgIovlen + 1) ⟨recvInit nf na.rxRing m, 0, 0⟩ _ rfl
    have := congrArg (Option.map fun p => (recvResult na m p.1, p.2)) exact
    simpa only [Option.map_map, Function.comp_def] using this

end RecvAgreement

/-- Every user copy faults on all its bytes: `sendmsg` of three bytes still returns 3,
publishes a slot of zeros and calls `nm_txsync`, and `recvmsg` of a three-byte packet still
returns 3 with none of its bytes delivered. -/
theorem socket_calls_ignore_copy_faults :
    let tx : NetmapAdapter :=
      ⟨⟨4, 4, 0, 4, fun p => ⟨p, 0, 0⟩⟩, ⟨4, 4, 0, 0, fun p => ⟨p, 0, 0⟩⟩, fun _ _ => 0⟩
    let rx : NetmapAdapter :=
      ⟨⟨4, 4, 0, 0, fun p => ⟨p, 0, 0⟩⟩, ⟨4, 4, 0, 1, fun p => ⟨p, 3, 0⟩⟩,
        fun _ k => (k + 1).toUInt8⟩
    (netmapSocketSendmsgFaulting NsFlags.sample (fun _ => 3) tx ⟨fun _ => [1, 2, 3], 1⟩ 3).2 = 3 ∧
      (netmapSocketSendmsgFaulting NsFlags.sample (fun _ => 3) tx ⟨fun _ => [1, 2, 3], 1⟩ 3).1.ret = 3 ∧
      (netmapSocketSendmsgFaulting NsFlags.sample (fun _ => 3) tx ⟨fun _ => [1, 2, 3], 1⟩ 3).1.txsyncs = 1 ∧
      (netmapSocketSendmsgFaulting NsFlags.sample (fun _ => 3) tx ⟨fun _ => [1, 2, 3], 1⟩ 3).1.na.txRing.cur = 1 ∧
      (netmapSocketSendmsgFaulting NsFlags.sample (fun _ => 3) tx ⟨fun _ => [1, 2, 3], 1⟩ 3).1.na.txRing.avail = 3 ∧
      readBuf ((netmapSocketSendmsgFaulting NsFlags.sample (fun _ => 3) tx
        ⟨fun _ => [1, 2, 3], 1⟩ 3).1.na.buffers 0) 0 3 = [0, 0, 0] ∧
      ∃ r, netmapSocketRecvmsgFaulting NsFlags.sample (fun _ => 3) rx ⟨fun _ => [0, 0, 0], 1⟩ 3 =
          some (r, 3) ∧ r.ret = 3 ∧ r.msg.msgIov 0 = [0, 0, 0] ∧
        readBuf (rx.buffers 0) 0 3 = [1, 2, 3] :=
  ⟨by decide, by decide, by decide, by decide, by decide, by decide, _, rfl, by decide, by decide,
    by decide⟩

end Netmap
