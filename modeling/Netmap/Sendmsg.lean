import Netmap.Ring

/-!
# `netmap_socket_sendmsg`

The producer side of the socket: the caller's segments are copied into consecutive slots of
TX ring 0, at most `nr_buf_size` bytes a slot, and the new `cur` and `avail` are published
with one call of `nm_txsync`. The copy loop writes into shared memory as it goes, so its
out-of-space exit leaves written slots behind, unpublished.

The loop is modelled by structural recursion on the local `avail`, which every pass of the
inner loop either decrements or returns on; this is also why the loop stops when
`nr_buf_size` is zero. The adapter is taken to be attached (`na != NULL`).
-/

namespace Netmap

/-- The locals of `netmap_socket_sendmsg` that its copy loop updates (`i`, `last`,
`slot_flags`), with the ring's slots and the buffer pool it writes through. -/
structure SendState where
  slot : Nat → NetmapSlot
  buffers : Nat → Nat → UInt8
  i : Nat
  last : Nat
  slotFlags : BitVec 16

section Loop

variable {σ : Type} (fill : σ → Nat → List UInt8 → σ) (nmBufSize : Nat)

/-- The inner `while (iov_frag_size)` loop over segment `frag`, `offset` bytes in with
`iovFragSize` left; `fill st n src` is one pass, copying `n` bytes of `src` into slot `i`.
`.error` is its `return 0` when `avail` is zero. -/
def copyFragWith (frag : List UInt8) : Nat → Nat → Nat → σ → Except σ (Nat × σ)
  | offset, iovFragSize, avail, st =>
    if iovFragSize = 0 then .ok (avail, st) else
    match avail with
    | 0 => .error st
    | avail + 1 =>
      let nmFragSize := min iovFragSize nmBufSize
      copyFragWith frag (offset + nmFragSize) (iovFragSize - nmFragSize) avail
        (fill st nmFragSize (frag.drop offset))

/-- The outer `for (j = 0; j < iovcnt; j++)` loop over the segments. -/
def copyIovWith : List (List UInt8) → Nat → σ → Except σ (Nat × σ)
  | [], avail, st => .ok (avail, st)
  | frag :: iov, avail, st =>
    match copyFragWith fill nmBufSize frag 0 frag.length avail st with
    | .error st => .error st
    | .ok (avail, st) => copyIovWith iov avail st

end Loop

section Fill

variable (nf : NsFlags) (numSlots nmBufSize : Nat)

/-- One pass of the inner loop after its `avail == 0` test: slot `i` gets length `n`, the
current `slot_flags` and the first `n` bytes of `src`, then `i` steps on. -/
def SendState.fill (st : SendState) (n : Nat) (src : List UInt8) : SendState :=
  let s := st.slot st.i
  { slot := Function.update st.slot st.i { s with len := n, flags := st.slotFlags }
    buffers := Function.update st.buffers s.bufIdx (copyFromUser (st.buffers s.bufIdx) src n)
    i := netmapRingNext numSlots st.i
    last := st.i
    slotFlags := st.slotFlags &&& ~~~nf.nsVnetHdr }

/-- The copy loops of `netmap_socket_sendmsg`, with every `copy_from_user` copying all its
bytes. -/
def copyIov : List (List UInt8) → Nat → SendState → Except SendState (Nat × SendState) :=
  copyIovWith (SendState.fill nf numSlots) nmBufSize

end Fill

section LoopEquations

variable {σ : Type} {fill : σ → Nat → List UInt8 → σ} {nmBufSize : Nat} (frag : List UInt8)
  (offset : Nat)

/-- The inner loop's test fails once the segment is used up. -/
@[simp] theorem copyFragWith_of_used (avail : Nat) (st : σ) :
    copyFragWith fill nmBufSize frag offset 0 avail st = .ok (avail, st) := by
  unfold copyFragWith
  exact if_pos rfl

/-- Bytes left and `avail` zero: `return 0`. -/
theorem copyFragWith_of_full {iovFragSize : Nat} (left : iovFragSize ≠ 0) (st : σ) :
    copyFragWith fill nmBufSize frag offset iovFragSize 0 st = .error st := by
  unfold copyFragWith
  exact if_neg left

/-- Bytes left and a slot available: one pass fills slot `i` and goes round again. -/
theorem copyFragWith_of_pass {iovFragSize : Nat} (left : iovFragSize ≠ 0) (avail : Nat) (st : σ) :
    copyFragWith fill nmBufSize frag offset iovFragSize (avail + 1) st =
      copyFragWith fill nmBufSize frag (offset + min iovFragSize nmBufSize)
        (iovFragSize - min iovFragSize nmBufSize) avail
        (fill st (min iovFragSize nmBufSize) (frag.drop offset)) := by
  conv_lhs => unfold copyFragWith
  exact if_neg left

@[simp] theorem copyIovWith_nil (avail : Nat) (st : σ) :
    copyIovWith fill nmBufSize [] avail st = .ok (avail, st) := rfl

theorem copyIovWith_cons (iov : List (List UInt8)) (avail : Nat) (st : σ) :
    copyIovWith fill nmBufSize (frag :: iov) avail st =
      match copyFragWith fill nmBufSize frag 0 frag.length avail st with
      | .error st => .error st
      | .ok (avail, st) => copyIovWith fill nmBufSize iov avail st := rfl

end LoopEquations

/-- The `avail` and state a copy loop ends with, whichever way it exits; the out-of-space
exit happens with `avail` at zero. -/
def loopEnd {σ : Type} : Except σ (Nat × σ) → Nat × σ
  | .error st => (0, st)
  | .ok r => r

/-- The state the copy loop starts from: `i = last = ring->cur` and
`slot_flags = NS_MOREFRAG | NS_VNET_HDR`. -/
def sendInit (nf : NsFlags) (na : NetmapAdapter) : SendState where
  slot := na.txRing.slot
  buffers := na.buffers
  i := na.txRing.cur
  last := na.txRing.cur
  slotFlags := nf.nsMorefrag ||| nf.nsVnetHdr

/-- What `netmap_socket_sendmsg` returns and leaves behind, with the number of times it
called `nm_txsync`. -/
structure SendResult where
  ret : Nat
  na : NetmapAdapter
  txsyncs : Nat

/-- The end of `netmap_socket_sendmsg` after its copy loop: on `return 0` the written slots
stay and nothing is published; otherwise `NS_MOREFRAG` is cleared on slot `last`, `cur` and
`avail` are published, `nm_txsync` is called once and `total_len` returned. -/
def sendPublish (nf : NsFlags) (na : NetmapAdapter) (totalLen : Nat) :
    Except SendState (Nat × SendState) → SendResult
  | .error st =>
    ⟨0, { na with txRing := { na.txRing with slot := st.slot }, buffers := st.buffers }, 0⟩
  | .ok (avail, st) =>
    let s := st.slot st.last
    ⟨totalLen,
      { na with
        txRing := { na.txRing with
          slot := Function.update st.slot st.last { s with flags := s.flags &&& ~~~nf.nsMorefrag }
          cur := st.i
          avail := avail }
        buffers := st.buffers },
      1⟩

/-- `netmap_socket_sendmsg`: `return 0` when there are more segments than free slots, else the
copy loop and the end of the call. -/
def netmapSocketSendmsg (nf : NsFlags) (na : NetmapAdapter) (m : Msghdr) (totalLen : Nat) :
    SendResult :=
  let ring := na.txRing
  if ring.avail < m.msgIovlen then ⟨0, na, 0⟩ else
  sendPublish nf na totalLen
    (copyIov nf ring.numSlots ring.nrBufSize m.iovs ring.avail (sendInit nf na))

/-! ## Loop invariants -/

section Invariant

variable {σ : Type} {fill : σ → Nat → List UInt8 → σ} {nmBufSize : Nat}

/-- An invariant of the local `avail` and the loop state that every pass preserves holds
wherever the inner loop exits. -/
theorem copyFragWith_invariant (inv : Nat → σ → Prop)
    (pass : ∀ avail st n src, n ≤ nmBufSize → inv (avail + 1) st → inv avail (fill st n src))
    (frag : List UInt8) (offset iovFragSize avail : Nat) (st : σ) (start : inv avail st) :
    inv (loopEnd (copyFragWith fill nmBufSize frag offset iovFragSize avail st)).1
      (loopEnd (copyFragWith fill nmBufSize frag offset iovFragSize avail st)).2 := by
  induction avail generalizing offset iovFragSize st with
  | zero =>
      unfold copyFragWith
      split <;> exact start
  | succ avail ih =>
      unfold copyFragWith
      split
      · exact start
      · exact ih _ _ _ (pass _ _ _ _ (Nat.min_le_right _ _) start)

/-- The same invariant holds wherever the whole copy loop exits. -/
theorem copyIovWith_invariant (inv : Nat → σ → Prop)
    (pass : ∀ avail st n src, n ≤ nmBufSize → inv (avail + 1) st → inv avail (fill st n src)) :
    ∀ (iov : List (List UInt8)) (avail : Nat) (st : σ), inv avail st →
      inv (loopEnd (copyIovWith fill nmBufSize iov avail st)).1
        (loopEnd (copyIovWith fill nmBufSize iov avail st)).2
  | [], _, _, start => start
  | frag :: iov, avail, st, start => by
      have frame := copyFragWith_invariant inv pass frag 0 frag.length avail st start
      rw [copyIovWith_cons]
      split <;> simp_all only [loopEnd]
      exact copyIovWith_invariant inv pass iov _ _ frame

end Invariant

/-! ## What the copy loop leaves unchanged -/

section Frame

variable {nf : NsFlags} {na : NetmapAdapter}

/-- Once the local `avail` is `k` below `ring->avail`, the loop has filled the `k` slots
from `cur` and nothing else, kept every slot's buffer, and written no length above
`nr_buf_size`. -/
structure SendFrame (na : NetmapAdapter) (avail : Nat) (st : SendState) : Prop where
  avail_le : avail ≤ na.txRing.avail
  i_eq : st.i = ringPos na.txRing.numSlots na.txRing.cur (na.txRing.avail - avail)
  last_eq : st.last = if avail = na.txRing.avail then na.txRing.cur
    else ringPos na.txRing.numSlots na.txRing.cur (na.txRing.avail - avail - 1)
  slot_eq : ∀ p, (∀ t < na.txRing.avail - avail, ringPos na.txRing.numSlots na.txRing.cur t ≠ p) →
    st.slot p = na.txRing.slot p
  bufIdx_eq : ∀ p, (st.slot p).bufIdx = (na.txRing.slot p).bufIdx
  len_le : ∀ p, (st.slot p).len ≤ na.txRing.nrBufSize ∨ st.slot p = na.txRing.slot p
  buffers_eq : ∀ b, (∀ t < na.txRing.avail - avail,
    (na.txRing.slot (ringPos na.txRing.numSlots na.txRing.cur t)).bufIdx ≠ b) →
    st.buffers b = na.buffers b

theorem SendFrame.init : SendFrame na na.txRing.avail (sendInit nf na) where
  avail_le := Nat.le_refl _
  i_eq := by simp [sendInit]
  last_eq := by simp [sendInit]
  slot_eq := fun _ _ => rfl
  bufIdx_eq := fun _ => rfl
  len_le := fun _ => .inr rfl
  buffers_eq := fun _ _ => rfl

/-- Filling one more slot keeps the frame. -/
theorem SendFrame.fill {avail : Nat} {st : SendState} {n : Nat} (src : List UInt8)
    (nLe : n ≤ na.txRing.nrBufSize) (frame : SendFrame na (avail + 1) st) :
    SendFrame na avail (st.fill nf na.txRing.numSlots n src) := by
  have room := frame.avail_le
  have steps : na.txRing.avail - avail = na.txRing.avail - (avail + 1) + 1 := by omega
  refine ⟨by omega, ?_, ?_, ?_, ?_, ?_, ?_⟩
  · simp [SendState.fill, frame.i_eq, steps]
  · simp [SendState.fill, frame.i_eq, show avail ≠ na.txRing.avail by omega,
      show na.txRing.avail - avail - 1 = na.txRing.avail - (avail + 1) by omega]
  · intro p outside
    have ne : p ≠ st.i := frame.i_eq ▸ (outside _ (by omega)).symm
    simp only [SendState.fill, Function.update_noteq ne]
    exact frame.slot_eq p fun t tLt => outside t (by omega)
  · intro p
    by_cases at_i : p = st.i
    · subst at_i
      simp [SendState.fill, frame.bufIdx_eq]
    · simp [SendState.fill, at_i, frame.bufIdx_eq]
  · intro p
    by_cases at_i : p = st.i
    · subst at_i
      simp [SendState.fill, nLe]
    · simpa [SendState.fill, at_i] using frame.len_le p
  · intro b other
    have ne : b ≠ (st.slot st.i).bufIdx := by
      rw [frame.bufIdx_eq, frame.i_eq]
      exact (other _ (by omega)).symm
    simp only [SendState.fill, Function.update_noteq ne]
    exact frame.buffers_eq b fun t tLt => other t (by omega)

/-- Wherever the copy loop exits, its state is in the frame. -/
theorem SendFrame.loop (iov : List (List UInt8)) :
    SendFrame na
      (loopEnd (copyIov nf na.txRing.numSlots na.txRing.nrBufSize iov na.txRing.avail
        (sendInit nf na))).1
      (loopEnd (copyIov nf na.txRing.numSlots na.txRing.nrBufSize iov na.txRing.avail
        (sendInit nf na))).2 :=
  copyIovWith_invariant (SendFrame na) (fun _ _ _ src nLe frame => frame.fill src nLe) iov _ _
    SendFrame.init

end Frame

/-! ## The two exits of `netmap_socket_sendmsg` -/

section Exits

variable (nf : NsFlags) (na : NetmapAdapter) (m : Msghdr) (totalLen : Nat)

@[simp] theorem netmapSocketSendmsg_of_lt (few : na.txRing.avail < m.msgIovlen) :
    netmapSocketSendmsg nf na m totalLen = ⟨0, na, 0⟩ := by
  simp [netmapSocketSendmsg, few]

theorem netmapSocketSendmsg_of_error (enough : m.msgIovlen ≤ na.txRing.avail) {st : SendState}
    (loop : copyIov nf na.txRing.numSlots na.txRing.nrBufSize m.iovs na.txRing.avail
      (sendInit nf na) = .error st) :
    netmapSocketSendmsg nf na m totalLen =
      ⟨0, { na with txRing := { na.txRing with slot := st.slot }, buffers := st.buffers }, 0⟩ := by
  simp [netmapSocketSendmsg, sendPublish, Nat.not_lt.mpr enough, loop]

theorem netmapSocketSendmsg_of_ok (enough : m.msgIovlen ≤ na.txRing.avail) {avail : Nat}
    {st : SendState}
    (loop : copyIov nf na.txRing.numSlots na.txRing.nrBufSize m.iovs na.txRing.avail
      (sendInit nf na) = .ok (avail, st)) :
    netmapSocketSendmsg nf na m totalLen =
      ⟨totalLen, { na with
        txRing := { na.txRing with
          slot := Function.update st.slot st.last
            { st.slot st.last with flags := (st.slot st.last).flags &&& ~~~nf.nsMorefrag }
          cur := st.i
          avail := avail }
        buffers := st.buffers }, 1⟩ := by
  simp [netmapSocketSendmsg, sendPublish, Nat.not_lt.mpr enough, loop]

/-- `netmap_socket_sendmsg` does not touch the RX ring. -/
@[simp] theorem netmapSocketSendmsg_rxRing :
    (netmapSocketSendmsg nf na m totalLen).na.rxRing = na.rxRing := by
  unfold netmapSocketSendmsg sendPublish
  dsimp only
  split
  · rfl
  · split <;> rfl

/-- A failed `netmap_socket_sendmsg` publishes nothing: it returns 0, keeps `cur` and
`avail`, does not call `nm_txsync`, and changes nothing outside the window. -/
theorem netmapSocketSendmsg_failure_unpublished
    (fails : na.txRing.avail < m.msgIovlen ∨ ∃ st, copyIov nf na.txRing.numSlots
      na.txRing.nrBufSize m.iovs na.txRing.avail (sendInit nf na) = .error st) :
    let r := netmapSocketSendmsg nf na m totalLen
    r.ret = 0 ∧ r.txsyncs = 0 ∧ r.na.txRing.cur = na.txRing.cur ∧
      r.na.txRing.avail = na.txRing.avail ∧
      (∀ p, ¬ na.txRing.InWindow p → r.na.txRing.slot p = na.txRing.slot p) ∧
      (∀ b, (∀ p, na.txRing.InWindow p → (na.txRing.slot p).bufIdx ≠ b) →
        r.na.buffers b = na.buffers b) := by
  rcases fails with few | ⟨st, loop⟩
  · simp [few]
  · by_cases few : na.txRing.avail < m.msgIovlen
    · simp [few]
    have frame := @SendFrame.loop nf na m.iovs
    rw [loop, loopEnd] at frame
    rw [netmapSocketSendmsg_of_error nf na m totalLen (Nat.not_lt.mp few) loop]
    refine ⟨rfl, rfl, rfl, rfl, fun p outside => ?_, fun b other => ?_⟩
    · exact frame.slot_eq p fun t tLt same => outside ⟨t, by omega, same⟩
    · exact frame.buffers_eq b fun t tLt => other _ ⟨t, by omega, rfl⟩

/-- A two-byte segment into a one-slot window of one-byte buffers runs out of space in the
copy loop. -/
theorem netmapSocketSendmsg_failure_unpublished_in_loop :
    let na : NetmapAdapter := ⟨⟨2, 1, 1, 1, fun p => ⟨p, 0, 0⟩⟩, ⟨2, 1, 0, 0, fun p => ⟨p, 0, 0⟩⟩,
      fun _ _ => 0⟩
    let m : Msghdr := ⟨fun _ => [1, 2], 1⟩
    (na.txRing.avail < m.msgIovlen ∨ ∃ st, copyIov NsFlags.sample na.txRing.numSlots
      na.txRing.nrBufSize m.iovs na.txRing.avail (sendInit NsFlags.sample na) = .error st) ∧
    let r := netmapSocketSendmsg NsFlags.sample na m 2
    r.ret = 0 ∧ r.txsyncs = 0 ∧ r.na.txRing.cur = na.txRing.cur ∧
      r.na.txRing.avail = na.txRing.avail ∧
      (∀ p, ¬ na.txRing.InWindow p → r.na.txRing.slot p = na.txRing.slot p) ∧
      (∀ b, (∀ p, na.txRing.InWindow p → (na.txRing.slot p).bufIdx ≠ b) →
        r.na.buffers b = na.buffers b) :=
  have fails := .inr ⟨_, rfl⟩
  ⟨fails, netmapSocketSendmsg_failure_unpublished NsFlags.sample _ _ 2 fails⟩

/-- Outside its window, a call changes no buffer and no slot, except slot `cur` when the
window is empty and there is no segment: the final clear of `NS_MOREFRAG` lands there. -/
theorem netmapSocketSendmsg_outside_window :
    (∀ p, ¬ na.txRing.InWindow p →
      (netmapSocketSendmsg nf na m totalLen).na.txRing.slot p = na.txRing.slot p ∨
        p = na.txRing.cur ∧ na.txRing.avail = 0 ∧ m.msgIovlen = 0 ∧
          (netmapSocketSendmsg nf na m totalLen).na.txRing.slot p =
            { na.txRing.slot p with flags := (na.txRing.slot p).flags &&& ~~~nf.nsMorefrag }) ∧
      (∀ b, (∀ p, na.txRing.InWindow p → (na.txRing.slot p).bufIdx ≠ b) →
        (netmapSocketSendmsg nf na m totalLen).na.buffers b = na.buffers b) := by
  by_cases few : na.txRing.avail < m.msgIovlen
  · simp [few]
  have frame := @SendFrame.loop nf na m.iovs
  have buffersKept {avail : Nat} {st : SendState} (frame : SendFrame na avail st) (b : Nat)
      (other : ∀ p, na.txRing.InWindow p → (na.txRing.slot p).bufIdx ≠ b) :
      st.buffers b = na.buffers b :=
    frame.buffers_eq b fun t tLt => other _ ⟨t, by have := frame.avail_le; omega, rfl⟩
  have slotKept {avail : Nat} {st : SendState} (frame : SendFrame na avail st) (p : Nat)
      (outside : ¬ na.txRing.InWindow p) : st.slot p = na.txRing.slot p :=
    frame.slot_eq p fun t tLt same => outside ⟨t, by have := frame.avail_le; omega, same⟩
  cases loop : copyIov nf na.txRing.numSlots na.txRing.nrBufSize m.iovs na.txRing.avail
    (sendInit nf na) with
  | error st =>
      rw [loop, loopEnd] at frame
      rw [netmapSocketSendmsg_of_error nf na m totalLen (Nat.not_lt.mp few) loop]
      exact ⟨fun p outside => .inl (slotKept frame p outside), buffersKept frame⟩
  | ok result =>
      obtain ⟨avail, st⟩ := result
      rw [loop, loopEnd] at frame
      rw [netmapSocketSendmsg_of_ok nf na m totalLen (Nat.not_lt.mp few) loop]
      refine ⟨fun p outside => ?_, buffersKept frame⟩
      dsimp only
      by_cases atLast : p = st.last
      · -- `last` is outside the window only if no slot was filled and the window is empty
        have filledNone : avail = na.txRing.avail := by
          by_contra filled
          rw [frame.last_eq, if_neg filled] at atLast
          exact outside ⟨_, by have := frame.avail_le; omega, atLast.symm⟩
        have atCur : p = na.txRing.cur := by rw [atLast, frame.last_eq, if_pos filledNone]
        have empty : na.txRing.avail = 0 :=
          Nat.eq_zero_of_not_pos fun some => outside ⟨0, some, atCur.symm⟩
        subst atLast
        refine .inr ⟨atCur, empty, by omega, ?_⟩
        rw [Function.update_same, slotKept frame _ outside]
      · exact .inl ((Function.update_noteq atLast _ _).trans (slotKept frame p outside))

/-- The failing input of the empty window: slot `cur` loses `NS_MOREFRAG`, and that is the
only change outside the window. -/
theorem netmapSocketSendmsg_outside_window_empty :
    let na : NetmapAdapter := ⟨⟨1, 4, 0, 0, fun _ => ⟨0, 0, 0x20#16⟩⟩,
      ⟨1, 4, 0, 0, fun _ => ⟨0, 0, 0⟩⟩, fun _ _ => 0⟩
    let m : Msghdr := ⟨fun _ => [], 0⟩
    let r := netmapSocketSendmsg NsFlags.sample na m 0
    (∀ p, ¬ na.txRing.InWindow p →
      r.na.txRing.slot p = na.txRing.slot p ∨
        p = na.txRing.cur ∧ na.txRing.avail = 0 ∧ m.msgIovlen = 0 ∧
          r.na.txRing.slot p = { na.txRing.slot p with
            flags := (na.txRing.slot p).flags &&& ~~~NsFlags.sample.nsMorefrag }) ∧
      (∀ b, (∀ p, na.txRing.InWindow p → (na.txRing.slot p).bufIdx ≠ b) →
        r.na.buffers b = na.buffers b) :=
  netmapSocketSendmsg_outside_window NsFlags.sample _ _ 0

/-- Every call of `netmap_socket_sendmsg`, on either exit, keeps the TX ring's cursors in
range and moves `cur` and `avail` only together. -/
theorem netmapSocketSendmsg_cursorStep (valid : na.txRing.Valid) :
    na.txRing.CursorStep (netmapSocketSendmsg nf na m totalLen).na.txRing := by
  by_cases few : na.txRing.avail < m.msgIovlen
  · simpa [few] using NetmapRing.CursorStep.refl valid
  have frame := @SendFrame.loop nf na m.iovs
  have lenLe {avail : Nat} {st : SendState} (frame : SendFrame na avail st) (p : Nat)
      (pLt : p < na.txRing.numSlots) : (st.slot p).len ≤ na.txRing.nrBufSize :=
    (frame.len_le p).elim id fun same => same ▸ valid.len_le p pLt
  cases loop : copyIov nf na.txRing.numSlots na.txRing.nrBufSize m.iovs na.txRing.avail
    (sendInit nf na) with
  | error st =>
      rw [loop, loopEnd] at frame
      rw [netmapSocketSendmsg_of_error nf na m totalLen (Nat.not_lt.mp few) loop]
      exact ⟨rfl, rfl, valid.cur_lt, Nat.le_refl _, rfl, lenLe frame⟩
  | ok result =>
      obtain ⟨avail, st⟩ := result
      rw [loop, loopEnd] at frame
      rw [netmapSocketSendmsg_of_ok nf na m totalLen (Nat.not_lt.mp few) loop]
      refine ⟨rfl, rfl, ?_, frame.avail_le, ?_, fun p pLt => ?_⟩
      · exact frame.i_eq ▸ ringPos_lt valid.cur_lt _
      · have kept := @ringPos_add_sub_mod na.txRing.numSlots _ _ _ valid.cur_lt
          (Nat.sub_le na.txRing.avail avail)
        rwa [Nat.sub_sub_self frame.avail_le, ← frame.i_eq] at kept
      · by_cases atLast : p = st.last
        · subst atLast
          simpa using lenLe frame _ pLt
        · simpa [atLast] using lenLe frame p pLt

end Exits

end Netmap
