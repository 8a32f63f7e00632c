import Netmap.Ring

/-!
# `netmap_socket_recvmsg`

The consumer side of the socket: bytes are copied from consecutive slots of RX ring 0,
following the `NS_MOREFRAG` chain from `cur`, into the caller's segments, until the packet,
the segments or `total_len` run out; then `cur` and `avail` are published.

The `while (copied < total_len)` loop is modelled with an explicit bound on its passes.
Each pass that goes round again uses up a slot or a segment
(`recvStep_measure_lt`), so the bound `avail + iovcnt + 1` that `netmapSocketRecvmsg` gives
is never reached (`netmapSocketRecvmsg_isSome`).
-/

namespace Netmap

/-- The locals of the copy loop of `netmap_socket_recvmsg`, with the caller's memory behind
the segments, which the loop writes. The pointers `src` and `dst` are not kept: they are the
buffer of slot `i` and segment `j`. -/
structure RecvState where
  i : Nat
  avail : Nat
  morefrag : Bool
  nmFragSize : Nat
  nmFragOfs : Nat
  j : Nat
  iovFragSize : Nat
  iovFragOfs : Nat
  copied : Nat
  user : Nat → List UInt8

section Loop

variable (nf : NsFlags) (ring : NetmapRing) (buffers : Nat → Nat → UInt8) (m : Msghdr)

/-- The copy that opens the loop body: `min(nm_frag_size, iov_frag_size)` bytes from slot `i`
at `nm_frag_ofs` to segment `j` at `iov_frag_ofs`. -/
def RecvState.copy (st : RecvState) : RecvState :=
  let copySize := min st.nmFragSize st.iovFragSize
  let src := readBuf (buffers (ring.slot st.i).bufIdx) st.nmFragOfs copySize
  { st with
    user := Function.update st.user st.j (copyToUser (st.user st.j) st.iovFragOfs src)
    nmFragOfs := st.nmFragOfs + copySize
    nmFragSize := st.nmFragSize - copySize
    iovFragOfs := st.iovFragOfs + copySize
    iovFragSize := st.iovFragSize - copySize
    copied := st.copied + copySize }

/-- "Take the next slot": `i = NETMAP_RING_NEXT(ring, i)`, `avail--`, and the new slot's
flags, length and offset. -/
def RecvState.nextSlot (st : RecvState) : RecvState :=
  let i := netmapRingNext ring.numSlots st.i
  { st with
    i := i
    avail := st.avail - 1
    morefrag := (ring.slot i).morefrag nf
    nmFragOfs := 0
    nmFragSize := (ring.slot i).len }

/-- The segment half of the loop body: once segment `j` is full, `j++`, then `break` after
the last segment or take the next one. -/
def RecvState.nextIov (st : RecvState) : ForInStep RecvState :=
  if st.iovFragSize = 0 then
    if m.msgIovlen ≤ st.j + 1 then .done { st with j := st.j + 1 }
    else .yield { st with j := st.j + 1, iovFragOfs := 0, iovFragSize := (m.msgIov (st.j + 1)).length }
  else .yield st

/-- The rest of a pass after its copy: if the slot is used up, `break` when it is the
packet's last slot or `avail` is zero, else take the next slot; then the segment half. -/
def recvAfterCopy (st : RecvState) : ForInStep RecvState :=
  if st.nmFragSize = 0 then
    if !st.morefrag || st.avail == 0 then .done st
    else (st.nextSlot nf ring).nextIov m
  else st.nextIov m

/-- One pass of the loop body: the copy, then the rest of the pass. -/
def recvStep (st : RecvState) : ForInStep RecvState :=
  recvAfterCopy nf ring m (st.copy ring buffers)

/-- The `while (copied < total_len)` loop, allowed `fuel` passes of the loop body `step`;
`none` if they run out. -/
def recvLoopWith {σ : Type} (copied : σ → Nat) (step : σ → ForInStep σ) (totalLen : Nat) :
    Nat → σ → Option σ
  | 0, _ => none
  | fuel + 1, st =>
    if copied st < totalLen then
      match step st with
      | .done st => some st
      | .yield st => recvLoopWith copied step totalLen fuel st
    else some st

/-- The loop with every `copy_to_user` copying all its bytes. -/
def recvLoop (totalLen : Nat) : Nat → RecvState → Option RecvState :=
  recvLoopWith RecvState.copied (recvStep nf ring buffers m) totalLen

/-- The loop's starting state: slot `cur` and segment 0, nothing copied. -/
def recvInit : RecvState where
  i := ring.cur
  avail := ring.avail
  morefrag := (ring.slot ring.cur).morefrag nf
  nmFragSize := (ring.slot ring.cur).len
  nmFragOfs := 0
  j := 0
  iovFragSize := (m.msgIov 0).length
  iovFragOfs := 0
  copied := 0
  user := m.msgIov

end Loop

/-- What `netmap_socket_recvmsg` returns and leaves behind: the return value, the adapter,
the caller's segments as written, and whether it reported "ran out of slots, with a pending
incomplete packet". -/
structure RecvResult where
  ret : Nat
  na : NetmapAdapter
  msg : Msghdr
  outOfSlots : Bool

/-- The end of `netmap_socket_recvmsg` once its loop has ended in `st`: `ring->cur = i`,
`ring->avail = avail`, and `copied` returned. -/
def recvResult (na : NetmapAdapter) (m : Msghdr) (st : RecvState) : RecvResult :=
  ⟨st.copied, { na with rxRing := { na.rxRing with cur := st.i, avail := st.avail } },
    { m with msgIov := st.user }, st.avail == 0 && st.morefrag⟩

/-- `netmap_socket_recvmsg`. A call with `avail == 0` does nothing; otherwise the loop runs
and its final `i` and `avail` are published as `cur` and `avail`. -/
def netmapSocketRecvmsg (nf : NsFlags) (na : NetmapAdapter) (m : Msghdr) (totalLen : Nat) :
    Option RecvResult :=
  let ring := na.rxRing
  if ring.avail = 0 then some ⟨0, na, m, false⟩ else
  (recvLoop nf ring na.buffers m totalLen (ring.avail + m.msgIovlen + 1)
    (recvInit nf ring m)).map (recvResult na m)

/-! ## Passes of the loop body -/

section Step

variable {nf : NsFlags} {ring : NetmapRing} {buffers : Nat → Nat → UInt8} {m : Msghdr}

@[simp] theorem RecvState.copy_i (st : RecvState) : (st.copy ring buffers).i = st.i := rfl
@[simp] theorem RecvState.copy_avail (st : RecvState) : (st.copy ring buffers).avail = st.avail := rfl
@[simp] theorem RecvState.copy_j (st : RecvState) : (st.copy ring buffers).j = st.j := rfl
@[simp] theorem RecvState.copy_morefrag (st : RecvState) :
    (st.copy ring buffers).morefrag = st.morefrag := rfl
@[simp] theorem RecvState.nextSlot_i (st : RecvState) :
    (st.nextSlot nf ring).i = netmapRingNext ring.numSlots st.i := rfl
@[simp] theorem RecvState.nextSlot_avail (st : RecvState) :
    (st.nextSlot nf ring).avail = st.avail - 1 := rfl
@[simp] theorem RecvState.nextSlot_j (st : RecvState) : (st.nextSlot nf ring).j = st.j := rfl
@[simp] theorem RecvState.nextSlot_iovFragSize (st : RecvState) :
    (st.nextSlot nf ring).iovFragSize = st.iovFragSize := rfl

/-- The segment half of a pass leaves `i` and `avail` as they were. -/
@[simp] theorem RecvState.nextIov_i (st : RecvState) : (st.nextIov m).value.i = st.i := by
  unfold RecvState.nextIov
  split <;> (try split) <;> rfl

@[simp] theorem RecvState.nextIov_avail (st : RecvState) :
    (st.nextIov m).value.avail = st.avail := by
  unfold RecvState.nextIov
  split <;> (try split) <;> rfl

/-- The copy uses up the slot or the segment. -/
theorem RecvState.copy_exhausts (st : RecvState) :
    (st.copy ring buffers).nmFragSize = 0 ∨ (st.copy ring buffers).iovFragSize = 0 := by
  simp only [RecvState.copy]
  omega

/-- Everything the segment half of a pass can do. -/
theorem RecvState.nextIov_cases (st : RecvState) :
    st.iovFragSize = 0 ∧ m.msgIovlen ≤ st.j + 1 ∧ st.nextIov m = .done { st with j := st.j + 1 } ∨
    st.iovFragSize = 0 ∧ st.j + 1 < m.msgIovlen ∧ st.nextIov m = .yield
      { st with j := st.j + 1, iovFragOfs := 0, iovFragSize := (m.msgIov (st.j + 1)).length } ∨
    st.iovFragSize ≠ 0 ∧ st.nextIov m = .yield st := by
  unfold RecvState.nextIov
  by_cases full : st.iovFragSize = 0
  · by_cases last : m.msgIovlen ≤ st.j + 1
    · exact .inl ⟨full, last, by simp [full, last]⟩
    · exact .inr (.inl ⟨full, Nat.not_le.mp last, by simp [full, last]⟩)
  · exact .inr (.inr ⟨full, by simp [full]⟩)

/-- Everything a pass can do after its copy: break at the packet's end or when `avail` is
zero, take the next slot, or stay in the slot; the last two go on to the segment half. -/
theorem recvStep_cases (st : RecvState) :
    (st.copy ring buffers).nmFragSize = 0 ∧ (st.morefrag = false ∨ st.avail = 0) ∧
      recvStep nf ring buffers m st = .done (st.copy ring buffers) ∨
    (st.copy ring buffers).nmFragSize = 0 ∧ st.morefrag = true ∧ st.avail ≠ 0 ∧
      recvStep nf ring buffers m st = ((st.copy ring buffers).nextSlot nf ring).nextIov m ∨
    (st.copy ring buffers).nmFragSize ≠ 0 ∧
      recvStep nf ring buffers m st = (st.copy ring buffers).nextIov m := by
  by_cases used : (st.copy ring buffers).nmFragSize = 0
  · by_cases last : st.morefrag = false ∨ st.avail = 0
    · exact .inl ⟨used, last, by simp [recvStep, recvAfterCopy, used, last]⟩
    · simp only [not_or, Bool.not_eq_false] at last
      exact .inr (.inl ⟨used, last.1, last.2, by simp [recvStep, recvAfterCopy, used, last]⟩)
  · exact .inr (.inr ⟨used, by simp [recvStep, recvAfterCopy, used]⟩)

/-- How far the loop is from its last pass: the slots and segments it may still take. -/
def recvMeasure (m : Msghdr) (st : RecvState) : Nat :=
  st.avail + (m.msgIovlen - st.j)

/-- The segment half, going round again, never raises the measure, and lowers it once
segment `j` is full. -/
theorem RecvState.nextIov_measure {st st' : RecvState} (again : st.nextIov m = .yield st') :
    recvMeasure m st' ≤ recvMeasure m st ∧
      (st.iovFragSize = 0 → recvMeasure m st' < recvMeasure m st) := by
  rcases @RecvState.nextIov_cases m st with ⟨-, -, done⟩ | ⟨-, within, next⟩ | ⟨notFull, same⟩
  · rw [done] at again
    cases again
  · rw [next] at again
    cases again
    simp only [recvMeasure]
    omega
  · rw [same] at again
    cases again
    exact ⟨Nat.le_refl _, fun full => absurd full notFull⟩

/-- A pass that goes round again has taken a slot or a segment. -/
theorem recvStep_measure_lt {st st' : RecvState}
    (again : recvStep nf ring buffers m st = .yield st') :
    recvMeasure m st' < recvMeasure m st := by
  rcases @recvStep_cases nf ring buffers m st with ⟨-, -, done⟩ | ⟨-, -, availPos, pass⟩ |
    ⟨left, pass⟩
  · rw [done] at again
    cases again
  · -- the next slot lowers `avail`
    rw [pass] at again
    have kept := (RecvState.nextIov_measure again).1
    simp only [recvMeasure, RecvState.nextSlot_avail, RecvState.nextSlot_j,
      RecvState.copy_avail, RecvState.copy_j] at kept ⊢
    omega
  · -- the copy filled segment `j`
    rw [pass] at again
    exact (RecvState.nextIov_measure again).2 ((RecvState.copy_exhausts st).resolve_left left)

/-- With more passes allowed than the measure, the loop finishes. -/
theorem recvLoop_isSome (totalLen : Nat) :
    ∀ fuel (st : RecvState), recvMeasure m st < fuel →
      ∃ st', recvLoop nf ring buffers m totalLen fuel st = some st'
  | 0, _, bound => absurd bound (Nat.not_lt_zero _)
  | fuel + 1, st, bound => by
      unfold recvLoop recvLoopWith
      split
      · split
        · exact ⟨_, rfl⟩
        · rename_i again
          exact recvLoop_isSome totalLen fuel _
            (Nat.lt_of_lt_of_le (recvStep_measure_lt again) (Nat.le_of_lt_succ bound))
      · exact ⟨_, rfl⟩

/-- What a pass promises: `post` if it breaks, `inv` if it goes round again. -/
def StepHolds (inv post : RecvState → Prop) : ForInStep RecvState → Prop
  | .done st => post st
  | .yield st => inv st

/-- The loop rule: an invariant that every pass keeps, or turns into `post` when it breaks,
and that gives `post` when the loop test fails, gives `post` at the loop's end. -/
theorem recvLoop_hoare (totalLen : Nat) (inv post : RecvState → Prop)
    (pass : ∀ st, inv st → st.copied < totalLen → StepHolds inv post (recvStep nf ring buffers m st))
    (stop : ∀ st, inv st → totalLen ≤ st.copied → post st) :
    ∀ fuel (st st' : RecvState), inv st → recvLoop nf ring buffers m totalLen fuel st = some st' →
      post st'
  | 0, _, _, _, ended => by cases ended
  | fuel + 1, st, st', holds, ended => by
      unfold recvLoop recvLoopWith at ended
      split at ended
      · rename_i more
        have promise := pass st holds more
        split at ended <;> rename_i step
        · rw [step] at promise
          cases ended
          exact promise
        · rw [step] at promise
          exact recvLoop_hoare totalLen inv post pass stop fuel _ _ promise ended
      · cases ended
        exact stop st holds (Nat.not_lt.mp ‹_›)

theorem stepHolds_self {inv : RecvState → Prop} (step : ForInStep RecvState) :
    StepHolds inv inv step ↔ inv step.value := by
  cases step <;> rfl

end Step

/-! ## Where `cur` and `avail` end up -/

section Cursor

variable (nf : NsFlags) (na : NetmapAdapter) (m : Msghdr) (totalLen : Nat)

/-- `netmap_socket_recvmsg` always returns: its loop ends within the bound it is given. -/
theorem netmapSocketRecvmsg_isSome : ∃ r, netmapSocketRecvmsg nf na m totalLen = some r := by
  unfold netmapSocketRecvmsg
  dsimp only
  split
  · exact ⟨_, rfl⟩
  · obtain ⟨st, ended⟩ := @recvLoop_isSome nf na.rxRing na.buffers m totalLen
      (na.rxRing.avail + m.msgIovlen + 1) (recvInit nf na.rxRing m)
      (by simp [recvMeasure, recvInit])
    rw [ended]
    exact ⟨_, rfl⟩

/-- The rule for a whole call: a loop invariant that every pass keeps or turns into `post`, that
gives `post` when the loop test fails and holds at the start, gives any property of the result
that `post` gives, provided the `avail == 0` return has it too. -/
theorem netmapSocketRecvmsg_rule (result : RecvResult → Prop) (inv post : RecvState → Prop)
    (pass : ∀ st, inv st → st.copied < totalLen →
      StepHolds inv post (recvStep nf na.rxRing na.buffers m st))
    (stop : ∀ st, inv st → totalLen ≤ st.copied → post st)
    (start : na.rxRing.avail ≠ 0 → inv (recvInit nf na.rxRing m))
    (spurious : na.rxRing.avail = 0 → result ⟨0, na, m, false⟩)
    (publish : ∀ st, post st → result (recvResult na m st)) :
    ∃ r, netmapSocketRecvmsg nf na m totalLen = some r ∧ result r := by
  obtain ⟨r, returned⟩ := netmapSocketRecvmsg_isSome nf na m totalLen
  refine ⟨r, returned, ?_⟩
  unfold netmapSocketRecvmsg at returned
  dsimp only at returned
  split at returned
  · cases returned
    exact spurious ‹_›
  · obtain ⟨st, ended, rfl⟩ := Option.map_eq_some'.mp returned
    exact publish st (recvLoop_hoare totalLen inv post pass stop _ _ _ (start ‹_›) ended)

/-- The loop's slot cursor: once `avail` has dropped by `a`, `i` is `a` slots past `cur`. -/
def RecvCursor (ring : NetmapRing) (st : RecvState) : Prop :=
  st.avail ≤ ring.avail ∧ st.i = ringPos ring.numSlots ring.cur (ring.avail - st.avail)

theorem recvCursor_pass {ring : NetmapRing} {buffers : Nat → Nat → UInt8} {st : RecvState}
    (cursor : RecvCursor ring st) :
    StepHolds (RecvCursor ring) (RecvCursor ring) (recvStep nf ring buffers m st) := by
  rw [stepHolds_self]
  rcases @recvStep_cases nf ring buffers m st with
    ⟨-, -, done⟩ | ⟨-, -, availPos, pass⟩ | ⟨-, pass⟩
  · simpa [done] using cursor
  · simp only [pass, RecvState.nextIov_i, RecvState.nextIov_avail, RecvState.nextSlot_i,
      RecvState.nextSlot_avail, RecvState.copy_i, RecvState.copy_avail, RecvCursor]
    obtain ⟨le, at_i⟩ := cursor
    refine ⟨by omega, ?_⟩
    rw [at_i, ← ringPos_succ, show ring.avail - st.avail + 1 = ring.avail - (st.avail - 1) by omega]
  · simpa [pass, RecvCursor] using cursor

/-- What `netmap_socket_recvmsg` does to the adapter: for some `a ≤ avail`, `cur` moves `a`
slots on and `avail` drops by `a`; nothing else changes. -/
theorem netmapSocketRecvmsg_cursor :
    ∃ r, netmapSocketRecvmsg nf na m totalLen = some r ∧ ∃ a ≤ na.rxRing.avail,
      r.na = { na with rxRing := { na.rxRing with
        cur := ringPos na.rxRing.numSlots na.rxRing.cur a, avail := na.rxRing.avail - a } } := by
  refine netmapSocketRecvmsg_rule nf na m totalLen _ (RecvCursor na.rxRing) (RecvCursor na.rxRing)
    (fun _ cursor _ => recvCursor_pass nf m cursor) (fun _ cursor _ => cursor)
    (fun _ => ⟨Nat.le_refl _, by simp [recvInit]⟩) (fun _ => ⟨0, Nat.zero_le _, rfl⟩)
    fun st cursor => ⟨na.rxRing.avail - st.avail, Nat.sub_le _ _, ?_⟩
  simp only [recvResult, ← cursor.2, Nat.sub_sub_self cursor.1]

/-- Every call of `netmap_socket_recvmsg` keeps the RX ring's cursors in range and moves `cur`
and `avail` only together. -/
theorem netmapSocketRecvmsg_cursorStep (valid : na.rxRing.Valid) :
    ∃ r, netmapSocketRecvmsg nf na m totalLen = some r ∧ na.rxRing.CursorStep r.na.rxRing := by
  obtain ⟨r, returned, a, aLe, changed⟩ := netmapSocketRecvmsg_cursor nf na m totalLen
  refine ⟨r, returned, ?_⟩
  rw [changed]
  exact ⟨rfl, rfl, ringPos_lt valid.cur_lt a, Nat.sub_le _ _,
    ringPos_add_sub_mod valid.cur_lt aLe, valid.len_le⟩

/-- A ring whose slots 0 and 1 each hold a complete one-byte packet, 5 and 6. -/
def twoPacketRing : NetmapAdapter where
  txRing := ⟨2, 4, 0, 0, fun _ => ⟨0, 0, 0⟩⟩
  rxRing := ⟨2, 4, 0, 2, fun p => ⟨p, 1, 0⟩⟩
  buffers := fun b _ => if b = 0 then 5 else 6

/-- The slot a call reads last stays at `cur`: two calls into a one-byte segment both return
packet 5, and packet 6 is never delivered. -/
theorem netmapSocketRecvmsg_rereads_last_slot :
    let m : Msghdr := ⟨fun _ => [0], 1⟩
    ((netmapSocketRecvmsg NsFlags.sample twoPacketRing m 1).map fun r =>
        (r.ret, r.msg.msgIov 0, r.na.rxRing.cur, r.na.rxRing.avail)) = some (1, [5], 0, 2) ∧
      (((netmapSocketRecvmsg NsFlags.sample twoPacketRing m 1).bind fun r =>
        netmapSocketRecvmsg NsFlags.sample r.na m 1).map fun r => (r.ret, r.msg.msgIov 0)) =
        some (1, [5]) := by
  decide

/-- A window of one slot, slot 0, whose packet continues (`NS_MOREFRAG`) into slot 1, which
lies outside the window and holds a stale byte 9. -/
def openChainRing : NetmapAdapter where
  txRing := ⟨2, 4, 0, 0, fun _ => ⟨0, 0, 0⟩⟩
  rxRing := ⟨2, 4, 0, 1, fun p => if p = 0 then ⟨0, 1, 0x20#16⟩ else ⟨1, 1, 0⟩⟩
  buffers := fun b _ => if b = 0 then 7 else 9

/-- With `avail == 1` the call still takes slot 1, outside its window, and hands its stale
byte to the caller. -/
theorem netmapSocketRecvmsg_reads_past_window :
    ((netmapSocketRecvmsg NsFlags.sample openChainRing ⟨fun _ => [0, 0], 1⟩ 2).map fun r =>
        (r.ret, r.msg.msgIov 0, r.na.rxRing.cur, r.na.rxRing.avail)) = some (2, [7, 9], 1, 0) ∧
      ¬ openChainRing.rxRing.InWindow 1 := by
  refine ⟨by decide, ?_⟩
  rintro ⟨t, tLt, at1⟩
  simp [openChainRing] at tLt
  simp [tLt, openChainRing] at at1

end Cursor

end Netmap
