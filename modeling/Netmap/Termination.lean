import Netmap.SendmsgLayout
import Netmap.Recvmsg

/-!
# The copy loops end

`copyFragWith` and `copyIovWith` follow the two nested loops of `netmap_socket_sendmsg` by
recursion, which hides their passes. Here those loops are also run pass by pass, as the loop
of `netmap_socket_recvmsg` already is. A pass is one run of the inner loop's body, or, once
segment `j` is used up, the outer loop's `j++` and its test. Every pass that goes round again
lowers `avail + (iovcnt - j)`, whatever `nr_buf_size` is. The passes from the start reach,
within that bound, the exit that `copyIov` gives (`sendLoops_eq`). With
`recvStep_measure_lt` on the receive side, both loops end on every ring and every segment
list.
-/

namespace Netmap

/-- The locals of the two loops of `netmap_socket_sendmsg` at the inner loop's test:
segment `j`, of which `offset` bytes are copied and `iov_frag_size` remain, the local
`avail`, and the loop state. -/
structure SendCursor where
  j : Nat
  offset : Nat
  iovFragSize : Nat
  avail : Nat
  st : SendState

/-- What a pass of the loops does: go round again, or leave them, by `return 0` or past the
last segment, with what `copyIov` returns. -/
inductive SendPass where
  | again (c : SendCursor)
  | exit (r : Except SendState (Nat × SendState))

section Passes

variable (nf : NsFlags) (numSlots nmBufSize : Nat) (m : Msghdr)

/-- One pass: with bytes left in segment `j`, the inner loop's body (`return 0`, or fill
slot `i` and `avail--`); with none, the outer loop's `j++`, its test and the next segment. -/
def sendPass (c : SendCursor) : SendPass :=
  if c.iovFragSize = 0 then
    if c.j + 1 < m.msgIovlen then .again ⟨c.j + 1, 0, (m.msgIov (c.j + 1)).length, c.avail, c.st⟩
    else .exit (.ok (c.avail, c.st))
  else if c.avail = 0 then .exit (.error c.st)
  else
    let nmFragSize := min c.iovFragSize nmBufSize
    .again ⟨c.j, c.offset + nmFragSize, c.iovFragSize - nmFragSize, c.avail - 1,
      c.st.fill nf numSlots nmFragSize ((m.msgIov c.j).drop c.offset)⟩

/-- The passes from `c`, at most `fuel` of them; `none` if they run out. -/
def sendLoop : Nat → SendCursor → Option (Except SendState (Nat × SendState))
  | 0, _ => none
  | fuel + 1, c =>
    match sendPass nf numSlots nmBufSize m c with
    | .again c => sendLoop fuel c
    | .exit r => some r

/-- The two loops from their start: the outer loop's first test fails when `iovcnt` is zero;
otherwise the passes start in segment 0. -/
def sendLoops (fuel avail : Nat) (st : SendState) : Option (Except SendState (Nat × SendState)) :=
  if m.msgIovlen = 0 then some (.ok (avail, st))
  else sendLoop nf numSlots nmBufSize m fuel ⟨0, 0, (m.msgIov 0).length, avail, st⟩

/-- How far the loops are from their exit: the slots and segments they may still take. -/
def sendMeasure (c : SendCursor) : Nat :=
  c.avail + (m.msgIovlen - c.j)

/-- The segments from `k` on, in order. -/
def segmentsFrom (k : Nat) : List (List UInt8) :=
  (List.range' k (m.msgIovlen - k)).map m.msgIov

end Passes

section Simulation

variable {nf : NsFlags} {numSlots nmBufSize : Nat} {m : Msghdr}

/-- Everything a pass can do: take the next segment, leave past the last one, `return 0`, or
fill a slot. -/
theorem sendPass_cases (c : SendCursor) :
    c.iovFragSize = 0 ∧ c.j + 1 < m.msgIovlen ∧ sendPass nf numSlots nmBufSize m c =
      .again ⟨c.j + 1, 0, (m.msgIov (c.j + 1)).length, c.avail, c.st⟩ ∨
    c.iovFragSize = 0 ∧ m.msgIovlen ≤ c.j + 1 ∧
      sendPass nf numSlots nmBufSize m c = .exit (.ok (c.avail, c.st)) ∨
    c.iovFragSize ≠ 0 ∧ c.avail = 0 ∧ sendPass nf numSlots nmBufSize m c = .exit (.error c.st) ∨
    c.iovFragSize ≠ 0 ∧ ∃ avail, c.avail = avail + 1 ∧ sendPass nf numSlots nmBufSize m c =
      .again ⟨c.j, c.offset + min c.iovFragSize nmBufSize,
        c.iovFragSize - min c.iovFragSize nmBufSize, avail,
        c.st.fill nf numSlots (min c.iovFragSize nmBufSize) ((m.msgIov c.j).drop c.offset)⟩ := by
  by_cases used : c.iovFragSize = 0
  · by_cases next : c.j + 1 < m.msgIovlen
    · exact .inl ⟨used, next, by simp [sendPass, used, next]⟩
    · exact .inr (.inl ⟨used, Nat.not_lt.mp next, by simp [sendPass, used, next]⟩)
  · cases availEq : c.avail with
    | zero => exact .inr (.inr (.inl ⟨used, rfl, by simp [sendPass, used, availEq]⟩))
    | succ avail =>
      exact .inr (.inr (.inr ⟨used, avail, rfl, by simp [sendPass, used, availEq]⟩))

/-- Every pass that goes round again lowers `avail + (iovcnt - j)`: a filled slot lowers
`avail`, even when `nr_buf_size = 0` leaves `iov_frag_size` as it was, and the next segment
raises `j`. -/
theorem sendPass_measure_lt {c c' : SendCursor}
    (again : sendPass nf numSlots nmBufSize m c = .again c') :
    sendMeasure m c' < sendMeasure m c := by
  rcases @sendPass_cases nf numSlots nmBufSize m c with ⟨-, next, pass⟩ | ⟨-, -, pass⟩ | ⟨-, -, pass⟩ |
    ⟨-, avail, availEq, pass⟩
  · rw [pass] at again
    cases again
    simp only [sendMeasure]
    omega
  · rw [pass] at again
    cases again
  · rw [pass] at again
    cases again
  · rw [pass] at again
    cases again
    simp only [sendMeasure, availEq]
    omega

theorem segmentsFrom_of_lt {k : Nat} (kLt : k < m.msgIovlen) :
    segmentsFrom m k = m.msgIov k :: segmentsFrom m (k + 1) := by
  rw [segmentsFrom, show m.msgIovlen - k = m.msgIovlen - (k + 1) + 1 by omega, List.range'_succ]
  rfl

theorem segmentsFrom_of_le {k : Nat} (le : m.msgIovlen ≤ k) : segmentsFrom m k = [] := by
  simp [segmentsFrom, Nat.sub_eq_zero_of_le le]

/-- The passes from inside segment `j`, given more fuel than the measure, reach the exit of
the rest of the inner loop followed by the outer loop over the segments after `j`. -/
theorem sendLoop_eq :
    ∀ fuel (c : SendCursor), c.j < m.msgIovlen → sendMeasure m c < fuel →
      sendLoop nf numSlots nmBufSize m fuel c =
        some (match copyFragWith (SendState.fill nf numSlots) nmBufSize (m.msgIov c.j) c.offset
            c.iovFragSize c.avail c.st with
          | .error st => .error st
          | .ok (avail, st) => copyIov nf numSlots nmBufSize (segmentsFrom m (c.j + 1)) avail st)
  | 0, _, _, bound => absurd bound (Nat.not_lt_zero _)
  | fuel + 1, ⟨j, offset, iovFragSize, avail, st⟩, jLt, bound => by
    have lower := @sendPass_measure_lt nf numSlots nmBufSize m ⟨j, offset, iovFragSize, avail, st⟩
    rcases @sendPass_cases nf numSlots nmBufSize m ⟨j, offset, iovFragSize, avail, st⟩ with
      ⟨used, next, pass⟩ | ⟨used, last, pass⟩ | ⟨left, full, pass⟩ | ⟨left, avail', availEq, pass⟩
    · -- segment `j` is used up and another follows
      dsimp only at used next pass
      subst used
      simp only [sendLoop, pass]
      rw [sendLoop_eq fuel _ next (Nat.lt_of_lt_of_le (lower pass) (Nat.le_of_lt_succ bound)),
        copyFragWith_of_used, segmentsFrom_of_lt next]
      dsimp only
      rw [copyIov, copyIovWith_cons]
      cases copyFragWith (SendState.fill nf numSlots) nmBufSize (m.msgIov (j + 1)) 0
        (m.msgIov (j + 1)).length avail st <;> rfl
    · -- segment `j` is used up and was the last
      dsimp only at used last pass
      subst used
      rw [sendLoop, pass, copyFragWith_of_used, segmentsFrom_of_le last]
      rfl
    · -- bytes left and no slot: `return 0`
      dsimp only at left full pass
      subst full
      rw [sendLoop, pass, copyFragWith_of_full _ _ left]
    · -- bytes left and a slot: fill it
      dsimp only at left availEq pass
      subst availEq
      simp only [sendLoop, pass]
      rw [sendLoop_eq fuel _ (show j < m.msgIovlen from jLt)
        (Nat.lt_of_lt_of_le (lower pass) (Nat.le_of_lt_succ bound)), copyFragWith_of_pass _ _ left]

/-- The passes from the loops' start, given more fuel than `avail + iovcnt`, reach exactly
the exit of `copyIov` over all segments. -/
theorem sendLoops_eq {fuel : Nat} (avail : Nat) (st : SendState)
    (enough : avail + m.msgIovlen < fuel) :
    sendLoops nf numSlots nmBufSize m fuel avail st =
      some (copyIov nf numSlots nmBufSize m.iovs avail st) := by
  have iovs : m.iovs = segmentsFrom m 0 := by
    rw [Msghdr.iovs, segmentsFrom, List.range_eq_range', Nat.sub_zero]
  unfold sendLoops
  split
  · rename_i none
    rw [iovs, segmentsFrom_of_le (by omega)]
    rfl
  · rename_i some
    rw [sendLoop_eq fuel _ (Nat.pos_of_ne_zero some) (by simp only [sendMeasure]; omega), iovs,
      segmentsFrom_of_lt (Nat.pos_of_ne_zero some)]
    dsimp only
    rw [copyIov, copyIovWith_cons]
    cases copyFragWith (SendState.fill nf numSlots) nmBufSize (m.msgIov 0) 0 (m.msgIov 0).length
      avail st <;> rfl

end Simulation

/-! ## Buffers of size zero -/

section ZeroBufSize

variable {nf : NsFlags} {numSlots : Nat}

/-- With `nr_buf_size = 0` no pass copies a byte, so a segment with bytes left keeps the inner
loop filling slots with nothing until `avail` is used up and it takes `return 0`. -/
theorem copyFrag_of_zero_bufSize (frag : List UInt8) :
    ∀ avail offset iovFragSize (st : SendState), iovFragSize ≠ 0 →
      copyFragWith (SendState.fill nf numSlots) 0 frag offset iovFragSize avail st =
        .error (st.fillAll nf numSlots (List.replicate avail []))
  | 0, _, _, st, left => copyFragWith_of_full _ _ left st
  | avail + 1, offset, iovFragSize, st, left => by
    rw [copyFragWith_of_pass _ _ left]
    simp only [Nat.min_zero, Nat.add_zero, Nat.sub_zero]
    rw [copyFrag_of_zero_bufSize frag avail offset iovFragSize _ left, List.replicate_succ,
      SendState.fillAll_cons, ← SendState.fill_take _ (frag.drop offset) (Nat.le_refl 0)]
    rfl

/-- With `nr_buf_size = 0` the copy loop passes over empty segments and, at the first segment
with a byte, fills every slot left with nothing and takes `return 0`. -/
theorem copyIov_of_zero_bufSize :
    ∀ (iov : List (List UInt8)) avail (st : SendState),
      copyIov nf numSlots 0 iov avail st =
        if ∃ frag ∈ iov, frag ≠ [] then .error (st.fillAll nf numSlots (List.replicate avail []))
        else .ok (avail, st)
  | [], _, _ => by simp [copyIov]
  | frag :: iov, avail, st => by
    rw [copyIov, copyIovWith_cons]
    by_cases empty : frag = []
    · subst empty
      simpa [copyIov] using copyIov_of_zero_bufSize iov avail st
    · rw [copyFrag_of_zero_bufSize frag avail 0 frag.length st (by simpa using empty)]
      simp [empty]

end ZeroBufSize

/-- With `nr_buf_size = 0`, a call fails exactly when it has fewer slots than segments or a
segment has a byte; either way it moves neither `cur` nor `avail`, and a failure in the loop
leaves every slot of the window filled with nothing. -/
theorem netmapSocketSendmsg_zero_bufSize (nf : NsFlags) (na : NetmapAdapter) (m : Msghdr)
    (totalLen : Nat) (zero : na.txRing.nrBufSize = 0) :
    let fails := na.txRing.avail < m.msgIovlen ∨ ∃ j < m.msgIovlen, m.msgIov j ≠ []
    let r := netmapSocketSendmsg nf na m totalLen
    r.ret = (if fails then 0 else totalLen) ∧ r.txsyncs = (if fails then 0 else 1) ∧
      r.na.txRing.cur = na.txRing.cur ∧ r.na.txRing.avail = na.txRing.avail ∧
      (m.msgIovlen ≤ na.txRing.avail → (∃ j < m.msgIovlen, m.msgIov j ≠ []) →
        ∀ t < na.txRing.avail,
          (r.na.txRing.slot (ringPos na.txRing.numSlots na.txRing.cur t)).len = 0) := by
  dsimp only
  by_cases few : na.txRing.avail < m.msgIovlen
  · simp [few, Nat.not_le.mpr few]
  have segments : (∃ frag ∈ m.iovs, frag ≠ []) ↔ ∃ j < m.msgIovlen, m.msgIov j ≠ [] := by
    simp [Msghdr.iovs]
  have loop := @copyIov_of_zero_bufSize nf na.txRing.numSlots m.iovs na.txRing.avail
    (sendInit nf na)
  rw [← zero] at loop
  by_cases some : ∃ j < m.msgIovlen, m.msgIov j ≠ []
  · rw [if_pos (segments.mpr some)] at loop
    rw [netmapSocketSendmsg_of_error nf na m totalLen (Nat.not_lt.mp few) loop]
    simp only [if_pos (Or.inr some), true_and]
    intro _ _ t tLt
    exact SendState.fillAll_len_of_empty _ (fun _ mem => List.eq_of_mem_replicate mem)
      (by simpa using tLt)
  · rw [if_neg (mt segments.mp some)] at loop
    rw [netmapSocketSendmsg_of_ok nf na m totalLen (Nat.not_lt.mp few) loop]
    simp only [if_neg (show ¬ (_ ∨ _) from fun fails => fails.elim few some), true_and]
    exact ⟨rfl, fun _ nonempty => absurd nonempty some⟩

/-- One byte, one free slot, `nr_buf_size = 0`: the call fills the slot with nothing and
returns 0 without publishing it. -/
theorem netmapSocketSendmsg_zero_bufSize_one_byte :
    let na : NetmapAdapter :=
      ⟨⟨2, 0, 0, 1, fun p => ⟨p, 0, 0⟩⟩, ⟨2, 0, 0, 0, fun p => ⟨p, 0, 0⟩⟩, fun _ _ => 0⟩
    let m : Msghdr := ⟨fun _ => [7], 1⟩
    let fails := na.txRing.avail < m.msgIovlen ∨ ∃ j < m.msgIovlen, m.msgIov j ≠ []
    let r := netmapSocketSendmsg NsFlags.sample na m 1
    na.txRing.nrBufSize = 0 ∧
      r.ret = (if fails then 0 else 1) ∧ r.txsyncs = (if fails then 0 else 1) ∧
      r.na.txRing.cur = na.txRing.cur ∧ r.na.txRing.avail = na.txRing.avail ∧
      (m.msgIovlen ≤ na.txRing.avail → (∃ j < m.msgIovlen, m.msgIov j ≠ []) →
        ∀ t < na.txRing.avail,
          (r.na.txRing.slot (ringPos na.txRing.numSlots na.txRing.cur t)).len = 0) :=
  ⟨rfl, netmapSocketSendmsg_zero_bufSize NsFlags.sample _ _ 1 rfl⟩

/-- Both copy loops end on every ring and segment list: every pass that goes round again
lowers `avail + (iovcnt - j)`, `nr_buf_size = 0` included, and both calls return. -/
theorem socket_copy_loops_terminate (nf : NsFlags) (na : NetmapAdapter) (m : Msghdr)
    (totalLen : Nat) :
    (∀ c c' : SendCursor, sendPass nf na.txRing.numSlots na.txRing.nrBufSize m c = .again c' →
      sendMeasure m c' < sendMeasure m c) ∧
    sendLoops nf na.txRing.numSlots na.txRing.nrBufSize m (na.txRing.avail + m.msgIovlen + 1)
        na.txRing.avail (sendInit nf na) =
      some (copyIov nf na.txRing.numSlots na.txRing.nrBufSize m.iovs na.txRing.avail
        (sendInit nf na)) ∧
    (∀ st : RecvState, (st.copy na.rxRing na.buffers).nmFragSize = 0 ∨
      (st.copy na.rxRing na.buffers).iovFragSize = 0) ∧
    (∀ st st' : RecvState, recvStep nf na.rxRing na.buffers m st = .yield st' →
      recvMeasure m st' < recvMeasure m st) ∧
    ∃ r, netmapSocketRecvmsg nf na m totalLen = some r :=
  ⟨fun _ _ again => sendPass_measure_lt again, sendLoops_eq _ _ (Nat.lt_succ_self _),
    RecvState.copy_exhausts, fun _ _ again => recvStep_measure_lt again,
    netmapSocketRecvmsg_isSome nf na m totalLen⟩

end Netmap
