import Netmap.Recvmsg

/-!
# The packet `netmap_socket_recvmsg` copies

When the `NS_MOREFRAG` chain from `cur` ends inside the window, the copy loop hands the caller
the packet's bytes in order: it returns `min(P, sum |D|)` for a packet of `P` bytes and
segments `D`, the first that many bytes of the segments, read in order, are the packet's
first bytes, and every other byte of the segments is as it was.

One invariant is carried through the loop (`RecvProgress`): how many slots have been taken,
where the two cursors stand in the packet and in the segments, and what the segments hold so
far. Each half of the loop body keeps it, and each of the three ways out of the loop turns it
into the result (`RecvDone`).
-/

namespace Netmap

/-- The bytes of `n` consecutive pieces, in order. -/
def catBytes (piece : Nat → List UInt8) (n : Nat) : List UInt8 :=
  ((List.range n).map piece).flatten

/-- The bytes slot `p` offers: the first `len` bytes of its buffer. -/
def slotBytes (ring : NetmapRing) (buffers : Nat → Nat → UInt8) (p : Nat) : List UInt8 :=
  readBuf (buffers (ring.slot p).bufIdx) 0 (ring.slot p).len

/-- The bytes of the first `n` slots of the window, in ring order from `cur`. -/
def windowBytes (ring : NetmapRing) (buffers : Nat → Nat → UInt8) (n : Nat) : List UInt8 :=
  catBytes (fun t => slotBytes ring buffers (ringPos ring.numSlots ring.cur t)) n

/-! ## Concatenated pieces -/

section Pieces

variable {piece : Nat → List UInt8}

@[simp] theorem catBytes_zero : catBytes piece 0 = [] := rfl

theorem catBytes_succ (n : Nat) : catBytes piece (n + 1) = catBytes piece n ++ piece n := by
  simp [catBytes, List.range_succ]

theorem catBytes_isPrefix_of_le {a n : Nat} (le : a ≤ n) : catBytes piece a <+: catBytes piece n := by
  induction n, le using Nat.le_induction with
  | base => exact List.prefix_refl _
  | succ n _ ih => exact ih.trans (catBytes_succ n ▸ List.prefix_append _ _)

theorem catBytes_length_succ_le {j n : Nat} (lt : j < n) :
    (catBytes piece j).length + (piece j).length ≤ (catBytes piece n).length := by
  simpa [catBytes_succ] using (@catBytes_isPrefix_of_le piece _ _ lt).length_le

theorem catBytes_length_congr {piece' : Nat → List UInt8}
    (sameLength : ∀ j, (piece j).length = (piece' j).length) (n : Nat) :
    (catBytes piece n).length = (catBytes piece' n).length := by
  simp [catBytes, List.length_flatten, List.map_map, Function.comp_def, sameLength]

theorem catBytes_congr {piece' : Nat → List UInt8} {n : Nat}
    (same : ∀ t < n, piece t = piece' t) : catBytes piece n = catBytes piece' n :=
  congrArg List.flatten <| List.map_congr_left fun t mem => same t (List.mem_range.mp mem)

/-- A list of pieces, read by index, concatenates to its `flatten`. -/
theorem catBytes_getD (pieces : List (List UInt8)) :
    catBytes (fun t => pieces.getD t []) pieces.length = pieces.flatten := by
  unfold catBytes
  congr 1
  apply List.ext_getElem (by simp)
  intro t tLt _
  simp [List.getD_eq_getElem?_getD, List.getElem?_eq_getElem (by simpa using tLt)]

theorem Msghdr.iovs_flatten (m : Msghdr) : m.iovs.flatten = catBytes m.msgIov m.msgIovlen := rfl

theorem catBytes_update_of_le {j n : Nat} (le : n ≤ j) (x : List UInt8) :
    catBytes (Function.update piece j x) n = catBytes piece n :=
  congrArg List.flatten <| List.map_congr_left fun _ mem =>
    Function.update_noteq (Nat.ne_of_lt (Nat.lt_of_lt_of_le (List.mem_range.mp mem) le)) _ _

/-- Writing `src` into piece `j` at `ofs` writes it into the concatenation at the offset of
piece `j` plus `ofs`. -/
theorem catBytes_copyToUser {j n ofs : Nat} {src : List UInt8} (jLt : j < n)
    (fits : ofs + src.length ≤ (piece j).length) :
    catBytes (Function.update piece j (copyToUser (piece j) ofs src)) n =
      (catBytes piece n).take ((catBytes piece j).length + ofs) ++ src ++
        (catBytes piece n).drop ((catBytes piece j).length + ofs + src.length) := by
  induction n with
  | zero => exact absurd jLt (Nat.not_lt_zero _)
  | succ n ih =>
    rw [catBytes_succ, catBytes_succ]
    rcases Nat.lt_succ_iff_lt_or_eq.mp jLt with before | rfl
    · have within := @catBytes_length_succ_le piece _ _ before
      rw [ih before, Function.update_noteq (Nat.ne_of_gt before),
        List.take_append_of_le_length (by omega), List.drop_append_of_le_length (by omega),
        List.append_assoc _ _ (piece n)]
    · rw [Function.update_same, catBytes_update_of_le (Nat.le_refl _), copyToUser,
        List.take_append, Nat.add_assoc, List.drop_append]
      simp only [List.append_assoc]

end Pieces

/-- Bytes `c ... c + s - 1` of `l` can be read in any prefix of `l` that holds them. -/
theorem drop_take_of_isPrefix_of_le {p l : List UInt8} (pre : p <+: l) {c s : Nat}
    (fits : c + s ≤ p.length) : (l.drop c).take s = (p.drop c).take s := by
  obtain ⟨rest, rfl⟩ := pre
  rw [List.drop_append_of_le_length (by omega), List.take_append_of_le_length (by simp; omega)]

/-- The segments as a copy of `c` bytes of the packet leaves them, advanced by `s` more. -/
theorem take_append_drop_advance (packet dest : List UInt8) {c : Nat} (cLe : c ≤ packet.length)
    (s : Nat) :
    (packet.take c ++ dest.drop c).take c ++ (packet.drop c).take s ++
        (packet.take c ++ dest.drop c).drop (c + s) =
      packet.take (c + s) ++ dest.drop (c + s) := by
  have taken : (packet.take c).length = c := by simp [cLe]
  rw [List.take_left' taken, List.drop_append_eq_append_drop,
    List.drop_of_length_le (show (packet.take c).length ≤ c + s by omega), taken,
    Nat.add_sub_cancel_left, List.drop_drop, List.nil_append, List.take_add]

/-! ## The window's bytes -/

section Window

variable {ring : NetmapRing} {buffers : Nat → Nat → UInt8}

theorem windowBytes_succ (n : Nat) :
    windowBytes ring buffers (n + 1) =
      windowBytes ring buffers n ++ slotBytes ring buffers (ringPos ring.numSlots ring.cur n) :=
  catBytes_succ n

theorem windowBytes_isPrefix_of_le {a n : Nat} (le : a ≤ n) :
    windowBytes ring buffers a <+: windowBytes ring buffers n :=
  catBytes_isPrefix_of_le le

theorem windowBytes_length_succ_le {a n : Nat} (lt : a < n) :
    (windowBytes ring buffers a).length + (ring.slot (ringPos ring.numSlots ring.cur a)).len ≤
      (windowBytes ring buffers n).length := by
  simpa [windowBytes_succ, slotBytes] using (windowBytes_isPrefix_of_le lt).length_le

/-- The window's first `n` slots hold the sum of their lengths in bytes. -/
theorem windowBytes_length (n : Nat) :
    (windowBytes ring buffers n).length =
      ((List.range n).map fun t => (ring.slot (ringPos ring.numSlots ring.cur t)).len).sum := by
  simp [windowBytes, catBytes, slotBytes, List.length_flatten, List.map_map, Function.comp_def]

/-- Reading slot `a` from `ofs` is reading the window's bytes from the offset of slot `a`
plus `ofs`. -/
theorem windowBytes_read {a n ofs s : Nat} (aLt : a < n)
    (fits : ofs + s ≤ (ring.slot (ringPos ring.numSlots ring.cur a)).len) :
    ((windowBytes ring buffers n).drop ((windowBytes ring buffers a).length + ofs)).take s =
      readBuf (buffers (ring.slot (ringPos ring.numSlots ring.cur a)).bufIdx) ofs s := by
  rw [drop_take_of_isPrefix_of_le (windowBytes_isPrefix_of_le aLt) (by simp [windowBytes_succ, slotBytes]; omega),
    windowBytes_succ, List.drop_append, slotBytes, readBuf_drop_take _ fits]

end Window

/-- The packet at `cur` ends inside the window: slots `cur ... cur + last - 1` carry
`NS_MOREFRAG`, slot `cur + last` does not, and `last < avail`. -/
structure NetmapRing.PacketEnds (nf : NsFlags) (ring : NetmapRing) (last : Nat) : Prop where
  morefrag_of_lt : ∀ t < last, (ring.slot (ringPos ring.numSlots ring.cur t)).morefrag nf = true
  last_not_morefrag : (ring.slot (ringPos ring.numSlots ring.cur last)).morefrag nf = false
  last_lt : last < ring.avail

theorem NetmapRing.PacketEnds.morefrag_eq {nf : NsFlags} {ring : NetmapRing} {last : Nat}
    (packet : ring.PacketEnds nf last) {t : Nat} (tLe : t ≤ last) :
    (ring.slot (ringPos ring.numSlots ring.cur t)).morefrag nf = decide (t < last) := by
  rcases Nat.lt_or_eq_of_le tLe with before | rfl
  · simp [packet.morefrag_of_lt t before, before]
  · simp [packet.last_not_morefrag]

/-! ## The segment cursor -/

section Segments

variable (m : Msghdr)

/-- Where the loop stands in the caller's segments, whatever the ring holds: segment `j` is
one of the `iovcnt`, and its bytes before `iov_frag_ofs` and every earlier segment's are the
`copied` bytes so far; no segment has changed length and none past `iovcnt` has changed. -/
structure IovProgress (st : RecvState) : Prop where
  j_lt : st.j < m.msgIovlen
  iov_eq : st.iovFragOfs + st.iovFragSize = (m.msgIov st.j).length
  copied_eq : st.copied = (catBytes m.msgIov st.j).length + st.iovFragOfs
  length_eq : ∀ j, (st.user j).length = (m.msgIov j).length
  user_eq_of_ge : ∀ j, m.msgIovlen ≤ j → st.user j = m.msgIov j

/-- What the loop leaves in the segments, whatever the ring holds: no more bytes copied than
the segments hold, no segment of another length, and none past `iovcnt` changed. -/
structure IovDone (st : RecvState) : Prop where
  copied_le : st.copied ≤ (catBytes m.msgIov m.msgIovlen).length
  length_eq : ∀ j, (st.user j).length = (m.msgIov j).length
  user_eq_of_ge : ∀ j, m.msgIovlen ≤ j → st.user j = m.msgIov j

variable {m}

theorem iovProgress_init (nf : NsFlags) (ring : NetmapRing) (segs : 0 < m.msgIovlen) :
    IovProgress m (recvInit nf ring m) :=
  ⟨segs, Nat.zero_add _, rfl, fun _ => rfl, fun _ _ => rfl⟩

namespace IovProgress

variable {st : RecvState}

/-- The segment cursor stays inside the segments. -/
theorem copied_add_le (progress : IovProgress m st) :
    st.copied + st.iovFragSize ≤ (catBytes m.msgIov m.msgIovlen).length := by
  have within := @catBytes_length_succ_le m.msgIov _ _ progress.j_lt
  have := progress.iov_eq
  rw [progress.copied_eq]
  omega

theorem done (progress : IovProgress m st) : IovDone m st :=
  ⟨by have := progress.copied_add_le; omega, progress.length_eq, progress.user_eq_of_ge⟩

/-- The copy at the top of the loop body writes inside segment `j`. -/
theorem copy_fits {ring : NetmapRing} {buffers : Nat → Nat → UInt8}
    (progress : IovProgress m st) :
    st.iovFragOfs + (readBuf (buffers (ring.slot st.i).bufIdx) st.nmFragOfs
      (min st.nmFragSize st.iovFragSize)).length ≤ (st.user st.j).length := by
  rw [readBuf_length, progress.length_eq]
  have := progress.iov_eq
  omega

theorem copy (ring : NetmapRing) (buffers : Nat → Nat → UInt8) (progress : IovProgress m st) :
    IovProgress m (st.copy ring buffers) := by
  have iov := progress.iov_eq
  refine ⟨progress.j_lt, ?_, ?_, fun j => ?_, fun j after => ?_⟩
  · simp only [RecvState.copy]
    omega
  · simp only [RecvState.copy, progress.copied_eq]
    omega
  · by_cases here : j = st.j
    · subst here
      simp only [RecvState.copy, Function.update_same]
      rw [copyToUser_length progress.copy_fits, progress.length_eq]
    · simp only [RecvState.copy, Function.update_noteq here, progress.length_eq]
  · simp only [RecvState.copy,
      Function.update_noteq (Nat.ne_of_gt (Nat.lt_of_lt_of_le progress.j_lt after)),
      progress.user_eq_of_ge j after]

theorem nextSlot (nf : NsFlags) (ring : NetmapRing) (progress : IovProgress m st) :
    IovProgress m (st.nextSlot nf ring) :=
  ⟨progress.j_lt, progress.iov_eq, progress.copied_eq, progress.length_eq, progress.user_eq_of_ge⟩

/-- Taking the next segment once segment `j` is full. -/
theorem next (progress : IovProgress m st) (full : st.iovFragSize = 0)
    (within : st.j + 1 < m.msgIovlen) :
    IovProgress m
      { st with j := st.j + 1, iovFragOfs := 0, iovFragSize := (m.msgIov (st.j + 1)).length } := by
  have := progress.iov_eq
  refine ⟨within, Nat.zero_add _, ?_, progress.length_eq, progress.user_eq_of_ge⟩
  simp only [catBytes_succ, List.length_append, progress.copied_eq]
  omega

/-- With the last segment full, every byte the segments hold has been copied. -/
theorem copied_eq_of_last (progress : IovProgress m st) (full : st.iovFragSize = 0)
    (lastSeg : m.msgIovlen ≤ st.j + 1) :
    st.copied = (catBytes m.msgIov m.msgIovlen).length := by
  have := progress.iov_eq
  rw [show m.msgIovlen = st.j + 1 by have := progress.j_lt; omega, catBytes_succ,
    List.length_append, progress.copied_eq]
  omega

theorem nextIov (progress : IovProgress m st) :
    StepHolds (IovProgress m) (IovDone m) (st.nextIov m) := by
  rcases @RecvState.nextIov_cases m st with ⟨-, -, done⟩ | ⟨full, within, next⟩ | ⟨-, same⟩
  · rw [done]
    exact ⟨progress.done.copied_le, progress.length_eq, progress.user_eq_of_ge⟩
  · rw [next]
    exact progress.next full within
  · rw [same]
    exact progress

theorem pass {nf : NsFlags} {ring : NetmapRing} {buffers : Nat → Nat → UInt8}
    (progress : IovProgress m st) :
    StepHolds (IovProgress m) (IovDone m) (recvStep nf ring buffers m st) := by
  have copied := progress.copy ring buffers
  rcases @recvStep_cases nf ring buffers m st with ⟨-, -, done⟩ | ⟨-, -, -, taken⟩ | ⟨-, stay⟩
  · rw [done]
    exact copied.done
  · rw [taken]
    exact (copied.nextSlot nf ring).nextIov
  · rw [stay]
    exact copied.nextIov

end IovProgress

end Segments

/-! ## The packet invariant -/

section Invariant

variable (nf : NsFlags) (ring : NetmapRing) (buffers : Nat → Nat → UInt8) (m : Msghdr)
  (last : Nat)

/-- The loop has taken `a` slots of the packet past `cur`: the bytes it has read from them
are the `copied` bytes, and the segments hold those bytes followed by their own. -/
structure RecvProgress (a : Nat) (st : RecvState) : Prop where
  iov : IovProgress m st
  a_le : a ≤ last
  i_eq : st.i = ringPos ring.numSlots ring.cur a
  avail_eq : st.avail = ring.avail - a
  avail_pos : 0 < st.avail
  morefrag_eq : st.morefrag = decide (a < last)
  slot_eq : st.nmFragOfs + st.nmFragSize = (ring.slot st.i).len
  copied_slot : st.copied = (windowBytes ring buffers a).length + st.nmFragOfs
  bytes_eq : catBytes st.user m.msgIovlen =
    (windowBytes ring buffers (last + 1)).take st.copied ++
      (catBytes m.msgIov m.msgIovlen).drop st.copied

/-- What the loop leaves: as many bytes copied as the packet or the segments hold, whichever
is less, and the segments holding the packet's first `copied` bytes, the rest unchanged. -/
structure RecvDone (st : RecvState) : Prop where
  iov : IovDone m st
  avail_pos : 0 < st.avail
  copied_eq : st.copied =
    min (windowBytes ring buffers (last + 1)).length (catBytes m.msgIov m.msgIovlen).length
  bytes_eq : catBytes st.user m.msgIovlen =
    (windowBytes ring buffers (last + 1)).take st.copied ++
      (catBytes m.msgIov m.msgIovlen).drop st.copied

variable {nf ring buffers m last}

/-- The loop starts in the packet's first slot and the first segment. -/
theorem recvProgress_init (packet : ring.PacketEnds nf last) (segs : 0 < m.msgIovlen) :
    RecvProgress ring buffers m last 0 (recvInit nf ring m) where
  iov := iovProgress_init nf ring segs
  a_le := Nat.zero_le _
  i_eq := rfl
  avail_eq := rfl
  avail_pos := Nat.lt_of_le_of_lt (Nat.zero_le _) packet.last_lt
  morefrag_eq := packet.morefrag_eq (Nat.zero_le _)
  slot_eq := Nat.zero_add _
  copied_slot := rfl
  bytes_eq := by simp [recvInit]

namespace RecvProgress

variable {a : Nat} {st : RecvState}

/-- The slot cursor stays inside the packet. -/
theorem copied_add_le_packet (progress : RecvProgress ring buffers m last a st) :
    st.copied + st.nmFragSize ≤ (windowBytes ring buffers (last + 1)).length := by
  have within := @windowBytes_length_succ_le ring buffers _ _ (Nat.lt_add_one_iff.mpr progress.a_le)
  have slot := progress.slot_eq
  rw [progress.i_eq] at slot
  rw [progress.copied_slot]
  omega

/-- Once slot `i` is used up, the bytes copied are those of the slots up to it. -/
theorem copied_eq_of_used (progress : RecvProgress ring buffers m last a st)
    (used : st.nmFragSize = 0) : st.copied = (windowBytes ring buffers (a + 1)).length := by
  have slot := progress.slot_eq
  rw [progress.i_eq] at slot
  simp only [windowBytes_succ, List.length_append, slotBytes, readBuf_length,
    progress.copied_slot]
  omega

/-- The loop breaks only in the packet's last slot: every slot before it carries
`NS_MOREFRAG`, and `avail` stays positive inside the packet. -/
theorem eq_last_of_ended (progress : RecvProgress ring buffers m last a st)
    (ended : st.morefrag = false ∨ st.avail = 0) : a = last := by
  rcases ended with notMore | availZero
  · have := progress.a_le
    simp only [progress.morefrag_eq, decide_eq_false_iff_not, Nat.not_lt] at notMore
    omega
  · exact absurd availZero (Nat.pos_iff_ne_zero.mp progress.avail_pos)

/-- Once the copy has reached the packet's end or the segments' end, the loop may stop. -/
theorem done (progress : RecvProgress ring buffers m last a st)
    (reached : st.copied = (windowBytes ring buffers (last + 1)).length ∨
      st.copied = (catBytes m.msgIov m.msgIovlen).length) :
    RecvDone ring buffers m last st where
  iov := progress.iov.done
  avail_pos := progress.avail_pos
  copied_eq := by
    have := progress.copied_add_le_packet
    have := progress.iov.copied_add_le
    omega
  bytes_eq := progress.bytes_eq

/-- The copy at the top of the loop body moves both cursors by the bytes it copies, and those
bytes are the packet's next ones. -/
theorem copy (progress : RecvProgress ring buffers m last a st) :
    RecvProgress ring buffers m last a (st.copy ring buffers) := by
  have packetRoom := progress.copied_add_le_packet
  have slot := progress.slot_eq
  refine ⟨progress.iov.copy ring buffers, progress.a_le, progress.i_eq, progress.avail_eq,
    progress.avail_pos, progress.morefrag_eq, ?_, ?_, ?_⟩
  · simp only [RecvState.copy, RecvState.copy_i] at slot ⊢
    omega
  · simp only [RecvState.copy, progress.copied_slot]
    omega
  · have read := @windowBytes_read ring buffers a (last + 1) st.nmFragOfs
      (min st.nmFragSize st.iovFragSize) (Nat.lt_succ_of_le progress.a_le)
      (by rw [← progress.i_eq]; omega)
    rw [← progress.copied_slot, ← progress.i_eq] at read
    simp only [RecvState.copy]
    rw [catBytes_copyToUser progress.iov.j_lt progress.iov.copy_fits,
      catBytes_length_congr progress.iov.length_eq, ← progress.iov.copied_eq, progress.bytes_eq,
      readBuf_length, ← read, take_append_drop_advance _ _ (by omega)]

/-- Taking the next slot of the packet, once slot `i` is used up and carries `NS_MOREFRAG`. -/
theorem nextSlot (packet : ring.PacketEnds nf last)
    (progress : RecvProgress ring buffers m last a st) (used : st.nmFragSize = 0)
    (more : st.morefrag = true) :
    RecvProgress ring buffers m last (a + 1) (st.nextSlot nf ring) := by
  have before : a < last := by simpa [progress.morefrag_eq] using more
  have slot := progress.slot_eq
  rw [progress.i_eq] at slot
  have inWindow := packet.last_lt
  refine ⟨progress.iov.nextSlot nf ring, before, ?_, ?_, ?_, ?_, Nat.zero_add _, ?_,
    progress.bytes_eq⟩
  · simp [progress.i_eq]
  · simp only [RecvState.nextSlot_avail, progress.avail_eq]
    omega
  · simp only [RecvState.nextSlot_avail, progress.avail_eq]
    omega
  · simp only [RecvState.nextSlot, progress.i_eq, ← ringPos_succ]
    exact packet.morefrag_eq before
  · exact progress.copied_eq_of_used used

/-- The segment half of the loop body keeps the invariant, or ends the loop with every
segment full. -/
theorem nextIov (progress : RecvProgress ring buffers m last a st) :
    StepHolds (fun st => ∃ a, RecvProgress ring buffers m last a st)
      (RecvDone ring buffers m last) (st.nextIov m) := by
  rcases @RecvState.nextIov_cases m st with ⟨full, lastSeg, done⟩ | ⟨full, within, next⟩ |
    ⟨-, same⟩
  · rw [done]
    have done := progress.done (.inr (progress.iov.copied_eq_of_last full lastSeg))
    exact ⟨⟨done.iov.copied_le, done.iov.length_eq, done.iov.user_eq_of_ge⟩, done.avail_pos,
      done.copied_eq, done.bytes_eq⟩
  · rw [next]
    exact ⟨a, progress.iov.next full within, progress.a_le, progress.i_eq, progress.avail_eq,
      progress.avail_pos, progress.morefrag_eq, progress.slot_eq, progress.copied_slot,
      progress.bytes_eq⟩
  · rw [same]
    exact ⟨a, progress⟩

/-- A pass of the loop body keeps the invariant, or ends the loop at the packet's end or with
every segment full. -/
theorem pass (packet : ring.PacketEnds nf last)
    (progress : RecvProgress ring buffers m last a st) :
    StepHolds (fun st => ∃ a, RecvProgress ring buffers m last a st)
      (RecvDone ring buffers m last) (recvStep nf ring buffers m st) := by
  have copied := progress.copy
  rcases @recvStep_cases nf ring buffers m st with ⟨used, ended, done⟩ |
    ⟨used, more, -, taken⟩ | ⟨-, stay⟩
  · rw [done]
    obtain rfl := progress.eq_last_of_ended ended
    exact copied.done (.inl (copied.copied_eq_of_used used))
  · rw [taken]
    exact (copied.nextSlot packet used (by simpa using more)).nextIov
  · rw [stay]
    exact copied.nextIov

end RecvProgress

end Invariant

/-! ## What a call delivers -/

section Delivery

variable (nf : NsFlags) (na : NetmapAdapter) (m : Msghdr) (totalLen : Nat)

/-- Whatever the RX ring holds, a call with `iovcnt ≥ 1` returns at most the segments' total
size, changes no segment's length, and changes no segment past `iovcnt`. -/
theorem netmapSocketRecvmsg_segments (segs : 0 < m.msgIovlen) :
    ∃ r, netmapSocketRecvmsg nf na m totalLen = some r ∧
      r.ret ≤ (m.iovs.map List.length).sum ∧ r.msg.msgIovlen = m.msgIovlen ∧
      (∀ j, (r.msg.msgIov j).length = (m.msgIov j).length) ∧
      (∀ j, m.msgIovlen ≤ j → r.msg.msgIov j = m.msgIov j) := by
  rw [← List.length_flatten, Msghdr.iovs_flatten]
  exact netmapSocketRecvmsg_rule nf na m totalLen _ (IovProgress m) (IovDone m)
    (fun _ progress _ => progress.pass) (fun _ progress _ => progress.done)
    (fun _ => iovProgress_init nf na.rxRing segs)
    (fun _ => ⟨Nat.zero_le _, rfl, fun _ => rfl, fun _ _ => rfl⟩)
    fun _ done => ⟨done.copied_le, rfl, done.length_eq, done.user_eq_of_ge⟩

/-- Even on the ring where the call reads past its window, the one segment keeps its length. -/
theorem netmapSocketRecvmsg_segments_open_chain :
    0 < Msghdr.msgIovlen ⟨fun _ => [0, 0], 1⟩ ∧
      ∃ r, netmapSocketRecvmsg NsFlags.sample openChainRing ⟨fun _ => [0, 0], 1⟩ 2 = some r ∧
        r.ret ≤ ((Msghdr.iovs ⟨fun _ => [0, 0], 1⟩).map List.length).sum ∧
        r.msg.msgIovlen = Msghdr.msgIovlen ⟨fun _ => [0, 0], 1⟩ ∧
        (∀ j, (r.msg.msgIov j).length = (Msghdr.msgIov ⟨fun _ => [0, 0], 1⟩ j).length) ∧
        (∀ j, Msghdr.msgIovlen ⟨fun _ => [0, 0], 1⟩ ≤ j →
          r.msg.msgIov j = Msghdr.msgIov ⟨fun _ => [0, 0], 1⟩ j) :=
  ⟨by decide, netmapSocketRecvmsg_segments NsFlags.sample openChainRing _ 2 (by decide)⟩

/-- What copying the packet of slots `cur ... cur + last` into the segments of `m` leaves:
the smaller of the two sizes returned, the packet's first that many bytes at the head of the
segments, their lengths kept, and no "ran out of slots". -/
structure Delivered (ring : NetmapRing) (buffers : Nat → Nat → UInt8) (m : Msghdr) (last : Nat)
    (r : RecvResult) : Prop where
  ret_eq : r.ret = min (windowBytes ring buffers (last + 1)).length m.iovs.flatten.length
  msgIovlen_eq : r.msg.msgIovlen = m.msgIovlen
  bytes_eq : r.msg.iovs.flatten =
    (windowBytes ring buffers (last + 1)).take r.ret ++ m.iovs.flatten.drop r.ret
  length_eq : ∀ j, (r.msg.msgIov j).length = (m.msgIov j).length
  msgIov_eq_of_ge : ∀ j, m.msgIovlen ≤ j → r.msg.msgIov j = m.msgIov j
  outOfSlots_eq : r.outOfSlots = false

/-- When the `NS_MOREFRAG` chain from `cur` ends at slot `cur + last`, inside the window, and
`total_len` covers the segments, `netmap_socket_recvmsg` delivers that packet. -/
theorem netmapSocketRecvmsg_delivered {last : Nat} (packet : na.rxRing.PacketEnds nf last)
    (segs : 0 < m.msgIovlen) (room : m.iovs.flatten.length ≤ totalLen) :
    ∃ r, netmapSocketRecvmsg nf na m totalLen = some r ∧
      Delivered na.rxRing na.buffers m last r := by
  rw [Msghdr.iovs_flatten] at room
  exact netmapSocketRecvmsg_rule nf na m totalLen _
    (fun st => ∃ a, RecvProgress na.rxRing na.buffers m last a st)
    (RecvDone na.rxRing na.buffers m last)
    (fun _ ⟨_, progress⟩ _ => progress.pass packet)
    (fun _ ⟨_, progress⟩ stopped => progress.done (.inr (by
      have := progress.iov.copied_add_le
      omega)))
    (fun _ => ⟨0, recvProgress_init packet segs⟩)
    (fun empty => absurd empty (by have := packet.last_lt; omega))
    fun _ done => ⟨done.copied_eq, rfl, done.bytes_eq, done.iov.length_eq,
      done.iov.user_eq_of_ge, by simp [recvResult, Nat.pos_iff_ne_zero.mp done.avail_pos]⟩

/-- A packet whose `NS_MOREFRAG` chain ends inside the window, received with `total_len`
covering the segments, is copied into them: `min(P, sum |D|)` bytes, in order, with the
segments' lengths kept. -/
theorem netmapSocketRecvmsg_copies_packet {last : Nat} (packet : na.rxRing.PacketEnds nf last)
    (segs : 0 < m.msgIovlen) (room : (m.iovs.map List.length).sum ≤ totalLen) :
    ∃ r, netmapSocketRecvmsg nf na m totalLen = some r ∧
      r.ret = min ((List.range (last + 1)).map fun t =>
          (na.rxRing.slot (ringPos na.rxRing.numSlots na.rxRing.cur t)).len).sum
        (m.iovs.map List.length).sum ∧
      r.msg.msgIovlen = m.msgIovlen ∧
      r.msg.iovs.flatten =
        (windowBytes na.rxRing na.buffers (last + 1)).take r.ret ++ m.iovs.flatten.drop r.ret ∧
      (∀ j, (r.msg.msgIov j).length = (m.msgIov j).length) ∧
      (∀ j, m.msgIovlen ≤ j → r.msg.msgIov j = m.msgIov j) := by
  rw [← List.length_flatten] at room ⊢
  obtain ⟨r, returned, delivered⟩ := netmapSocketRecvmsg_delivered nf na m totalLen packet segs room
  exact ⟨r, returned, by rw [delivered.ret_eq, windowBytes_length], delivered.msgIovlen_eq,
    delivered.bytes_eq, delivered.length_eq, delivered.msgIov_eq_of_ge⟩

/-- A packet of three slots from slot 2, wrapping to slots 0 and 1, with an empty slot in the
middle, into segments of 3, 0 and 3 bytes: all 5 bytes are delivered. -/
theorem netmapSocketRecvmsg_copies_packet_wrapping :
    let na : NetmapAdapter := ⟨⟨3, 4, 0, 0, fun _ => ⟨0, 0, 0⟩⟩,
      ⟨3, 4, 2, 3, fun p => if p = 1 then ⟨1, 3, 0⟩ else ⟨p, 2 - p, 0x20#16⟩⟩,
      fun b k => UInt8.ofNat (10 * b + k)⟩
    let m : Msghdr := ⟨fun j => if j = 1 then [] else [0, 0, 0], 3⟩
    na.rxRing.PacketEnds NsFlags.sample 2 ∧ 0 < m.msgIovlen ∧
      (m.iovs.map List.length).sum ≤ 6 ∧
      ∃ r, netmapSocketRecvmsg NsFlags.sample na m 6 = some r ∧
        r.ret = min ((List.range (2 + 1)).map fun t =>
            (na.rxRing.slot (ringPos na.rxRing.numSlots na.rxRing.cur t)).len).sum
          (m.iovs.map List.length).sum ∧
        r.msg.msgIovlen = m.msgIovlen ∧
        r.msg.iovs.flatten =
          (windowBytes na.rxRing na.buffers (2 + 1)).take r.ret ++ m.iovs.flatten.drop r.ret ∧
        (∀ j, (r.msg.msgIov j).length = (m.msgIov j).length) ∧
        (∀ j, m.msgIovlen ≤ j → r.msg.msgIov j = m.msgIov j) :=
  have packet : NetmapRing.PacketEnds NsFlags.sample
      ⟨3, 4, 2, 3, fun p => if p = 1 then ⟨1, 3, 0⟩ else ⟨p, 2 - p, 0x20#16⟩⟩ 2 :=
    ⟨by decide, by decide, by decide⟩
  ⟨packet, by decide, by decide,
    netmapSocketRecvmsg_copies_packet _ _ _ 6 packet (by decide) (by decide)⟩

/-- When the packet at `cur` ends inside the window but the segments hold fewer bytes, the call
fills the segments and returns their size, and it does not raise its only report, "ran out of
slots with a pending incomplete packet": that the packet was cut short is not signalled. -/
theorem netmapSocketRecvmsg_short_destination_unreported {last : Nat}
    (packet : na.rxRing.PacketEnds nf last) (segs : 0 < m.msgIovlen)
    (room : (m.iovs.map List.length).sum ≤ totalLen)
    (short : (m.iovs.map List.length).sum < ((List.range (last + 1)).map fun t =>
      (na.rxRing.slot (ringPos na.rxRing.numSlots na.rxRing.cur t)).len).sum) :
    ∃ r, netmapSocketRecvmsg nf na m totalLen = some r ∧
      r.ret = (m.iovs.map List.length).sum ∧ r.outOfSlots = false := by
  rw [← List.length_flatten] at room short ⊢
  rw [← @windowBytes_length na.rxRing na.buffers] at short
  obtain ⟨r, returned, delivered⟩ := netmapSocketRecvmsg_delivered nf na m totalLen packet segs room
  exact ⟨r, returned, by rw [delivered.ret_eq]; omega, delivered.outOfSlots_eq⟩

/-- A three-byte packet in one slot into a two-byte segment. -/
theorem netmapSocketRecvmsg_short_destination_unreported_one_slot :
    let na : NetmapAdapter := ⟨⟨2, 4, 0, 0, fun _ => ⟨0, 0, 0⟩⟩, ⟨2, 4, 0, 2, fun p => ⟨p, 3, 0⟩⟩,
      fun _ k => UInt8.ofNat k⟩
    let m : Msghdr := ⟨fun _ => [0, 0], 1⟩
    na.rxRing.PacketEnds NsFlags.sample 0 ∧ 0 < m.msgIovlen ∧ (m.iovs.map List.length).sum ≤ 2 ∧
      (m.iovs.map List.length).sum < ((List.range (0 + 1)).map fun t =>
        (na.rxRing.slot (ringPos na.rxRing.numSlots na.rxRing.cur t)).len).sum ∧
      ∃ r, netmapSocketRecvmsg NsFlags.sample na m 2 = some r ∧
        r.ret = (m.iovs.map List.length).sum ∧ r.outOfSlots = false :=
  have packet : NetmapRing.PacketEnds NsFlags.sample ⟨2, 4, 0, 2, fun p => ⟨p, 3, 0⟩⟩ 0 :=
    ⟨by decide, by decide, by decide⟩
  ⟨packet, by decide, by decide, by decide,
    netmapSocketRecvmsg_short_destination_unreported _ _ _ 2 packet (by decide) (by decide)
      (by decide)⟩

end Delivery

end Netmap
