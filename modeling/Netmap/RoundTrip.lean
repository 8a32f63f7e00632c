import Netmap.SendmsgLayout
import Netmap.RecvmsgPacket

/-!
# Sending a packet and receiving it back

`netmap_socket_sendmsg` cuts the caller's segments into slots; whatever carries those slots
to a receive ring (a switch port, a pipe, the other end of a loopback) hands them to
`netmap_socket_recvmsg` with the same lengths, flags and bytes. The receive side then gives
the caller back exactly the bytes that were sent, however the segments, the slots and the
destination segments are cut, and wherever the slots sit in either ring.

The proof joins the two sides through their shared helpers: the layout a successful send
publishes (`SendLayout`) is, on the receive side, a packet whose `NS_MOREFRAG` chain ends at
its last chunk (`NetmapRing.PacketEnds`), which the receive loop delivers (`Delivered`).
-/

namespace Netmap

/-- The first `k` slots of the window of ring `dst` present the `k` slots from `start` of ring
`src`: the same flags, and the same bytes (so the same lengths); and `dst` has at least `k`
slots available. -/
structure SlotsPresented (src : NetmapRing) (srcBuffers : Nat → Nat → UInt8) (start : Nat)
    (dst : NetmapRing) (dstBuffers : Nat → Nat → UInt8) (k : Nat) : Prop where
  avail_ge : k ≤ dst.avail
  flags_eq : ∀ t < k, (dst.slot (ringPos dst.numSlots dst.cur t)).flags =
    (src.slot (ringPos src.numSlots start t)).flags
  bytes_eq : ∀ t < k, slotBytes dst dstBuffers (ringPos dst.numSlots dst.cur t) =
    slotBytes src srcBuffers (ringPos src.numSlots start t)

/-- A published chunk list, presented to a receive ring, is a packet there: every slot but
the last carries `NS_MOREFRAG`, and the last lies in the window. -/
theorem SendLayout.packetEnds {nf : NsFlags} {ring : NetmapRing} {buffers : Nat → Nat → UInt8}
    {chunks : List (List UInt8)} {r : SendResult} (layout : SendLayout nf ring buffers chunks r)
    {dst : NetmapRing}
    {dstBuffers : Nat → Nat → UInt8}
    (presented : SlotsPresented r.na.txRing r.na.buffers ring.cur dst dstBuffers chunks.length)
    (nonempty : 0 < chunks.length) :
    dst.PacketEnds nf (chunks.length - 1) := by
  have morefrag (t : Nat) (tLt : t < chunks.length) :
      (dst.slot (ringPos dst.numSlots dst.cur t)).morefrag nf = decide (t + 1 < chunks.length) := by
    rw [NetmapSlot.morefrag, presented.flags_eq t tLt, ← NetmapSlot.morefrag, layout.numSlots_eq,
      layout.morefrag_eq t tLt]
  refine ⟨fun t tLt => ?_, ?_, by have := presented.avail_ge; omega⟩
  · rw [morefrag t (by omega)]
    simp only [decide_eq_true_eq]
    omega
  · rw [morefrag _ (by omega)]
    simp [Nat.sub_add_cancel nonempty]

/-- The presented slots of a published chunk list, read in order, are the chunks put back
together, when the published slots have pairwise distinct buffers. -/
theorem SendLayout.windowBytes_eq {nf : NsFlags} {ring : NetmapRing} {buffers : Nat → Nat → UInt8}
    {chunks : List (List UInt8)} {r : SendResult} (layout : SendLayout nf ring buffers chunks r)
    (distinct : ∀ t < chunks.length, ∀ u < chunks.length,
      (ring.slot (ringPos ring.numSlots ring.cur t)).bufIdx =
        (ring.slot (ringPos ring.numSlots ring.cur u)).bufIdx → t = u)
    {dst : NetmapRing} {dstBuffers : Nat → Nat → UInt8}
    (presented : SlotsPresented r.na.txRing r.na.buffers ring.cur dst dstBuffers chunks.length) :
    windowBytes dst dstBuffers chunks.length = chunks.flatten := by
  rw [windowBytes, ← catBytes_getD]
  refine catBytes_congr fun t tLt => ?_
  rw [presented.bytes_eq t tLt, slotBytes, layout.numSlots_eq, layout.len_eq t tLt,
    layout.buffer_eq distinct t tLt]

/-- **Round trip.** The slots a successful `sendmsg` publishes, presented to `recvmsg` as the
head of an RX window, give back the segments' bytes in order, into any large enough
destination segments. -/
theorem sendmsg_recvmsg_round_trip (nf : NsFlags) (na : NetmapAdapter) (m : Msghdr)
    (totalLen : Nat) (naRx : NetmapAdapter) (d : Msghdr) (recvLen : Nat)
    (bufPos : 0 < na.txRing.nrBufSize) (curLt : na.txRing.cur < na.txRing.numSlots)
    (availLe : na.txRing.avail ≤ na.txRing.numSlots)
    (distinct : ∀ p < na.txRing.numSlots, ∀ q < na.txRing.numSlots,
      (na.txRing.slot p).bufIdx = (na.txRing.slot q).bufIdx → p = q)
    (nonempty : 0 < (m.iovs.map List.length).sum)
    (succeeded : (netmapSocketSendmsg nf na m totalLen).txsyncs ≠ 0)
    (presented : SlotsPresented (netmapSocketSendmsg nf na m totalLen).na.txRing
      (netmapSocketSendmsg nf na m totalLen).na.buffers na.txRing.cur naRx.rxRing naRx.buffers
      (m.iovs.map fun s => fragSlots na.txRing.nrBufSize s.length).sum)
    (segs : 0 < d.msgIovlen) (large : (m.iovs.map List.length).sum ≤ (d.iovs.map List.length).sum)
    (room : (d.iovs.map List.length).sum ≤ recvLen) :
    ∃ r, netmapSocketRecvmsg nf naRx d recvLen = some r ∧
      r.ret = (m.iovs.map List.length).sum ∧ r.msg.iovs.flatten.take r.ret = m.iovs.flatten := by
  rw [← flatMap_sendChunks_length] at presented
  simp only [← List.length_flatten] at nonempty large room ⊢
  set chunks := m.iovs.flatMap (sendChunks na.txRing.nrBufSize)
  have whole : chunks.flatten = m.iovs.flatten := flatMap_sendChunks_flatten bufPos m.iovs
  have chunksPos : 0 < chunks.length :=
    List.length_pos.mpr fun noChunks => by simp [← whole, noChunks] at nonempty
  have layout := netmapSocketSendmsg_sendLayout nf na m totalLen bufPos curLt availLe succeeded
    chunksPos
  have fits : chunks.length ≤ na.txRing.numSlots :=
    (netmapSocketSendmsg_fits_of_succeeded nf na m totalLen bufPos succeeded).2.trans availLe
  have published : ∀ t < chunks.length, ∀ u < chunks.length,
      (na.txRing.slot (ringPos na.txRing.numSlots na.txRing.cur t)).bufIdx =
        (na.txRing.slot (ringPos na.txRing.numSlots na.txRing.cur u)).bufIdx → t = u :=
    fun t tLt u uLt same => ringPos_inj curLt (by omega) (by omega)
      (distinct _ (ringPos_lt curLt t) _ (ringPos_lt curLt u) same)
  obtain ⟨r, returned, delivered⟩ := netmapSocketRecvmsg_delivered nf naRx d recvLen
    (layout.packetEnds presented chunksPos) segs room
  have window : windowBytes naRx.rxRing naRx.buffers (chunks.length - 1 + 1) = m.iovs.flatten := by
    rw [Nat.sub_add_cancel chunksPos, layout.windowBytes_eq published presented, whole]
  have delivered_all : r.ret = m.iovs.flatten.length := by
    rw [delivered.ret_eq, window]
    exact Nat.min_eq_left large
  refine ⟨r, returned, delivered_all, ?_⟩
  rw [delivered.bytes_eq, window, delivered_all, List.take_length, List.take_left' rfl]

/-- A five-byte and a two-byte segment sent from slot 3 of a four-slot ring of three-byte
buffers, so that the three slots wrap to slots 0 and 1, and the same slots presented back as
an RX window: segments of 2, 4 and 3 bytes receive the seven bytes in order. -/
theorem sendmsg_recvmsg_round_trip_wrapping :
    let na : NetmapAdapter := ⟨⟨4, 3, 3, 4, fun p => ⟨p, 0, 0⟩⟩, ⟨4, 3, 0, 0, fun p => ⟨p, 0, 0⟩⟩,
      fun _ _ => 0⟩
    let m : Msghdr := ⟨fun j => if j = 0 then [1, 2, 3, 4, 5] else [6, 7], 2⟩
    let sent := netmapSocketSendmsg NsFlags.sample na m 7
    let naRx : NetmapAdapter :=
      { sent.na with rxRing := { sent.na.txRing with cur := 3, avail := 3 } }
    let d : Msghdr := ⟨fun j => if j = 0 then [0, 0] else if j = 1 then [0, 0, 0, 0] else [0, 0, 0], 3⟩
    (0 < na.txRing.nrBufSize ∧ na.txRing.cur < na.txRing.numSlots ∧
      na.txRing.avail ≤ na.txRing.numSlots ∧
      (∀ p < na.txRing.numSlots, ∀ q < na.txRing.numSlots,
        (na.txRing.slot p).bufIdx = (na.txRing.slot q).bufIdx → p = q) ∧
      0 < (m.iovs.map List.length).sum ∧ sent.txsyncs ≠ 0 ∧
      SlotsPresented sent.na.txRing sent.na.buffers na.txRing.cur naRx.rxRing naRx.buffers
        (m.iovs.map fun s => fragSlots na.txRing.nrBufSize s.length).sum ∧
      0 < d.msgIovlen ∧ (m.iovs.map List.length).sum ≤ (d.iovs.map List.length).sum ∧
      (d.iovs.map List.length).sum ≤ 9) ∧
    ∃ r, netmapSocketRecvmsg NsFlags.sample naRx d 9 = some r ∧
      r.ret = (m.iovs.map List.length).sum ∧ r.msg.iovs.flatten.take r.ret = m.iovs.flatten :=
  ⟨⟨by decide, by decide, by decide, by decide, by decide, by decide,
      ⟨by decide, by decide, by decide⟩, by decide, by decide, by decide⟩,
    sendmsg_recvmsg_round_trip NsFlags.sample
      ⟨⟨4, 3, 3, 4, fun p => ⟨p, 0, 0⟩⟩, ⟨4, 3, 0, 0, fun p => ⟨p, 0, 0⟩⟩, fun _ _ => 0⟩ _ 7 _ _ 9
      (by decide) (by decide) (by decide)
      (by decide) (by decide) (by decide) ⟨by decide, by decide, by decide⟩ (by decide)
      (by decide) (by decide)⟩

end Netmap
