import Netmap.Sendmsg

/-!
# The slot layout of `netmap_socket_sendmsg`

With `nr_buf_size > 0` the copy loop is exactly this: cut every segment into chunks of
`nr_buf_size` bytes, the last one shorter, and give the chunks, in order, one slot each from
`cur` on (`copyIov_eq`). It fails precisely when there are more chunks than `avail`, or more
segments than `avail` (the early check). From the exact loop follow the published layout:
lengths, flags, the bytes of every chunk, and that no other slot changes.
-/

namespace Netmap

/-- How many slots a segment of `len` bytes takes: `ceil(len / nrBufSize)`. -/
def fragSlots (nrBufSize len : Nat) : Nat :=
  (len + nrBufSize - 1) / nrBufSize

/-- The chunks the copy loop cuts a segment into, one slot each: chunk `t` is the bytes from
`t * nrBufSize` on, at most `nrBufSize` of them. -/
def sendChunks (nrBufSize : Nat) (s : List UInt8) : List (List UInt8) :=
  (List.range (fragSlots nrBufSize s.length)).map fun t => (s.drop (t * nrBufSize)).take nrBufSize

/-! ## Chunks -/

section Chunks

variable {nrBufSize : Nat}

@[simp] theorem fragSlots_zero : fragSlots nrBufSize 0 = 0 := by
  unfold fragSlots
  rcases Nat.eq_zero_or_pos nrBufSize with none | some
  · simp [none]
  · exact Nat.div_eq_of_lt (by omega)

theorem fragSlots_succ (bufPos : 0 < nrBufSize) {len : Nat} (nonempty : 0 < len) :
    fragSlots nrBufSize len = fragSlots nrBufSize (len - nrBufSize) + 1 := by
  unfold fragSlots
  rcases Nat.lt_or_ge len nrBufSize with short | long
  · have one : (len + nrBufSize - 1) / nrBufSize = 1 :=
      Nat.div_eq_of_lt_le (by omega) (by simp only [Nat.succ_mul]; omega)
    rw [Nat.sub_eq_zero_of_le short.le, Nat.zero_add, one, Nat.div_eq_of_lt (by omega)]
  · rw [show len + nrBufSize - 1 = len - nrBufSize + nrBufSize - 1 + nrBufSize by omega,
      Nat.add_div_right _ bufPos]

@[simp] theorem sendChunks_length (s : List UInt8) :
    (sendChunks nrBufSize s).length = fragSlots nrBufSize s.length := by
  simp [sendChunks]

@[simp] theorem sendChunks_nil : sendChunks nrBufSize [] = [] := by
  simp [sendChunks]

/-- A nonempty segment starts with one full (or final) chunk. -/
theorem sendChunks_cons (bufPos : 0 < nrBufSize) {s : List UInt8} (nonempty : s ≠ []) :
    sendChunks nrBufSize s = s.take nrBufSize :: sendChunks nrBufSize (s.drop nrBufSize) := by
  have count := fragSlots_succ bufPos (List.length_pos.mpr nonempty)
  simp only [sendChunks, count, List.range_succ_eq_map, List.map_cons, List.map_map,
    List.length_drop, Nat.zero_mul, List.drop_zero, List.cons.injEq, true_and]
  exact List.map_congr_left fun t _ => by simp [Nat.succ_mul, Nat.add_comm]

/-- The chunks put back together are the segment. -/
theorem sendChunks_flatten (bufPos : 0 < nrBufSize) :
    ∀ s : List UInt8, (sendChunks nrBufSize s).flatten = s
  | [] => by simp
  | byte :: rest => by
      rw [sendChunks_cons bufPos (List.cons_ne_nil _ _), List.flatten_cons,
        sendChunks_flatten bufPos ((byte :: rest).drop nrBufSize), List.take_append_drop]
termination_by s => s.length
decreasing_by simp only [List.length_drop, List.length_cons]; omega

/-- The chunks of all segments put back together are the segments' bytes, in order. -/
theorem flatMap_sendChunks_flatten (bufPos : 0 < nrBufSize) (iov : List (List UInt8)) :
    (iov.flatMap (sendChunks nrBufSize)).flatten = iov.flatten := by
  induction iov with
  | nil => rfl
  | cons s iov ih => rw [List.flatMap_cons, List.flatten_append, ih, sendChunks_flatten bufPos]; rfl

end Chunks

/-! ## Filling slots with chunks -/

section Fill

variable (nf : NsFlags) (numSlots : Nat)

/-- Filling slots from `i` on with the chunks `cs` in order, each chunk taking one slot. -/
def SendState.fillAll : SendState → List (List UInt8) → SendState
  | st, [] => st
  | st, c :: cs => (st.fill nf numSlots c.length c).fillAll cs

/-- The copy loop, said in chunks: it fills the chunks it has room for and fails if it runs
out of `avail` before the last one. -/
def fillChunks (cs : List (List UInt8)) (avail : Nat) (st : SendState) :
    Except SendState (Nat × SendState) :=
  if cs.length ≤ avail then .ok (avail - cs.length, st.fillAll nf numSlots cs)
  else .error (st.fillAll nf numSlots (cs.take avail))

variable {nf numSlots}

@[simp] theorem SendState.fillAll_nil (st : SendState) : st.fillAll nf numSlots [] = st := rfl

@[simp] theorem SendState.fillAll_cons (st : SendState) (c : List UInt8) (cs : List (List UInt8)) :
    st.fillAll nf numSlots (c :: cs) = (st.fill nf numSlots c.length c).fillAll nf numSlots cs := rfl

theorem SendState.fillAll_append (st : SendState) (cs cs' : List (List UInt8)) :
    st.fillAll nf numSlots (cs ++ cs') = (st.fillAll nf numSlots cs).fillAll nf numSlots cs' := by
  induction cs generalizing st with
  | nil => rfl
  | cons c cs ih => exact ih _

@[simp] theorem fillChunks_nil (avail : Nat) (st : SendState) :
    fillChunks nf numSlots [] avail st = .ok (avail, st) := by
  simp [fillChunks]

theorem fillChunks_cons_zero (c : List UInt8) (cs : List (List UInt8)) (st : SendState) :
    fillChunks nf numSlots (c :: cs) 0 st = .error st := by
  simp [fillChunks]

theorem fillChunks_cons_succ (c : List UInt8) (cs : List (List UInt8)) (avail : Nat)
    (st : SendState) :
    fillChunks nf numSlots (c :: cs) (avail + 1) st =
      fillChunks nf numSlots cs avail (st.fill nf numSlots c.length c) := by
  simp [fillChunks, Nat.add_le_add_iff_right]

/-- Filling `cs` and then, if that fits, `cs'` is filling `cs ++ cs'`. -/
theorem fillChunks_append (cs cs' : List (List UInt8)) (avail : Nat) (st : SendState) :
    (match fillChunks nf numSlots cs avail st with
      | .error st => .error st
      | .ok (avail, st) => fillChunks nf numSlots cs' avail st) =
      fillChunks nf numSlots (cs ++ cs') avail st := by
  by_cases fits : cs.length ≤ avail
  · by_cases fits' : cs'.length ≤ avail - cs.length
    · simp [fillChunks, fits, fits', SendState.fillAll_append, show
        cs.length + cs'.length ≤ avail by omega, Nat.sub_sub]
    · simp [fillChunks, fits, fits', SendState.fillAll_append, show
        ¬ cs.length + cs'.length ≤ avail by omega, List.take_append_eq_append_take,
        List.take_of_length_le fits]
  · simp [fillChunks, fits, show ¬ cs.length + cs'.length ≤ avail by omega,
      List.take_append_eq_append_take, show avail - cs.length = 0 by omega]

end Fill

/-! ## The copy loops in chunks -/

section Exact

variable {nf : NsFlags} {numSlots nmBufSize : Nat}

theorem copyFromUser_take (dst : Nat → UInt8) (src : List UInt8) {n k : Nat} (le : n ≤ k) :
    copyFromUser dst (src.take k) n = copyFromUser dst src n := by
  funext b
  by_cases below : b < n
  · simp [copyFromUser, below, List.getElem?_take, Nat.lt_of_lt_of_le below le]
  · simp [copyFromUser, below]

theorem SendState.fill_take (st : SendState) (src : List UInt8) {n k : Nat} (le : n ≤ k) :
    st.fill nf numSlots n (src.take k) = st.fill nf numSlots n src := by
  simp only [SendState.fill, copyFromUser_take _ _ le]

/-- With `nr_buf_size > 0` the inner loop fills the chunks of what is left of the segment. -/
theorem copyFrag_eq (bufPos : 0 < nmBufSize) (frag : List UInt8) :
    ∀ (avail offset iovFragSize : Nat) (st : SendState), offset + iovFragSize = frag.length →
      copyFragWith (SendState.fill nf numSlots) nmBufSize frag offset iovFragSize avail st =
        fillChunks nf numSlots (sendChunks nmBufSize (frag.drop offset)) avail st := by
  intro avail
  induction avail with
  | zero =>
      intro offset iovFragSize st rest
      unfold copyFragWith
      split
      · simp [List.drop_eq_nil_of_le (show frag.length ≤ offset by omega)]
      · rw [sendChunks_cons bufPos (by simp; omega), fillChunks_cons_zero]
  | succ avail ih =>
      intro offset iovFragSize st rest
      unfold copyFragWith
      split
      · simp [List.drop_eq_nil_of_le (show frag.length ≤ offset by omega)]
      · rename_i left
        dsimp only
        have chunkLen : ((frag.drop offset).take nmBufSize).length = min iovFragSize nmBufSize := by
          simp only [List.length_take, List.length_drop]
          omega
        have restDrop : frag.drop (offset + min iovFragSize nmBufSize) =
            (frag.drop offset).drop nmBufSize := by
          rw [List.drop_drop]
          rcases Nat.le_total nmBufSize iovFragSize with full | short
          · rw [Nat.min_eq_right full]
          · rw [Nat.min_eq_left short, List.drop_eq_nil_of_le (by omega),
              List.drop_eq_nil_of_le (by omega)]
        rw [sendChunks_cons bufPos (by simp; omega), fillChunks_cons_succ, chunkLen,
          SendState.fill_take _ _ (Nat.min_le_right _ _), ih _ _ _ (by omega), restDrop]

/-- With `nr_buf_size > 0` the whole copy loop fills the chunks of all segments, in order. -/
theorem copyIov_eq (bufPos : 0 < nmBufSize) :
    ∀ (iov : List (List UInt8)) (avail : Nat) (st : SendState),
      copyIov nf numSlots nmBufSize iov avail st =
        fillChunks nf numSlots (iov.flatMap (sendChunks nmBufSize)) avail st
  | [], avail, st => by simp [copyIov]
  | frag :: iov, avail, st => by
      rw [copyIov, copyIovWith_cons, copyFrag_eq bufPos frag avail 0 frag.length st (Nat.zero_add _),
        List.drop_zero, List.flatMap_cons, ← fillChunks_append]
      cases fillChunks nf numSlots (sendChunks nmBufSize frag) avail st with
      | error st => rfl
      | ok result => exact copyIov_eq bufPos iov result.1 result.2

end Exact

/-! ## What filling chunks leaves in the ring -/

section Layout

variable {nf : NsFlags} {numSlots : Nat}

@[simp] theorem SendState.fill_i (st : SendState) (n : Nat) (src : List UInt8) :
    (st.fill nf numSlots n src).i = netmapRingNext numSlots st.i := rfl

@[simp] theorem SendState.fill_last (st : SendState) (n : Nat) (src : List UInt8) :
    (st.fill nf numSlots n src).last = st.i := rfl

@[simp] theorem SendState.fill_slotFlags (st : SendState) (n : Nat) (src : List UInt8) :
    (st.fill nf numSlots n src).slotFlags = st.slotFlags &&& ~~~nf.nsVnetHdr := rfl

theorem SendState.fill_slot (st : SendState) (n : Nat) (src : List UInt8) (p : Nat) :
    (st.fill nf numSlots n src).slot p =
      if p = st.i then { st.slot st.i with len := n, flags := st.slotFlags } else st.slot p := by
  by_cases here : p = st.i
  · subst here
    simp [SendState.fill]
  · simp [SendState.fill, here]

@[simp] theorem SendState.fill_bufIdx (st : SendState) (n : Nat) (src : List UInt8) (p : Nat) :
    ((st.fill nf numSlots n src).slot p).bufIdx = (st.slot p).bufIdx := by
  rw [SendState.fill_slot]
  split <;> simp_all

theorem SendState.fill_buffers_of_ne (st : SendState) (n : Nat) (src : List UInt8) {b : Nat}
    (other : (st.slot st.i).bufIdx ≠ b) :
    (st.fill nf numSlots n src).buffers b = st.buffers b := by
  simp [SendState.fill, Ne.symm other]

private theorem and_not_and_not (x v : BitVec 16) : x &&& ~~~v &&& ~~~v = x &&& ~~~v := by
  rw [BitVec.and_assoc, BitVec.and_self]

theorem SendState.fillAll_i (st : SendState) (cs : List (List UInt8)) :
    (st.fillAll nf numSlots cs).i = ringPos numSlots st.i cs.length := by
  induction cs generalizing st with
  | nil => rfl
  | cons c cs ih =>
      rw [SendState.fillAll_cons, ih, SendState.fill_i, List.length_cons, ringPos_succ']

theorem SendState.fillAll_last (st : SendState) {cs : List (List UInt8)} (nonempty : cs ≠ []) :
    (st.fillAll nf numSlots cs).last = ringPos numSlots st.i (cs.length - 1) := by
  induction cs generalizing st with
  | nil => contradiction
  | cons c cs ih =>
      by_cases rest : cs = []
      · subst rest
        rfl
      · simp [ih _ rest, ← ringPos_succ', Nat.sub_add_cancel (List.length_pos.mpr rest)]

theorem SendState.fillAll_slotFlags (st : SendState) (cs : List (List UInt8)) :
    (st.fillAll nf numSlots cs).slotFlags =
      if cs = [] then st.slotFlags else st.slotFlags &&& ~~~nf.nsVnetHdr := by
  induction cs generalizing st with
  | nil => rfl
  | cons c cs ih =>
      rw [SendState.fillAll_cons, ih]
      cases cs <;> simp [and_not_and_not]

@[simp] theorem SendState.fillAll_bufIdx (st : SendState) (cs : List (List UInt8)) (p : Nat) :
    ((st.fillAll nf numSlots cs).slot p).bufIdx = (st.slot p).bufIdx := by
  induction cs generalizing st with
  | nil => rfl
  | cons c cs ih => simp [ih]

/-- Filling chunks changes no slot other than the ones it steps through. -/
theorem SendState.fillAll_slot_of_ne (st : SendState) (cs : List (List UInt8)) {p : Nat}
    (other : ∀ t < cs.length, ringPos numSlots st.i t ≠ p) :
    (st.fillAll nf numSlots cs).slot p = st.slot p := by
  induction cs generalizing st with
  | nil => rfl
  | cons c cs ih =>
      have notHere : p ≠ st.i := (other 0 (by simp)).symm
      rw [SendState.fillAll_cons, ih, SendState.fill_slot, if_neg notHere]
      intro t tLt
      rw [SendState.fill_i, ← ringPos_succ']
      exact other (t + 1) (by simp; omega)

/-- Filling chunks changes no buffer other than those of the slots it steps through. -/
theorem SendState.fillAll_buffers_of_ne (st : SendState) (cs : List (List UInt8)) {b : Nat}
    (other : ∀ t < cs.length, (st.slot (ringPos numSlots st.i t)).bufIdx ≠ b) :
    (st.fillAll nf numSlots cs).buffers b = st.buffers b := by
  induction cs generalizing st with
  | nil => rfl
  | cons c cs ih =>
      rw [SendState.fillAll_cons, ih, SendState.fill_buffers_of_ne _ _ _ (other 0 (by simp))]
      intro t tLt
      rw [SendState.fill_i, SendState.fill_bufIdx, ← ringPos_succ']
      exact other (t + 1) (by simp; omega)

/-- Chunk `t` lands in the slot `t` steps from `i`, with its length and the flags of its
place: `slot_flags` as given for the first, without `NS_VNET_HDR` after it. -/
theorem SendState.fillAll_slot (st : SendState) {cs : List (List UInt8)} (iLt : st.i < numSlots)
    (room : cs.length ≤ numSlots) {t : Nat} (tLt : t < cs.length) :
    (st.fillAll nf numSlots cs).slot (ringPos numSlots st.i t) =
      { st.slot (ringPos numSlots st.i t) with
        len := (cs.getD t []).length
        flags := if t = 0 then st.slotFlags else st.slotFlags &&& ~~~nf.nsVnetHdr } := by
  induction cs generalizing st t with
  | nil => contradiction
  | cons c cs ih =>
      simp only [List.length_cons] at room tLt
      cases t with
      | zero =>
          rw [SendState.fillAll_cons, SendState.fillAll_slot_of_ne]
          · simp [SendState.fill_slot]
          · intro u uLt
            rw [SendState.fill_i, ← ringPos_succ']
            exact ringPos_succ_ne iLt (by omega)
      | succ u =>
          have rest := @ih (st.fill nf numSlots c.length c) (ringPos_lt iLt 1) (by omega) u
            (by omega)
          rw [SendState.fill_i, ← ringPos_succ'] at rest
          rw [SendState.fillAll_cons, rest, SendState.fill_slot,
            if_neg (ringPos_succ_ne iLt (by omega))]
          cases u <;> simp [and_not_and_not]

/-- Filling empty chunks leaves every slot it steps through with length 0. -/
theorem SendState.fillAll_len_of_empty (st : SendState) {cs : List (List UInt8)}
    (empty : ∀ c ∈ cs, c = []) {t : Nat} (tLt : t < cs.length) :
    ((st.fillAll nf numSlots cs).slot (ringPos numSlots st.i t)).len = 0 := by
  induction cs generalizing st t with
  | nil => contradiction
  | cons c cs ih =>
      have rest (u : Nat) (uLt : u < cs.length) :=
        ih (st.fill nf numSlots c.length c) (fun c' mem => empty c' (List.mem_cons_of_mem c mem))
          uLt
      simp only [SendState.fill_i, ← ringPos_succ'] at rest
      cases t with
      | succ u => exact rest u (by simpa using tLt)
      | zero =>
          by_cases again : ∃ u < cs.length, ringPos numSlots st.i (u + 1) = st.i
          · obtain ⟨u, uLt, same⟩ := again
            have emptied := rest u uLt
            rw [same] at emptied
            exact emptied
          · rw [SendState.fillAll_cons, SendState.fillAll_slot_of_ne]
            · simp [SendState.fill_slot, empty c (List.mem_cons_self c cs)]
            · intro u uLt same
              rw [SendState.fill_i, ← ringPos_succ'] at same
              exact again ⟨u, uLt, same⟩

/-- What filling chunks leaves in buffer `b`: the chunks whose slots reference `b`, copied
into it in order, so that a later chunk overwrites an earlier one. -/
theorem SendState.fillAll_buffers (st : SendState) (cs : List (List UInt8)) (b : Nat) :
    (st.fillAll nf numSlots cs).buffers b =
      (List.range cs.length).foldl (fun buf t =>
        if (st.slot (ringPos numSlots st.i t)).bufIdx = b then
          copyFromUser buf (cs.getD t []) (cs.getD t []).length
        else buf) (st.buffers b) := by
  induction cs generalizing st with
  | nil => rfl
  | cons c cs ih =>
      rw [SendState.fillAll_cons, ih, List.length_cons, List.range_succ_eq_map, List.foldl_cons,
        List.foldl_map]
      congr 1
      · funext buf t
        simp only [SendState.fill_bufIdx, SendState.fill_i, ← ringPos_succ', List.getD_cons_succ]
      · by_cases here : (st.slot st.i).bufIdx = b
        · subst here
          simp [SendState.fill]
        · simp [SendState.fill, here, Ne.symm here]

/-- With the stepped-through slots on pairwise distinct buffers, chunk `t` is what the
buffer of the slot `t` steps from `i` holds. -/
theorem SendState.fillAll_buffer (st : SendState) {cs : List (List UInt8)} (iLt : st.i < numSlots)
    (room : cs.length ≤ numSlots)
    (distinct : ∀ t < cs.length, ∀ u < cs.length, (st.slot (ringPos numSlots st.i t)).bufIdx =
      (st.slot (ringPos numSlots st.i u)).bufIdx → t = u)
    {t : Nat} (tLt : t < cs.length) :
    readBuf ((st.fillAll nf numSlots cs).buffers (st.slot (ringPos numSlots st.i t)).bufIdx) 0
      (cs.getD t []).length = cs.getD t [] := by
  induction cs generalizing st t with
  | nil => contradiction
  | cons c cs ih =>
      simp only [List.length_cons] at room tLt distinct
      cases t with
      | zero =>
          rw [SendState.fillAll_cons, SendState.fillAll_buffers_of_ne]
          · simp [SendState.fill, readBuf_copyFromUser]
          · intro u uLt same
            rw [SendState.fill_bufIdx, SendState.fill_i, ← ringPos_succ'] at same
            exact absurd (distinct _ (by omega) 0 (by omega) same) (by omega)
      | succ u =>
          have rest := @ih (st.fill nf numSlots c.length c) (ringPos_lt iLt 1) (by omega) ?_ u
            (by omega)
          · rw [SendState.fill_bufIdx, SendState.fill_i, ← ringPos_succ'] at rest
            simpa using rest
          · intro t' t'Lt u' u'Lt same
            simp only [SendState.fill_bufIdx, SendState.fill_i, ← ringPos_succ'] at same
            simpa using distinct (t' + 1) (by omega) (u' + 1) (by omega) same

end Layout

/-! ## The published layout -/

section Published

variable (nf : NsFlags) (na : NetmapAdapter) (m : Msghdr) (totalLen : Nat)

/-- The chunks of all segments number `sum ceil(|s_j| / nr_buf_size)`. -/
theorem flatMap_sendChunks_length (nrBufSize : Nat) (iov : List (List UInt8)) :
    (iov.flatMap (sendChunks nrBufSize)).length =
      (iov.map fun s => fragSlots nrBufSize s.length).sum := by
  induction iov with
  | nil => rfl
  | cons s iov ih => simp [ih]

/-- A `netmap_socket_sendmsg` that fits fills all the chunks, clears `NS_MOREFRAG` on the last
slot filled and publishes. -/
theorem netmapSocketSendmsg_of_fits (bufPos : 0 < na.txRing.nrBufSize)
    (enough : m.msgIovlen ≤ na.txRing.avail)
    (fits : (m.iovs.flatMap (sendChunks na.txRing.nrBufSize)).length ≤ na.txRing.avail) :
    let st := (sendInit nf na).fillAll nf na.txRing.numSlots
      (m.iovs.flatMap (sendChunks na.txRing.nrBufSize))
    netmapSocketSendmsg nf na m totalLen =
      ⟨totalLen, { na with
        txRing := { na.txRing with
          slot := Function.update st.slot st.last
            { st.slot st.last with flags := (st.slot st.last).flags &&& ~~~nf.nsMorefrag }
          cur := st.i
          avail := na.txRing.avail - (m.iovs.flatMap (sendChunks na.txRing.nrBufSize)).length }
        buffers := st.buffers }, 1⟩ :=
  netmapSocketSendmsg_of_ok nf na m totalLen enough
    (by rw [copyIov_eq bufPos, fillChunks, if_pos fits])

/-- The slots filled by the copy loop of a call that fits: chunk `t` with the flags of its
place, `NS_MOREFRAG | NS_VNET_HDR` on the first and `NS_MOREFRAG` after it. -/
theorem sendInit_fillAll_slot (curLt : na.txRing.cur < na.txRing.numSlots)
    {cs : List (List UInt8)} (room : cs.length ≤ na.txRing.numSlots) {t : Nat} (tLt : t < cs.length) :
    ((sendInit nf na).fillAll nf na.txRing.numSlots cs).slot
        (ringPos na.txRing.numSlots na.txRing.cur t) =
      { na.txRing.slot (ringPos na.txRing.numSlots na.txRing.cur t) with
        len := (cs.getD t []).length
        flags := if t = 0 then nf.nsMorefrag ||| nf.nsVnetHdr else nf.nsMorefrag } := by
  refine (SendState.fillAll_slot (sendInit nf na) curLt room tLt).trans ?_
  simp [sendInit]

/-- Whether a call publishes, for `nr_buf_size > 0`: exactly when the segments and their
chunks both fit in `avail`. -/
theorem netmapSocketSendmsg_txsyncs (bufPos : 0 < na.txRing.nrBufSize) :
    (netmapSocketSendmsg nf na m totalLen).txsyncs =
      if m.msgIovlen ≤ na.txRing.avail ∧
          (m.iovs.flatMap (sendChunks na.txRing.nrBufSize)).length ≤ na.txRing.avail
        then 1 else 0 := by
  by_cases few : na.txRing.avail < m.msgIovlen
  · simp [few, Nat.not_le.mpr few]
  by_cases fits : (m.iovs.flatMap (sendChunks na.txRing.nrBufSize)).length ≤ na.txRing.avail
  · rw [netmapSocketSendmsg_of_fits nf na m totalLen bufPos (Nat.not_lt.mp few) fits,
      if_pos ⟨Nat.not_lt.mp few, fits⟩]
  · rw [netmapSocketSendmsg_of_error nf na m totalLen (Nat.not_lt.mp few)
      (by rw [copyIov_eq bufPos, fillChunks, if_neg fits]), if_neg fun both => fits both.2]

/-- A call that succeeds had room for its segments and for their chunks. -/
theorem netmapSocketSendmsg_fits_of_succeeded (bufPos : 0 < na.txRing.nrBufSize)
    (succeeded : (netmapSocketSendmsg nf na m totalLen).txsyncs ≠ 0) :
    m.msgIovlen ≤ na.txRing.avail ∧
      (m.iovs.flatMap (sendChunks na.txRing.nrBufSize)).length ≤ na.txRing.avail := by
  rw [netmapSocketSendmsg_txsyncs nf na m totalLen bufPos] at succeeded
  split_ifs at succeeded with fits
  · exact fits
  · exact absurd rfl succeeded

/-- For `nr_buf_size > 0`, a call fails exactly when the segments or their `k` chunks
outnumber `avail`: it returns 0 and leaves `cur` and `avail`; otherwise it returns `total_len`,
calls `nm_txsync` and publishes `cur + k` and `avail - k`. -/
theorem netmapSocketSendmsg_outcome (bufPos : 0 < na.txRing.nrBufSize)
    (curLt : na.txRing.cur < na.txRing.numSlots) :
    let r : SendResult := netmapSocketSendmsg nf na m totalLen
    let k := (m.iovs.map fun s => fragSlots na.txRing.nrBufSize s.length).sum
    let fails := na.txRing.avail < m.msgIovlen ∨ na.txRing.avail < k
    r.ret = (if fails then 0 else totalLen) ∧ r.txsyncs = (if fails then 0 else 1) ∧
      r.na.txRing.cur =
        (if fails then na.txRing.cur else (na.txRing.cur + k) % na.txRing.numSlots) ∧
      r.na.txRing.avail = (if fails then na.txRing.avail else na.txRing.avail - k) := by
  dsimp only
  rw [← flatMap_sendChunks_length]
  by_cases few : na.txRing.avail < m.msgIovlen
  · simp [few]
  by_cases fits : (m.iovs.flatMap (sendChunks na.txRing.nrBufSize)).length ≤ na.txRing.avail
  · rw [netmapSocketSendmsg_of_fits nf na m totalLen bufPos (Nat.not_lt.mp few) fits]
    simp only [few, Nat.not_lt.mpr fits, or_self, ↓reduceIte, true_and, and_true]
    exact (SendState.fillAll_i _ _).trans (ringPos_eq_mod curLt _)
  · rw [netmapSocketSendmsg_of_error nf na m totalLen (Nat.not_lt.mp few)
      (by rw [copyIov_eq bufPos, fillChunks, if_neg fits])]
    simp only [Nat.lt_of_not_le fits, or_true, ↓reduceIte, and_self]

/-- Two one-byte segments and one free slot: the call fails on the early check. -/
theorem netmapSocketSendmsg_outcome_two_segments :
    let na : NetmapAdapter := ⟨⟨2, 1, 0, 1, fun p => ⟨p, 0, 0⟩⟩, ⟨2, 1, 0, 0, fun p => ⟨p, 0, 0⟩⟩,
      fun _ _ => 0⟩
    let m : Msghdr := ⟨fun _ => [3], 2⟩
    let r : SendResult := netmapSocketSendmsg NsFlags.sample na m 1
    let k := (m.iovs.map fun s => fragSlots na.txRing.nrBufSize s.length).sum
    let fails := na.txRing.avail < m.msgIovlen ∨ na.txRing.avail < k
    (0 < na.txRing.nrBufSize ∧ na.txRing.cur < na.txRing.numSlots) ∧
    r.ret = (if fails then 0 else 1) ∧ r.txsyncs = (if fails then 0 else 1) ∧
      r.na.txRing.cur =
        (if fails then na.txRing.cur else (na.txRing.cur + k) % na.txRing.numSlots) ∧
      r.na.txRing.avail = (if fails then na.txRing.avail else na.txRing.avail - k) :=
  ⟨⟨Nat.one_pos, Nat.zero_lt_two⟩,
    netmapSocketSendmsg_outcome NsFlags.sample _ _ 1 Nat.one_pos Nat.zero_lt_two⟩

/-- A one-byte segment followed by an empty one, and one free slot: the byte needs one slot
and the empty segment none, yet the early `avail < iovcnt` check rejects the call. -/
theorem netmapSocketSendmsg_rejects_empty_segments :
    let na : NetmapAdapter := ⟨⟨2, 1, 0, 1, fun p => ⟨p, 0, 0⟩⟩, ⟨2, 1, 0, 0, fun p => ⟨p, 0, 0⟩⟩,
      fun _ _ => 0⟩
    let m : Msghdr := ⟨fun j => if j = 0 then [5] else [], 2⟩
    (netmapSocketSendmsg NsFlags.sample na m 1).ret = 0 ∧
      (netmapSocketSendmsg NsFlags.sample na m 1).txsyncs = 0 ∧
      (m.iovs.map fun s => fragSlots na.txRing.nrBufSize s.length).sum ≤ na.txRing.avail := by
  decide

/-- A ring with no free slot whose slot `cur` carries `NS_MOREFRAG`: an empty segment list
passes the early check, nothing is filled, and the final flag clear lands on slot `cur`,
which is outside the (empty) window. -/
theorem netmapSocketSendmsg_clears_unowned_slot :
    let na : NetmapAdapter := ⟨⟨1, 4, 0, 0, fun _ => ⟨0, 0, 0x20#16⟩⟩,
      ⟨1, 4, 0, 0, fun _ => ⟨0, 0, 0⟩⟩, fun _ _ => 0⟩
    let r := netmapSocketSendmsg NsFlags.sample na ⟨fun _ => [], 0⟩ 0
    ¬ na.txRing.InWindow 0 ∧ r.na.txRing.slot 0 ≠ na.txRing.slot 0 ∧ r.txsyncs = 1 := by
  refine ⟨fun ⟨t, tLt, _⟩ => Nat.not_lt_zero t tLt, by decide, by decide⟩

/-- The layout a call leaves when it publishes `chunks` from `cur` of TX ring `ring`, whose
slots referenced `buffers`: the cursors, each published slot's buffer, length and flags, the
other slots, and each buffer's bytes. -/
structure SendLayout (nf : NsFlags) (ring : NetmapRing) (buffers : Nat → Nat → UInt8)
    (chunks : List (List UInt8)) (r : SendResult) : Prop where
  numSlots_eq : r.na.txRing.numSlots = ring.numSlots
  cur_eq : r.na.txRing.cur = (ring.cur + chunks.length) % ring.numSlots
  avail_eq : r.na.txRing.avail = ring.avail - chunks.length
  bufIdx_eq : ∀ t < chunks.length, (r.na.txRing.slot (ringPos ring.numSlots ring.cur t)).bufIdx =
    (ring.slot (ringPos ring.numSlots ring.cur t)).bufIdx
  len_eq : ∀ t < chunks.length,
    (r.na.txRing.slot (ringPos ring.numSlots ring.cur t)).len = (chunks.getD t []).length
  morefrag_eq : ∀ t < chunks.length,
    (r.na.txRing.slot (ringPos ring.numSlots ring.cur t)).morefrag nf = decide (t + 1 < chunks.length)
  vnetHdr_eq : ∀ t < chunks.length,
    hasFlag (r.na.txRing.slot (ringPos ring.numSlots ring.cur t)).flags nf.nsVnetHdr = decide (t = 0)
  slot_eq_of_ne : ∀ p, (∀ t < chunks.length, ringPos ring.numSlots ring.cur t ≠ p) →
    r.na.txRing.slot p = ring.slot p
  buffer_eq : (∀ t < chunks.length, ∀ u < chunks.length,
      (ring.slot (ringPos ring.numSlots ring.cur t)).bufIdx =
        (ring.slot (ringPos ring.numSlots ring.cur u)).bufIdx → t = u) →
    ∀ t < chunks.length,
      readBuf (r.na.buffers (r.na.txRing.slot (ringPos ring.numSlots ring.cur t)).bufIdx) 0
        (chunks.getD t []).length = chunks.getD t []
  buffers_eq : ∀ b, r.na.buffers b = (List.range chunks.length).foldl (fun buf t =>
    if (ring.slot (ringPos ring.numSlots ring.cur t)).bufIdx = b then
      copyFromUser buf (chunks.getD t []) (chunks.getD t []).length
    else buf) (buffers b)

/-- A call that succeeds with at least one chunk leaves the layout of its chunks. -/
theorem netmapSocketSendmsg_sendLayout (bufPos : 0 < na.txRing.nrBufSize)
    (curLt : na.txRing.cur < na.txRing.numSlots) (availLe : na.txRing.avail ≤ na.txRing.numSlots)
    (succeeded : (netmapSocketSendmsg nf na m totalLen).txsyncs ≠ 0)
    (nonempty : 0 < (m.iovs.flatMap (sendChunks na.txRing.nrBufSize)).length) :
    SendLayout nf na.txRing na.buffers (m.iovs.flatMap (sendChunks na.txRing.nrBufSize))
      (netmapSocketSendmsg nf na m totalLen) := by
  obtain ⟨enough, fits⟩ := netmapSocketSendmsg_fits_of_succeeded nf na m totalLen bufPos succeeded
  set chunks := m.iovs.flatMap (sendChunks na.txRing.nrBufSize)
  have room : chunks.length ≤ na.txRing.numSlots := by omega
  rw [netmapSocketSendmsg_of_fits nf na m totalLen bufPos enough fits]
  dsimp only
  generalize filled : (sendInit nf na).fillAll nf na.txRing.numSlots chunks = st
  have atLast : st.last = ringPos na.txRing.numSlots na.txRing.cur (chunks.length - 1) := by
    rw [← filled, SendState.fillAll_last _ (List.ne_nil_of_length_pos nonempty)]
    rfl
  have slotAt (t : Nat) (tLt : t < chunks.length) :=
    filled ▸ sendInit_fillAll_slot nf na curLt room tLt
  have lastNe {t : Nat} (tLt : t < chunks.length) (notLast : t ≠ chunks.length - 1) :
      ringPos na.txRing.numSlots na.txRing.cur t ≠ st.last := fun same =>
    notLast (ringPos_inj curLt (by omega) (by omega) (atLast ▸ same))
  -- the slot `t` steps from `cur`: filled, and cleared of `NS_MOREFRAG` if it is the last
  have slotFacts (t : Nat) (tLt : t < chunks.length) :
      let slot := Function.update st.slot st.last
        { st.slot st.last with flags := (st.slot st.last).flags &&& ~~~nf.nsMorefrag }
        (ringPos na.txRing.numSlots na.txRing.cur t)
      slot.bufIdx = (na.txRing.slot (ringPos na.txRing.numSlots na.txRing.cur t)).bufIdx ∧
        slot.len = (chunks.getD t []).length ∧
        slot.morefrag nf = decide (t + 1 < chunks.length) ∧
        hasFlag slot.flags nf.nsVnetHdr = decide (t = 0) := by
    by_cases last : t = chunks.length - 1
    · subst last
      rw [atLast, Function.update_same, slotAt _ tLt]
      by_cases first : chunks.length - 1 = 0 <;>
        simp only [first, ringPos_zero, List.getD_eq_getElem?_getD, NetmapSlot.morefrag,
          ↓reduceIte, NsFlags.morefrag_vnetHdr_clear_morefrag, NsFlags.hasFlag_vnetHdr_morefrag,
          hasFlag_and_not_self, NsFlags.hasFlag_clear_morefrag_vnetHdr,
          NsFlags.hasFlag_morefrag_vnetHdr, NsFlags.hasFlag_vnetHdr_vnetHdr, zero_add,
          false_eq_decide_iff, not_lt, decide_True, decide_False, and_true, true_and] <;> omega
    · rw [Function.update_noteq (lastNe tLt last), slotAt _ tLt]
      by_cases first : t = 0 <;>
        simp only [first, ringPos_zero, List.getD_eq_getElem?_getD, NetmapSlot.morefrag,
          ↓reduceIte, NsFlags.hasFlag_both_morefrag, NsFlags.hasFlag_both_vnetHdr,
          NsFlags.hasFlag_morefrag_morefrag, NsFlags.hasFlag_morefrag_vnetHdr, zero_add,
          true_eq_decide_iff, decide_True, decide_False, and_true, true_and] <;> omega
  refine ⟨rfl, ?_, rfl, fun t tLt => (slotFacts t tLt).1, fun t tLt => (slotFacts t tLt).2.1,
    fun t tLt => (slotFacts t tLt).2.2.1, fun t tLt => (slotFacts t tLt).2.2.2,
    fun p other => ?_, fun distinct t tLt => ?_, fun b => ?_⟩
  · rw [← filled, SendState.fillAll_i]
    exact ringPos_eq_mod curLt _
  · have notLast : p ≠ st.last := atLast ▸ (other (chunks.length - 1) (by omega)).symm
    dsimp only
    rw [Function.update_noteq notLast, ← filled, SendState.fillAll_slot_of_ne _ _ other]
    rfl
  · rw [(slotFacts t tLt).1, ← filled]
    exact SendState.fillAll_buffer _ curLt room distinct tLt
  · rw [← filled]
    exact SendState.fillAll_buffers _ _ b

/-- The layout a successful `netmap_socket_sendmsg` publishes, for `nr_buf_size > 0` and
`k = sum ceil(|s_j| / nr_buf_size) ≥ 1` chunks, with what it leaves in every buffer: the
chunks in order, a later one overwriting an earlier one on a shared buffer. -/
theorem netmapSocketSendmsg_layout (bufPos : 0 < na.txRing.nrBufSize)
    (curLt : na.txRing.cur < na.txRing.numSlots) (availLe : na.txRing.avail ≤ na.txRing.numSlots)
    (succeeded : (netmapSocketSendmsg nf na m totalLen).txsyncs ≠ 0)
    (nonempty : 0 < (m.iovs.map fun s => fragSlots na.txRing.nrBufSize s.length).sum) :
    let ring := na.txRing
    let chunks := m.iovs.flatMap (sendChunks ring.nrBufSize)
    let k := (m.iovs.map fun s => fragSlots ring.nrBufSize s.length).sum
    let r := netmapSocketSendmsg nf na m totalLen
    r.ret = totalLen ∧ r.txsyncs = 1 ∧
      r.na.txRing.cur = (ring.cur + k) % ring.numSlots ∧ r.na.txRing.avail = ring.avail - k ∧
      (∀ t < k,
        (r.na.txRing.slot (ringPos ring.numSlots ring.cur t)).bufIdx =
          (ring.slot (ringPos ring.numSlots ring.cur t)).bufIdx ∧
        (r.na.txRing.slot (ringPos ring.numSlots ring.cur t)).len = (chunks.getD t []).length ∧
        (r.na.txRing.slot (ringPos ring.numSlots ring.cur t)).morefrag nf = decide (t + 1 < k) ∧
        hasFlag (r.na.txRing.slot (ringPos ring.numSlots ring.cur t)).flags nf.nsVnetHdr =
          decide (t = 0)) ∧
      (∀ p, (∀ t < k, ringPos ring.numSlots ring.cur t ≠ p) → r.na.txRing.slot p = ring.slot p) ∧
      ((∀ t < k, ∀ u < k, (ring.slot (ringPos ring.numSlots ring.cur t)).bufIdx =
          (ring.slot (ringPos ring.numSlots ring.cur u)).bufIdx → t = u) →
        ∀ t < k, readBuf (r.na.buffers (r.na.txRing.slot (ringPos ring.numSlots ring.cur t)).bufIdx)
          0 (chunks.getD t []).length = chunks.getD t []) ∧
      (∀ b, r.na.buffers b = (List.range k).foldl (fun buf t =>
        if (ring.slot (ringPos ring.numSlots ring.cur t)).bufIdx = b then
          copyFromUser buf (chunks.getD t []) (chunks.getD t []).length
        else buf) (na.buffers b)) := by
  dsimp only
  rw [← flatMap_sendChunks_length] at nonempty ⊢
  obtain ⟨enough, fits⟩ := netmapSocketSendmsg_fits_of_succeeded nf na m totalLen bufPos succeeded
  have layout := netmapSocketSendmsg_sendLayout nf na m totalLen bufPos curLt availLe succeeded
    nonempty
  rw [netmapSocketSendmsg_of_fits nf na m totalLen bufPos enough fits] at layout ⊢
  exact ⟨rfl, rfl, layout.cur_eq, layout.avail_eq, fun t tLt => ⟨layout.bufIdx_eq t tLt,
    layout.len_eq t tLt, layout.morefrag_eq t tLt, layout.vnetHdr_eq t tLt⟩,
    layout.slot_eq_of_ne, layout.buffer_eq, layout.buffers_eq⟩

/-- A five-byte and a two-byte segment into four slots of three bytes, from slot 3: chunks
`[1,2,3]`, `[4,5]` and `[6,7]` land in slots 3, 0 and 1. -/
theorem netmapSocketSendmsg_layout_wrapping :
    let na : NetmapAdapter := ⟨⟨4, 3, 3, 4, fun p => ⟨p, 0, 0⟩⟩, ⟨4, 3, 0, 0, fun p => ⟨p, 0, 0⟩⟩,
      fun _ _ => 0⟩
    let m : Msghdr := ⟨fun j => if j = 0 then [1, 2, 3, 4, 5] else [6, 7], 2⟩
    let ring := na.txRing
    let chunks := m.iovs.flatMap (sendChunks ring.nrBufSize)
    let k := (m.iovs.map fun s => fragSlots ring.nrBufSize s.length).sum
    let r := netmapSocketSendmsg NsFlags.sample na m 7
    (0 < na.txRing.nrBufSize ∧ na.txRing.cur < na.txRing.numSlots ∧
      na.txRing.avail ≤ na.txRing.numSlots ∧ r.txsyncs ≠ 0 ∧
      0 < (m.iovs.map fun s => fragSlots na.txRing.nrBufSize s.length).sum) ∧
    r.ret = 7 ∧ r.txsyncs = 1 ∧
      r.na.txRing.cur = (ring.cur + k) % ring.numSlots ∧ r.na.txRing.avail = ring.avail - k ∧
      (∀ t < k,
        (r.na.txRing.slot (ringPos ring.numSlots ring.cur t)).bufIdx =
          (ring.slot (ringPos ring.numSlots ring.cur t)).bufIdx ∧
        (r.na.txRing.slot (ringPos ring.numSlots ring.cur t)).len = (chunks.getD t []).length ∧
        (r.na.txRing.slot (ringPos ring.numSlots ring.cur t)).morefrag NsFlags.sample =
          decide (t + 1 < k) ∧
        hasFlag (r.na.txRing.slot (ringPos ring.numSlots ring.cur t)).flags
          NsFlags.sample.nsVnetHdr = decide (t = 0)) ∧
      (∀ p, (∀ t < k, ringPos ring.numSlots ring.cur t ≠ p) → r.na.txRing.slot p = ring.slot p) ∧
      ((∀ t < k, ∀ u < k, (ring.slot (ringPos ring.numSlots ring.cur t)).bufIdx =
          (ring.slot (ringPos ring.numSlots ring.cur u)).bufIdx → t = u) →
        ∀ t < k, readBuf (r.na.buffers (r.na.txRing.slot (ringPos ring.numSlots ring.cur t)).bufIdx)
          0 (chunks.getD t []).length = chunks.getD t []) ∧
      (∀ b, r.na.buffers b = (List.range k).foldl (fun buf t =>
        if (ring.slot (ringPos ring.numSlots ring.cur t)).bufIdx = b then
          copyFromUser buf (chunks.getD t []) (chunks.getD t []).length
        else buf) (na.buffers b)) :=
  ⟨by decide, netmapSocketSendmsg_layout NsFlags.sample _ _ 7 (by decide) (by decide) (by decide)
    (by decide) (by decide)⟩

/-- Two slots on one buffer: the second chunk overwrites the first, so slot 0, of length 1,
does not hold its chunk `[1]`. -/
theorem netmapSocketSendmsg_shared_buffer_overwritten :
    let na : NetmapAdapter := ⟨⟨2, 1, 0, 2, fun _ => ⟨0, 0, 0⟩⟩, ⟨2, 1, 0, 0, fun _ => ⟨0, 0, 0⟩⟩,
      fun _ _ => 0⟩
    let r := netmapSocketSendmsg NsFlags.sample na ⟨fun _ => [1, 2], 1⟩ 2
    r.txsyncs = 1 ∧ (r.na.txRing.slot 0).len = 1 ∧
      readBuf (r.na.buffers (r.na.txRing.slot 0).bufIdx) 0 1 = [2] := by
  decide

end Published

end Netmap
