import Mathlib.Data.BitVec
import Mathlib.Logic.Function.Basic
import Mathlib.Algebra.Order.Ring.Nat

/-!
# Netmap rings, slots and buffers

The data the socket glue of `netmap_linux.c` reads and writes: a ring of slots with its two
cursors `cur` and `avail`, the pool of fixed-size buffers that slots reference by
`buf_idx`, and the caller's `struct msghdr`.

Slots reference buffers by index, so two slots may share a buffer; nothing here forbids it.
The caller's segments are kept one list of bytes each, so they never overlap one another.
-/

namespace Netmap

/-- The two slot flag masks the socket code sets and tests. Their values live in
`net/netmap.h`, outside this source tree; the code relies only on each being nonzero and on
the two not overlapping. -/
structure NsFlags where
  nsMorefrag : BitVec 16
  nsVnetHdr : BitVec 16
  morefrag_ne_zero : nsMorefrag ≠ 0
  vnetHdr_ne_zero : nsVnetHdr ≠ 0
  disjoint : nsMorefrag &&& nsVnetHdr = 0

/-- The C test `flags & mask`, read as a truth value. -/
def hasFlag (flags mask : BitVec 16) : Bool :=
  flags &&& mask != 0

/-- One admissible choice of the two masks, used to run the model on concrete rings. -/
def NsFlags.sample : NsFlags where
  nsMorefrag := 0x20#16
  nsVnetHdr := 0x40#16
  morefrag_ne_zero := by decide
  vnetHdr_ne_zero := by decide
  disjoint := by decide

/-! ## Flag arithmetic -/

section Flags

variable (nf : NsFlags)

theorem hasFlag_self {mask : BitVec 16} (nonzero : mask ≠ 0) : hasFlag mask mask = true := by
  simpa [hasFlag] using nonzero

@[simp] theorem hasFlag_and_not_self (flags mask : BitVec 16) :
    hasFlag (flags &&& ~~~mask) mask = false := by
  have cleared : flags &&& ~~~mask &&& mask = 0 := by
    ext i
    simp only [BitVec.getLsbD_and, BitVec.getLsbD_not, BitVec.getLsbD_zero]
    cases mask.getLsbD i <;> simp
  simp [hasFlag, cleared]

/-- Clearing one of two disjoint masks from both leaves the other. -/
theorem or_and_not_of_disjoint {a b : BitVec 16} (disjoint : a &&& b = 0) :
    (a ||| b) &&& ~~~b = a := by
  ext i
  have bit := congrArg (BitVec.getLsbD · i) disjoint
  simp only [BitVec.getLsbD_and, BitVec.getLsbD_zero] at bit
  simp only [BitVec.getLsbD_and, BitVec.getLsbD_or, BitVec.getLsbD_not, i.isLt, decide_True,
    Bool.true_and]
  cases aBit : a.getLsbD i <;> cases bBit : b.getLsbD i <;> simp_all

/-- Clearing a mask does not touch the bits of a mask disjoint from it. -/
theorem and_not_and_of_disjoint (flags : BitVec 16) {a b : BitVec 16} (disjoint : a &&& b = 0) :
    flags &&& ~~~a &&& b = flags &&& b := by
  ext i
  have bit := congrArg (BitVec.getLsbD · i) disjoint
  simp only [BitVec.getLsbD_and, BitVec.getLsbD_zero] at bit
  simp only [BitVec.getLsbD_and, BitVec.getLsbD_not, i.isLt, decide_True, Bool.true_and]
  cases aBit : a.getLsbD i <;> cases bBit : b.getLsbD i <;> simp_all

/-- Clearing `NS_VNET_HDR` from both flags leaves `NS_MOREFRAG`. -/
@[simp] theorem NsFlags.morefrag_vnetHdr_clear :
    (nf.nsMorefrag ||| nf.nsVnetHdr) &&& ~~~nf.nsVnetHdr = nf.nsMorefrag :=
  or_and_not_of_disjoint nf.disjoint

/-- Clearing `NS_MOREFRAG` from both flags leaves `NS_VNET_HDR`. -/
@[simp] theorem NsFlags.morefrag_vnetHdr_clear_morefrag :
    (nf.nsMorefrag ||| nf.nsVnetHdr) &&& ~~~nf.nsMorefrag = nf.nsVnetHdr := by
  rw [BitVec.or_comm]
  exact or_and_not_of_disjoint (BitVec.and_comm _ _ ▸ nf.disjoint)

@[simp] theorem NsFlags.hasFlag_morefrag_morefrag : hasFlag nf.nsMorefrag nf.nsMorefrag = true :=
  hasFlag_self nf.morefrag_ne_zero

@[simp] theorem NsFlags.hasFlag_vnetHdr_vnetHdr : hasFlag nf.nsVnetHdr nf.nsVnetHdr = true :=
  hasFlag_self nf.vnetHdr_ne_zero

@[simp] theorem NsFlags.hasFlag_morefrag_vnetHdr : hasFlag nf.nsMorefrag nf.nsVnetHdr = false := by
  simp [hasFlag, nf.disjoint]

@[simp] theorem NsFlags.hasFlag_vnetHdr_morefrag : hasFlag nf.nsVnetHdr nf.nsMorefrag = false := by
  simp [hasFlag, BitVec.and_comm, nf.disjoint]

/-- Clearing `NS_MOREFRAG` does not touch `NS_VNET_HDR`. -/
@[simp] theorem NsFlags.hasFlag_clear_morefrag_vnetHdr (flags : BitVec 16) :
    hasFlag (flags &&& ~~~nf.nsMorefrag) nf.nsVnetHdr = hasFlag flags nf.nsVnetHdr := by
  simp only [hasFlag, and_not_and_of_disjoint flags nf.disjoint]

theorem hasFlag_or_left {mask : BitVec 16} (other : BitVec 16) (nonzero : mask ≠ 0) :
    hasFlag (mask ||| other) mask = true := by
  have kept : (mask ||| other) &&& mask = mask := by
    ext i
    simp only [BitVec.getLsbD_and, BitVec.getLsbD_or]
    cases mask.getLsbD i <;> simp
  simpa [hasFlag, kept] using nonzero

@[simp] theorem NsFlags.hasFlag_both_morefrag :
    hasFlag (nf.nsMorefrag ||| nf.nsVnetHdr) nf.nsMorefrag = true :=
  hasFlag_or_left _ nf.morefrag_ne_zero

@[simp] theorem NsFlags.hasFlag_both_vnetHdr :
    hasFlag (nf.nsMorefrag ||| nf.nsVnetHdr) nf.nsVnetHdr = true := by
  rw [BitVec.or_comm]
  exact hasFlag_or_left _ nf.vnetHdr_ne_zero

end Flags

/-- `struct netmap_slot`: the buffer it references, the valid length and the flags. -/
structure NetmapSlot where
  bufIdx : Nat
  len : Nat
  flags : BitVec 16
  deriving DecidableEq

/-- The slot carries `NS_MOREFRAG`: it is not the last slot of its packet. -/
def NetmapSlot.morefrag (nf : NsFlags) (s : NetmapSlot) : Bool :=
  hasFlag s.flags nf.nsMorefrag

/-- `struct netmap_ring` as the socket code uses it. Slots are read at indices below
`numSlots` only. -/
structure NetmapRing where
  numSlots : Nat
  nrBufSize : Nat
  cur : Nat
  avail : Nat
  slot : Nat → NetmapSlot

/-- `NETMAP_RING_NEXT`, from `net/netmap_user.h`, which is not in this tree: the slot after
`i`, wrapping round to 0 at the ring's end. -/
def netmapRingNext (numSlots i : Nat) : Nat :=
  (i + 1) % numSlots

/-- The slot `t` steps of `NETMAP_RING_NEXT` after `cur`. -/
def ringPos (numSlots cur : Nat) : Nat → Nat
  | 0 => cur
  | t + 1 => netmapRingNext numSlots (ringPos numSlots cur t)

/-! ## Ring positions -/

section Positions

variable {numSlots cur : Nat}

@[simp] theorem ringPos_zero : ringPos numSlots cur 0 = cur := rfl

@[simp] theorem ringPos_succ (t : Nat) :
    ringPos numSlots cur (t + 1) = netmapRingNext numSlots (ringPos numSlots cur t) := rfl

theorem ringPos_add (t u : Nat) :
    ringPos numSlots (ringPos numSlots cur t) u = ringPos numSlots cur (t + u) := by
  induction u with
  | zero => rfl
  | succ u ih => simp [ih, ← Nat.add_assoc]

theorem ringPos_succ' (t : Nat) :
    ringPos numSlots cur (t + 1) = ringPos numSlots (netmapRingNext numSlots cur) t := by
  rw [Nat.add_comm, ← ringPos_add]
  rfl

theorem ringPos_eq_mod (curLt : cur < numSlots) (t : Nat) :
    ringPos numSlots cur t = (cur + t) % numSlots := by
  induction t with
  | zero => exact (Nat.mod_eq_of_lt curLt).symm
  | succ t ih => simp [ih, netmapRingNext, Nat.add_assoc]

theorem ringPos_lt (curLt : cur < numSlots) (t : Nat) : ringPos numSlots cur t < numSlots := by
  rw [ringPos_eq_mod curLt]
  exact Nat.mod_lt _ (Nat.lt_of_le_of_lt (Nat.zero_le _) curLt)

private theorem mod_of_lt_twice {x n : Nat} (lt : x < n + n) :
    x % n = if x < n then x else x - n := by
  split
  · exact Nat.mod_eq_of_lt ‹_›
  · rw [Nat.mod_eq_sub_mod (by omega), Nat.mod_eq_of_lt (by omega)]

/-- Fewer than `numSlots` steps from `cur` reach distinct slots. -/
theorem ringPos_inj (curLt : cur < numSlots) {t u : Nat} (tLt : t < numSlots)
    (uLt : u < numSlots) (same : ringPos numSlots cur t = ringPos numSlots cur u) : t = u := by
  rw [ringPos_eq_mod curLt, ringPos_eq_mod curLt, mod_of_lt_twice (by omega),
    mod_of_lt_twice (by omega)] at same
  split_ifs at same <;> omega

/-- Fewer than `numSlots` steps from `cur` never come back to `cur`. -/
theorem ringPos_succ_ne (curLt : cur < numSlots) {t : Nat} (tLt : t + 1 < numSlots) :
    ringPos numSlots cur (t + 1) ≠ cur := fun back =>
  absurd (ringPos_inj curLt tLt (Nat.lt_of_le_of_lt (Nat.zero_le _) curLt) back) (Nat.succ_ne_zero t)

end Positions

/-- Slot `p` lies in the ring's window: it is one of the `avail` slots from `cur` on. -/
def NetmapRing.InWindow (r : NetmapRing) (p : Nat) : Prop :=
  ∃ t < r.avail, ringPos r.numSlots r.cur t = p

/-- A ring between calls: `cur` in range, `avail` at most the ring's size, and every slot
length within the buffer size. -/
structure NetmapRing.Valid (r : NetmapRing) : Prop where
  numSlots_pos : 0 < r.numSlots
  cur_lt : r.cur < r.numSlots
  avail_le : r.avail ≤ r.numSlots
  len_le : ∀ p < r.numSlots, (r.slot p).len ≤ r.nrBufSize

/-- `r'` is a state an adapter call may leave ring `r` in: the same geometry, `cur` in range,
`avail` no larger, the end `cur + avail` of the window unmoved, and every slot length within
the buffer size. -/
structure NetmapRing.CursorStep (r r' : NetmapRing) : Prop where
  numSlots_eq : r'.numSlots = r.numSlots
  nrBufSize_eq : r'.nrBufSize = r.nrBufSize
  cur_lt : r'.cur < r.numSlots
  avail_le : r'.avail ≤ r.avail
  window_end : (r'.cur + r'.avail) % r.numSlots = (r.cur + r.avail) % r.numSlots
  len_le : ∀ p < r.numSlots, (r'.slot p).len ≤ r.nrBufSize

namespace NetmapRing.CursorStep

variable {r r' r'' : NetmapRing}

theorem refl (valid : r.Valid) : CursorStep r r :=
  ⟨rfl, rfl, valid.cur_lt, Nat.le_refl _, rfl, valid.len_le⟩

theorem valid (step : CursorStep r r') (valid : r.Valid) : r'.Valid where
  numSlots_pos := step.numSlots_eq ▸ valid.numSlots_pos
  cur_lt := step.numSlots_eq ▸ step.cur_lt
  avail_le := step.numSlots_eq ▸ Nat.le_trans step.avail_le valid.avail_le
  len_le := step.numSlots_eq ▸ step.nrBufSize_eq ▸ step.len_le

theorem trans (first : CursorStep r r') (second : CursorStep r' r'') : CursorStep r r'' where
  numSlots_eq := second.numSlots_eq.trans first.numSlots_eq
  nrBufSize_eq := second.nrBufSize_eq.trans first.nrBufSize_eq
  cur_lt := first.numSlots_eq ▸ second.cur_lt
  avail_le := Nat.le_trans second.avail_le first.avail_le
  window_end := first.numSlots_eq ▸ second.window_end.trans (first.numSlots_eq ▸ first.window_end)
  len_le := first.numSlots_eq ▸ first.nrBufSize_eq ▸ second.len_le

end NetmapRing.CursorStep

/-- Stepping `k` slots from `cur` while giving up `k` of `avail` keeps the window's end. -/
theorem ringPos_add_sub_mod {numSlots cur avail k : Nat} (curLt : cur < numSlots)
    (kLe : k ≤ avail) :
    (ringPos numSlots cur k + (avail - k)) % numSlots = (cur + avail) % numSlots := by
  rw [ringPos_eq_mod curLt, Nat.mod_add_mod, Nat.add_assoc, Nat.add_sub_cancel' kLe]

/-! ## Buffers and user copies -/

/-- The `n` bytes of a netmap buffer from byte `ofs` on. -/
def readBuf (buf : Nat → UInt8) (ofs n : Nat) : List UInt8 :=
  (List.range n).map fun k => buf (ofs + k)

/-- `copy_from_user(dst, src, n)` into the start of a netmap buffer. -/
def copyFromUser (dst : Nat → UInt8) (src : List UInt8) (n : Nat) : Nat → UInt8 :=
  fun k => if k < n then src.getD k 0 else dst k

/-- `copy_to_user(dst + ofs, src, src.length)` into one of the caller's segments. -/
def copyToUser (dst : List UInt8) (ofs : Nat) (src : List UInt8) : List UInt8 :=
  dst.take ofs ++ src ++ dst.drop (ofs + src.length)

@[simp] theorem readBuf_length (buf : Nat → UInt8) (ofs n : Nat) :
    (readBuf buf ofs n).length = n := by
  simp [readBuf]

theorem readBuf_add (buf : Nat → UInt8) (ofs a b : Nat) :
    readBuf buf ofs (a + b) = readBuf buf ofs a ++ readBuf buf (ofs + a) b := by
  simp only [readBuf, List.range_add, List.map_append, List.map_map]
  congr 1
  exact List.map_congr_left fun k _ => by simp [Nat.add_assoc]

/-- Part of a buffer's first `len` bytes, read from an offset. -/
theorem readBuf_drop_take (buf : Nat → UInt8) {len ofs n : Nat} (fits : ofs + n ≤ len) :
    ((readBuf buf 0 len).drop ofs).take n = readBuf buf ofs n := by
  obtain ⟨rest, rfl⟩ := Nat.exists_eq_add_of_le fits
  rw [readBuf_add, readBuf_add, List.append_assoc, List.drop_left' (by simp),
    List.take_left' (by simp), Nat.zero_add]

theorem readBuf_copyFromUser (dst : Nat → UInt8) {src : List UInt8} {n : Nat}
    (enough : n ≤ src.length) : readBuf (copyFromUser dst src n) 0 n = src.take n := by
  apply List.ext_getElem (by simp [enough])
  intro k kLt _
  have kLtN : k < n := by simpa using kLt
  simp [readBuf, copyFromUser, kLtN, List.getElem?_eq_getElem (Nat.lt_of_lt_of_le kLtN enough)]

theorem copyToUser_length {dst src : List UInt8} {ofs : Nat} (fits : ofs + src.length ≤ dst.length) :
    (copyToUser dst ofs src).length = dst.length := by
  simp [copyToUser]
  omega

/-- `struct msghdr`: the array `msg_iov` of the caller's segments and its length. Each
segment is the list of bytes at its `iov_base`, `iov_len` of them. -/
structure Msghdr where
  msgIov : Nat → List UInt8
  msgIovlen : Nat

/-- The segments `iov[0] ... iov[msg_iovlen - 1]`, in order. -/
def Msghdr.iovs (m : Msghdr) : List (List UInt8) :=
  (List.range m.msgIovlen).map m.msgIov

/-- The adapter behind a netmap socket: ring 0 of each direction and the buffer pool that
`BDG_NMB` reads through `buf_idx`. -/
structure NetmapAdapter where
  txRing : NetmapRing
  rxRing : NetmapRing
  buffers : Nat → Nat → UInt8

end Netmap
