import Mathlib.Data.Nat.Defs
import Netmap.Socket

/-!
# The netmap device's `mmap` and `ioctl`

`linux_netmap_mmap` maps a descriptor's netmap memory into a process. It returns the error of
`netmap_get_memory` if that fails, and `-EINVAL` if the area does not start and end on a page
boundary. Then it walks the area one page at a time. For each page it asks
`netmap_mem_ofstophys` for the physical address of the page's offset in netmap memory and
installs that frame with `remap_pfn_range`. It stops at the first page whose offset has no
memory (`-EINVAL`) or whose remap fails (that error). `va` and `off` are `unsigned long`, so
`va += PAGE_SIZE`, `off++` and `off << PAGE_SHIFT` are taken modulo `2^64`.

The alignment check is what keeps the walk finite and `va` from wrapping. The loop visits
exactly the pages of `[vm_start, vm_end)`, in order, so it is the walk over that list of
pages (`remapPages`). That walk maps the longest run of pages that succeed and returns the
first failure's error.

`linux_netmap_ioctl` copies a `struct nmreq` in from user memory, runs `netmap_ioctl`, and
copies the request back. A fault on the way back returns `-EFAULT` after the command has taken
effect.
-/

namespace Netmap

/-- The fields of `struct vm_area_struct` that `linux_netmap_mmap` reads. Each is an
`unsigned long`. -/
structure VmArea where
  vmStart : Nat
  vmEnd : Nat
  vmPgoff : Nat
  vmStart_lt : vmStart < 2 ^ 64
  vmEnd_lt : vmEnd < 2 ^ 64
  vmPgoff_lt : vmPgoff < 2 ^ 64

/-- The callees of `linux_netmap_mmap`: the results of `netmap_get_memory` (0 or a positive
errno), of `netmap_mem_ofstophys` (0 outside the memory) and of `remap_pfn_range` for one
page (0 or a negative errno). -/
structure MmapEnv where
  netmapGetMemory : Int
  netmapMemOfstophys : Nat → Nat
  remapPfnRange : Nat → Nat → Int

section Mmap

variable (env : MmapEnv) (pageShift : Nat)

/-- `PAGE_SIZE`, that is `1 << PAGE_SHIFT`. -/
def pageSize : Nat :=
  2 ^ pageShift

theorem pageSize_pos : 0 < pageSize pageShift :=
  Nat.two_pow_pos pageShift

/-- The `for` loop of `linux_netmap_mmap` from `va` and `off`, with the pages mapped so far as
user address and page frame. `none` if it runs more than `fuel` passes. -/
def mmapLoop (vmEnd : Nat) :
    Nat → Nat → Nat → List (Nat × Nat) → Option (Int × List (Nat × Nat))
  | 0, _, _, _ => none
  | fuel + 1, va, off, maps =>
    if va < vmEnd then
      let pa := env.netmapMemOfstophys ((off <<< pageShift) % 2 ^ 64)
      if pa = 0 then some (-einval, maps) else
      let error := env.remapPfnRange va (pa >>> pageShift)
      if error ≠ 0 then some (error, maps) else
      mmapLoop vmEnd fuel ((va + pageSize pageShift) % 2 ^ 64) ((off + 1) % 2 ^ 64)
        (maps ++ [(va, pa >>> pageShift)])
    else some (0, maps)

/-- `linux_netmap_mmap`, with the pages it leaves mapped. `~PAGE_MASK` is `PAGE_SIZE - 1`.
With `2^64` passes the loop never runs out: an area has fewer pages. -/
def linuxNetmapMmap (vma : VmArea) : Option (Int × List (Nat × Nat)) :=
  if env.netmapGetMemory ≠ 0 then some (-env.netmapGetMemory, []) else
  if vma.vmStart &&& (pageSize pageShift - 1) ≠ 0 ∨ vma.vmEnd &&& (pageSize pageShift - 1) ≠ 0 then
    some (-einval, [])
  else mmapLoop env pageShift vma.vmEnd (2 ^ 64) vma.vmStart vma.vmPgoff []

/-! ## The walk over the pages of the area -/

/-- What mapping one page gives: `-EINVAL` if its offset has no memory, else the result of
`remap_pfn_range` for its frame. -/
def pageResult (page : Nat × Nat) : Int :=
  if env.netmapMemOfstophys page.2 = 0 then -einval
  else env.remapPfnRange page.1 (env.netmapMemOfstophys page.2 >>> pageShift)

/-- A page's user address and the frame it is mapped to. -/
def mapPage (page : Nat × Nat) : Nat × Nat :=
  (page.1, env.netmapMemOfstophys page.2 >>> pageShift)

/-- `n` pages from user address `va` and page offset `off`, each with its offset in netmap
memory, `off << PAGE_SHIFT`, as 64-bit words. -/
def mmapPages : Nat → Nat → Nat → List (Nat × Nat)
  | 0, _, _ => []
  | n + 1, va, off =>
    (va, (off <<< pageShift) % 2 ^ 64) ::
      mmapPages n (va + pageSize pageShift) ((off + 1) % 2 ^ 64)

/-- The pages of an area, from `vm_start` on, one for each whole page up to `vm_end`. -/
def vmaPages (vma : VmArea) : List (Nat × Nat) :=
  mmapPages pageShift ((vma.vmEnd - vma.vmStart) / pageSize pageShift) vma.vmStart vma.vmPgoff

/-- Map the pages in order, stopping at the first that fails, with its error. -/
def remapPages : List (Nat × Nat) → List (Nat × Nat) → Int × List (Nat × Nat)
  | [], maps => (0, maps)
  | page :: pages, maps =>
    if pageResult env pageShift page ≠ 0 then (pageResult env pageShift page, maps)
    else remapPages pages (maps ++ [mapPage env pageShift page])

/-- The walk maps the longest run of pages that succeed and returns the error of the first
page that fails, or 0. -/
theorem remapPages_eq (pages maps : List (Nat × Nat)) :
    remapPages env pageShift pages maps =
      ((pages.find? fun page => pageResult env pageShift page != 0).elim 0
          (pageResult env pageShift),
        maps ++ (pages.takeWhile fun page => pageResult env pageShift page == 0).map
          (mapPage env pageShift)) := by
  induction pages generalizing maps with
  | nil => simp [remapPages]
  | cons page pages ih =>
    by_cases fails : pageResult env pageShift page = 0
    · simp [remapPages, fails, ih]
    · simp [remapPages, fails]

/-- The pages in closed form: page `k` is at `va + k * PAGE_SIZE` and maps offset
`(off + k) << PAGE_SHIFT`. -/
theorem mmapPages_eq (n : Nat) : ∀ va off, off < 2 ^ 64 →
    mmapPages pageShift n va off = (List.range n).map fun k =>
      (va + k * pageSize pageShift, (((off + k) % 2 ^ 64) <<< pageShift) % 2 ^ 64) := by
  induction n with
  | zero => intro _ _ _; rfl
  | succ n ih =>
    intro va off offLt
    rw [mmapPages, ih _ _ (Nat.mod_lt _ (Nat.two_pow_pos 64)), List.range_succ_eq_map,
      List.map_cons, List.map_map]
    congr 1
    · rw [Nat.add_zero, Nat.mod_eq_of_lt offLt, Nat.zero_mul, Nat.add_zero]
    · refine List.map_congr_left fun k _ => ?_
      simp only [Function.comp, Prod.mk.injEq]
      constructor
      · rw [Nat.succ_mul]
        omega
      · congr 2
        omega

/-- The loop from `va`, `n` whole pages before `vm_end`, with more than `n` passes of fuel,
is the walk over those `n` pages. Each `va + PAGE_SIZE` stays at most `vm_end`, so it never
wraps. -/
theorem mmapLoop_eq {vmEnd : Nat} (vmEnd_lt : vmEnd < 2 ^ 64) :
    ∀ n fuel va off (maps : List (Nat × Nat)), vmEnd - va = n * pageSize pageShift →
      off < 2 ^ 64 → n < fuel →
      mmapLoop env pageShift vmEnd fuel va off maps =
        some (remapPages env pageShift (mmapPages pageShift n va off) maps)
  | _, 0, _, _, _, _, _, bound => absurd bound (Nat.not_lt_zero _)
  | 0, fuel + 1, va, off, maps, left, _, _ => by
    -- no page left: `va` has reached `vm_end`
    rw [mmapLoop, if_neg (by simp at left; omega)]
    rfl
  | n + 1, fuel + 1, va, off, maps, left, offLt, bound => by
    have positive := pageSize_pos pageShift
    rw [Nat.succ_mul] at left
    rw [mmapLoop, if_pos (by omega), mmapPages, remapPages, pageResult, mapPage,
      Nat.mod_eq_of_lt (show va + pageSize pageShift < 2 ^ 64 by omega)]
    by_cases noMemory : env.netmapMemOfstophys ((off <<< pageShift) % 2 ^ 64) = 0
    · simp only [noMemory, ↓reduceIte, ne_eq, if_pos (show -einval ≠ 0 by decide)]
    · by_cases failed : env.remapPfnRange va
          (env.netmapMemOfstophys ((off <<< pageShift) % 2 ^ 64) >>> pageShift) = 0
      · simp only [noMemory, failed, ↓reduceIte, ne_eq, not_true_eq_false]
        exact mmapLoop_eq vmEnd_lt n fuel _ _ _ (by omega) (Nat.mod_lt _ (Nat.two_pow_pos 64))
          (Nat.lt_of_succ_lt_succ bound)
      · simp only [noMemory, failed, ↓reduceIte, ne_eq, not_false_eq_true]

/-- An area that starts and ends on a page boundary, with memory: the loop is the walk over
its pages. -/
theorem linuxNetmapMmap_of_aligned (vma : VmArea) (memory : env.netmapGetMemory = 0)
    (aligned : vma.vmStart % pageSize pageShift = 0 ∧ vma.vmEnd % pageSize pageShift = 0) :
    linuxNetmapMmap env pageShift vma =
      some (remapPages env pageShift (vmaPages pageShift vma) []) := by
  have whole : vma.vmEnd - vma.vmStart =
      (vma.vmEnd - vma.vmStart) / pageSize pageShift * pageSize pageShift :=
    (Nat.div_mul_cancel (Nat.dvd_of_mod_eq_zero
      (Nat.sub_mod_eq_zero_of_mod_eq (aligned.2.trans aligned.1.symm)))).symm
  have fewer : (vma.vmEnd - vma.vmStart) / pageSize pageShift < 2 ^ 64 :=
    Nat.lt_of_le_of_lt (Nat.div_le_self _ _) (by have := vma.vmEnd_lt; omega)
  rw [linuxNetmapMmap, if_neg (not_not.mpr memory), pageSize, Nat.and_pow_two_sub_one_eq_mod,
    Nat.and_pow_two_sub_one_eq_mod, ← pageSize, if_neg (by simp [aligned.1, aligned.2])]
  exact mmapLoop_eq env pageShift vma.vmEnd_lt _ _ _ _ _ whole vma.vmPgoff_lt fewer

/-- `linux_netmap_mmap` fails at once without memory or on an unaligned area; otherwise it maps
the area's pages in order, each at the frame of its 64-bit offset, up to the first that
fails, and returns that page's error, or 0 when all succeed. -/
theorem linuxNetmapMmap_spec (vma : VmArea) :
    vmaPages pageShift vma =
        (List.range ((vma.vmEnd - vma.vmStart) / pageSize pageShift)).map (fun k =>
          (vma.vmStart + k * pageSize pageShift,
            (((vma.vmPgoff + k) % 2 ^ 64) <<< pageShift) % 2 ^ 64)) ∧
      linuxNetmapMmap env pageShift vma =
        some (if env.netmapGetMemory ≠ 0 then (-env.netmapGetMemory, [])
          else if vma.vmStart % pageSize pageShift ≠ 0 ∨ vma.vmEnd % pageSize pageShift ≠ 0 then
            (-einval, [])
          else
            (((vmaPages pageShift vma).find? fun page => pageResult env pageShift page != 0).elim
                0 (pageResult env pageShift),
              ((vmaPages pageShift vma).takeWhile fun page =>
                pageResult env pageShift page == 0).map (mapPage env pageShift))) := by
  refine ⟨mmapPages_eq pageShift _ _ _ vma.vmPgoff_lt, ?_⟩
  by_cases memory : env.netmapGetMemory = 0
  · by_cases aligned : vma.vmStart % pageSize pageShift = 0 ∧ vma.vmEnd % pageSize pageShift = 0
    · rw [linuxNetmapMmap_of_aligned env pageShift vma memory aligned, remapPages_eq,
        if_neg (not_not.mpr memory), if_neg (by simp [aligned.1, aligned.2]), List.nil_append]
    · -- `vm_start` or `vm_end` is not on a page boundary
      have misaligned :
          vma.vmStart % pageSize pageShift ≠ 0 ∨ vma.vmEnd % pageSize pageShift ≠ 0 := by
        omega
      rw [linuxNetmapMmap, if_neg (not_not.mpr memory), if_neg (not_not.mpr memory), pageSize,
        Nat.and_pow_two_sub_one_eq_mod, Nat.and_pow_two_sub_one_eq_mod, ← pageSize,
        if_pos misaligned, if_pos misaligned]
  · simp [linuxNetmapMmap, memory]

/-- Two pages of 4 KiB where only the first offset has memory: the first page is mapped and
the call returns `-EINVAL`. -/
example :
    linuxNetmapMmap ⟨0, fun ofs => if ofs = 0 then 4096 else 0, fun _ _ => 0⟩ 12
      ⟨0, 8192, 0, by decide, by decide, by decide⟩ = some (-22, [(0, 1)]) := by
  decide

/-! ## `linux_netmap_ioctl` -/

/-- Linux's `EFAULT`. -/
def efault : Int := 14

/-- The callees of `linux_netmap_ioctl`, for requests of type `req` and netmap state `σ`:
the sync command numbers, the zeroed request, the two user copies (each may fault) and
`netmap_ioctl` itself. -/
structure IoctlEnv (req σ : Type) where
  niocTxsync : Nat
  niocRxsync : Nat
  zeroReq : req
  copyFromUser : Nat → Option req
  copyToUser : Nat → req → Bool
  netmapIoctl : Nat → req → σ → Int × req × σ

/-- `linux_netmap_ioctl(file, cmd, data)`: copy the request in (or zero it, for a sync
command or a null `data`), run `netmap_ioctl`, copy the request back, and return minus its
result, or `-EFAULT` at a fault. -/
def linuxNetmapIoctl {req σ : Type} (env : IoctlEnv req σ) (cmd data : Nat) (st : σ) : Int × σ :=
  let data := if cmd = env.niocTxsync ∨ cmd = env.niocRxsync then 0 else data
  match (if data ≠ 0 then env.copyFromUser data else some env.zeroReq) with
  | none => (-efault, st)
  | some nmr =>
    match env.netmapIoctl cmd nmr st with
    | (ret, nmr, st) => if data ≠ 0 ∧ env.copyToUser data nmr = false then (-efault, st) else (-ret, st)

/-- The four ways `linux_netmap_ioctl` ends: a sync command, a fault on the copy in (state
untouched), a fault on the copy back (after `netmap_ioctl` ran), or minus `netmap_ioctl`'s
result. -/
theorem linuxNetmapIoctl_cases {req σ : Type} (env : IoctlEnv req σ) (cmd data : Nat) (st : σ) :
    ((cmd = env.niocTxsync ∨ cmd = env.niocRxsync ∨ data = 0) ∧
      linuxNetmapIoctl env cmd data st =
        (-(env.netmapIoctl cmd env.zeroReq st).1, (env.netmapIoctl cmd env.zeroReq st).2.2)) ∨
    (cmd ≠ env.niocTxsync ∧ cmd ≠ env.niocRxsync ∧ data ≠ 0) ∧
      (env.copyFromUser data = none ∧ linuxNetmapIoctl env cmd data st = (-efault, st) ∨
        ∃ nmr, env.copyFromUser data = some nmr ∧
          (env.copyToUser data (env.netmapIoctl cmd nmr st).2.1 = false ∧
              linuxNetmapIoctl env cmd data st = (-efault, (env.netmapIoctl cmd nmr st).2.2) ∨
            env.copyToUser data (env.netmapIoctl cmd nmr st).2.1 = true ∧
              linuxNetmapIoctl env cmd data st =
                (-(env.netmapIoctl cmd nmr st).1, (env.netmapIoctl cmd nmr st).2.2))) := by
  by_cases noArgument : cmd = env.niocTxsync ∨ cmd = env.niocRxsync ∨ data = 0
  · refine .inl ⟨noArgument, ?_⟩
    have dropped : (if cmd = env.niocTxsync ∨ cmd = env.niocRxsync then 0 else data) = 0 := by
      split_ifs <;> simp_all
    simp only [linuxNetmapIoctl, dropped, ne_eq, not_true_eq_false, if_false, false_and]
  · simp only [not_or] at noArgument
    obtain ⟨notTx, notRx, given⟩ := noArgument
    refine .inr ⟨⟨notTx, notRx, given⟩, ?_⟩
    simp only [linuxNetmapIoctl, notTx, notRx, or_self, if_false, ne_eq, given, not_false_eq_true,
      if_true, true_and]
    cases copied : env.copyFromUser data with
    | none => exact .inl ⟨rfl, rfl⟩
    | some nmr =>
      refine .inr ⟨nmr, rfl, ?_⟩
      cases written : env.copyToUser data (env.netmapIoctl cmd nmr st).2.1 <;> simp [written]

end Mmap

end Netmap
