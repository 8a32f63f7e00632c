import Mathlib.Algebra.Group.Int
import Mathlib.Logic.Function.Basic

/-!
# The socket of a netmap adapter

`get_netmap_socket` gives a kernel consumer such as vhost-net a socket whose `sendmsg` and
`recvmsg` work on the rings of the adapter a netmap descriptor is bound to. The first call on
an adapter sets the socket up (`netmap_sock_setup`): it allocates the socket and a fake skb,
stores the socket in `na->na_private`, and installs `netmap_socket_nm_dtor` as `na->nm_dtor`,
saving the driver's destructor in the socket. Later calls return the same socket. When the
adapter goes away, its destructor tears the socket down (`netmap_sock_teardown`), puts the
driver's destructor back and calls it. A file that `linux_netmap_open` has just set up has a
zeroed `netmap_priv_d`, bound to no adapter, so it gives no socket until it is registered.

The calls run under `NMG_LOCK` and are one step each here. Between them, code outside this
file may change the descriptor tables, the files, and which adapters the kernel owns. From
attach on (`SockReachable`), an adapter has the socket destructor exactly when it has a
socket, and that socket saved the driver's destructor. The objects this file has allocated and
not freed are exactly the sockets and fake skbs the adapters hold (`SockInv`). So the
destructor never recurses into itself, and it frees what setup allocated.

Errno values are those of Linux (`asm-generic/errno-base.h`).
-/

namespace Netmap

/-! ## The state -/

/-- A value of `na->nm_dtor`: `NULL`, a destructor of the driver, or
`netmap_socket_nm_dtor`. -/
inductive NmDtor where
  | null
  | driver (k : Nat)
  | netmapSocketNmDtor
  deriving DecidableEq, Repr

/-- The destructor a driver installs when it attaches: `NULL` or one of its own. -/
def NmDtor.ofDriver : Option Nat → NmDtor
  | none => .null
  | some k => .driver k

/-- The fields of `struct netmap_sock` that this file reads. `sk` is the socket object,
whose address `get_netmap_socket` returns. `skReceiveQueue` holds the fake skb. `na` is the
adapter and `owner` the task that set the socket up. -/
structure NetmapSock where
  sk : Nat
  skReceiveQueue : List Nat
  na : Nat
  owner : Nat
  savedNmDtor : NmDtor
  deriving DecidableEq, Repr

/-- The kernel objects a socket holds: itself and the skbs on its receive queue. -/
def NetmapSock.objects (sock : NetmapSock) : List Nat :=
  sock.sk :: sock.skReceiveQueue

/-- The fields of `struct netmap_adapter` the socket support reads and writes. -/
structure SockAdapter where
  naPrivate : Option NetmapSock
  nmDtor : NmDtor
  deriving DecidableEq, Repr

/-- An adapter as its driver attached it: no socket, and the driver's destructor. -/
def SockAdapter.attached (own : Option Nat) : SockAdapter :=
  ⟨none, .ofDriver own⟩

/-- Object `id` belongs to the adapter's socket. -/
def SockAdapter.holds (na : SockAdapter) (id : Nat) : Bool :=
  match na.naPrivate with
  | none => false
  | some sock => decide (id ∈ sock.objects)

@[simp] theorem SockAdapter.holds_attached (own : Option Nat) (id : Nat) :
    (SockAdapter.attached own).holds id = false := rfl

theorem SockAdapter.holds_of_none {na : SockAdapter} (noSocket : na.naPrivate = none) (id : Nat) :
    na.holds id = false := by
  rw [holds, noSocket]

/-- Clearing `na_private` of an adapter without a socket leaves it as it was. -/
theorem SockAdapter.clear_of_none {na : SockAdapter} (noSocket : na.naPrivate = none) :
    { na with naPrivate := none } = na := by
  cases na
  cases noSocket
  rfl

/-- `filp->f_op`: the netmap device's `netmap_fops`, or the operations of another file. -/
inductive FileOps where
  | netmapFops
  | other (k : Nat)
  deriving DecidableEq, Repr

/-- `struct netmap_priv_d`, of which this file reads `np_na`: the adapter the descriptor is
bound to, if any. -/
structure NetmapPrivD where
  npNa : Option Nat
  deriving DecidableEq, Repr

/-- The fields of `struct file` that `get_netmap_socket` reads, and the reference count that
`fget` raises. -/
structure NetmapFile where
  fOp : FileOps
  privateData : Option NetmapPrivD
  fCount : Nat
  deriving DecidableEq, Repr

/-- What the socket support sees of the kernel: descriptor tables, files, adapters, which
adapters the kernel owns, which of its own allocations are live, and the next one's number. -/
@[ext] structure SockSystem where
  fdTable : Nat → Nat → Option Nat
  files : Nat → NetmapFile
  adapters : Nat → SockAdapter
  ownedByKern : Nat → Bool
  live : Nat → Bool
  nextObj : Nat

/-- Whether the allocations of one `netmap_sock_setup` succeed: `sk_alloc`, then `alloc_skb`
for the fake skb. -/
structure SockAlloc where
  skAlloc : Bool
  allocSkb : Bool
  deriving DecidableEq, Repr

/-- What `get_netmap_socket` returns: the address of a socket, or `ERR_PTR(e)`. -/
inductive SocketPtr where
  | sock (sk : Nat)
  | errPtr (e : Int)
  deriving DecidableEq, Repr

/-- Linux's `EBADF`. -/
def ebadf : Int := 9

/-- Linux's `ENOMEM`. -/
def enomem : Int := 12

/-- Linux's `EBUSY`. -/
def ebusy : Int := 16

/-- Linux's `EINVAL`. -/
def einval : Int := 22

namespace SockSystem

/-- Replace adapter `a`. -/
def setAdapter (s : SockSystem) (a : Nat) (na : SockAdapter) : SockSystem :=
  { s with adapters := Function.update s.adapters a na }

/-- Allocate the next object. -/
def alloc (s : SockSystem) : SockSystem :=
  { s with live := Function.update s.live s.nextObj true, nextObj := s.nextObj + 1 }

/-- Free object `id`. -/
def free (s : SockSystem) (id : Nat) : SockSystem :=
  { s with live := Function.update s.live id false }

/-- The reference `fget` takes on file `f`. -/
def fget (s : SockSystem) (f : Nat) : SockSystem :=
  { s with files := Function.update s.files f { s.files f with fCount := (s.files f).fCount + 1 } }

@[simp] theorem setAdapter_adapters (s : SockSystem) (a : Nat) (na : SockAdapter) :
    (s.setAdapter a na).adapters = Function.update s.adapters a na := rfl

@[simp] theorem setAdapter_live (s : SockSystem) (a : Nat) (na : SockAdapter) :
    (s.setAdapter a na).live = s.live := rfl

@[simp] theorem setAdapter_nextObj (s : SockSystem) (a : Nat) (na : SockAdapter) :
    (s.setAdapter a na).nextObj = s.nextObj := rfl

@[simp] theorem setAdapter_files (s : SockSystem) (a : Nat) (na : SockAdapter) :
    (s.setAdapter a na).files = s.files := rfl

@[simp] theorem alloc_adapters (s : SockSystem) : s.alloc.adapters = s.adapters := rfl

@[simp] theorem alloc_live (s : SockSystem) :
    s.alloc.live = Function.update s.live s.nextObj true := rfl

@[simp] theorem alloc_nextObj (s : SockSystem) : s.alloc.nextObj = s.nextObj + 1 := rfl

@[simp] theorem alloc_files (s : SockSystem) : s.alloc.files = s.files := rfl

@[simp] theorem free_adapters (s : SockSystem) (id : Nat) : (s.free id).adapters = s.adapters :=
  rfl

@[simp] theorem free_live (s : SockSystem) (id : Nat) :
    (s.free id).live = Function.update s.live id false := rfl

@[simp] theorem free_nextObj (s : SockSystem) (id : Nat) : (s.free id).nextObj = s.nextObj := rfl

@[simp] theorem free_files (s : SockSystem) (id : Nat) : (s.free id).files = s.files := rfl

@[simp] theorem fget_live (s : SockSystem) (f : Nat) : (s.fget f).live = s.live := rfl

@[simp] theorem fget_nextObj (s : SockSystem) (f : Nat) : (s.fget f).nextObj = s.nextObj := rfl

@[simp] theorem fget_ownedByKern (s : SockSystem) (f : Nat) :
    (s.fget f).ownedByKern = s.ownedByKern := rfl

/-- `fget` changes nothing of a file but its count. -/
@[simp] theorem fget_files_fOp (s : SockSystem) (f g : Nat) :
    ((s.fget f).files g).fOp = (s.files g).fOp := by
  by_cases same : g = f
  · subst same
    simp [fget]
  · simp [fget, same]

@[simp] theorem fget_files_privateData (s : SockSystem) (f g : Nat) :
    ((s.fget f).files g).privateData = (s.files g).privateData := by
  by_cases same : g = f
  · subst same
    simp [fget]
  · simp [fget, same]

/-- Freeing every object of a list clears exactly those. -/
theorem foldl_free (l : List Nat) (s : SockSystem) :
    l.foldl free s = { s with live := fun id => if id ∈ l then false else s.live id } := by
  induction l generalizing s with
  | nil => rfl
  | cons x l ih =>
    rw [List.foldl_cons, ih]
    ext id <;> try rfl
    by_cases here : id = x <;> simp [here, Function.update]

/-- Putting back the adapter that is there changes nothing. -/
theorem setAdapter_of_eq {s : SockSystem} {a : Nat} {na : SockAdapter} (same : s.adapters a = na) :
    s.setAdapter a na = s := by
  subst same
  ext <;> simp [setAdapter]

end SockSystem

/-! ## The functions -/

/-- `netmap_sock_setup` on adapter `a` for task `current`: allocate the socket and the fake
skb (undoing the first if the second fails), then point the socket at the adapter and swap
in `netmap_socket_nm_dtor`, saving the driver's destructor. -/
def netmapSockSetup (s : SockSystem) (a current : Nat) (alloc : SockAlloc) :
    SockSystem × Option NetmapSock :=
  let na := s.adapters a
  if !alloc.skAlloc then (s.setAdapter a { na with naPrivate := none }, none) else
  let sk := s.nextObj
  if !alloc.allocSkb then ((s.alloc.free sk).setAdapter a { na with naPrivate := none }, none)
  else
    let sock : NetmapSock := ⟨sk, [sk + 1], a, current, na.nmDtor⟩
    (s.alloc.alloc.setAdapter a ⟨some sock, .netmapSocketNmDtor⟩, some sock)

/-- `netmap_sock_teardown`: if adapter `a` has a socket, put back the destructor it saved,
purge its receive queue, free it and clear `na->na_private`. The `sock_put` before
`sk_free` only drops the reference `sock_hold` took and frees nothing. -/
def netmapSockTeardown (s : SockSystem) (a : Nat) : SockSystem :=
  match (s.adapters a).naPrivate with
  | none => s
  | some sock =>
    let s := s.setAdapter a { s.adapters a with nmDtor := sock.savedNmDtor }
    let s := (sock.skReceiveQueue.foldl SockSystem.free s).free sock.sk
    s.setAdapter a { s.adapters a with naPrivate := none }

/-- A call through `na->nm_dtor` guarded by `if (na->nm_dtor)`, with the driver destructors
it calls. `netmap_socket_nm_dtor` tears the socket down and then calls, through the same
guard, the destructor it put back. `none` if the calls nest deeper than `fuel`. -/
def callNmDtor : Nat → SockSystem → Nat → Option (SockSystem × List Nat)
  | fuel, s, a =>
    match (s.adapters a).nmDtor with
    | .null => some (s, [])
    | .driver k => some (s, [k])
    | .netmapSocketNmDtor =>
      match fuel with
      | 0 => none
      | fuel + 1 => callNmDtor fuel (netmapSockTeardown s a) a

/-- `netmap_socket_nm_dtor`: `netmap_sock_teardown`, then the saved destructor, if any. -/
def netmapSocketNmDtor (fuel : Nat) (s : SockSystem) (a : Nat) :
    Option (SockSystem × List Nat) :=
  callNmDtor fuel (netmapSockTeardown s a) a

theorem callNmDtor_of_socket {fuel : Nat} {s : SockSystem} {a : Nat}
    (installed : (s.adapters a).nmDtor = .netmapSocketNmDtor) :
    callNmDtor (fuel + 1) s a = netmapSocketNmDtor fuel s a := by
  rw [callNmDtor, installed]
  rfl

/-- The test `(!nm_sock || nm_sock->owner != current)`. -/
def notOwner (nmSock : Option NetmapSock) (current : Nat) : Bool :=
  match nmSock with
  | none => true
  | some sock => sock.owner != current

/-- The part of `get_netmap_socket` under `NMG_LOCK`, on adapter `a`: `EBUSY` if the kernel
owns `a` and `current` not its socket, else `a`'s socket, set up if there is none (`ENOMEM`
if that fails). -/
def getAdapterSocket (s : SockSystem) (a current : Nat) (alloc : SockAlloc) :
    SockSystem × SocketPtr :=
  let nmSock := (s.adapters a).naPrivate
  if s.ownedByKern a && notOwner nmSock current then (s, .errPtr ebusy) else
  match nmSock with
  | some sock => (s, .sock sock.sk)
  | none =>
    match netmapSockSetup s a current alloc with
    | (s, none) => (s, .errPtr enomem)
    | (s, some sock) => (s, .sock sock.sk)

/-- `get_netmap_socket(fd)` called by task `current`. `fget` looks the descriptor up and
takes a reference on its file. The call returns `EBADF` if there is no file, `EINVAL` if it
is not a netmap file, and `EBADF` if it has no `netmap_priv_d` or is bound to no adapter. -/
def getNetmapSocket (s : SockSystem) (current fd : Nat) (alloc : SockAlloc) :
    SockSystem × SocketPtr :=
  match s.fdTable current fd with
  | none => (s, .errPtr ebadf)
  | some f =>
    let s := s.fget f
    match (s.files f).fOp with
    | .other _ => (s, .errPtr einval)
    | .netmapFops =>
      match (s.files f).privateData with
      | none => (s, .errPtr ebadf)
      | some priv =>
        match priv.npNa with
        | none => (s, .errPtr ebadf)
        | some a => getAdapterSocket s a current alloc

/-- `linux_netmap_open` on file `f`, given whether the `malloc` of the `netmap_priv_d`
succeeds. The file gets a zeroed one, bound to no adapter, and the call returns 0. If the
`malloc` fails it returns `-ENOMEM` and leaves the file as it was. -/
def linuxNetmapOpen (s : SockSystem) (f : Nat) (malloc : Bool) : SockSystem × Int :=
  if !malloc then (s, -enomem) else
  ({ s with files := Function.update s.files f { s.files f with privateData := some ⟨none⟩ } }, 0)

/-- The kernel after the drivers attached, with destructors `own`: no sockets, nothing
allocated. -/
def SockSystem.init (own : Nat → Option Nat) (fdTable : Nat → Nat → Option Nat)
    (files : Nat → NetmapFile) (ownedByKern : Nat → Bool) : SockSystem :=
  ⟨fdTable, files, fun a => .attached (own a), ownedByKern, fun _ => false, 0⟩

/-- The states reachable from attach by `get_netmap_socket` calls, destructor calls, and
changes made outside this file to the descriptor tables, the files and the kernel's
ownership of adapters. -/
inductive SockReachable (own : Nat → Option Nat) : SockSystem → Prop where
  | init (fdTable : Nat → Nat → Option Nat) (files : Nat → NetmapFile)
      (ownedByKern : Nat → Bool) :
      SockReachable own (.init own fdTable files ownedByKern)
  | get {s : SockSystem} (current fd : Nat) (alloc : SockAlloc) :
      SockReachable own s → SockReachable own (getNetmapSocket s current fd alloc).1
  | dtor {s s' : SockSystem} {calls : List Nat} (fuel a : Nat) :
      SockReachable own s → callNmDtor fuel s a = some (s', calls) → SockReachable own s'
  | external {s : SockSystem} (fdTable : Nat → Nat → Option Nat) (files : Nat → NetmapFile)
      (ownedByKern : Nat → Bool) :
      SockReachable own s →
        SockReachable own { s with fdTable := fdTable, files := files, ownedByKern := ownedByKern }

/-! ## What one call does -/

section Steps

variable {s : SockSystem} {a : Nat}

/-- The two ways `netmap_sock_setup` ends on an adapter without a socket. Unless both
allocations succeed it returns `NULL`, with the state as it was or the socket allocated and
freed again. Otherwise it returns the socket it set up. -/
theorem netmapSockSetup_cases (noSocket : (s.adapters a).naPrivate = none) (current : Nat)
    (alloc : SockAlloc) :
    alloc ≠ ⟨true, true⟩ ∧ (netmapSockSetup s a current alloc).2 = none ∧
      ((netmapSockSetup s a current alloc).1 = s ∨
        (netmapSockSetup s a current alloc).1 = s.alloc.free s.nextObj) ∨
    alloc = ⟨true, true⟩ ∧ netmapSockSetup s a current alloc =
      (s.alloc.alloc.setAdapter a
          ⟨some ⟨s.nextObj, [s.nextObj + 1], a, current, (s.adapters a).nmDtor⟩,
            .netmapSocketNmDtor⟩,
        some ⟨s.nextObj, [s.nextObj + 1], a, current, (s.adapters a).nmDtor⟩) := by
  have clear := SockAdapter.clear_of_none noSocket
  rcases alloc with ⟨_ | _, _ | _⟩
  · exact .inl ⟨by decide, rfl,
      .inl (by simp [netmapSockSetup, clear, SockSystem.setAdapter_of_eq])⟩
  · exact .inl ⟨by decide, rfl,
      .inl (by simp [netmapSockSetup, clear, SockSystem.setAdapter_of_eq])⟩
  · exact .inl ⟨by decide, rfl,
      .inr (by simp [netmapSockSetup, clear, SockSystem.setAdapter_of_eq])⟩
  · exact .inr ⟨rfl, rfl⟩

theorem netmapSockTeardown_of_none (noSocket : (s.adapters a).naPrivate = none) :
    netmapSockTeardown s a = s := by
  unfold netmapSockTeardown
  rw [noSocket]

theorem netmapSockTeardown_of_some {sock : NetmapSock}
    (held : (s.adapters a).naPrivate = some sock) :
    netmapSockTeardown s a =
      { s with adapters := Function.update s.adapters a ⟨none, sock.savedNmDtor⟩,
               live := fun id => s.live id && !(s.adapters a).holds id } := by
  unfold netmapSockTeardown
  rw [held]
  simp only [SockSystem.foldl_free]
  ext
  · rfl
  · rfl
  · simp [SockSystem.setAdapter]
  · rfl
  · rename_i id
    by_cases sk : id = sock.sk <;> by_cases skb : id ∈ sock.skReceiveQueue <;>
      simp [SockAdapter.holds, held, NetmapSock.objects, Function.update, sk, skb]
  · rfl

theorem callNmDtor_of_driver {own : Option Nat} (installed : (s.adapters a).nmDtor = .ofDriver own)
    (fuel : Nat) : callNmDtor fuel s a = some (s, own.toList) := by
  cases fuel <;> cases own <;> rw [callNmDtor, installed] <;> rfl

/-- The three ways the part of `get_netmap_socket` under `NMG_LOCK` ends: `EBUSY`, the
adapter's socket, or what `netmap_sock_setup` gives. -/
theorem getAdapterSocket_cases (current : Nat) (alloc : SockAlloc) :
    (s.ownedByKern a && notOwner (s.adapters a).naPrivate current) = true ∧
      getAdapterSocket s a current alloc = (s, .errPtr ebusy) ∨
    (s.ownedByKern a && notOwner (s.adapters a).naPrivate current) = false ∧
      (∃ sock, (s.adapters a).naPrivate = some sock ∧
        getAdapterSocket s a current alloc = (s, .sock sock.sk)) ∨
    (s.ownedByKern a && notOwner (s.adapters a).naPrivate current) = false ∧
      (s.adapters a).naPrivate = none ∧
      getAdapterSocket s a current alloc = ((netmapSockSetup s a current alloc).1,
        match (netmapSockSetup s a current alloc).2 with
        | none => .errPtr enomem
        | some sock => .sock sock.sk) := by
  simp only [getAdapterSocket]
  cases busy : (s.ownedByKern a && notOwner (s.adapters a).naPrivate current)
  · cases held : (s.adapters a).naPrivate with
    | none =>
      refine .inr (.inr ⟨rfl, rfl, ?_⟩)
      rcases netmapSockSetup s a current alloc with ⟨t, _ | sock⟩ <;> rfl
    | some sock => exact .inr (.inl ⟨rfl, sock, rfl, rfl⟩)
  · exact .inl ⟨rfl, rfl⟩

/-- The ways `get_netmap_socket` ends before it reaches an adapter, and where it reaches
one. -/
theorem getNetmapSocket_cases (s : SockSystem) (current fd : Nat) (alloc : SockAlloc) :
    s.fdTable current fd = none ∧ getNetmapSocket s current fd alloc = (s, .errPtr ebadf) ∨
    ∃ f, s.fdTable current fd = some f ∧
      (getNetmapSocket s current fd alloc = (s.fget f, .errPtr einval) ∨
        getNetmapSocket s current fd alloc = (s.fget f, .errPtr ebadf) ∨
        ∃ a, getNetmapSocket s current fd alloc =
          getAdapterSocket (s.fget f) a current alloc) := by
  simp only [getNetmapSocket]
  cases table : s.fdTable current fd with
  | none => exact .inl ⟨rfl, rfl⟩
  | some f =>
    refine .inr ⟨f, rfl, ?_⟩
    simp only [SockSystem.fget_files_fOp, SockSystem.fget_files_privateData]
    cases (s.files f).fOp with
    | other k => exact .inl rfl
    | netmapFops =>
      rcases (s.files f).privateData with _ | ⟨_ | a⟩
      · exact .inr (.inl rfl)
      · exact .inr (.inl rfl)
      · exact .inr (.inr ⟨a, rfl⟩)

/-- On a descriptor of a netmap file bound to adapter `a`, `get_netmap_socket` takes the
file reference and goes on to the adapter. -/
theorem getNetmapSocket_of_bound {current fd f : Nat} (alloc : SockAlloc)
    (opened : s.fdTable current fd = some f) (netmap : (s.files f).fOp = .netmapFops)
    (bound : (s.files f).privateData = some ⟨some a⟩) :
    getNetmapSocket s current fd alloc = getAdapterSocket (s.fget f) a current alloc := by
  simp [getNetmapSocket, opened, netmap, bound]

end Steps

/-! ## The invariant -/

/-- What holds of adapter `a`, whose driver installed destructor `own`. Without a socket it
has that destructor. With one it has `netmap_socket_nm_dtor`, and the socket saved the
driver's destructor, points back at `a`, and holds one fake skb. -/
def AdapterInv (own : Option Nat) (a : Nat) (na : SockAdapter) : Prop :=
  match na.naPrivate with
  | none => na.nmDtor = .ofDriver own
  | some sock => na.nmDtor = .netmapSocketNmDtor ∧ sock.savedNmDtor = .ofDriver own ∧
      sock.na = a ∧ ∃ skb, sock.skReceiveQueue = [skb]

/-- What the socket support keeps over every run, for drivers that installed `own`. -/
structure SockInv (own : Nat → Option Nat) (s : SockSystem) : Prop where
  adapter : ∀ a, AdapterInv (own a) a (s.adapters a)
  /-- The live objects are those the adapters' sockets hold. -/
  live : ∀ id, s.live id = true ↔ ∃ a, (s.adapters a).holds id = true
  /-- They are numbered below the next allocation. -/
  fresh : ∀ a id, (s.adapters a).holds id = true → id < s.nextObj
  /-- No object belongs to two adapters. -/
  disjoint : ∀ a b id, (s.adapters a).holds id = true → (s.adapters b).holds id = true → a = b

theorem sockInv_init (own : Nat → Option Nat) (fdTable : Nat → Nat → Option Nat)
    (files : Nat → NetmapFile) (ownedByKern : Nat → Bool) :
    SockInv own (.init own fdTable files ownedByKern) where
  adapter _ := rfl
  live _ := by simp [SockSystem.init]
  fresh _ _ held := by simp [SockSystem.init] at held
  disjoint _ _ _ held := by simp [SockSystem.init] at held

section Invariant

variable {own : Nat → Option Nat} {s t : SockSystem}

theorem AdapterInv.eq_attached {own : Option Nat} {a : Nat} {na : SockAdapter}
    (kept : AdapterInv own a na) (noSocket : na.naPrivate = none) : na = .attached own := by
  rw [AdapterInv, noSocket] at kept
  cases na
  cases noSocket
  cases kept
  rfl

/-- The invariant reads only the adapters, the live objects and the next number. -/
theorem SockInv.of_fields (inv : SockInv own s) (adapters : t.adapters = s.adapters)
    (live : t.live = s.live) (next : t.nextObj = s.nextObj) : SockInv own t := by
  obtain ⟨kept, liveHeld, fresh, disjoint⟩ := inv
  exact ⟨by rwa [adapters], by rwa [adapters, live], by rwa [adapters, next],
    by rwa [adapters]⟩

theorem SockInv.not_live_nextObj (inv : SockInv own s) : s.live s.nextObj = false := by
  cases live : s.live s.nextObj
  · rfl
  · obtain ⟨a, held⟩ := (inv.live _).mp live
    exact absurd (inv.fresh a _ held) (Nat.lt_irrefl _)

/-- Adapter `a` replaced by `na`, which keeps `AdapterInv`, with the objects of the old one
freed and those of `na` allocated above every older one: the invariant survives. Setup and
teardown both go through this. -/
theorem SockInv.replace (inv : SockInv own s) {a : Nat} {na : SockAdapter}
    (adapters : t.adapters = Function.update s.adapters a na) (kept : AdapterInv (own a) a na)
    (live : ∀ id, t.live id = true ↔
      s.live id = true ∧ (s.adapters a).holds id = false ∨ na.holds id = true)
    (newObj : ∀ id, na.holds id = true → s.nextObj ≤ id ∧ id < t.nextObj)
    (grows : s.nextObj ≤ t.nextObj) : SockInv own t := by
  have holds : ∀ b id,
      (t.adapters b).holds id = if b = a then na.holds id else (s.adapters b).holds id := by
    intro b id
    by_cases same : b = a
    · subst same
      simp [adapters]
    · simp [adapters, same]
  refine ⟨fun b => ?_, fun id => ?_, fun b id held => ?_, fun b c id heldB heldC => ?_⟩
  · by_cases same : b = a
    · subst same
      simpa [adapters] using kept
    · simpa [adapters, same] using inv.adapter b
  · rw [live, inv.live]
    constructor
    · rintro (⟨⟨b, held⟩, notA⟩ | new)
      · have other : b ≠ a := fun same => by simp [same, notA] at held
        exact ⟨b, by simpa [holds, other] using held⟩
      · exact ⟨a, by simpa [holds] using new⟩
    · rintro ⟨b, held⟩
      by_cases same : b = a
      · exact .inr (by simpa [holds, same] using held)
      · have old : (s.adapters b).holds id = true := by simpa [holds, same] using held
        refine .inl ⟨⟨b, old⟩, ?_⟩
        cases heldA : (s.adapters a).holds id
        · rfl
        · exact absurd (inv.disjoint _ _ _ old heldA) same
  · by_cases same : b = a
    · exact (newObj id (by simpa [holds, same] using held)).2
    · exact Nat.lt_of_lt_of_le (inv.fresh b id (by simpa [holds, same] using held)) grows
  · by_cases sameB : b = a <;> by_cases sameC : c = a
    · rw [sameB, sameC]
    · have old := inv.fresh c id (by simpa [holds, sameC] using heldC)
      exact absurd old (Nat.not_lt.mpr (newObj id (by simpa [holds, sameB] using heldB)).1)
    · have old := inv.fresh b id (by simpa [holds, sameB] using heldB)
      exact absurd old (Nat.not_lt.mpr (newObj id (by simpa [holds, sameC] using heldC)).1)
    · exact inv.disjoint b c id (by simpa [holds, sameB] using heldB)
        (by simpa [holds, sameC] using heldC)

/-- On a state that keeps the invariant, `netmap_sock_teardown` gives adapter `a` back the
state its driver attached it in and frees exactly the objects its socket held. -/
theorem netmapSockTeardown_eq (inv : SockInv own s) (a : Nat) :
    netmapSockTeardown s a =
      { s with adapters := Function.update s.adapters a (.attached (own a)),
               live := fun id => s.live id && !(s.adapters a).holds id } := by
  have kept := inv.adapter a
  cases held : (s.adapters a).naPrivate with
  | none =>
    rw [netmapSockTeardown_of_none held, ← kept.eq_attached held, Function.update_eq_self]
    ext <;> simp [SockAdapter.holds_of_none held]
  | some sock =>
    rw [AdapterInv, held] at kept
    rw [netmapSockTeardown_of_some held, kept.2.1]
    rfl

theorem sockInv_netmapSockTeardown (inv : SockInv own s) (a : Nat) :
    SockInv own (netmapSockTeardown s a) := by
  rw [netmapSockTeardown_eq inv a]
  exact inv.replace rfl rfl (fun id => by simp) (fun id held => by simp at held) (Nat.le_refl _)

theorem sockInv_netmapSockSetup (inv : SockInv own s) {a : Nat}
    (noSocket : (s.adapters a).naPrivate = none) (current : Nat) (alloc : SockAlloc) :
    SockInv own (netmapSockSetup s a current alloc).1 := by
  have notHeld := SockAdapter.holds_of_none noSocket
  have attached := (inv.adapter a).eq_attached noSocket
  rcases netmapSockSetup_cases noSocket current alloc with
    ⟨-, -, setup | setup⟩ | ⟨-, setup⟩ <;>
    rw [setup]
  · exact inv
  · -- the fake skb could not be allocated: the socket is freed again
    refine inv.replace
      (show (s.alloc.free s.nextObj).adapters = Function.update s.adapters a (s.adapters a) by simp)
      (inv.adapter a) (fun id => ?_)
      (fun id held => by simp [notHeld] at held) (Nat.le_succ _)
    by_cases fresh : id = s.nextObj
    · subst fresh
      simp [notHeld, inv.not_live_nextObj]
    · simp [notHeld, fresh]
  · -- both allocations succeed: the socket and its skb are the next two objects
    refine inv.replace rfl ⟨rfl, by rw [attached]; rfl, rfl, _, rfl⟩ (fun id => ?_)
      (fun id held => ?_)
      (by simp only [SockSystem.setAdapter_nextObj, SockSystem.alloc_nextObj]; omega)
    · by_cases sk : id = s.nextObj
      · simp [sk, SockAdapter.holds, NetmapSock.objects]
      · by_cases skb : id = s.nextObj + 1
        · simp [skb, SockAdapter.holds, NetmapSock.objects]
        · simp [sk, skb, noSocket, SockAdapter.holds, NetmapSock.objects]
    · simp [SockAdapter.holds, NetmapSock.objects] at held
      simp only [SockSystem.setAdapter_nextObj, SockSystem.alloc_nextObj]
      omega

theorem sockInv_getAdapterSocket (inv : SockInv own s) (a current : Nat) (alloc : SockAlloc) :
    SockInv own (getAdapterSocket s a current alloc).1 := by
  rcases getAdapterSocket_cases current alloc with
    ⟨-, call⟩ | ⟨-, sock, -, call⟩ | ⟨-, noSocket, call⟩ <;>
    rw [call]
  · exact inv
  · exact inv
  · exact sockInv_netmapSockSetup inv noSocket current alloc

theorem sockInv_getNetmapSocket (inv : SockInv own s) (current fd : Nat) (alloc : SockAlloc) :
    SockInv own (getNetmapSocket s current fd alloc).1 := by
  rcases getNetmapSocket_cases s current fd alloc with
    ⟨-, call⟩ | ⟨f, -, call | call | ⟨a, call⟩⟩ <;>
    rw [call]
  · exact inv
  · exact inv.of_fields rfl rfl rfl
  · exact inv.of_fields rfl rfl rfl
  · have kept : SockInv own (s.fget f) := inv.of_fields rfl rfl rfl
    exact sockInv_getAdapterSocket kept a current alloc

/-- From a state that keeps the invariant, a call through `na->nm_dtor` with room for one
nested call tears down the socket, if there is one, and calls the driver's destructor, if
there is one. -/
theorem callNmDtor_of_sockInv (inv : SockInv own s) (a fuel : Nat) :
    callNmDtor (fuel + 1) s a = some (netmapSockTeardown s a, (own a).toList) := by
  have kept := inv.adapter a
  rw [AdapterInv] at kept
  cases held : (s.adapters a).naPrivate with
  | none =>
    rw [held] at kept
    rw [netmapSockTeardown_of_none held]
    exact callNmDtor_of_driver kept _
  | some sock =>
    rw [held] at kept
    rw [callNmDtor_of_socket kept.1, netmapSocketNmDtor]
    apply callNmDtor_of_driver
    rw [netmapSockTeardown_eq inv]
    simp [SockAdapter.attached]

theorem sockInv_callNmDtor (inv : SockInv own s) {a fuel : Nat} {s' : SockSystem}
    {calls : List Nat} (called : callNmDtor fuel s a = some (s', calls)) : SockInv own s' := by
  cases fuel with
  | zero =>
    -- with no room for a nested call only a call that tears nothing down returns
    rw [callNmDtor] at called
    split at called
    · cases called
      exact inv
    · cases called
      exact inv
    · cases called
  | succ fuel =>
    rw [callNmDtor_of_sockInv inv] at called
    cases called
    exact sockInv_netmapSockTeardown inv a

theorem SockReachable.sockInv {s : SockSystem} (reached : SockReachable own s) : SockInv own s := by
  induction reached with
  | init fdTable files ownedByKern => exact sockInv_init own fdTable files ownedByKern
  | get current fd alloc _ ih => exact sockInv_getNetmapSocket ih current fd alloc
  | dtor fuel a _ called ih => exact sockInv_callNmDtor ih called
  | external fdTable files ownedByKern _ ih => exact ih.of_fields rfl rfl rfl

end Invariant

/-! ## What the socket support guarantees, and what it gets wrong -/

section Guarantees

variable {own : Nat → Option Nat} {s : SockSystem}

/-- One netmap descriptor, 0 in every task, open on file 0 and bound to adapter 0, whose
driver installed destructor 7; no adapter is owned by the kernel. -/
def SockSystem.sample : SockSystem :=
  .init (fun _ => some 7) (fun _ _ => some 0) (fun _ => ⟨.netmapFops, some ⟨some 0⟩, 1⟩)
    (fun _ => false)

/-- Over every run from attach, an adapter has the socket destructor exactly when it has a
socket, which saved the driver's destructor, and the live objects are exactly the adapters'
sockets and fake skbs, none shared. -/
theorem sockReachable_invariant (reached : SockReachable own s) :
    (∀ a, (s.adapters a).nmDtor = .netmapSocketNmDtor ↔ (s.adapters a).naPrivate ≠ none) ∧
    (∀ a sock, (s.adapters a).naPrivate = some sock →
      sock.savedNmDtor = .ofDriver (own a) ∧ sock.na = a) ∧
    ∀ id, s.live id = true ↔ ∃! a, (s.adapters a).holds id = true := by
  have inv := reached.sockInv
  refine ⟨fun a => ?_, fun a sock held => ?_, fun id => ?_⟩
  · have kept := inv.adapter a
    rw [AdapterInv] at kept
    cases held : (s.adapters a).naPrivate with
    | none =>
      rw [held] at kept
      rw [kept]
      cases own a <;> simp [NmDtor.ofDriver]
    | some sock =>
      rw [held] at kept
      simp [kept.1]
  · have kept := inv.adapter a
    rw [AdapterInv, held] at kept
    exact ⟨kept.2.1, kept.2.2.1⟩
  · rw [inv.live]
    exact ⟨fun ⟨a, held⟩ => ⟨a, held, fun b other => inv.disjoint _ _ _ other held⟩,
      fun ⟨a, held, _⟩ => ⟨a, held⟩⟩

/-- After one `get_netmap_socket` on the sample, adapter 0 has its socket and the socket
destructor. -/
theorem sockReachable_invariant_sample :
    SockReachable (fun _ => some 7) (getNetmapSocket .sample 3 0 ⟨true, true⟩).1 ∧
      (((getNetmapSocket .sample 3 0 ⟨true, true⟩).1.adapters 0).nmDtor = .netmapSocketNmDtor ↔
        ((getNetmapSocket .sample 3 0 ⟨true, true⟩).1.adapters 0).naPrivate ≠ none) :=
  have reached : SockReachable (fun _ => some 7) (getNetmapSocket .sample 3 0 ⟨true, true⟩).1 :=
    .get 3 0 _ (.init _ _ _)
  ⟨reached, (sockReachable_invariant reached).1 0⟩

/-- From every reachable state, `na->nm_dtor` needs one nested call: it calls the driver's
destructor once, restores the adapter as attached, and frees exactly its socket's objects. -/
theorem callNmDtor_of_reachable (reached : SockReachable own s) (a fuel : Nat) :
    callNmDtor (fuel + 1) s a =
      some ({ s with adapters := Function.update s.adapters a (.attached (own a)),
                     live := fun id => s.live id && !(s.adapters a).holds id },
        (own a).toList) := by
  have inv := reached.sockInv
  rw [callNmDtor_of_sockInv inv, netmapSockTeardown_eq inv]

/-- Setting the sample's socket up and destroying adapter 0 calls destructor 7 once. -/
theorem callNmDtor_of_reachable_sample :
    SockReachable (fun _ => some 7) (getNetmapSocket .sample 3 0 ⟨true, true⟩).1 ∧
      callNmDtor 1 (getNetmapSocket .sample 3 0 ⟨true, true⟩).1 0 =
        some ({ (getNetmapSocket .sample 3 0 ⟨true, true⟩).1 with
          adapters := Function.update (getNetmapSocket .sample 3 0 ⟨true, true⟩).1.adapters 0
            (.attached (some 7)),
          live := fun id => (getNetmapSocket .sample 3 0 ⟨true, true⟩).1.live id &&
            !((getNetmapSocket .sample 3 0 ⟨true, true⟩).1.adapters 0).holds id }, [7]) :=
  have reached : SockReachable (fun _ => some 7) (getNetmapSocket .sample 3 0 ⟨true, true⟩).1 :=
    .get 3 0 _ (.init _ _ _)
  ⟨reached, callNmDtor_of_reachable reached 0 0⟩

/-- What the part under `NMG_LOCK` returns, on a state that keeps the invariant. -/
theorem getAdapterSocket_spec (inv : SockInv own s) (a current : Nat) (alloc : SockAlloc) :
    ((∃ sk, (getAdapterSocket s a current alloc).2 = .sock sk) ↔
      (s.ownedByKern a = false ∨
        ∃ sock, (s.adapters a).naPrivate = some sock ∧ sock.owner = current) ∧
      ((s.adapters a).naPrivate ≠ none ∨ alloc = ⟨true, true⟩)) ∧
    ∀ sk, (getAdapterSocket s a current alloc).2 = .sock sk →
      ∃ sock, ((getAdapterSocket s a current alloc).1.adapters a).naPrivate = some sock ∧
        sock.sk = sk ∧ sock.na = a ∧
        ((s.adapters a).naPrivate = some sock ∨
          (s.adapters a).naPrivate = none ∧ sock.owner = current ∧ s.live sk = false) := by
  rcases getAdapterSocket_cases current alloc with
    ⟨busy, call⟩ | ⟨free, sock, held, call⟩ | ⟨free, noSocket, call⟩ <;> rw [call]
  · -- `EBUSY`: the kernel owns the adapter and `current` does not own a socket of it
    refine ⟨⟨(fun ⟨_, ptr⟩ => by cases ptr), fun ⟨owner, _⟩ => ?_⟩,
      fun _ ptr => by cases ptr⟩
    rw [Bool.and_eq_true] at busy
    rcases owner with notKern | ⟨sock, held, mine⟩
    · rw [notKern] at busy
      cases busy.1
    · simp [held, notOwner, mine] at busy
  · -- the adapter's socket
    have kept := inv.adapter a
    rw [AdapterInv, held] at kept
    refine ⟨⟨fun _ => ⟨?_, .inl (by simp [held])⟩, fun _ => ⟨_, rfl⟩⟩,
      fun sk ptr => ⟨sock, held, by cases ptr; rfl, kept.2.2.1, .inl held⟩⟩
    rw [Bool.and_eq_false_iff] at free
    rcases free with notKern | mine
    · exact .inl notKern
    · exact .inr ⟨sock, held, by simpa [held, notOwner] using mine⟩
  · -- no socket yet: what `netmap_sock_setup` gives
    have notKern : s.ownedByKern a = false := by simpa [noSocket, notOwner] using free
    rcases netmapSockSetup_cases noSocket current alloc with ⟨fail, failed, -⟩ | ⟨ok, setup⟩
    · -- an allocation failed: `ENOMEM`
      rw [failed]
      exact ⟨⟨(fun ⟨_, ptr⟩ => by cases ptr),
          fun ⟨_, room⟩ => room.elim (absurd noSocket) (absurd · fail)⟩,
        fun _ ptr => by cases ptr⟩
    · simp only [setup]
      refine ⟨⟨fun _ => ⟨.inl notKern, .inr ok⟩, fun _ => ⟨_, rfl⟩⟩,
        fun sk ptr => ?_⟩
      cases ptr
      exact ⟨⟨s.nextObj, [s.nextObj + 1], a, current, (s.adapters a).nmDtor⟩,
        by simp, rfl, rfl,
        .inr ⟨noSocket, rfl, inv.not_live_nextObj⟩⟩

/-- Over every run from attach, `get_netmap_socket` on a descriptor bound to `a` returns a
socket exactly when the caller may use `a`'s socket and it exists or can be set up: the one
`a` already had, or a new one owned by the caller. -/
theorem getNetmapSocket_of_bound_adapter (reached : SockReachable own s) {current fd f a : Nat}
    (alloc : SockAlloc) (opened : s.fdTable current fd = some f)
    (netmap : (s.files f).fOp = .netmapFops) (bound : (s.files f).privateData = some ⟨some a⟩) :
    ((∃ sk, (getNetmapSocket s current fd alloc).2 = .sock sk) ↔
      (s.ownedByKern a = false ∨
        ∃ sock, (s.adapters a).naPrivate = some sock ∧ sock.owner = current) ∧
      ((s.adapters a).naPrivate ≠ none ∨ alloc = ⟨true, true⟩)) ∧
    ∀ sk, (getNetmapSocket s current fd alloc).2 = .sock sk →
      ∃ sock, ((getNetmapSocket s current fd alloc).1.adapters a).naPrivate = some sock ∧
        sock.sk = sk ∧ sock.na = a ∧
        ((s.adapters a).naPrivate = some sock ∨
          (s.adapters a).naPrivate = none ∧ sock.owner = current ∧ s.live sk = false) := by
  have kept : SockInv own (s.fget f) := reached.sockInv.of_fields rfl rfl rfl
  rw [getNetmapSocket_of_bound alloc opened netmap bound]
  exact getAdapterSocket_spec kept a current alloc

/-- On the sample, task 3's descriptor 0 is bound to adapter 0, and the first call sets a
socket up. -/
theorem getNetmapSocket_of_bound_adapter_sample :
    SockSystem.sample.fdTable 3 0 = some 0 ∧ (SockSystem.sample.files 0).fOp = .netmapFops ∧
      (SockSystem.sample.files 0).privateData = some ⟨some 0⟩ ∧
      ((∃ sk, (getNetmapSocket .sample 3 0 ⟨true, true⟩).2 = .sock sk) ↔
        (SockSystem.sample.ownedByKern 0 = false ∨
          ∃ sock, (SockSystem.sample.adapters 0).naPrivate = some sock ∧ sock.owner = 3) ∧
        ((SockSystem.sample.adapters 0).naPrivate ≠ none ∨
          (⟨true, true⟩ : SockAlloc) = ⟨true, true⟩)) :=
  ⟨rfl, rfl, rfl, (getNetmapSocket_of_bound_adapter
    (show SockReachable (fun _ => some 7) .sample from .init _ _ _) ⟨true, true⟩ rfl rfl rfl).1⟩

/-- A second task calling on the same adapter gets the first task's socket, even where
allocations would fail. -/
example : (getNetmapSocket (getNetmapSocket .sample 3 0 ⟨true, true⟩).1 4 0 ⟨false, false⟩).2 =
    .sock 0 := rfl

/-- When the part under `NMG_LOCK` fails, no adapter, live object or file has changed. -/
theorem getAdapterSocket_of_error (inv : SockInv own s) {a current : Nat} {alloc : SockAlloc}
    {e : Int} (failed : (getAdapterSocket s a current alloc).2 = .errPtr e) :
    (getAdapterSocket s a current alloc).1.adapters = s.adapters ∧
      (getAdapterSocket s a current alloc).1.live = s.live ∧
      (getAdapterSocket s a current alloc).1.files = s.files := by
  rcases getAdapterSocket_cases current alloc with
    ⟨-, call⟩ | ⟨-, sock, -, call⟩ | ⟨-, noSocket, call⟩ <;> rw [call] at failed ⊢
  · exact ⟨rfl, rfl, rfl⟩
  · cases failed
  · rcases netmapSockSetup_cases noSocket current alloc with
      ⟨-, -, setup | setup⟩ | ⟨-, setup⟩ <;>
      rw [setup] at failed ⊢
    · exact ⟨rfl, rfl, rfl⟩
    · -- the socket was allocated and freed again
      refine ⟨rfl, funext fun id => ?_, rfl⟩
      by_cases fresh : id = s.nextObj
      · subst fresh
        simp [inv.not_live_nextObj]
      · simp [fresh]
    · cases failed

/-- Over every run from attach, a failed `get_netmap_socket` changes no adapter and no live
object, but never calls `fput`: every failure on an open descriptor leaves its file's count
one higher. -/
theorem getNetmapSocket_error_keeps_fget (reached : SockReachable own s) (current fd : Nat)
    (alloc : SockAlloc) {e : Int} (failed : (getNetmapSocket s current fd alloc).2 = .errPtr e) :
    (getNetmapSocket s current fd alloc).1.adapters = s.adapters ∧
      (getNetmapSocket s current fd alloc).1.live = s.live ∧
      (s.fdTable current fd = none → (getNetmapSocket s current fd alloc).1 = s) ∧
      ∀ f, s.fdTable current fd = some f →
        (getNetmapSocket s current fd alloc).1.files = (s.fget f).files := by
  rcases getNetmapSocket_cases s current fd alloc with ⟨table, call⟩ | ⟨f, table, calls⟩
  · rw [call]
    exact ⟨rfl, rfl, fun _ => rfl, fun _ opened => by rw [table] at opened; cases opened⟩
  · suffices (getNetmapSocket s current fd alloc).1.adapters = s.adapters ∧
        (getNetmapSocket s current fd alloc).1.live = s.live ∧
        (getNetmapSocket s current fd alloc).1.files = (s.fget f).files from
      ⟨this.1, this.2.1, (fun closed => by rw [table] at closed; cases closed),
        fun g opened => by rw [table] at opened; cases opened; exact this.2.2⟩
    have kept : SockInv own (s.fget f) := reached.sockInv.of_fields rfl rfl rfl
    rcases calls with call | call | ⟨a, call⟩ <;> rw [call] at failed ⊢
    · exact ⟨rfl, rfl, rfl⟩
    · exact ⟨rfl, rfl, rfl⟩
    · exact getAdapterSocket_of_error kept failed

/-- On the sample with adapter 0 owned by the kernel, the first call gets `EBUSY` and
file 0 keeps the reference taken. -/
theorem getNetmapSocket_error_keeps_fget_busy :
    SockReachable (fun _ => some 7) { SockSystem.sample with ownedByKern := fun _ => true } ∧
      (getNetmapSocket { SockSystem.sample with ownedByKern := fun _ => true } 3 0
        ⟨true, true⟩).2 = .errPtr ebusy ∧
      ((getNetmapSocket { SockSystem.sample with ownedByKern := fun _ => true } 3 0
        ⟨true, true⟩).1.files 0).fCount = 2 :=
  have reached : SockReachable (fun _ => some 7)
      { SockSystem.sample with ownedByKern := fun _ => true } :=
    .external _ _ _ (.init _ _ _)
  ⟨reached, rfl, by
    rw [(getNetmapSocket_error_keeps_fget reached 3 0 ⟨true, true⟩ rfl).2.2.2 0 rfl]
    rfl⟩

end Guarantees

end Netmap
