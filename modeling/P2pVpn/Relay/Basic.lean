import P2pVpn.Addr.Basic
import P2pVpn.Lib.Transition

set_option autoImplicit false

/-! # The relay (`src/relay.rs`, `src/route.rs`)

The map from destination addresses to peers, and the asynchronous calls that keep it and the OS
routing table in step. A call is a state machine that stops at the source's await points: waiting for
the lock, and, for each address of its batch, the future that talks to the OS. The futures of one
batch advance in any order; when `try_join_all` sees an error it drops those that are left. `park`
and `get` take no lock and are atomic.

An OS request and the future that awaits it are two things: `osReply` is the moment the OS processes
the request (its effect on the table included), `poll` the moment the future sees the reply. A future
dropped in between leaves the effect behind, one dropped before leaves none. -/

namespace P2pVpn

/-- The address that stands for none. -/
def IpAddr.isUnspecified : IpAddr → Bool
  | .v4 a => decide (a = 0)
  | .v6 a => decide (a = 0)

/-- The guard of one installed route. -/
structure ScopedRoute where
  destIp : IpAddr
  deriving DecidableEq

/-- `Drop` panics on a guard that was not released by `drop_async`. -/
def ScopedRoute.dropPanics (route : ScopedRoute) : Bool := !route.destIp.isUnspecified

/-- An entry of the map: the peer, and the route that leads packets to it. -/
structure PeerValue (T : Type) where
  /-- `none` once the peer has been parked. -/
  value : Option T
  route : ScopedRoute

/-- Outcome of a lookup for a destination. -/
inductive Dispatch (T : Type) where
  | connected (value : T)
  | parked
  deriving DecidableEq

/-- The relay and the routing table its handle talks to. -/
structure RelayState (T : Type) where
  peerMap : IpAddr → Option (PeerValue T)
  /-- The task that holds the lock on the handle. -/
  handle : Option Nat
  /-- Whether the OS table has the host route of an address. -/
  osRoutes : IpAddr → Bool
  /-- A live guard was dropped. -/
  panicked : Bool

/-- What the OS may do with a request: `add before ok after` says whether an add of a route that was
    (`before`) or was not present may be answered `ok` and leave it present (`after`) or not. -/
structure OsRules where
  add : Bool → Bool → Bool → Bool
  remove : Bool → Bool → Bool → Bool

/-- Any answer, any effect. -/
def OsRules.any : OsRules := ⟨fun _ _ _ => true, fun _ _ _ => true⟩

/-- Adding a present route fails and leaves it; an add that succeeded installed the route, one that
    failed may have; removing a present route succeeds; an absent one stays absent. -/
def OsRules.exclusive : OsRules where
  add before ok after := if before then !ok && after else !ok || after
  remove before ok after := !after && (!before || ok)

section

variable {T : Type}

/-- No entry, no route, and the lock is free. -/
def RelayState.new : RelayState T := ⟨fun _ => none, none, fun _ => false, false⟩

/-- What a packet for the address is dispatched to. -/
def RelayState.get (s : RelayState T) (destIp : IpAddr) : Option (Dispatch T) :=
  (s.peerMap destIp).map fun e =>
    match e.value with
    | some v => .connected v
    | none => .parked

/-- Puts an entry into the map, over an old one if there is one. -/
def RelayState.setEntry (s : RelayState T) (ip : IpAddr) (e : PeerValue T) : RelayState T :=
  { s with peerMap := Function.update s.peerMap ip (some e) }

/-- `DashMap::insert`: the entry it replaces is dropped. -/
def RelayState.insertEntry (s : RelayState T) (ip : IpAddr) (e : PeerValue T) : RelayState T :=
  { s.setEntry ip e with
    panicked := s.panicked ||
      match s.peerMap ip with
      | some old => old.route.dropPanics
      | none => false }

/-- Takes an entry out of the map. -/
def RelayState.removeEntry (s : RelayState T) (ip : IpAddr) : RelayState T :=
  { s with peerMap := Function.update s.peerMap ip none }

/-- The OS has changed its table. -/
def RelayState.setRoute (s : RelayState T) (ip : IpAddr) (present : Bool) : RelayState T :=
  { s with osRoutes := Function.update s.osRoutes ip present }

/-- One address of `park`: unknown addresses are ignored. -/
def RelayState.parkOne (s : RelayState T) (ip : IpAddr) : RelayState T :=
  match s.peerMap ip with
  | some entry => s.setEntry ip { entry with value := none }
  | none => s

/-- Parks the entries of the addresses, so that they keep their routes. -/
def RelayState.park (s : RelayState T) (destIps : List IpAddr) : RelayState T :=
  destIps.foldl RelayState.parkOne s

/-! ## Futures -/

/-- The future of one address in `insert`. -/
inductive InsertFuture where
  | start
  /-- Awaiting `ScopedRoute::new`, with the OS's answer once it is there. -/
  | adding (reply : Option Bool)
  | done (ok : Bool)
  deriving DecidableEq

/-- The future of one address in `remove_locked`. -/
inductive RemoveFuture where
  | start
  /-- Awaiting the removal of the route to `target`. -/
  | removing (target : IpAddr) (reply : Option Bool)
  | done
  deriving DecidableEq

/-- One poll of a future of `insert`. -/
def pollInsert (value : T) (ip : IpAddr) (s : RelayState T) :
    InsertFuture → Option (RelayState T × InsertFuture)
  | .start =>
      match s.peerMap ip with
      -- an entry keeps its route and just gets the live value back
      | some entry => some (s.setEntry ip { entry with value := some value }, .done true)
      | none => some (s, .adding none)
  | .adding (some true) => some (s.insertEntry ip ⟨some value, ⟨ip⟩⟩, .done true)
  | .adding (some false) => some (s, .done false)
  | .adding none => none
  | .done _ => none

/-- One poll of a future of `remove_locked`. -/
def pollRemove (ip : IpAddr) (s : RelayState T) : RemoveFuture → Option (RelayState T × RemoveFuture)
  | .start =>
      match s.peerMap ip with
      | some old => some (s.removeEntry ip, .removing old.route.destIp none)
      -- nothing tracked: best-effort direct removal
      | none => some (s, .removing ip none)
  | .removing _ (some _) => some (s, .done)
  | .removing _ none => none
  | .done => none

/-! ## Calls -/

/-- A call in progress. -/
inductive Call (T : Type) where
  /-- `insert`, waiting for the lock. -/
  | insertLock (destIps : List IpAddr) (value : T)
  | inserting (value : T) (futures : List (IpAddr × InsertFuture))
  /-- `insert` failed and undoes its batch. -/
  | rollback (futures : List (IpAddr × RemoveFuture))
  /-- `remove`, waiting for the lock; `next` is the batch `reconcile` goes on to insert. -/
  | removeLock (destIps : List IpAddr) (next : Option (List IpAddr × T))
  | removing (futures : List (IpAddr × RemoveFuture)) (next : Option (List IpAddr × T))
  | returned (ok : Bool)

/-- What a call waits for. -/
inductive CallAction where
  | acquire
  /-- Future `i` of the batch is polled. -/
  | poll (i : Nat)
  /-- The OS processes the request of future `i`. -/
  | osReply (i : Nat) (ok present : Bool)
  /-- `try_join_all` sees an error. -/
  | fail
  /-- All futures are done. -/
  | finish
  deriving DecidableEq

/-- The call starts by waiting for the lock. -/
def Call.insert (destIps : List IpAddr) (value : T) : Call T := .insertLock destIps value

/-- The call starts by waiting for the lock. -/
def Call.remove (destIps : List IpAddr) : Call T := .removeLock destIps none

/-- `reconcile`: removes what is in `previous` but not in `current`, then inserts `current`. -/
def Call.reconcile (current previous : List IpAddr) (value : T) : Call T :=
  let stale := previous.filter fun ip => !current.contains ip
  if stale.isEmpty then .insertLock current value else .removeLock stale (some (current, value))

/-- A poll or an OS reply in the batch of `insert`. -/
def insertStep (os : OsRules) (value : T) (s : RelayState T) (futures : List (IpAddr × InsertFuture)) :
    CallAction → Option (RelayState T × List (IpAddr × InsertFuture))
  | .poll i =>
      match futures[i]? with
      | some (ip, f) =>
          match pollInsert value ip s f with
          | some (s', f') => some (s', futures.set i (ip, f'))
          | none => none
      | none => none
  | .osReply i ok present =>
      match futures[i]? with
      | some (ip, .adding none) =>
          if os.add (s.osRoutes ip) ok present then
            some (s.setRoute ip present, futures.set i (ip, .adding (some ok)))
          else none
      | _ => none
  | _ => none

/-- A poll or an OS reply in the batch of `remove_locked`. -/
def removeStep (os : OsRules) (s : RelayState T) (futures : List (IpAddr × RemoveFuture)) :
    CallAction → Option (RelayState T × List (IpAddr × RemoveFuture))
  | .poll i =>
      match futures[i]? with
      | some (ip, f) =>
          match pollRemove ip s f with
          | some (s', f') => some (s', futures.set i (ip, f'))
          | none => none
      | none => none
  | .osReply i ok present =>
      match futures[i]? with
      | some (ip, .removing target none) =>
          if os.remove (s.osRoutes target) ok present then
            some (s.setRoute target present, futures.set i (ip, .removing target (some ok)))
          else none
      | _ => none
  | _ => none

/-- Takes the lock, if it is free. -/
def RelayState.lock (s : RelayState T) (me : Nat) : Option (RelayState T) :=
  if s.handle = none then some { s with handle := some me } else none

/-- The lock is released. -/
def RelayState.unlock (s : RelayState T) : RelayState T := { s with handle := none }

/-- Where `remove` goes when its batch is done. -/
def Call.afterRemove : Option (List IpAddr × T) → Call T
  | none => .returned true
  | some (current, value) => .insertLock current value

/-- One step of task `me`'s call. -/
def Call.step (os : OsRules) (me : Nat) (s : RelayState T) :
    Call T → CallAction → Option (RelayState T × Call T)
  | .insertLock ips value, .acquire =>
      (s.lock me).map fun s' => (s', .inserting value (ips.map fun ip => (ip, .start)))
  | .inserting _ futures, .fail =>
      if futures.any fun f => f.2 = .done false then
        some (s, .rollback (futures.map fun f => (f.1, .start)))
      else none
  | .inserting _ futures, .finish =>
      if futures.all fun f => f.2 = .done true then some (s.unlock, .returned true) else none
  | .inserting value futures, a =>
      (insertStep os value s futures a).map fun r => (r.1, .inserting value r.2)
  | .rollback futures, .finish =>
      if futures.all fun f => f.2 = .done then some (s.unlock, .returned false) else none
  | .rollback futures, a => (removeStep os s futures a).map fun r => (r.1, .rollback r.2)
  | .removeLock ips next, .acquire =>
      (s.lock me).map fun s' => (s', .removing (ips.map fun ip => (ip, .start)) next)
  | .removing futures next, .finish =>
      if futures.all fun f => f.2 = .done then some (s.unlock, Call.afterRemove next) else none
  | .removing futures next, a => (removeStep os s futures a).map fun r => (r.1, .removing r.2 next)
  | _, _ => none

/-- The call is past its lock. -/
def Call.holdsLock : Call T → Bool
  | .inserting _ _ => true
  | .rollback _ => true
  | .removing _ _ => true
  | _ => false

/-! ## Concurrent calls on one relay -/

/-- A relay and the calls in progress on it, one for each task. -/
structure RelaySystem (T : Type) where
  relay : RelayState T
  calls : Nat → Option (Call T)

/-- What a task does with the relay. -/
inductive RelayAction (T : Type) where
  | insert (task : Nat) (destIps : List IpAddr) (value : T)
  | reconcile (task : Nat) (current previous : List IpAddr) (value : T)
  | remove (task : Nat) (destIps : List IpAddr)
  | park (destIps : List IpAddr)
  | get (destIp : IpAddr)
  | call (task : Nat) (a : CallAction)
  /-- The caller takes the result of a call that returned. -/
  | join (task : Nat)

/-- No call is in progress. -/
def RelaySystem.new : RelaySystem T := ⟨RelayState.new, fun _ => none⟩

/-- A task that is in no call starts one. -/
def RelaySystem.start (sys : RelaySystem T) (task : Nat) (call : Call T) : Option (RelaySystem T) :=
  match sys.calls task with
  | none => some { sys with calls := Function.update sys.calls task (some call) }
  | some _ => none

/-- A panic ends the process: nothing steps after it. -/
def RelaySystem.step (os : OsRules) (sys : RelaySystem T) (a : RelayAction T) :
    Option (RelaySystem T) :=
  if sys.relay.panicked then none
  else
    match a with
    | .insert task ips value => sys.start task (.insert ips value)
    | .reconcile task current previous value => sys.start task (.reconcile current previous value)
    | .remove task ips => sys.start task (.remove ips)
    | .park ips => some { sys with relay := sys.relay.park ips }
    | .get _ => some sys
    | .call task ca =>
        match sys.calls task with
        | some call =>
            (call.step os task sys.relay ca).map fun r =>
              ⟨r.1, Function.update sys.calls task (some r.2)⟩
        | none => none
    | .join task =>
        match sys.calls task with
        | some (.returned _) => some { sys with calls := Function.update sys.calls task none }
        | _ => none

end

end P2pVpn
