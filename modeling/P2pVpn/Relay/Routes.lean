import P2pVpn.Lib.Batch
import P2pVpn.Relay.System

set_option autoImplicit false

/-! # Tracked routes are installed routes

The map of guards (`RelayState.guards`) against the OS table. While a batch is pending the table may
have more than the guards, but only for addresses whose future can account for it (`InsertPending`,
`RemovePending`); once a call gives the lock back nothing is left over. -/

namespace P2pVpn

section

variable {T : Type}

/-- The tracked addresses, with their guards. -/
def RelayState.guards (s : RelayState T) (ip : IpAddr) : Option ScopedRoute :=
  (s.peerMap ip).map PeerValue.route

theorem RelayState.guards_eq_none_iff (s : RelayState T) (ip : IpAddr) :
    s.guards ip = none ↔ s.peerMap ip = none := by simp [guards]

theorem RelayState.guards_setEntry (s : RelayState T) (ip : IpAddr) (e : PeerValue T) :
    (s.setEntry ip e).guards = Function.update s.guards ip (some e.route) := by
  funext x
  by_cases hx : x = ip
  · subst hx; simp [guards, setEntry]
  · simp [guards, setEntry, hx]

theorem RelayState.guards_insertEntry (s : RelayState T) (ip : IpAddr) (e : PeerValue T) :
    (s.insertEntry ip e).guards = Function.update s.guards ip (some e.route) :=
  s.guards_setEntry ip e

theorem RelayState.guards_removeEntry (s : RelayState T) (ip : IpAddr) :
    (s.removeEntry ip).guards = Function.update s.guards ip none := by
  funext x
  by_cases hx : x = ip
  · subst hx; simp [guards, removeEntry]
  · simp [guards, removeEntry, hx]

/-- Changing only the value of an entry keeps the guards. -/
theorem RelayState.guards_setValue {s : RelayState T} {ip : IpAddr} {entry : PeerValue T}
    (h : s.peerMap ip = some entry) (value : Option T) :
    (s.setEntry ip { entry with value := value }).guards = s.guards := by
  rw [guards_setEntry]
  exact Function.update_eq_self_iff.2 (by simp [guards, h])

theorem RelayState.guards_parkOne (s : RelayState T) (ip : IpAddr) :
    (s.parkOne ip).guards = s.guards := by
  unfold parkOne
  split
  · next entry hentry => exact guards_setValue hentry none
  · rfl

/-- `park` touches no route. -/
theorem RelayState.park_frame (s : RelayState T) (ips : List IpAddr) :
    (s.park ips).guards = s.guards ∧ (s.park ips).osRoutes = s.osRoutes ∧
      (s.park ips).handle = s.handle :=
  ⟨park_eq RelayState.guards guards_parkOne s ips, s.osRoutes_park ips, s.handle_park ips⟩

/-! ## The invariants -/

/-- Every guard is that of its key, and its route is in the OS table. -/
structure RelayState.RoutesInv (s : RelayState T) : Prop where
  guard : ∀ ip r, s.guards ip = some r → r.destIp = ip
  installed : ∀ ip, s.guards ip ≠ none → s.osRoutes ip = true

/-- The OS table has nothing that is not tracked. -/
def RelayState.Exact (s : RelayState T) : Prop := ∀ ip, s.osRoutes ip = true → s.guards ip ≠ none

/-- The OS may have installed a route that this future has not (or will never have) registered. -/
def InsertFuture.MayHaveApplied (f : InsertFuture) : Prop :=
  f = .done false ∨ ∃ ok, f = .adding (some ok)

/-- The OS has still to process this future's removal. -/
def RemoveFuture.ToRemove (f : RemoveFuture) : Prop :=
  f = .start ∨ ∃ target, f = .removing target none

/-- What the OS reported as added, and is not registered yet, is in the table. -/
def AddsApplied (s : RelayState T) (futures : List (IpAddr × InsertFuture)) : Prop :=
  ∀ ip, (ip, InsertFuture.adding (some true)) ∈ futures → s.osRoutes ip = true

/-- A route is removed after its entry. -/
def RemovesUntracked (s : RelayState T) (futures : List (IpAddr × RemoveFuture)) : Prop :=
  ∀ ip target reply, (ip, RemoveFuture.removing target reply) ∈ futures →
    target = ip ∧ s.guards ip = none

/-- While routes are added: the adds that succeeded are in the table, and a route in it that no
    entry has is one of a future. -/
structure InsertPending (s : RelayState T) (futures : List (IpAddr × InsertFuture)) : Prop where
  applied : AddsApplied s futures
  extra : ∀ ip, s.osRoutes ip = true → s.guards ip = none →
    ∃ f, (ip, f) ∈ futures ∧ f.MayHaveApplied

/-- While routes are removed: their entries are gone, and a route in the table that no entry has is
    still to be removed. -/
structure RemovePending (s : RelayState T) (futures : List (IpAddr × RemoveFuture)) : Prop where
  untracked : RemovesUntracked s futures
  extra : ∀ ip, s.osRoutes ip = true → s.guards ip = none →
    ∃ f, (ip, f) ∈ futures ∧ f.ToRemove

/-- What holds of the table while the call has the lock. -/
def Call.Pending (s : RelayState T) : Call T → Prop
  | .inserting _ futures => InsertPending s futures
  | .rollback futures => RemovePending s futures
  | .removing futures _ => RemovePending s futures
  | _ => True

theorem Call.pending_of_not_holdsLock (s : RelayState T) {c : Call T} (h : c.holdsLock = false) :
    c.Pending s := by
  cases c <;> trivial

/-! ## Steps of a batch -/

variable {os : OsRules} {me : Nat} {value : T} {s s' : RelayState T}

/-- An add that succeeds installs the route, and none takes a route away. -/
def OsRules.Installs (os : OsRules) : Prop :=
  ∀ before ok after, os.add before ok after = true → before = true ∨ ok = true → after = true

theorem OsRules.exclusive_installs : OsRules.exclusive.Installs := by
  intro before ok after
  cases before <;> cases ok <;> cases after <;> simp [exclusive]

theorem OsRules.exclusive_remove {before ok after : Bool}
    (h : OsRules.exclusive.remove before ok after = true) : after = false := by
  revert h; cases before <;> cases ok <;> cases after <;> simp [exclusive]

theorem RelayState.RoutesInv.of_same (hinv : s.RoutesInv) (hguards : s'.guards = s.guards)
    (hroutes : s'.osRoutes = s.osRoutes) : s'.RoutesInv :=
  ⟨fun ip r h => hinv.guard ip r (hguards ▸ h),
   fun ip h => hroutes ▸ hinv.installed ip (hguards ▸ h)⟩

/-- A guard may be added for a route that is there. -/
theorem RelayState.RoutesInv.insertEntry (hinv : s.RoutesInv) {ip : IpAddr}
    (hroute : s.osRoutes ip = true) (value : Option T) :
    (s.insertEntry ip ⟨value, ⟨ip⟩⟩).RoutesInv := by
  constructor
  · intro x r hx
    rw [guards_insertEntry] at hx
    by_cases hxi : x = ip
    · subst hxi
      obtain rfl : (⟨x⟩ : ScopedRoute) = r := by simpa using hx
      rfl
    · exact hinv.guard x r (by simpa [hxi] using hx)
  · intro x hx
    rw [guards_insertEntry] at hx
    by_cases hxi : x = ip
    · subst hxi
      exact hroute
    · exact hinv.installed x (by simpa [hxi] using hx)

theorem RelayState.RoutesInv.removeEntry (hinv : s.RoutesInv) (ip : IpAddr) :
    (s.removeEntry ip).RoutesInv := by
  -- the guards that are left are guards of before
  have hleft : ∀ x r, (s.removeEntry ip).guards x = some r → s.guards x = some r := by
    intro x r hx
    rw [guards_removeEntry] at hx
    by_cases hxi : x = ip
    · subst hxi
      exact absurd hx (by simp)
    · simpa [hxi] using hx
  constructor
  · intro x r hx
    exact hinv.guard x r (hleft x r hx)
  · intro x hx
    obtain ⟨r, hr⟩ := Option.ne_none_iff_exists'.1 hx
    exact hinv.installed x (by simp [hleft x r hr])

/-- The OS may change a route, unless it takes away a tracked one. -/
theorem RelayState.RoutesInv.setRoute (hinv : s.RoutesInv) {ip : IpAddr} {present : Bool}
    (hkeep : s.guards ip ≠ none → present = true) : (s.setRoute ip present).RoutesInv := by
  refine ⟨hinv.guard, ?_⟩
  intro x hx
  by_cases hxi : x = ip
  · subst hxi
    simpa [RelayState.setRoute] using hkeep hx
  · simpa [RelayState.setRoute, hxi] using hinv.installed x hx

/-- A step of `insert`'s batch registers only what the OS has installed. -/
theorem InsertStep.tracking {futures futures' : List (IpAddr × InsertFuture)} {a : CallAction}
    (hos : os.Installs) (h : InsertStep os value s futures a s' futures') (hinv : s.RoutesInv)
    (hp : AddsApplied s futures) : s'.RoutesInv ∧ AddsApplied s' futures' := by
  cases h with
  | rearm hfut hentry =>
      exact ⟨hinv.of_same (RelayState.guards_setValue hentry (some value)) rfl,
        fun x hx => hp x (Batch.mem_of_mem_set hx (by simp))⟩
  | request hfut hentry =>
      exact ⟨hinv, fun x hx => hp x (Batch.mem_of_mem_set hx (by simp))⟩
  | @reply i ip ok present hfut hadd =>
      have hpresent := hos _ _ _ hadd
      refine ⟨hinv.setRoute fun hg => hpresent (Or.inl (hinv.installed ip hg)), ?_⟩
      intro x hx
      rcases Batch.mem_set hx with hx | ⟨rfl, hf⟩
      · have hroute := hp x hx
        by_cases hxi : x = ip
        · subst hxi
          simpa [RelayState.setRoute] using hpresent (Or.inl hroute)
        · simpa [RelayState.setRoute, hxi] using hroute
      · obtain rfl : ok = true := by simpa using hf.symm
        simpa [RelayState.setRoute] using hpresent (Or.inr rfl)
  | @register i ip hfut =>
      exact ⟨hinv.insertEntry (hp ip (List.mem_of_getElem? hfut)) (some value),
        fun x hx => hp x (Batch.mem_of_mem_set hx (by simp))⟩
  | refused hfut =>
      exact ⟨hinv, fun x hx => hp x (Batch.mem_of_mem_set hx (by simp))⟩

/-- A step of `insert`'s batch leaves every surplus route accounted for by a future. -/
theorem InsertStep.pending {futures futures' : List (IpAddr × InsertFuture)} {a : CallAction}
    (hos : os.Installs) (h : InsertStep os value s futures a s' futures') (hinv : s.RoutesInv)
    (hp : InsertPending s futures) : InsertPending s' futures' := by
  refine ⟨(h.tracking hos hinv hp.applied).2, ?_⟩
  intro x hroute hnone
  cases h with
  | rearm hfut hentry =>
      rw [RelayState.guards_setValue hentry (some value)] at hnone
      exact Batch.exists_mem_set hfut (by simp [InsertFuture.MayHaveApplied])
        (hp.extra x hroute hnone)
  | request hfut hentry =>
      exact Batch.exists_mem_set hfut (by simp [InsertFuture.MayHaveApplied])
        (hp.extra x hroute hnone)
  | @reply i ip ok present hfut hadd =>
      by_cases hxi : x = ip
      · subst hxi
        exact ⟨_, Batch.mem_set_self hfut, Or.inr ⟨ok, rfl⟩⟩
      · refine Batch.exists_mem_set_of_ne hfut hxi (hp.extra x ?_ hnone)
        simpa [RelayState.setRoute, hxi] using hroute
  | @register i ip hfut =>
      rw [RelayState.guards_insertEntry] at hnone
      by_cases hxi : x = ip
      · subst hxi
        exact absurd hnone (by simp)
      · exact Batch.exists_mem_set_of_ne hfut hxi
          (hp.extra x hroute (by simpa [hxi] using hnone))
  | refused hfut =>
      exact Batch.exists_mem_set hfut (fun _ => Or.inl rfl) (hp.extra x hroute hnone)

/-- In `remove_locked`'s batch an address loses its route only after its entry. -/
theorem RemoveStep.tracking {futures futures' : List (IpAddr × RemoveFuture)} {a : CallAction}
    (h : RemoveStep os s futures a s' futures') (hinv : s.RoutesInv)
    (hp : RemovesUntracked s futures) : s'.RoutesInv ∧ RemovesUntracked s' futures' := by
  cases h with
  | @untrack i ip old hfut hentry =>
      have htarget : old.route.destIp = ip :=
        hinv.guard ip old.route (by simp [RelayState.guards, hentry])
      refine ⟨hinv.removeEntry ip, ?_⟩
      intro x target reply hx
      rw [RelayState.guards_removeEntry]
      rcases Batch.mem_set hx with hx | ⟨rfl, hf⟩
      · obtain ⟨rfl, hnone⟩ := hp x target reply hx
        refine ⟨rfl, ?_⟩
        by_cases hti : target = ip
        · subst hti; simp
        · simpa [hti] using hnone
      · obtain ⟨rfl, -⟩ := RemoveFuture.removing.inj hf
        exact ⟨htarget, by simp⟩
  | @direct i ip hfut hentry =>
      refine ⟨hinv, ?_⟩
      intro x target reply hx
      rcases Batch.mem_set hx with hx | ⟨rfl, hf⟩
      · exact hp x target reply hx
      · obtain ⟨rfl, -⟩ := RemoveFuture.removing.inj hf
        exact ⟨rfl, (s.guards_eq_none_iff target).2 hentry⟩
  | @reply i ip target ok present hfut hremove =>
      obtain ⟨rfl, hnone⟩ := hp ip target none (List.mem_of_getElem? hfut)
      refine ⟨hinv.setRoute fun hg => absurd hnone hg, ?_⟩
      intro x t reply hx
      rcases Batch.mem_set hx with hx | ⟨rfl, hf⟩
      · exact hp x t reply hx
      · obtain ⟨rfl, -⟩ := RemoveFuture.removing.inj hf
        exact ⟨rfl, hnone⟩
  | done hfut =>
      exact ⟨hinv, fun x target reply hx =>
        hp x target reply (Batch.mem_of_mem_set hx (by simp))⟩

/-- A step of `remove_locked`'s batch leaves every surplus route to a future that has still to remove
    it. -/
theorem RemoveStep.pending {futures futures' : List (IpAddr × RemoveFuture)} {a : CallAction}
    (h : RemoveStep .exclusive s futures a s' futures') (hinv : s.RoutesInv)
    (hp : RemovePending s futures) : RemovePending s' futures' := by
  refine ⟨(h.tracking hinv hp.untracked).2, ?_⟩
  intro x hroute hnone
  cases h with
  | @untrack i ip old hfut hentry =>
      rw [RelayState.guards_removeEntry] at hnone
      by_cases hxi : x = ip
      · subst hxi
        exact ⟨_, Batch.mem_set_self hfut, Or.inr ⟨_, rfl⟩⟩
      · exact Batch.exists_mem_set_of_ne hfut hxi (hp.extra x hroute (by simpa [hxi] using hnone))
  | @direct i ip hfut hentry =>
      exact Batch.exists_mem_set hfut (fun _ => Or.inr ⟨ip, rfl⟩) (hp.extra x hroute hnone)
  | @reply i ip target ok present hfut hremove =>
      obtain rfl := OsRules.exclusive_remove hremove
      obtain ⟨rfl, -⟩ := hp.untracked ip target none (List.mem_of_getElem? hfut)
      by_cases hxt : x = target
      · subst hxt
        exact absurd hroute (by simp [RelayState.setRoute])
      · refine Batch.exists_mem_set_of_ne hfut hxt (hp.extra x ?_ hnone)
        simpa [RelayState.setRoute, hxt] using hroute
  | done hfut =>
      exact Batch.exists_mem_set hfut (by simp [RemoveFuture.ToRemove]) (hp.extra x hroute hnone)

/-! ## Steps of a call -/

theorem AddsApplied.start (s : RelayState T) (ips : List IpAddr) :
    AddsApplied s (ips.map fun ip => (ip, .start)) := by
  intro ip hmem
  obtain ⟨x, -, hx⟩ := List.mem_map.1 hmem
  exact absurd (Prod.mk.inj hx).2 (by simp)

theorem RemovesUntracked.start {futures : List (IpAddr × RemoveFuture)}
    (hstart : ∀ f ∈ futures, f.2 = .start) : RemovesUntracked s futures :=
  fun _ _ _ hmem => absurd (hstart _ hmem) (by simp)

/-- A batch of removals starts with everything still to be removed. -/
theorem RemovePending.start {futures : List (IpAddr × RemoveFuture)}
    (hstart : ∀ f ∈ futures, f.2 = .start)
    (hextra : ∀ ip, s.osRoutes ip = true → s.guards ip = none → ip ∈ futures.map Prod.fst) :
    RemovePending s futures := by
  refine ⟨RemovesUntracked.start hstart, ?_⟩
  intro ip hroute hnone
  obtain ⟨⟨x, f⟩, hmem, rfl⟩ := List.mem_map.1 (hextra ip hroute hnone)
  exact ⟨f, hmem, Or.inl (hstart _ hmem)⟩

theorem RemovePending.exact_of_done {futures : List (IpAddr × RemoveFuture)}
    (hp : RemovePending s futures) (hall : ∀ f ∈ futures, f.2 = .done) : s.Exact := by
  intro ip hroute hnone
  obtain ⟨f, hmem, hf⟩ := hp.extra ip hroute hnone
  obtain rfl : f = .done := hall _ hmem
  exact absurd hf (by simp [RemoveFuture.ToRemove])

theorem InsertPending.exact_of_done {futures : List (IpAddr × InsertFuture)}
    (hp : InsertPending s futures) (hall : ∀ f ∈ futures, f.2 = .done true) : s.Exact := by
  intro ip hroute hnone
  obtain ⟨f, hmem, hf⟩ := hp.extra ip hroute hnone
  obtain rfl : f = .done true := hall _ hmem
  exact absurd hf (by simp [InsertFuture.MayHaveApplied])

/-- What one call needs of the relay: its own surplus accounted for, and no surplus at all while
    nobody holds the lock. -/
structure CallInv (s : RelayState T) (me : Nat) (c : Call T) : Prop where
  routes : s.RoutesInv
  free : s.handle = none → s.Exact
  holder : c.holdsLock = true → s.handle = some me
  pending : c.Pending s

/-- The holder of the lock answers for the surplus. -/
theorem CallInv.of_holder {c : Call T} (hroutes : s.RoutesInv) (hhandle : s.handle = some me)
    (hpending : c.Pending s) : CallInv s me c where
  routes := hroutes
  free := fun hfree => absurd (hhandle.symm.trans hfree) (by simp)
  holder := fun _ => hhandle
  pending := hpending

/-- A call without the lock needs no surplus when the lock is free. -/
theorem CallInv.of_unlocked {c : Call T} (hroutes : s.RoutesInv)
    (hfree : s.handle = none → s.Exact) (hlock : c.holdsLock = false) : CallInv s me c where
  routes := hroutes
  free := hfree
  holder := fun h => absurd h (by simp [hlock])
  pending := Call.pending_of_not_holdsLock s hlock

theorem CallStep.callInv {c c' : Call T} {a : CallAction}
    (h : CallStep .exclusive me s c a s' c')
    (hinv : CallInv s me c) : CallInv s' me c' := by
  obtain ⟨hroutes, hfree, hholder, hpend⟩ := hinv
  cases h with
  | lockInsert hnone =>
      refine .of_holder (hroutes.of_same rfl rfl) rfl ⟨AddsApplied.start _ _, ?_⟩
      intro ip hroute hg
      exact absurd hg (hfree hnone ip hroute)
  | insert hstep =>
      have hos := OsRules.exclusive_installs
      exact .of_holder (hstep.tracking hos hroutes hpend.applied).1
        (hstep.handle_eq.trans (hholder rfl)) (hstep.pending hos hroutes hpend)
  | fail herr =>
      refine .of_holder hroutes (hholder rfl) (RemovePending.start ?_ ?_)
      · intro f hf
        obtain ⟨g, -, rfl⟩ := List.mem_map.1 hf
        rfl
      · intro ip hroute hnone
        obtain ⟨f, hmem, -⟩ := hpend.extra ip hroute hnone
        rw [List.map_map]
        exact List.mem_map.2 ⟨(ip, f), hmem, rfl⟩
  | inserted hall =>
      exact .of_unlocked (hroutes.of_same rfl rfl) (fun _ => hpend.exact_of_done hall) rfl
  | undo hstep =>
      exact .of_holder (hstep.tracking hroutes hpend.untracked).1
        (hstep.handle_eq.trans (hholder rfl)) (hstep.pending hroutes hpend)
  | undone hall =>
      exact .of_unlocked (hroutes.of_same rfl rfl) (fun _ => hpend.exact_of_done hall) rfl
  | lockRemove hnone =>
      refine .of_holder (hroutes.of_same rfl rfl) rfl (RemovePending.start ?_ ?_)
      · intro f hf
        obtain ⟨ip, -, rfl⟩ := List.mem_map.1 hf
        rfl
      · intro ip hroute hg
        exact absurd hg (hfree hnone ip hroute)
  | remove hstep =>
      exact .of_holder (hstep.tracking hroutes hpend.untracked).1
        (hstep.handle_eq.trans (hholder rfl)) (hstep.pending hroutes hpend)
  | @removed futures next hall =>
      have hlock : (Call.afterRemove next).holdsLock = false := by cases next <;> rfl
      exact .of_unlocked (hroutes.of_same rfl rfl) (fun _ => hpend.exact_of_done hall) hlock

/-! ## Runs on any table -/

/-- What the batch of a call owes to the guards, whatever else is in the OS table. -/
def Call.Tracking (s : RelayState T) : Call T → Prop
  | .inserting _ futures => AddsApplied s futures
  | .rollback futures => RemovesUntracked s futures
  | .removing futures _ => RemovesUntracked s futures
  | _ => True

theorem Call.tracking_of_not_holdsLock (s : RelayState T) {c : Call T} (h : c.holdsLock = false) :
    c.Tracking s := by
  cases c <;> trivial

theorem CallStep.tracking {c c' : Call T} {a : CallAction} (hos : os.Installs)
    (h : CallStep os me s c a s' c') (hinv : s.RoutesInv) (hc : c.Tracking s) :
    s'.RoutesInv ∧ c'.Tracking s' := by
  cases h with
  | lockInsert _ => exact ⟨hinv.of_same rfl rfl, AddsApplied.start _ _⟩
  | insert hstep => exact hstep.tracking hos hinv hc
  | fail _ =>
      refine ⟨hinv, RemovesUntracked.start ?_⟩
      intro f hf
      obtain ⟨g, -, rfl⟩ := List.mem_map.1 hf
      rfl
  | inserted _ => exact ⟨hinv.of_same rfl rfl, trivial⟩
  | undo hstep => exact hstep.tracking hinv hc
  | undone _ => exact ⟨hinv.of_same rfl rfl, trivial⟩
  | lockRemove _ =>
      refine ⟨hinv.of_same rfl rfl, RemovesUntracked.start ?_⟩
      intro f hf
      obtain ⟨ip, -, rfl⟩ := List.mem_map.1 hf
      rfl
  | remove hstep => exact hstep.tracking hinv hc
  | removed _ =>
      exact ⟨hinv.of_same rfl rfl,
        Call.tracking_of_not_holdsLock _ (Call.holdsLock_afterRemove _)⟩

theorem tracking_lockRule (hos : os.Installs) :
    LockRule os (fun s : RelayState T => s.RoutesInv) (fun s c => c.Tracking s) where
  idle := fun _ s' _ hlock _ => Call.tracking_of_not_holdsLock s' hlock
  parkRelay := fun s ips hinv => hinv.of_same (s.park_frame ips).1 (s.park_frame ips).2.1
  parkCall := by
    intro s ips c hc
    obtain ⟨hg, hr, -⟩ := s.park_frame ips
    cases c with
    | inserting value futures => exact fun ip hmem => hr ▸ hc ip hmem
    | rollback futures => exact fun ip t r hmem => hg ▸ hc ip t r hmem
    | removing futures next => exact fun ip t r hmem => hg ▸ hc ip t r hmem
    | _ => trivial
  step := fun _ _ _ _ _ _ hstep _ hinv hc => hstep.tracking hos hinv hc

/-- On any OS table to start with, every tracked address has its route. -/
theorem RelaySystem.installed_of_run {routes : IpAddr → Bool} {acts : List (RelayAction T)}
    {sys : RelaySystem T} (hos : os.Installs)
    (hrun : runFrom (RelaySystem.step os) (RelaySystem.onTable routes) acts = some sys) {ip : IpAddr}
    (hip : sys.relay.peerMap ip ≠ none) : sys.relay.osRoutes ip = true := by
  have hinv : sys.LockInv (fun s => s.RoutesInv) (fun s c => c.Tracking s) := by
    refine runFrom_invariant ?_ ⟨⟨?_, ?_⟩, ?_, ?_⟩ hrun
    · intro sys a sys' hI hs
      refine (tracking_lockRule hos).step_inv hI ?_ hs
      intro task c hstart
      exact Call.tracking_of_not_holdsLock _ (RelayAction.holdsLock_starts hstart)
    · intro ip r h
      exact absurd h (by simp [onTable, RelayState.new, RelayState.guards])
    · intro ip h
      exact absurd rfl h
    · intro task c hc
      exact absurd hc (by simp [onTable])
    · intro task c hc
      exact absurd hc (by simp [onTable])
  exact hinv.relay.installed ip fun h => hip ((sys.relay.guards_eq_none_iff ip).1 h)

/-! ## Runs of concurrent calls -/

/-- The pending part only reads the guards and the OS table. -/
theorem Call.Pending.of_same {c : Call T} (hp : c.Pending s) (hguards : s'.guards = s.guards)
    (hroutes : s'.osRoutes = s.osRoutes) : c.Pending s' := by
  cases c with
  | inserting value futures =>
      exact ⟨fun ip h => hroutes ▸ InsertPending.applied hp ip h,
        fun ip h hg => InsertPending.extra hp ip (hroutes ▸ h) (hguards ▸ hg)⟩
  | rollback futures =>
      exact ⟨fun ip t r h => hguards ▸ RemovePending.untracked hp ip t r h,
        fun ip h hg => RemovePending.extra hp ip (hroutes ▸ h) (hguards ▸ hg)⟩
  | removing futures next =>
      exact ⟨fun ip t r h => hguards ▸ RemovePending.untracked hp ip t r h,
        fun ip h hg => RemovePending.extra hp ip (hroutes ▸ h) (hguards ▸ hg)⟩
  | insertLock _ _ => trivial
  | removeLock _ _ => trivial
  | returned _ => trivial

/-- The relay part of the invariant: what is tracked is installed, and nothing else is while the lock
    is free. -/
def RelayState.Installed (s : RelayState T) : Prop := s.RoutesInv ∧ (s.handle = none → s.Exact)

theorem RelayState.Installed.new : (RelayState.new : RelayState T).Installed := by
  refine ⟨⟨?_, ?_⟩, ?_⟩
  · intro ip r h
    exact absurd h (by simp [RelayState.new, RelayState.guards])
  · intro ip h
    exact absurd rfl h
  · intro _ ip h
    exact absurd h (by simp [RelayState.new])

theorem RelayState.Installed.park (hinv : s.Installed) (ips : List IpAddr) :
    (s.park ips).Installed := by
  obtain ⟨hg, hr, hh⟩ := s.park_frame ips
  refine ⟨hinv.1.of_same hg hr, ?_⟩
  intro hnone ip
  rw [hg, hr]
  exact hinv.2 (hh ▸ hnone) ip

theorem installed_lockRule :
    LockRule .exclusive RelayState.Installed (fun (s : RelayState T) c => c.Pending s) where
  idle := fun _ s' _ hlock _ => Call.pending_of_not_holdsLock s' hlock
  parkRelay := fun _ ips hinv => hinv.park ips
  parkCall := fun s ips _ hp => hp.of_same (s.park_frame ips).1 (s.park_frame ips).2.1
  step := by
    intro me s c ca s' c' hstep hholder hinv hp
    have hnew := hstep.callInv ⟨hinv.1, hinv.2, hholder, hp⟩
    exact ⟨⟨hnew.routes, hnew.free⟩, hnew.pending⟩

theorem RelaySystem.installedInv {acts : List (RelayAction T)} {sys : RelaySystem T}
    (hrun : runFrom (RelaySystem.step .exclusive) RelaySystem.new acts = some sys) :
    sys.LockInv RelayState.Installed (fun s c => c.Pending s) := by
  refine runFrom_invariant ?_ (.new RelayState.Installed.new) hrun
  intro sys a sys' hI hs
  refine installed_lockRule.step_inv hI ?_ hs
  intro task c hstart
  exact Call.pending_of_not_holdsLock _ (RelayAction.holdsLock_starts hstart)

theorem RelayState.Installed.osRoutes_of_tracked (hinv : s.Installed) (ip : IpAddr)
    (hentry : s.peerMap ip ≠ none) : s.osRoutes ip = true :=
  hinv.1.installed ip fun h => hentry ((s.guards_eq_none_iff ip).1 h)

theorem RelayState.Installed.iff_of_free (hinv : s.Installed) (hfree : s.handle = none)
    (ip : IpAddr) : s.osRoutes ip = true ↔ s.peerMap ip ≠ none := by
  refine ⟨?_, hinv.osRoutes_of_tracked ip⟩
  intro hroute hentry
  exact hinv.2 hfree ip hroute ((s.guards_eq_none_iff ip).2 hentry)

/-- **Tracked routes are installed routes.** In every state that concurrent `insert`, `reconcile`,
    `park`, `remove` and `get` calls can reach, with any address lists and any interleaving of their
    futures, every address in the map has its OS route, and while nobody holds the lock the OS table
    has no other route. -/
theorem RelaySystem.tracked_iff_installed (acts : List (RelayAction T)) (sys : RelaySystem T)
    (hrun : runFrom (RelaySystem.step .exclusive) RelaySystem.new acts = some sys) :
    (∀ ip, sys.relay.peerMap ip ≠ none → sys.relay.osRoutes ip = true) ∧
      (sys.relay.handle = none →
        ∀ ip, sys.relay.osRoutes ip = true ↔ sys.relay.peerMap ip ≠ none) := by
  have hinst : sys.relay.Installed := (RelaySystem.installedInv hrun).relay
  exact ⟨hinst.osRoutes_of_tracked, hinst.iff_of_free⟩

end

/-- A completed `insert` of one address, then an `insert` of three (one of them twice) whose second
    request fails although the OS applied it, while a `remove` waits for the lock. -/
def overlappingCalls : List (RelayAction Unit) :=
  let a : IpAddr := .v4 1
  let b : IpAddr := .v4 2
  let c : IpAddr := .v4 3
  [.insert 2 [c] (), .call 2 .acquire, .call 2 (.poll 0), .call 2 (.osReply 0 true true),
   .call 2 (.poll 0), .call 2 .finish,
   .insert 0 [a, b, a] (), .remove 1 [c], .call 0 .acquire,
   .call 0 (.poll 0), .call 0 (.poll 1), .call 0 (.osReply 0 true true),
   .call 0 (.osReply 1 false true), .call 0 (.poll 0), .call 0 (.poll 1), .park [a, c],
   .call 0 .fail, .call 0 (.poll 0), .call 0 (.poll 1), .call 0 (.poll 2),
   .call 0 (.osReply 1 true false), .call 0 (.osReply 2 true false), .call 0 (.osReply 0 false false),
   .call 0 (.poll 0), .call 0 (.poll 1), .call 0 (.poll 2), .call 0 .finish]

theorem tracked_iff_installed_overlapping :
    ∃ sys, runFrom (RelaySystem.step .exclusive) RelaySystem.new overlappingCalls = some sys ∧
      sys.relay.osRoutes (.v4 3) = true ∧
      ∀ ip, sys.relay.osRoutes ip = true ↔ sys.relay.peerMap ip ≠ none :=
  ⟨_, rfl, rfl, (RelaySystem.tracked_iff_installed overlappingCalls _ rfl).2 rfl⟩

end P2pVpn
