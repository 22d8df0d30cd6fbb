import P2pVpn.Lib.Batch
import P2pVpn.Relay.Calls

set_option autoImplicit false

/-! # What a step of concurrent calls can do

`SystemStep` lists the transitions of `RelaySystem.step`. Whatever a call does to the map or to the OS
table it does with the lock, so an invariant needs to be checked for the steps of the holder only:
`LockRule` says what has to be checked and `LockRule.step_inv` that it is enough. -/

namespace P2pVpn

section

variable {T : Type}

/-- The task and the call an action starts. -/
def RelayAction.starts : RelayAction T → Option (Nat × Call T)
  | .insert task ips value => some (task, .insert ips value)
  | .reconcile task current previous value => some (task, .reconcile current previous value)
  | .remove task ips => some (task, .remove ips)
  | _ => none

/-- Transitions of a relay with calls in progress. -/
inductive SystemStep (os : OsRules) (sys : RelaySystem T) :
    RelayAction T → RelaySystem T → Prop where
  | start {a : RelayAction T} {task : Nat} {c : Call T} (hstart : a.starts = some (task, c))
      (hfree : sys.calls task = none) :
      SystemStep os sys a { sys with calls := Function.update sys.calls task (some c) }
  | park {ips : List IpAddr} :
      SystemStep os sys (.park ips) { sys with relay := sys.relay.park ips }
  | get {ip : IpAddr} : SystemStep os sys (.get ip) sys
  | call {task : Nat} {ca : CallAction} {c c' : Call T} {s' : RelayState T}
      (hcall : sys.calls task = some c) (hstep : CallStep os task sys.relay c ca s' c') :
      SystemStep os sys (.call task ca) ⟨s', Function.update sys.calls task (some c')⟩
  | join {task : Nat} {ok : Bool} (hcall : sys.calls task = some (.returned ok)) :
      SystemStep os sys (.join task) { sys with calls := Function.update sys.calls task none }

variable {os : OsRules} {me : Nat} {s s' : RelayState T} {sys sys' : RelaySystem T}
  {a : RelayAction T}

theorem RelaySystem.start_sound {task : Nat} {c : Call T} (hstart : a.starts = some (task, c))
    (h : sys.start task c = some sys') : SystemStep os sys a sys' := by
  unfold RelaySystem.start at h
  split at h
  · next hfree =>
      obtain rfl := Option.some.inj h
      exact .start hstart hfree
  · exact absurd h (by simp)

theorem RelaySystem.step_sound (h : sys.step os a = some sys') :
    sys.relay.panicked = false ∧ SystemStep os sys a sys' := by
  unfold RelaySystem.step at h
  split_ifs at h with hpanic
  refine ⟨by simpa using hpanic, ?_⟩
  cases a with
  | insert task ips v => exact start_sound rfl h
  | reconcile task current previous v => exact start_sound rfl h
  | remove task ips => exact start_sound rfl h
  | park ips =>
      obtain rfl := Option.some.inj h
      exact .park
  | get ip =>
      obtain rfl := Option.some.inj h
      exact .get
  | call task ca =>
      simp only at h
      split at h
      · next c hcall =>
          obtain ⟨⟨s₁, c₁⟩, hstep, rfl⟩ := Option.map_eq_some_iff.1 h
          exact .call hcall (Call.step_sound hstep)
      · exact absurd h (by simp)
  | join task =>
      simp only at h
      split at h
      · next ok hcall =>
          obtain rfl := Option.some.inj h
          exact .join hcall
      · exact absurd h (by simp)

/-- Every listed transition is a step, short of a panic. -/
theorem SystemStep.complete (hpanic : sys.relay.panicked = false) (h : SystemStep os sys a sys') :
    sys.step os a = some sys' := by
  unfold RelaySystem.step
  rw [if_neg (by simp [hpanic])]
  cases h with
  | @start _ task c hstart hfree =>
      have hgo : sys.start task c
          = some { sys with calls := Function.update sys.calls task (some c) } := by
        simp only [RelaySystem.start, hfree]
      cases a with
      | insert t ips v =>
          obtain ⟨rfl, rfl⟩ := Prod.mk.inj (Option.some.inj hstart)
          exact hgo
      | reconcile t current previous v =>
          obtain ⟨rfl, rfl⟩ := Prod.mk.inj (Option.some.inj hstart)
          exact hgo
      | remove t ips =>
          obtain ⟨rfl, rfl⟩ := Prod.mk.inj (Option.some.inj hstart)
          exact hgo
      | _ => exact absurd hstart (by simp [RelayAction.starts])
  | park => rfl
  | get => rfl
  | call hcall hstep => simp only [hcall, hstep.complete, Option.map_some]
  | join hcall => simp only [hcall]

/-- One task's call, with nothing else going on. -/
def Call.alone (os : OsRules) (me : Nat) (p : RelayState T × Call T) (ca : CallAction) :
    Option (RelayState T × Call T) :=
  if p.1.panicked then none else p.2.step os me p.1 ca

theorem Call.alone_eq {c c' : Call T} {ca : CallAction} (hpanic : s.panicked = false)
    (h : CallStep os me s c ca s' c') : Call.alone os me (s, c) ca = some (s', c') := by
  simp only [Call.alone, hpanic]
  exact h.complete

/-- What a call does alone, its task can do on the relay. -/
theorem RelaySystem.run_alone {task : Nat} {c c' : Call T} {cas : List CallAction}
    (hcall : sys.calls task = some c)
    (h : runFrom (Call.alone os task) (sys.relay, c) cas = some (s', c')) :
    runFrom (RelaySystem.step os) sys (cas.map (.call task))
      = some ⟨s', Function.update sys.calls task (some c')⟩ := by
  induction cas generalizing sys c with
  | nil =>
      obtain ⟨rfl, rfl⟩ := Prod.mk.inj (Option.some.inj h)
      rw [← hcall, Function.update_eq_self]
      rfl
  | cons ca rest ih =>
      obtain ⟨⟨s₁, c₁⟩, hstep, hrest⟩ := runFrom_cons h
      unfold Call.alone at hstep
      split_ifs at hstep with hpanic
      have hsys : sys.step os (.call task ca)
          = some ⟨s₁, Function.update sys.calls task (some c₁)⟩ := by
        simp only [RelaySystem.step, hcall]
        rw [if_neg hpanic, hstep]
        rfl
      rw [List.map_cons, runFrom_step hsys]
      have hrun : runFrom (RelaySystem.step os) ⟨s₁, Function.update sys.calls task (some c₁)⟩
          (rest.map (.call task)) = some ⟨s', _⟩ := ih (by simp) hrest
      rwa [Function.update_idem] at hrun

/-! ## The lock -/

theorem Call.holdsLock_reconcile (current previous : List IpAddr) (v : T) :
    (Call.reconcile current previous v).holdsLock = false := by
  unfold Call.reconcile
  simp only
  split_ifs <;> rfl

theorem RelayAction.holdsLock_starts {task : Nat} {c : Call T}
    (h : a.starts = some (task, c)) : c.holdsLock = false := by
  cases a with
  | insert t ips v =>
      obtain ⟨-, rfl⟩ := Prod.mk.inj (Option.some.inj h)
      rfl
  | reconcile t current previous v =>
      obtain ⟨-, rfl⟩ := Prod.mk.inj (Option.some.inj h)
      exact Call.holdsLock_reconcile current previous v
  | remove t ips =>
      obtain ⟨-, rfl⟩ := Prod.mk.inj (Option.some.inj h)
      rfl
  | _ => exact absurd h (by simp [starts])

theorem Call.holdsLock_afterRemove (next : Option (List IpAddr × T)) :
    (Call.afterRemove next).holdsLock = false := by
  cases next <;> rfl

theorem InsertStep.handle_eq {value : T} {futures futures' : List (IpAddr × InsertFuture)}
    {ca : CallAction} (h : InsertStep os value s futures ca s' futures') :
    s'.handle = s.handle := by
  cases h <;> rfl

theorem RemoveStep.handle_eq {futures futures' : List (IpAddr × RemoveFuture)}
    {ca : CallAction} (h : RemoveStep os s futures ca s' futures') : s'.handle = s.handle := by
  cases h <;> rfl

/-- Only the holder of the lock, or a call that finds it free, takes a step. -/
theorem CallStep.lock {c c' : Call T} {ca : CallAction} (h : CallStep os me s c ca s' c') :
    s.handle = none ∨ c.holdsLock = true := by
  cases h with
  | lockInsert hfree => exact Or.inl hfree
  | lockRemove hfree => exact Or.inl hfree
  | _ => exact Or.inr rfl

/-- A call past its lock is recorded as the holder. -/
theorem CallStep.holder {c c' : Call T} {ca : CallAction} (h : CallStep os me s c ca s' c')
    (hholder : c.holdsLock = true → s.handle = some me) (hlock : c'.holdsLock = true) :
    s'.handle = some me := by
  cases h with
  | lockInsert _ => rfl
  | lockRemove _ => rfl
  | insert hstep => exact hstep.handle_eq.trans (hholder rfl)
  | undo hstep => exact hstep.handle_eq.trans (hholder rfl)
  | remove hstep => exact hstep.handle_eq.trans (hholder rfl)
  | fail _ => exact hholder rfl
  | inserted _ => exact absurd hlock (by simp [Call.holdsLock])
  | undone _ => exact absurd hlock (by simp [Call.holdsLock])
  | removed _ => exact absurd hlock (by simp [Call.holdsLock_afterRemove])

/-! ## Invariants under the lock -/

/-- `R` holds of the relay, `Q` of every call on it, and a call past its lock is the holder. -/
structure RelaySystem.LockInv (R : RelayState T → Prop) (Q : RelayState T → Call T → Prop)
    (sys : RelaySystem T) : Prop where
  relay : R sys.relay
  holder : ∀ task c, sys.calls task = some c → c.holdsLock = true → sys.relay.handle = some task
  calls : ∀ task c, sys.calls task = some c → Q sys.relay c

/-- What makes `R` and `Q` an invariant: `park` keeps them, the steps of a call keep them, and what `Q`
    says of a call without the lock is not about the relay. -/
structure LockRule (os : OsRules) (R : RelayState T → Prop) (Q : RelayState T → Call T → Prop) :
    Prop where
  idle : ∀ s s' c, c.holdsLock = false → Q s c → Q s' c
  parkRelay : ∀ s ips, R s → R (s.park ips)
  parkCall : ∀ s ips c, Q s c → Q (s.park ips) c
  step : ∀ me s c ca s' c', CallStep os me s c ca s' c' →
    (c.holdsLock = true → s.handle = some me) → R s → Q s c → R s' ∧ Q s' c'

/-- What parking one address keeps, `park` keeps. -/
theorem RelayState.park_eq {β : Type} (f : RelayState T → β)
    (hone : ∀ (s : RelayState T) (ip : IpAddr), f (s.parkOne ip) = f s) (s : RelayState T)
    (ips : List IpAddr) : f (s.park ips) = f s := by
  unfold park
  induction ips generalizing s with
  | nil => rfl
  | cons ip rest ih => exact (ih (s.parkOne ip)).trans (hone s ip)

theorem RelayState.parkOne_eq (s : RelayState T) (ip : IpAddr) :
    (s.parkOne ip).handle = s.handle ∧ (s.parkOne ip).osRoutes = s.osRoutes ∧
      (s.parkOne ip).panicked = s.panicked := by
  unfold parkOne
  split <;> exact ⟨rfl, rfl, rfl⟩

theorem RelayState.handle_park (s : RelayState T) (ips : List IpAddr) :
    (s.park ips).handle = s.handle :=
  park_eq RelayState.handle (fun s ip => (s.parkOne_eq ip).1) s ips

theorem RelayState.osRoutes_park (s : RelayState T) (ips : List IpAddr) :
    (s.park ips).osRoutes = s.osRoutes :=
  park_eq RelayState.osRoutes (fun s ip => (s.parkOne_eq ip).2.1) s ips

theorem RelayState.panicked_park (s : RelayState T) (ips : List IpAddr) :
    (s.park ips).panicked = s.panicked :=
  park_eq RelayState.panicked (fun s ip => (s.parkOne_eq ip).2.2) s ips

theorem RelaySystem.LockInv.new {R : RelayState T → Prop} {Q : RelayState T → Call T → Prop}
    (hR : R RelayState.new) : (RelaySystem.new : RelaySystem T).LockInv R Q where
  relay := hR
  holder := fun _ _ h => absurd h (by simp [RelaySystem.new])
  calls := fun _ _ h => absurd h (by simp [RelaySystem.new])

/-- Looking up a task after one entry changed. -/
theorem calls_update {calls : Nat → Option (Call T)} {task t : Nat} {o : Option (Call T)}
    {d : Call T} (h : Function.update calls task o t = some d) :
    (t = task ∧ o = some d) ∨ (t ≠ task ∧ calls t = some d) := by
  by_cases ht : t = task
  · subst ht
    exact Or.inl ⟨rfl, by simpa using h⟩
  · exact Or.inr ⟨ht, by simpa [ht] using h⟩

/-- **Invariant rule under the lock.** A step of the relay keeps `R` and `Q`, if `Q` holds of the call
    it starts. -/
theorem LockRule.step_inv {R : RelayState T → Prop} {Q : RelayState T → Call T → Prop}
    (rule : LockRule os R Q) (hinv : sys.LockInv R Q)
    (hstart : ∀ task c, a.starts = some (task, c) → Q sys.relay c)
    (h : sys.step os a = some sys') : sys'.LockInv R Q := by
  cases (RelaySystem.step_sound h).2 with
  | @start _ task c hs hfree =>
      refine ⟨hinv.relay, ?_, ?_⟩
      · intro t d hd hlock
        rcases calls_update hd with ⟨rfl, hc⟩ | ⟨-, hd⟩
        · obtain rfl := Option.some.inj hc
          exact absurd hlock (by simp [RelayAction.holdsLock_starts hs])
        · exact hinv.holder t d hd hlock
      · intro t d hd
        rcases calls_update hd with ⟨rfl, hc⟩ | ⟨-, hd⟩
        · obtain rfl := Option.some.inj hc
          exact hstart t c hs
        · exact hinv.calls t d hd
  | @park ips =>
      refine ⟨rule.parkRelay _ ips hinv.relay, ?_, ?_⟩
      · intro t d hd hlock
        exact (sys.relay.handle_park ips).trans (hinv.holder t d hd hlock)
      · intro t d hd
        exact rule.parkCall _ ips d (hinv.calls t d hd)
  | get => exact hinv
  | @call task ca c c' s' hcall hstep =>
      have hholder := hinv.holder task c hcall
      obtain ⟨hR, hQ⟩ := rule.step _ _ _ _ _ _ hstep hholder hinv.relay (hinv.calls task c hcall)
      -- another call past its lock would exclude this step
      have hothers : ∀ t d, t ≠ task → sys.calls t = some d → d.holdsLock = false := by
        intro t d ht hd
        by_contra hlock
        have hhandle := hinv.holder t d hd (by simpa using hlock)
        rcases hstep.lock with hnone | hhold
        · exact absurd (hhandle.symm.trans hnone) (by simp)
        · exact ht (Option.some.inj (hhandle.symm.trans (hholder hhold)))
      refine ⟨hR, ?_, ?_⟩
      · intro t d hd hlock
        rcases calls_update hd with ⟨rfl, hc⟩ | ⟨ht, hd⟩
        · obtain rfl := Option.some.inj hc
          exact hstep.holder hholder hlock
        · exact absurd hlock (by simp [hothers t d ht hd])
      · intro t d hd
        rcases calls_update hd with ⟨rfl, hc⟩ | ⟨ht, hd⟩
        · obtain rfl := Option.some.inj hc
          exact hQ
        · exact rule.idle _ _ d (hothers t d ht hd) (hinv.calls t d hd)
  | @join task ok hcall =>
      refine ⟨hinv.relay, ?_, ?_⟩
      · intro t d hd hlock
        rcases calls_update hd with ⟨-, hc⟩ | ⟨-, hd⟩
        · exact absurd hc (by simp)
        · exact hinv.holder t d hd hlock
      · intro t d hd
        rcases calls_update hd with ⟨-, hc⟩ | ⟨-, hd⟩
        · exact absurd hc (by simp)
        · exact hinv.calls t d hd

/-! ## Guards of their keys -/

/-- Every guard is that of its key. -/
def RelayState.Keyed (s : RelayState T) : Prop :=
  ∀ ip e, s.peerMap ip = some e → e.route.destIp = ip

/-- Every removal is that of its future's address. -/
def RemovesKeyed (futures : List (IpAddr × RemoveFuture)) : Prop :=
  ∀ ip target reply, (ip, RemoveFuture.removing target reply) ∈ futures → target = ip

/-- The futures of a removal ask for the addresses they stand for. -/
def Call.Keyed : Call T → Prop
  | .rollback futures => RemovesKeyed futures
  | .removing futures _ => RemovesKeyed futures
  | _ => True

theorem RelayState.Keyed.new (routes : IpAddr → Bool) :
    ({ RelayState.new with osRoutes := routes } : RelayState T).Keyed :=
  fun _ _ h => absurd h (by simp [RelayState.new])

/-- An entry of the right guard may be put in. -/
theorem RelayState.Keyed.setEntry (hkeyed : s.Keyed) {ip : IpAddr} {e : PeerValue T}
    (he : e.route.destIp = ip) : (s.setEntry ip e).Keyed := by
  intro x e' hx
  by_cases hxi : x = ip
  · subst hxi
    obtain rfl : e = e' := by simpa [RelayState.setEntry] using hx
    exact he
  · exact hkeyed x e' (by simpa [RelayState.setEntry, hxi] using hx)

theorem RelayState.Keyed.removeEntry (hkeyed : s.Keyed) (ip : IpAddr) :
    (s.removeEntry ip).Keyed := by
  intro x e hx
  by_cases hxi : x = ip
  · subst hxi
    exact absurd hx (by simp [RelayState.removeEntry])
  · exact hkeyed x e (by simpa [RelayState.removeEntry, hxi] using hx)

theorem RelayState.Keyed.park (hkeyed : s.Keyed) (ips : List IpAddr) : (s.park ips).Keyed := by
  unfold RelayState.park
  induction ips generalizing s with
  | nil => exact hkeyed
  | cons ip rest ih =>
      refine ih ?_
      unfold parkOne
      split
      · next entry hentry => exact hkeyed.setEntry (hkeyed ip entry hentry)
      · exact hkeyed

theorem InsertStep.keyed {value : T} {futures futures' : List (IpAddr × InsertFuture)}
    {ca : CallAction} (h : InsertStep os value s futures ca s' futures') (hkeyed : s.Keyed) :
    s'.Keyed := by
  cases h with
  | @rearm i ip entry _ hentry =>
      have hguard : entry.route.destIp = ip := hkeyed ip entry hentry
      exact hkeyed.setEntry hguard
  | register _ => exact hkeyed.setEntry rfl
  | _ => exact hkeyed

theorem RemoveStep.keyed {futures futures' : List (IpAddr × RemoveFuture)} {ca : CallAction}
    (h : RemoveStep os s futures ca s' futures') (hkeyed : s.Keyed) (hr : RemovesKeyed futures) :
    s'.Keyed ∧ RemovesKeyed futures' := by
  cases h with
  | @untrack i ip old hfut hentry =>
      refine ⟨hkeyed.removeEntry ip, ?_⟩
      intro x target reply hx
      rcases Batch.mem_set hx with hx | ⟨rfl, hf⟩
      · exact hr x target reply hx
      · obtain ⟨rfl, -⟩ := RemoveFuture.removing.inj hf
        exact hkeyed x old hentry
  | @direct i ip hfut hentry =>
      refine ⟨hkeyed, ?_⟩
      intro x target reply hx
      rcases Batch.mem_set hx with hx | ⟨rfl, hf⟩
      · exact hr x target reply hx
      · exact (RemoveFuture.removing.inj hf).1
  | @reply i ip target ok present hfut hos =>
      refine ⟨hkeyed, ?_⟩
      intro x t reply hx
      rcases Batch.mem_set hx with hx | ⟨rfl, hf⟩
      · exact hr x t reply hx
      · obtain ⟨rfl, -⟩ := RemoveFuture.removing.inj hf
        exact hr x t none (List.mem_of_getElem? hfut)
  | done hfut =>
      refine ⟨hkeyed, ?_⟩
      intro x target reply hx
      exact hr x target reply (Batch.mem_of_mem_set hx (by simp))

theorem RemovesKeyed.start {futures : List (IpAddr × RemoveFuture)}
    (h : ∀ f ∈ futures, f.2 = .start) : RemovesKeyed futures :=
  fun _ _ _ hmem => absurd (h _ hmem) (by simp)

theorem Call.keyed_afterRemove (next : Option (List IpAddr × T)) :
    (Call.afterRemove next).Keyed := by
  cases next <;> trivial

theorem CallStep.keyed {c c' : Call T} {ca : CallAction} (h : CallStep os me s c ca s' c')
    (hkeyed : s.Keyed) (hc : c.Keyed) : s'.Keyed ∧ c'.Keyed := by
  cases h with
  | lockInsert _ => exact ⟨hkeyed, trivial⟩
  | insert hstep => exact ⟨hstep.keyed hkeyed, trivial⟩
  | fail _ =>
      refine ⟨hkeyed, RemovesKeyed.start ?_⟩
      intro f hf
      obtain ⟨g, -, rfl⟩ := List.mem_map.1 hf
      rfl
  | inserted _ => exact ⟨hkeyed, trivial⟩
  | undo hstep => exact hstep.keyed hkeyed hc
  | undone _ => exact ⟨hkeyed, trivial⟩
  | lockRemove _ =>
      refine ⟨hkeyed, RemovesKeyed.start ?_⟩
      intro f hf
      obtain ⟨ip, -, rfl⟩ := List.mem_map.1 hf
      rfl
  | remove hstep => exact hstep.keyed hkeyed hc
  | removed _ => exact ⟨hkeyed, Call.keyed_afterRemove _⟩

theorem keyed_lockRule : LockRule os (fun s : RelayState T => s.Keyed) (fun _ c => c.Keyed) where
  idle := fun _ _ _ _ hc => hc
  parkRelay := fun _ ips hkeyed => hkeyed.park ips
  parkCall := fun _ _ _ hc => hc
  step := fun _ _ _ _ _ _ hstep _ hkeyed hc => hstep.keyed hkeyed hc

theorem RelayAction.keyed_starts {task : Nat} {c : Call T} (h : a.starts = some (task, c)) :
    c.Keyed := by
  have hlock := RelayAction.holdsLock_starts h
  cases c with
  | rollback futures => exact absurd hlock (by simp [Call.holdsLock])
  | removing futures next => exact absurd hlock (by simp [Call.holdsLock])
  | _ => trivial

/-- A relay that starts on a routing table with routes of others. -/
def RelaySystem.onTable (routes : IpAddr → Bool) : RelaySystem T :=
  ⟨{ RelayState.new with osRoutes := routes }, fun _ => none⟩

/-- Guards and removals stay keyed in every run, whatever the OS does. -/
theorem RelaySystem.keyed_of_run {routes : IpAddr → Bool} {acts : List (RelayAction T)}
    (hrun : runFrom (RelaySystem.step os) (RelaySystem.onTable routes) acts = some sys) :
    sys.LockInv (fun s => s.Keyed) (fun _ c => c.Keyed) := by
  refine runFrom_invariant ?_ ⟨RelayState.Keyed.new routes, ?_, ?_⟩ hrun
  · intro sys a sys' hinv hstep
    exact keyed_lockRule.step_inv hinv (fun _ _ hstart => RelayAction.keyed_starts hstart) hstep
  · intro task c hc
    exact absurd hc (by simp [RelaySystem.onTable])
  · intro task c hc
    exact absurd hc (by simp [RelaySystem.onTable])

end

end P2pVpn
