import P2pVpn.Relay.Entries
import P2pVpn.Relay.System

set_option autoImplicit false

/-! # What a failed `insert` leaves behind

The rollback of `insert` runs `remove_locked` over the whole batch. An address without an entry is
removed directly, in case the OS applied an add that failed; a route that was there before the call,
and that the relay never tracked, goes with it. -/

namespace P2pVpn

section

variable {T : Type}

/-- A failed add changes nothing. -/
def OsRules.FailedAddKeeps (os : OsRules) : Prop :=
  ∀ before after, os.add before false after = true → after = before

/-- A route is added once, removed by every removal, and not touched by an add that fails. -/
def OsRules.atomic : OsRules where
  add before ok after := (after == (before || ok)) && !(before && ok)
  remove _ ok after := ok && !after

theorem OsRules.atomic_failedAddKeeps : OsRules.atomic.FailedAddKeeps := by
  intro before after h
  simpa [atomic] using h

/-- What a failed `insert` of `ips` may change: no address of the batch is tracked any more, nothing
    changes for the others, and routes that were not the relay's stay. -/
structure InsertConfined (s : RelayState T) (ips : List IpAddr) (s' : RelayState T) : Prop where
  untracked : ∀ ip ∈ ips, s'.peerMap ip = none
  outside : ∀ ip, ip ∉ ips → s'.peerMap ip = s.peerMap ip ∧ s'.osRoutes ip = s.osRoutes ip
  foreign : ∀ ip, s.osRoutes ip = true → s.peerMap ip = none → s'.osRoutes ip = true

/-! ## Addresses of the batch and others -/

variable {os : OsRules} {me : Nat} {s s' : RelayState T}

theorem InsertStep.osFrame {value : T} {futures futures' : List (IpAddr × InsertFuture)}
    {ca : CallAction} (h : InsertStep os value s futures ca s' futures') {x : IpAddr}
    (hx : x ∉ futures.map Prod.fst) : s'.osRoutes x = s.osRoutes x := by
  cases h with
  | reply hfut _ => exact Function.update_of_ne (ne_of_not_mem_keys hfut hx) _ _
  | _ => rfl

theorem RemoveStep.osFrame {futures futures' : List (IpAddr × RemoveFuture)} {ca : CallAction}
    (h : RemoveStep os s futures ca s' futures') (hr : RemovesKeyed futures) {x : IpAddr}
    (hx : x ∉ futures.map Prod.fst) : s'.osRoutes x = s.osRoutes x := by
  cases h with
  | @reply i ip target ok present hfut _ =>
      obtain rfl := hr ip target none (List.mem_of_getElem? hfut)
      exact Function.update_of_ne (ne_of_not_mem_keys hfut hx) _ _
  | _ => rfl

/-- A call only touches routes of its own addresses. -/
theorem CallStep.osFrame {c c' : Call T} {ca : CallAction} (h : CallStep os me s c ca s' c')
    (hc : c.Keyed) {x : IpAddr} (hx : x ∉ c.addrs) : s'.osRoutes x = s.osRoutes x := by
  cases h with
  | insert hstep => exact hstep.osFrame hx
  | undo hstep => exact hstep.osFrame hc hx
  | remove hstep => exact hstep.osFrame hc fun hmem => hx (List.mem_append_left _ hmem)
  | _ => rfl

/-- What a call of its own keeps true: keyed guards, addresses within the batch, entries as
    `EntryInv` says, and everything else as in `s₀`. -/
structure AloneInv (s₀ : RelayState T) (ips : List IpAddr) (value : T)
    (p : RelayState T × Call T) : Prop where
  keyed : p.1.Keyed
  callKeyed : p.2.Keyed
  within : p.2.Within (· ∈ ips)
  entries : p.2.EntryInv (· ∈ ips) p.1.peerMap (some (ips, value))
  outside : ∀ ip, ip ∉ ips → p.1.peerMap ip = s₀.peerMap ip ∧ p.1.osRoutes ip = s₀.osRoutes ip

theorem AloneInv.insert (hkeyed : s.Keyed) (ips : List IpAddr) (value : T) :
    AloneInv s ips value (s, .insert ips value) where
  keyed := hkeyed
  callKeyed := trivial
  within := fun _ hip => hip
  entries := ⟨rfl, fun _ hip _ => hip⟩
  outside := fun _ _ => ⟨rfl, rfl⟩

theorem AloneInv.step {s₀ : RelayState T} {ips : List IpAddr} {value : T}
    {p p' : RelayState T × Call T} {ca : CallAction} (hinv : AloneInv s₀ ips value p)
    (h : Call.alone os me p ca = some p') : AloneInv s₀ ips value p' := by
  obtain ⟨s, c⟩ := p
  obtain ⟨s', c'⟩ := p'
  unfold Call.alone at h
  split_ifs at h with hpanic
  have hstep := Call.step_sound h
  obtain ⟨hkeyed, hcallKeyed⟩ := hstep.keyed hinv.keyed hinv.callKeyed
  refine ⟨hkeyed, hcallKeyed, hstep.within hinv.within, hstep.entryInv hinv.entries, ?_⟩
  intro ip hip
  have hout : ip ∉ c.addrs := fun hmem => hip (hinv.within ip hmem)
  obtain ⟨hentry, hroute⟩ := hinv.outside ip hip
  exact ⟨(hstep.frame.1 ip hout).trans hentry,
    (hstep.osFrame hinv.callKeyed hout).trans hroute⟩

/-! ## A rollback that completes -/

/-- One address of the rollback: the entry goes, if there is one, and then the route. -/
theorem rollback_one (hkeyed : s.Keyed) (hpanic : s.panicked = false)
    {futures : List (IpAddr × RemoveFuture)} {i : Nat} {x : IpAddr}
    (hfut : futures[i]? = some (x, .start)) :
    ∃ s', runFrom (Call.alone .atomic me) (s, .rollback futures)
        [.poll i, .osReply i true false, .poll i]
        = some (s', .rollback (futures.set i (x, .done))) ∧
      s'.Keyed ∧ s'.panicked = false ∧ s'.osRoutes = Function.update s.osRoutes x false := by
  obtain ⟨hi, -⟩ := List.getElem?_eq_some_iff.1 hfut
  -- whether or not there was an entry, the future asks for the removal of `x`
  have hask : ∃ s₁, Call.alone .atomic me (s, .rollback futures) (.poll i)
      = some (s₁, .rollback (futures.set i (x, .removing x none))) ∧
      s₁.Keyed ∧ s₁.panicked = false ∧ s₁.osRoutes = s.osRoutes := by
    cases hentry : s.peerMap x with
    | none =>
        exact ⟨s, Call.alone_eq hpanic (.undo (.direct hfut hentry)), hkeyed, hpanic, rfl⟩
    | some old =>
        have hstep : Call.alone .atomic me (s, .rollback futures) (.poll i)
            = some (s.removeEntry x,
                .rollback (futures.set i (x, .removing old.route.destIp none))) :=
          Call.alone_eq hpanic (.undo (.untrack hfut hentry))
        rw [hkeyed x old hentry] at hstep
        exact ⟨s.removeEntry x, hstep, hkeyed.removeEntry x, hpanic, rfl⟩
  obtain ⟨s₁, hask, hkeyed₁, hpanic₁, hroutes₁⟩ := hask
  have h₁ : (futures.set i (x, RemoveFuture.removing x none))[i]? = some (x, .removing x none) := by
    simp [hi]
  have h₂ : (futures.set i (x, RemoveFuture.removing x (some true)))[i]?
      = some (x, .removing x (some true)) := by simp [hi]
  have hreply : Call.alone .atomic me (s₁, .rollback (futures.set i (x, .removing x none)))
      (.osReply i true false)
      = some (s₁.setRoute x false, .rollback (futures.set i (x, .removing x (some true)))) := by
    have hstep : Call.alone .atomic me (s₁, .rollback (futures.set i (x, .removing x none)))
        (.osReply i true false) = some (s₁.setRoute x false, .rollback
          ((futures.set i (x, .removing x none)).set i (x, .removing x (some true)))) :=
      Call.alone_eq hpanic₁ (.undo (.reply h₁ rfl))
    rwa [List.set_set] at hstep
  have hdone : Call.alone .atomic me
      (s₁.setRoute x false, .rollback (futures.set i (x, .removing x (some true)))) (.poll i)
      = some (s₁.setRoute x false, .rollback (futures.set i (x, .done))) := by
    have hstep : Call.alone .atomic me
        (s₁.setRoute x false, .rollback (futures.set i (x, .removing x (some true)))) (.poll i)
        = some (s₁.setRoute x false, .rollback
          ((futures.set i (x, .removing x (some true))).set i (x, .done))) :=
      Call.alone_eq hpanic₁ (.undo (.done h₂))
    rwa [List.set_set] at hstep
  refine ⟨s₁.setRoute x false, ?_, hkeyed₁, hpanic₁, ?_⟩
  · rw [runFrom_step hask, runFrom_step hreply, runFrom_step hdone]
    rfl
  · simp [RelayState.setRoute, hroutes₁]

/-- The rollback of a batch, one address after the other, takes away every route of the batch. -/
theorem rollback_run (done todo : List IpAddr) (hkeyed : s.Keyed) (hpanic : s.panicked = false) :
    ∃ acts s', runFrom (Call.alone .atomic me)
        (s, .rollback (done.map (fun ip => (ip, .done)) ++ todo.map fun ip => (ip, .start))) acts
        = some (s', .rollback ((done ++ todo).map fun ip => (ip, .done))) ∧
      s'.panicked = false ∧ (∀ x, s.osRoutes x = false → s'.osRoutes x = false) ∧
      ∀ x ∈ todo, s'.osRoutes x = false := by
  induction todo generalizing done s with
  | nil => exact ⟨[], s, by simp [runFrom], hpanic, fun _ h => h, by simp⟩
  | cons x rest ih =>
      have hfut : (done.map (fun ip => (ip, RemoveFuture.done))
          ++ (x :: rest).map fun ip => (ip, RemoveFuture.start))[done.length]?
          = some (x, .start) := by simp
      obtain ⟨s₁, hone, hkeyed₁, hpanic₁, hroutes₁⟩ :=
        rollback_one hkeyed hpanic hfut
      have hset : (done.map (fun ip => (ip, RemoveFuture.done))
          ++ (x :: rest).map fun ip => (ip, RemoveFuture.start)).set done.length (x, .done)
          = (done ++ [x]).map (fun ip => (ip, RemoveFuture.done))
            ++ rest.map fun ip => (ip, RemoveFuture.start) := by
        simp
      rw [hset] at hone
      obtain ⟨acts, s', hrun, hpanic', hmono, hgone⟩ := ih (done ++ [x]) hkeyed₁ hpanic₁
      refine ⟨_, s', (runFrom_append hone acts).trans ?_, hpanic', ?_, ?_⟩
      · simpa using hrun
      · intro y hy
        refine hmono y ?_
        rw [hroutes₁]
        by_cases hyx : y = x
        · simp [hyx]
        · simpa [hyx] using hy
      · intro y hy
        rcases List.mem_cons.1 hy with rfl | hy
        · exact hmono y (by simp [hroutes₁])
        · exact hgone y hy

/-- The OS refuses to add a route it already has, and the rollback takes that route away. -/
theorem insert_removes_foreign {ips : List IpAddr} {x : IpAddr} (value : T) (hx : x ∈ ips)
    (hkeyed : s.Keyed) (hpanic : s.panicked = false) (hfree : s.handle = none)
    (hroute : s.osRoutes x = true) (hnone : s.peerMap x = none) :
    ∃ acts s', runFrom (Call.alone .atomic me) (s, .insert ips value) acts
        = some (s', .returned false) ∧ s'.osRoutes x = false := by
  obtain ⟨i, hi⟩ := List.mem_iff_getElem?.1 hx
  have hilt := (List.getElem?_eq_some_iff.1 hi).1
  obtain ⟨s₁, hs₁⟩ : ∃ s₁ : RelayState T, s₁ = { s with handle := some me } := ⟨_, rfl⟩
  have hpanic₁ : s₁.panicked = false := hs₁ ▸ hpanic
  have hkeyed₁ : s₁.Keyed := hs₁ ▸ hkeyed
  have hnone₁ : s₁.peerMap x = none := hs₁ ▸ hnone
  have hroute₁ : s₁.osRoutes x = true := hs₁ ▸ hroute
  obtain ⟨b, hb⟩ : ∃ b, b = ips.map fun ip => (ip, InsertFuture.start) := ⟨_, rfl⟩
  have hblen : i < b.length := by simpa [hb] using hilt
  have h₀ : b[i]? = some (x, .start) := by simp [hb, hi]
  have hlock : Call.alone .atomic me (s, .insert ips value) .acquire
      = some (s₁, .inserting value b) :=
    hs₁ ▸ hb ▸ Call.alone_eq hpanic (.lockInsert hfree)
  have hask : Call.alone .atomic me (s₁, .inserting value b) (.poll i)
      = some (s₁, .inserting value (b.set i (x, .adding none))) :=
    Call.alone_eq hpanic₁ (.insert (.request h₀ hnone₁))
  have hreply : Call.alone .atomic me (s₁, .inserting value (b.set i (x, .adding none)))
      (.osReply i false true)
      = some (s₁.setRoute x true, .inserting value
          ((b.set i (x, .adding none)).set i (x, .adding (some false)))) :=
    Call.alone_eq hpanic₁ (.insert (.reply (by simp [hblen]) (by simp [hroute₁, OsRules.atomic])))
  rw [List.set_set] at hreply
  have hrefused : Call.alone .atomic me
      (s₁.setRoute x true, .inserting value (b.set i (x, .adding (some false)))) (.poll i)
      = some (s₁.setRoute x true, .inserting value
          ((b.set i (x, .adding (some false))).set i (x, .done false))) :=
    Call.alone_eq hpanic₁ (.insert (.refused (by simp [hblen])))
  rw [List.set_set] at hrefused
  have hfail : Call.alone .atomic me
      (s₁.setRoute x true, .inserting value (b.set i (x, .done false))) .fail
      = some (s₁.setRoute x true, .rollback
          ((b.set i (x, .done false)).map fun f => (f.1, .start))) :=
    Call.alone_eq hpanic₁ (.fail (Batch.mem_set_self h₀))
  have hkeys : (b.set i (x, .done false)).map (fun f => (f.1, RemoveFuture.start))
      = [].map (fun ip => (ip, RemoveFuture.done)) ++ ips.map fun ip => (ip, RemoveFuture.start) := by
    have hsame : (b.set i (x, .done false)).map Prod.fst = b.map Prod.fst := Batch.keys_set h₀
    have hips : b.map Prod.fst = ips := by simp [hb, Function.comp_def]
    rw [← hips, ← hsame, List.map_nil, List.nil_append, List.map_map]
    rfl
  rw [hkeys] at hfail
  obtain ⟨acts, s₂, hundo, hpanic₂, -, hgone⟩ :=
    rollback_run (s := s₁.setRoute x true) [] ips hkeyed₁ hpanic₁
  have hfinish : Call.alone .atomic me (s₂, .rollback (([] ++ ips).map fun ip => (ip, .done)))
      .finish = some (s₂.unlock, .returned false) := by
    refine Call.alone_eq hpanic₂ (.undone ?_)
    intro f hf
    obtain ⟨ip, -, rfl⟩ := List.mem_map.1 hf
    rfl
  refine ⟨[CallAction.acquire, .poll i, .osReply i false true, .poll i, .fail] ++
    (acts ++ [CallAction.finish]), s₂.unlock, ?_, hgone x hx⟩
  simp only [List.cons_append, List.nil_append]
  rw [runFrom_step hlock, runFrom_step hask, runFrom_step hreply, runFrom_step hrefused,
    runFrom_step hfail, runFrom_append hundo, runFrom_step hfinish]
  rfl

/-- **A failed `insert` is confined to the relay's own routes** in every run, with any OS that leaves
    its table alone when an add fails, exactly when every address of the batch that has an OS route
    already is one the relay tracks. -/
theorem insert_confined_iff_tracked (routes : IpAddr → Bool) (before : List (RelayAction T))
    (sys : RelaySystem T)
    (hreach : runFrom (RelaySystem.step .any) (RelaySystem.onTable routes) before = some sys)
    (hpanic : sys.relay.panicked = false) (hfree : sys.relay.handle = none) (ips : List IpAddr)
    (value : T) :
    (∀ (os : OsRules), os.FailedAddKeeps → ∀ (me : Nat) (acts : List CallAction)
      (s' : RelayState T),
      runFrom (Call.alone os me) (sys.relay, .insert ips value) acts = some (s', .returned false) →
      InsertConfined sys.relay ips s') ↔
      ∀ ip ∈ ips, sys.relay.osRoutes ip = true → sys.relay.peerMap ip ≠ none := by
  have hkeyed : sys.relay.Keyed := (RelaySystem.keyed_of_run hreach).relay
  refine ⟨?_, ?_⟩
  · intro hconfined ip hip hroute hnone
    obtain ⟨acts, s', hrun, hlost⟩ :=
      insert_removes_foreign value hip hkeyed hpanic hfree hroute hnone
    have hkept := (hconfined .atomic OsRules.atomic_failedAddKeeps 0 acts s' hrun).foreign ip hroute
      hnone
    exact absurd (hlost.symm.trans hkept) (by simp)
  · intro htracked os _ me acts s' hrun
    have hinv : AloneInv sys.relay ips value (s', .returned false) :=
      runFrom_invariant (fun _ _ _ hI hs => hI.step hs) (AloneInv.insert hkeyed ips value) hrun
    refine ⟨?_, hinv.outside, ?_⟩
    · intro ip hip
      exact (hinv.entries ip hip).2 (by simp)
    · intro ip hroute hnone
      by_cases hip : ip ∈ ips
      · exact absurd hnone (htracked ip hip hroute)
      · exact (hinv.outside ip hip).2.trans hroute

end

/-- The address of the DNS resolver, which `main` routes to the TUN device by itself. -/
def resolverAddr : IpAddr := .v6 0xfdbd_a6ce_654d_0000_0000_0000_0000_0002#128

/-- A routing table with the resolver's own route only. -/
def resolverTable : IpAddr → Bool := fun ip => ip = resolverAddr

/-- A completed `insert` of one address. -/
def insertOne : List (RelayAction Unit) :=
  [.insert 0 [.v4 1] (), .call 0 .acquire, .call 0 (.poll 0), .call 0 (.osReply 0 true true),
    .call 0 (.poll 0), .call 0 .finish]

/-- A batch that does not name the resolver is rolled back without touching its route, even though an
    address of the batch is tracked and installed. -/
theorem insert_confined_beside_resolver :
    ∃ sys : RelaySystem Unit,
      runFrom (RelaySystem.step .any) (RelaySystem.onTable resolverTable) insertOne = some sys ∧
      sys.relay.osRoutes (.v4 1) = true ∧
      ∀ (os : OsRules), os.FailedAddKeeps → ∀ (me : Nat) (acts : List CallAction)
        (s' : RelayState Unit),
        runFrom (Call.alone os me) (sys.relay, .insert [.v4 1, .v4 2] ()) acts
          = some (s', .returned false) →
        InsertConfined sys.relay [.v4 1, .v4 2] s' := by
  refine ⟨_, rfl, rfl, (insert_confined_iff_tracked resolverTable insertOne _ rfl rfl rfl
    [.v4 1, .v4 2] ()).2 ?_⟩
  intro ip hip hroute
  rcases List.mem_cons.1 hip with rfl | hip
  · exact Option.some_ne_none _
  · obtain rfl : ip = .v4 2 := by simpa using hip
    exact absurd hroute (by decide)

/-- A peer advertises the resolver address: the OS refuses the route because it is there, and the
    rollback removes it. -/
theorem failed_insert_removes_resolver_route :
    OsRules.atomic.FailedAddKeeps ∧
    ∃ s' : RelayState Unit, runFrom (Call.alone .atomic 0)
        ((RelaySystem.onTable resolverTable).relay, .insert [resolverAddr] ())
        [.acquire, .poll 0, .osReply 0 false true, .poll 0, .fail, .poll 0, .osReply 0 true false,
          .poll 0, .finish] = some (s', .returned false) ∧
      (RelaySystem.onTable resolverTable : RelaySystem Unit).relay.peerMap
        resolverAddr = none ∧
      (RelaySystem.onTable resolverTable : RelaySystem Unit).relay.osRoutes
        resolverAddr = true ∧
      s'.osRoutes resolverAddr = false :=
  ⟨OsRules.atomic_failedAddKeeps, _, rfl, rfl, rfl, rfl⟩

end P2pVpn
