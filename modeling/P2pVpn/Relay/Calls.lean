import P2pVpn.Relay.Basic

set_option autoImplicit false

/-! # What a step of a relay call can do

`InsertStep`, `RemoveStep` and `CallStep` list the transitions of the step functions, one constructor
for each branch of the source; `Call.step_sound` and `CallStep.complete` connect the two. Every
invariant of the relay is proved over these. -/

namespace P2pVpn

section

variable {T : Type}

/-! ## Transitions -/

/-- Transitions of the batch of `insert`. -/
inductive InsertStep (os : OsRules) (value : T) (s : RelayState T)
    (futures : List (IpAddr × InsertFuture)) :
    CallAction → RelayState T → List (IpAddr × InsertFuture) → Prop where
  | rearm {i : Nat} {ip : IpAddr} {entry : PeerValue T}
      (hfut : futures[i]? = some (ip, .start)) (hentry : s.peerMap ip = some entry) :
      InsertStep os value s futures (.poll i) (s.setEntry ip { entry with value := some value })
        (futures.set i (ip, .done true))
  | request {i : Nat} {ip : IpAddr}
      (hfut : futures[i]? = some (ip, .start)) (hentry : s.peerMap ip = none) :
      InsertStep os value s futures (.poll i) s (futures.set i (ip, .adding none))
  | reply {i : Nat} {ip : IpAddr} {ok present : Bool}
      (hfut : futures[i]? = some (ip, .adding none))
      (hos : os.add (s.osRoutes ip) ok present = true) :
      InsertStep os value s futures (.osReply i ok present) (s.setRoute ip present)
        (futures.set i (ip, .adding (some ok)))
  | register {i : Nat} {ip : IpAddr}
      (hfut : futures[i]? = some (ip, .adding (some true))) :
      InsertStep os value s futures (.poll i) (s.insertEntry ip ⟨some value, ⟨ip⟩⟩)
        (futures.set i (ip, .done true))
  | refused {i : Nat} {ip : IpAddr}
      (hfut : futures[i]? = some (ip, .adding (some false))) :
      InsertStep os value s futures (.poll i) s (futures.set i (ip, .done false))

/-- Transitions of the batch of `remove_locked`. -/
inductive RemoveStep (os : OsRules) (s : RelayState T) (futures : List (IpAddr × RemoveFuture)) :
    CallAction → RelayState T → List (IpAddr × RemoveFuture) → Prop where
  | untrack {i : Nat} {ip : IpAddr} {old : PeerValue T}
      (hfut : futures[i]? = some (ip, .start)) (hentry : s.peerMap ip = some old) :
      RemoveStep os s futures (.poll i) (s.removeEntry ip)
        (futures.set i (ip, .removing old.route.destIp none))
  | direct {i : Nat} {ip : IpAddr}
      (hfut : futures[i]? = some (ip, .start)) (hentry : s.peerMap ip = none) :
      RemoveStep os s futures (.poll i) s (futures.set i (ip, .removing ip none))
  | reply {i : Nat} {ip target : IpAddr} {ok present : Bool}
      (hfut : futures[i]? = some (ip, .removing target none))
      (hos : os.remove (s.osRoutes target) ok present = true) :
      RemoveStep os s futures (.osReply i ok present) (s.setRoute target present)
        (futures.set i (ip, .removing target (some ok)))
  | done {i : Nat} {ip target : IpAddr} {ok : Bool}
      (hfut : futures[i]? = some (ip, .removing target (some ok))) :
      RemoveStep os s futures (.poll i) s (futures.set i (ip, .done))

/-- Transitions of a call of task `me`. -/
inductive CallStep (os : OsRules) (me : Nat) (s : RelayState T) :
    Call T → CallAction → RelayState T → Call T → Prop where
  | lockInsert {ips : List IpAddr} {value : T} (hfree : s.handle = none) :
      CallStep os me s (.insertLock ips value) .acquire { s with handle := some me }
        (.inserting value (ips.map fun ip => (ip, .start)))
  | insert {value : T} {futures futures' : List (IpAddr × InsertFuture)} {s' : RelayState T}
      {a : CallAction} (hstep : InsertStep os value s futures a s' futures') :
      CallStep os me s (.inserting value futures) a s' (.inserting value futures')
  | fail {value : T} {futures : List (IpAddr × InsertFuture)} {ip : IpAddr}
      (herr : (ip, InsertFuture.done false) ∈ futures) :
      CallStep os me s (.inserting value futures) .fail s
        (.rollback (futures.map fun f => (f.1, .start)))
  | inserted {value : T} {futures : List (IpAddr × InsertFuture)}
      (hall : ∀ f ∈ futures, f.2 = .done true) :
      CallStep os me s (.inserting value futures) .finish s.unlock (.returned true)
  | undo {futures futures' : List (IpAddr × RemoveFuture)} {s' : RelayState T}
      {a : CallAction} (hstep : RemoveStep os s futures a s' futures') :
      CallStep os me s (.rollback futures) a s' (.rollback futures')
  | undone {futures : List (IpAddr × RemoveFuture)} (hall : ∀ f ∈ futures, f.2 = .done) :
      CallStep os me s (.rollback futures) .finish s.unlock (.returned false)
  | lockRemove {ips : List IpAddr} {next : Option (List IpAddr × T)} (hfree : s.handle = none) :
      CallStep os me s (.removeLock ips next) .acquire { s with handle := some me }
        (.removing (ips.map fun ip => (ip, .start)) next)
  | remove {futures futures' : List (IpAddr × RemoveFuture)} {next : Option (List IpAddr × T)}
      {s' : RelayState T} {a : CallAction} (hstep : RemoveStep os s futures a s' futures') :
      CallStep os me s (.removing futures next) a s' (.removing futures' next)
  | removed {futures : List (IpAddr × RemoveFuture)} {next : Option (List IpAddr × T)}
      (hall : ∀ f ∈ futures, f.2 = .done) :
      CallStep os me s (.removing futures next) .finish s.unlock (Call.afterRemove next)

variable {os : OsRules} {me : Nat} {value : T} {s s' : RelayState T}

theorem insertStep_sound {futures futures' : List (IpAddr × InsertFuture)} {a : CallAction}
    (h : insertStep os value s futures a = some (s', futures')) :
    InsertStep os value s futures a s' futures' := by
  unfold insertStep at h
  split at h
  · next i =>
      split at h
      · next ip f hfut =>
          split at h
          · next s₁ f' hpoll =>
              obtain ⟨rfl, rfl⟩ : s₁ = s' ∧ futures.set i (ip, f') = futures' := by simpa using h
              unfold pollInsert at hpoll
              split at hpoll
              · split at hpoll
                · next entry hentry =>
                    obtain ⟨rfl, rfl⟩ := Prod.mk.inj (Option.some.inj hpoll)
                    exact .rearm hfut hentry
                · next hentry =>
                    obtain ⟨rfl, rfl⟩ := Prod.mk.inj (Option.some.inj hpoll)
                    exact .request hfut hentry
              · obtain ⟨rfl, rfl⟩ := Prod.mk.inj (Option.some.inj hpoll)
                exact .register hfut
              · obtain ⟨rfl, rfl⟩ := Prod.mk.inj (Option.some.inj hpoll)
                exact .refused hfut
              · exact absurd hpoll (by simp)
              · exact absurd hpoll (by simp)
          · exact absurd h (by simp)
      · exact absurd h (by simp)
  · next i ok present =>
      split at h
      · next ip hfut =>
          split_ifs at h with hos
          obtain ⟨rfl, rfl⟩ := Prod.mk.inj (Option.some.inj h)
          exact .reply hfut hos
      · exact absurd h (by simp)
  · exact absurd h (by simp)

theorem removeStep_sound {futures futures' : List (IpAddr × RemoveFuture)} {a : CallAction}
    (h : removeStep os s futures a = some (s', futures')) :
    RemoveStep os s futures a s' futures' := by
  unfold removeStep at h
  split at h
  · next i =>
      split at h
      · next ip f hfut =>
          split at h
          · next s₁ f' hpoll =>
              obtain ⟨rfl, rfl⟩ : s₁ = s' ∧ futures.set i (ip, f') = futures' := by simpa using h
              unfold pollRemove at hpoll
              split at hpoll
              · split at hpoll
                · next old hentry =>
                    obtain ⟨rfl, rfl⟩ := Prod.mk.inj (Option.some.inj hpoll)
                    exact .untrack hfut hentry
                · next hentry =>
                    obtain ⟨rfl, rfl⟩ := Prod.mk.inj (Option.some.inj hpoll)
                    exact .direct hfut hentry
              · obtain ⟨rfl, rfl⟩ := Prod.mk.inj (Option.some.inj hpoll)
                exact .done hfut
              · exact absurd hpoll (by simp)
              · exact absurd hpoll (by simp)
          · exact absurd h (by simp)
      · exact absurd h (by simp)
  · next i ok present =>
      split at h
      · next ip target hfut =>
          split_ifs at h with hos
          obtain ⟨rfl, rfl⟩ := Prod.mk.inj (Option.some.inj h)
          exact .reply hfut hos
      · exact absurd h (by simp)
  · exact absurd h (by simp)

theorem RelayState.lock_eq_some (h : s.lock me = some s') :
    s.handle = none ∧ s' = { s with handle := some me } := by
  unfold RelayState.lock at h
  split_ifs at h with hfree
  exact ⟨hfree, (Option.some.inj h).symm⟩

/-- Every step of a call is one of the listed transitions. -/
theorem Call.step_sound {c c' : Call T} {a : CallAction}
    (h : c.step os me s a = some (s', c')) : CallStep os me s c a s' c' := by
  unfold Call.step at h
  split at h
  · obtain ⟨s₁, hlock, heq⟩ := Option.map_eq_some_iff.1 h
    obtain ⟨hfree, rfl⟩ := RelayState.lock_eq_some hlock
    obtain ⟨rfl, rfl⟩ := Prod.mk.inj heq
    exact .lockInsert hfree
  · split_ifs at h with herr
    obtain ⟨rfl, rfl⟩ := Prod.mk.inj (Option.some.inj h)
    obtain ⟨⟨ip, f⟩, hmem, hf⟩ := List.any_eq_true.1 herr
    obtain rfl : f = .done false := of_decide_eq_true hf
    exact .fail hmem
  · split_ifs at h with hall
    obtain ⟨rfl, rfl⟩ := Prod.mk.inj (Option.some.inj h)
    exact .inserted fun f hf => of_decide_eq_true (List.all_eq_true.1 hall f hf)
  · obtain ⟨⟨s₁, futures'⟩, hstep, heq⟩ := Option.map_eq_some_iff.1 h
    obtain ⟨rfl, rfl⟩ := Prod.mk.inj heq
    exact .insert (insertStep_sound hstep)
  · split_ifs at h with hall
    obtain ⟨rfl, rfl⟩ := Prod.mk.inj (Option.some.inj h)
    exact .undone fun f hf => of_decide_eq_true (List.all_eq_true.1 hall f hf)
  · obtain ⟨⟨s₁, futures'⟩, hstep, heq⟩ := Option.map_eq_some_iff.1 h
    obtain ⟨rfl, rfl⟩ := Prod.mk.inj heq
    exact .undo (removeStep_sound hstep)
  · obtain ⟨s₁, hlock, heq⟩ := Option.map_eq_some_iff.1 h
    obtain ⟨hfree, rfl⟩ := RelayState.lock_eq_some hlock
    obtain ⟨rfl, rfl⟩ := Prod.mk.inj heq
    exact .lockRemove hfree
  · split_ifs at h with hall
    obtain ⟨rfl, rfl⟩ := Prod.mk.inj (Option.some.inj h)
    exact .removed fun f hf => of_decide_eq_true (List.all_eq_true.1 hall f hf)
  · obtain ⟨⟨s₁, futures'⟩, hstep, heq⟩ := Option.map_eq_some_iff.1 h
    obtain ⟨rfl, rfl⟩ := Prod.mk.inj heq
    exact .remove (removeStep_sound hstep)
  · exact absurd h (by simp)

/-! Every listed transition is a step, too: runs are built from them. -/

theorem InsertStep.complete {futures futures' : List (IpAddr × InsertFuture)} {a : CallAction}
    (h : InsertStep os value s futures a s' futures') :
    insertStep os value s futures a = some (s', futures') := by
  cases h with
  | rearm hfut hentry => simp only [insertStep, hfut, pollInsert, hentry]
  | request hfut hentry => simp only [insertStep, hfut, pollInsert, hentry]
  | reply hfut hos => simp only [insertStep, hfut, hos, if_true]
  | register hfut => simp only [insertStep, hfut, pollInsert]
  | refused hfut => simp only [insertStep, hfut, pollInsert]

theorem RemoveStep.complete {futures futures' : List (IpAddr × RemoveFuture)} {a : CallAction}
    (h : RemoveStep os s futures a s' futures') :
    removeStep os s futures a = some (s', futures') := by
  cases h with
  | untrack hfut hentry => simp only [removeStep, hfut, pollRemove, hentry]
  | direct hfut hentry => simp only [removeStep, hfut, pollRemove, hentry]
  | reply hfut hos => simp only [removeStep, hfut, hos, if_true]
  | done hfut => simp only [removeStep, hfut, pollRemove]

/-- Every listed transition is a step of the call. -/
theorem CallStep.complete {c c' : Call T} {a : CallAction} (h : CallStep os me s c a s' c') :
    c.step os me s a = some (s', c') := by
  cases h with
  | lockInsert hfree => simp [Call.step, RelayState.lock, hfree]
  | insert hstep =>
      have heq := hstep.complete
      cases hstep <;> (simp only [Call.step]; rw [heq]; rfl)
  | fail herr => exact if_pos (List.any_eq_true.2 ⟨_, herr, decide_eq_true rfl⟩)
  | inserted hall => exact if_pos (List.all_eq_true.2 fun f hf => decide_eq_true (hall f hf))
  | undo hstep =>
      have heq := hstep.complete
      cases hstep <;> (simp only [Call.step]; rw [heq]; rfl)
  | undone hall => exact if_pos (List.all_eq_true.2 fun f hf => decide_eq_true (hall f hf))
  | lockRemove hfree => simp [Call.step, RelayState.lock, hfree]
  | remove hstep =>
      have heq := hstep.complete
      cases hstep <;> (simp only [Call.step]; rw [heq]; rfl)
  | removed hall => exact if_pos (List.all_eq_true.2 fun f hf => decide_eq_true (hall f hf))

/-- Only a rollback returns an error. -/
theorem CallStep.returned_false {c : Call T} {ca : CallAction}
    (h : CallStep os me s c ca s' (.returned false)) :
    ca = .finish ∧ ∃ futures, c = .rollback futures := by
  generalize hc' : Call.returned false = c' at h
  cases h with
  | undone hall => exact ⟨rfl, _, rfl⟩
  | @removed futures next hall => cases next <;> simp [Call.afterRemove] at hc'
  | _ => simp at hc'

/-- A rollback that finishes returns an error. -/
theorem CallStep.rollback_finish {futures : List (IpAddr × RemoveFuture)} {c' : Call T}
    (h : CallStep os me s (.rollback futures) .finish s' c') : c' = .returned false := by
  cases h with
  | undo hstep => cases hstep
  | undone hall => rfl

end

end P2pVpn
