import P2pVpn.Relay.Entries
import P2pVpn.Relay.System

set_option autoImplicit false

/-! # Route guards are never dropped unreleased

`insert` looks for an entry, awaits the OS and only then puts its entry into the map; an entry it
replaced there would be dropped together with a guard nobody released. Under the lock no other call
gets in between, but another future of the same batch does if the batch has an address twice. -/

namespace P2pVpn

section

variable {T : Type}

/-- The list an `insert` or a `reconcile` is to register. -/
def RelayAction.batch : RelayAction T → Option (List IpAddr)
  | .insert _ ips _ => some ips
  | .reconcile _ current _ _ => some current
  | _ => none

/-- No guard has been dropped, and no future that is about to register its route would replace an
    entry. -/
def RelaySystem.GuardsKept (sys : RelaySystem T) : Prop :=
  sys.relay.panicked = false ∧
    ∀ task value futures ip, sys.calls task = some (.inserting value futures) →
      (ip, InsertFuture.adding (some true)) ∈ futures → sys.relay.peerMap ip = none

/-! ## Batches without repetitions -/

/-- What is left to insert has no repetition, and a future that awaits the OS has no entry. -/
def Call.Fresh (s : RelayState T) : Call T → Prop
  | .insertLock ips _ => ips.Nodup
  | .inserting _ futures =>
      (futures.map Prod.fst).Nodup ∧
        ∀ ip reply, (ip, InsertFuture.adding reply) ∈ futures → s.peerMap ip = none
  | .removeLock _ next => (next.elim [] Prod.fst).Nodup
  | .removing _ next => (next.elim [] Prod.fst).Nodup
  | .rollback _ => True
  | .returned _ => True

variable {os : OsRules} {me : Nat} {value : T} {s s' : RelayState T}

theorem RelayState.panicked_insertEntry {ip : IpAddr} (e : PeerValue T)
    (hnone : s.peerMap ip = none) : (s.insertEntry ip e).panicked = s.panicked := by
  simp [insertEntry, hnone]

theorem RelayState.peerMap_park_eq_none {ip : IpAddr} (h : s.peerMap ip = none)
    (ips : List IpAddr) : (s.park ips).peerMap ip = none := by
  rw [peerMap_park, h]
  split_ifs <;> rfl

/-- In a batch without repetitions an entry appears only at an address whose future is done. -/
theorem InsertStep.fresh {futures futures' : List (IpAddr × InsertFuture)} {ca : CallAction}
    (h : InsertStep os value s futures ca s' futures') (hpanic : s.panicked = false)
    (hinv : (Call.inserting value futures).Fresh s) :
    s'.panicked = false ∧ (Call.inserting value futures').Fresh s' := by
  obtain ⟨hnodup, hnone⟩ := hinv
  have hkeys : (futures'.map Prod.fst).Nodup := h.keys ▸ hnodup
  cases h with
  | @rearm i ip entry hfut hentry =>
      refine ⟨hpanic, hkeys, ?_⟩
      intro x reply hx
      by_cases hxi : x = ip
      · subst hxi
        exact absurd (Batch.eq_of_mem_set hnodup hfut hx) (by simp)
      · have hold := hnone x reply (Batch.mem_of_mem_set_of_ne hx hxi)
        simpa [RelayState.setEntry, hxi] using hold
  | @request i ip hfut hentry =>
      refine ⟨hpanic, hkeys, ?_⟩
      intro x reply hx
      rcases Batch.mem_set hx with hx | ⟨rfl, -⟩
      · exact hnone x reply hx
      · exact hentry
  | @reply i ip ok present hfut hos =>
      refine ⟨hpanic, hkeys, ?_⟩
      intro x reply hx
      rcases Batch.mem_set hx with hx | ⟨rfl, -⟩
      · exact hnone x reply hx
      · exact hnone x none (List.mem_of_getElem? hfut)
  | @register i ip hfut =>
      have hip : s.peerMap ip = none := hnone ip (some true) (List.mem_of_getElem? hfut)
      refine ⟨(RelayState.panicked_insertEntry _ hip).trans hpanic, hkeys, ?_⟩
      intro x reply hx
      by_cases hxi : x = ip
      · subst hxi
        exact absurd (Batch.eq_of_mem_set hnodup hfut hx) (by simp)
      · have hold := hnone x reply (Batch.mem_of_mem_set_of_ne hx hxi)
        simpa [RelayState.insertEntry, RelayState.setEntry, hxi] using hold
  | refused hfut =>
      refine ⟨hpanic, hkeys, ?_⟩
      intro x reply hx
      exact hnone x reply (Batch.mem_of_mem_set hx (by simp))

theorem RemoveStep.panicked_eq {futures futures' : List (IpAddr × RemoveFuture)} {ca : CallAction}
    (h : RemoveStep os s futures ca s' futures') : s'.panicked = s.panicked := by
  cases h <;> rfl

theorem Call.Fresh.afterRemove {next : Option (List IpAddr × T)}
    (h : (next.elim [] Prod.fst).Nodup) (s : RelayState T) : (Call.afterRemove next).Fresh s := by
  cases next with
  | none => trivial
  | some b => exact h

theorem fresh_lockRule : LockRule os (fun s : RelayState T => s.panicked = false)
    (fun s c => c.Fresh s) where
  idle := by
    intro s s' c hlock hfresh
    cases c with
    | inserting value futures => exact absurd hlock (by simp [Call.holdsLock])
    | _ => exact hfresh
  parkRelay := fun s ips hpanic => (s.panicked_park ips).trans hpanic
  parkCall := by
    intro s ips c hfresh
    cases c with
    | inserting value futures =>
        refine ⟨hfresh.1, ?_⟩
        intro ip reply hmem
        exact RelayState.peerMap_park_eq_none (hfresh.2 ip reply hmem) ips
    | _ => exact hfresh
  step := by
    intro me s c ca s' c' hstep _ hpanic hfresh
    cases hstep with
    | @lockInsert ips value _ =>
        have hnodup : ips.Nodup := hfresh
        refine ⟨hpanic, ?_, ?_⟩
        · simpa [Function.comp_def] using hnodup
        · intro ip reply hmem
          exact absurd hmem (by simp)
    | insert hstep => exact hstep.fresh hpanic hfresh
    | fail _ => exact ⟨hpanic, trivial⟩
    | inserted _ => exact ⟨hpanic, trivial⟩
    | undo hstep => exact ⟨hstep.panicked_eq.trans hpanic, trivial⟩
    | undone _ => exact ⟨hpanic, trivial⟩
    | lockRemove _ => exact ⟨hpanic, hfresh⟩
    | remove hstep => exact ⟨hstep.panicked_eq.trans hpanic, hfresh⟩
    | removed _ => exact ⟨hpanic, Call.Fresh.afterRemove hfresh _⟩

/-- A call starts out fresh if what it is to insert has no repetition. -/
theorem RelayAction.fresh_starts {a : RelayAction T} {task : Nat} {c : Call T}
    (hbatch : ∀ ips, a.batch = some ips → ips.Nodup) (h : a.starts = some (task, c))
    (s : RelayState T) : c.Fresh s := by
  cases a with
  | insert t ips v =>
      obtain ⟨-, rfl⟩ := Prod.mk.inj (Option.some.inj h)
      exact hbatch ips rfl
  | reconcile t current previous v =>
      obtain ⟨-, rfl⟩ := Prod.mk.inj (Option.some.inj h)
      unfold Call.reconcile
      simp only
      split_ifs
      · exact hbatch current rfl
      · exact hbatch current rfl
  | remove t ips =>
      obtain ⟨-, rfl⟩ := Prod.mk.inj (Option.some.inj h)
      exact List.nodup_nil
  | _ => exact absurd h (by simp [starts])

/-- Calls whose batches have no repetition never lose a guard. -/
theorem RelaySystem.guardsKept_of_nodup {acts : List (RelayAction T)} {sys : RelaySystem T}
    (hbatch : ∀ a ∈ acts, ∀ ips, a.batch = some ips → ips.Nodup)
    (hrun : runFrom (RelaySystem.step os) RelaySystem.new acts = some sys) : sys.GuardsKept := by
  have hinv : sys.LockInv (fun s => s.panicked = false) (fun s c => c.Fresh s) := by
    refine runFrom_invariant_of_meets ?_ (.new rfl)
      (RunMeets.of_forall _ acts fun a ha _ => hbatch a ha) hrun
    intro sys a sys' hI hnodup hs
    refine fresh_lockRule.step_inv hI ?_ hs
    intro task c hstart
    exact RelayAction.fresh_starts hnodup hstart sys.relay
  refine ⟨hinv.relay, ?_⟩
  intro task value futures ip hcall hmem
  exact (hinv.calls task _ hcall).2 ip (some true) hmem

/-! ## Batches with a repetition -/

/-- Both futures of a repeated address are polled before the OS answers, and it accepts both. -/
def repeatedInsert (i j : Nat) : List CallAction :=
  [.acquire, .poll i, .poll j, .osReply i true true, .osReply j true true, .poll i]

/-- The second future then has a route to register for an address that has an entry. -/
theorem repeatedInsert_run {ips : List IpAddr} {i j : Nat} {x : IpAddr} (value : T)
    (hi : ips[i]? = some x) (hj : ips[j]? = some x) (hij : i ≠ j) (hfree : s.handle = none)
    (hpanic : s.panicked = false) (hnone : s.peerMap x = none) :
    ∃ s' futures, runFrom (Call.alone .any me) (s, .insert ips value) (repeatedInsert i j)
        = some (s', .inserting value futures) ∧
      (x, InsertFuture.adding (some true)) ∈ futures ∧ s'.peerMap x ≠ none := by
  obtain ⟨s₁, hs₁⟩ : ∃ s₁ : RelayState T, s₁ = { s with handle := some me } := ⟨_, rfl⟩
  have hpanic₁ : s₁.panicked = false := hs₁ ▸ hpanic
  have hnone₁ : s₁.peerMap x = none := hs₁ ▸ hnone
  -- the batch, with the two positions as they advance
  obtain ⟨b₀, hb₀⟩ : ∃ b, b = ips.map fun ip => (ip, InsertFuture.start) := ⟨_, rfl⟩
  obtain ⟨b₁, hb₁⟩ : ∃ b, b = b₀.set i (x, .adding none) := ⟨_, rfl⟩
  obtain ⟨b₂, hb₂⟩ : ∃ b, b = b₁.set j (x, .adding none) := ⟨_, rfl⟩
  obtain ⟨b₃, hb₃⟩ : ∃ b, b = b₂.set i (x, .adding (some true)) := ⟨_, rfl⟩
  obtain ⟨b₄, hb₄⟩ : ∃ b, b = b₃.set j (x, .adding (some true)) := ⟨_, rfl⟩
  have hilt := (List.getElem?_eq_some_iff.1 hi).1
  have hjlt := (List.getElem?_eq_some_iff.1 hj).1
  have h₀ : b₀[i]? = some (x, .start) := by simp [hb₀, hi]
  have h₁ : b₁[j]? = some (x, .start) := by simp [hb₁, hb₀, hij, hj]
  have h₂ : b₂[i]? = some (x, .adding none) := by simp [hb₂, hb₁, hb₀, hij.symm, hilt]
  have h₃ : b₃[j]? = some (x, .adding none) := by simp [hb₃, hb₂, hb₁, hb₀, hij, hjlt]
  have h₄ : b₄[i]? = some (x, .adding (some true)) := by
    simp [hb₄, hb₃, hb₂, hb₁, hb₀, hij.symm, hilt]
  have hlock : Call.alone .any me (s, .insert ips value) .acquire
      = some (s₁, .inserting value b₀) :=
    hs₁ ▸ hb₀ ▸ Call.alone_eq hpanic (.lockInsert hfree)
  have hask : Call.alone .any me (s₁, .inserting value b₀) (.poll i)
      = some (s₁, .inserting value b₁) :=
    hb₁ ▸ Call.alone_eq hpanic₁ (.insert (.request h₀ hnone₁))
  have hask' : Call.alone .any me (s₁, .inserting value b₁) (.poll j)
      = some (s₁, .inserting value b₂) :=
    hb₂ ▸ Call.alone_eq hpanic₁ (.insert (.request h₁ hnone₁))
  have hreply : Call.alone .any me (s₁, .inserting value b₂) (.osReply i true true)
      = some (s₁.setRoute x true, .inserting value b₃) :=
    hb₃ ▸ Call.alone_eq hpanic₁ (.insert (.reply h₂ rfl))
  have hreply' : Call.alone .any me (s₁.setRoute x true, .inserting value b₃) (.osReply j true true)
      = some ((s₁.setRoute x true).setRoute x true, .inserting value b₄) :=
    hb₄ ▸ Call.alone_eq hpanic₁ (.insert (.reply h₃ rfl))
  obtain ⟨s₂, hs₂⟩ : ∃ s₂, s₂ = ((s₁.setRoute x true).setRoute x true).insertEntry x
      ⟨some value, ⟨x⟩⟩ := ⟨_, rfl⟩
  have hregister : Call.alone .any me ((s₁.setRoute x true).setRoute x true, .inserting value b₄)
      (.poll i) = some (s₂, .inserting value (b₄.set i (x, .done true))) :=
    hs₂ ▸ Call.alone_eq hpanic₁ (.insert (.register h₄))
  refine ⟨s₂, b₄.set i (x, .done true), ?_, ?_, ?_⟩
  · unfold repeatedInsert
    rw [runFrom_step hlock, runFrom_step hask, runFrom_step hask', runFrom_step hreply,
      runFrom_step hreply', runFrom_step hregister]
    rfl
  · refine List.mem_iff_getElem?.2 ⟨j, ?_⟩
    simp [hb₄, hb₃, hb₂, hb₁, hb₀, hij, hjlt]
  · simp [hs₂, RelayState.insertEntry, RelayState.setEntry]

/-- **No route guard is lost.** Whatever the OS answers and in whatever order the futures are polled,
    calls that may be given the batches in `B` never replace an entry, and so never drop a guard that
    was not released, exactly when no batch in `B` has an address twice. -/
theorem RelaySystem.guardsKept_iff_nodup (value : T) (B : List IpAddr → Prop) :
    (∀ (os : OsRules) (acts : List (RelayAction T)) (sys : RelaySystem T),
      (∀ a ∈ acts, ∀ ips, a.batch = some ips → B ips) →
      runFrom (RelaySystem.step os) RelaySystem.new acts = some sys → sys.GuardsKept) ↔
      ∀ ips, B ips → ips.Nodup := by
  refine ⟨?_, ?_⟩
  · intro hkept ips hips
    by_contra hdup
    rw [List.nodup_iff_getElem?_ne_getElem?] at hdup
    push Not at hdup
    obtain ⟨i, j, hij, hj, heq⟩ := hdup
    obtain ⟨x, hx⟩ : ∃ x, ips[j]? = some x := ⟨_, List.getElem?_eq_getElem hj⟩
    have hfutures : ∃ s' futures, runFrom (Call.alone .any 0) (RelayState.new, .insert ips value)
        (repeatedInsert i j) = some (s', .inserting value futures) ∧
          (x, InsertFuture.adding (some true)) ∈ futures ∧ s'.peerMap x ≠ none :=
      repeatedInsert_run value (heq.trans hx) hx hij.ne rfl rfl rfl
    obtain ⟨s', futures, hcall, hmem, hentry⟩ := hfutures
    have hstart : RelaySystem.new.step .any (.insert 0 ips value)
        = some ⟨RelayState.new, Function.update (fun _ => none) 0 (some (.insert ips value))⟩ := rfl
    have hrun : runFrom (RelaySystem.step .any)
        ⟨RelayState.new, Function.update (fun _ => none) 0 (some (.insert ips value))⟩
        ((repeatedInsert i j).map (.call 0)) = some ⟨s', _⟩ :=
      RelaySystem.run_alone (by simp) hcall
    have hbatch : ∀ a ∈ RelayAction.insert 0 ips value :: (repeatedInsert i j).map (.call 0),
        ∀ l, a.batch = some l → B l := by
      intro a ha l hl
      rcases List.mem_cons.1 ha with rfl | ha
      · obtain rfl := Option.some.inj hl
        exact hips
      · obtain ⟨ca, -, rfl⟩ := List.mem_map.1 ha
        exact absurd hl (by simp [RelayAction.batch])
    have := hkept .any _ _ hbatch ((runFrom_step hstart _).trans hrun)
    exact hentry (this.2 0 value futures x (by simp) hmem)
  · intro hnodup os acts sys hbatch hrun
    exact guardsKept_of_nodup (fun a ha ips hips => hnodup ips (hbatch a ha ips hips)) hrun

end

/-- A peer advertises `10.0.0.1` twice, both futures ask for the route before either is answered, and
    the OS accepts both, as the mock of the tests does: the second entry replaces the first, and
    dropping its guard panics. -/
theorem repeated_address_drops_guard :
    ∃ sys : RelaySystem Unit, runFrom (RelaySystem.step .any) RelaySystem.new
        [.insert 0 [.v4 0x0a000001#32, .v4 0x0a000001#32] (), .call 0 .acquire, .call 0 (.poll 0),
          .call 0 (.poll 1), .call 0 (.osReply 0 true true), .call 0 (.osReply 1 true true),
          .call 0 (.poll 0), .call 0 (.poll 1)] = some sys ∧
      sys.relay.panicked = true :=
  ⟨_, rfl, rfl⟩

end P2pVpn
