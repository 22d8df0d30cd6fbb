import P2pVpn.Relay.Rollback
import P2pVpn.Relay.Routes

set_option autoImplicit false

/-! # `reconcile` is exact and leaves no gap

`reconcile` withdraws what a peer no longer advertises under one acquisition of the lock and inserts
what it does under another. Followed from outside, through `get`, the OS table and the requests its
futures make, a call that returns `Ok` has made each request once and never taken away an entry or a
route it was to keep. -/

namespace P2pVpn

section

variable {T : Type}

/-! ## Requests to the OS -/

/-- A request that the relay sends to the OS. -/
inductive OsRequest where
  | insert (ip : IpAddr)
  | remove (ip : IpAddr)
  deriving DecidableEq

/-- The request a poll of future `i` makes: the one it then awaits. -/
def Call.request (s : RelayState T) (i : Nat) : Call T → Option OsRequest
  | .inserting value futures =>
      match futures[i]? with
      | some (ip, f) =>
          match pollInsert value ip s f with
          | some (_, .adding none) => some (.insert ip)
          | _ => none
      | none => none
  | .rollback futures =>
      match futures[i]? with
      | some (ip, f) =>
          match pollRemove ip s f with
          | some (_, .removing target none) => some (.remove target)
          | _ => none
      | none => none
  | .removing futures _ =>
      match futures[i]? with
      | some (ip, f) =>
          match pollRemove ip s f with
          | some (_, .removing target none) => some (.remove target)
          | _ => none
      | none => none
  | _ => none

/-- The request that a step of the call sends. -/
def Call.requests (s : RelayState T) (c : Call T) : CallAction → Option OsRequest
  | .poll i => c.request s i
  | _ => none

/-- The request an action makes on behalf of `task`. -/
def RelaySystem.request (task : Nat) (sys : RelaySystem T) : RelayAction T → Option OsRequest
  | .call t ca =>
      if t = task then
        match sys.calls task with
        | some c => c.requests sys.relay ca
        | none => none
      else none
  | _ => none

/-- An action on other addresses, or a step of any task's call. -/
def RelayAction.Elsewhere (task : Nat) (own : IpAddr → Prop) : RelayAction T → Prop
  | .insert _ ips _ => ∀ ip ∈ ips, ¬ own ip
  | .reconcile _ current previous _ => (∀ ip ∈ current, ¬ own ip) ∧ ∀ ip ∈ previous, ¬ own ip
  | .remove _ ips => ∀ ip ∈ ips, ¬ own ip
  | .park ips => ∀ ip ∈ ips, ¬ own ip
  | .get _ => True
  | .call _ _ => True
  -- the caller has not taken the result yet
  | .join t => t ≠ task

instance (task : Nat) (own : IpAddr → Prop) [DecidablePred own] (a : RelayAction T) :
    Decidable (a.Elsewhere task own) :=
  match a with
  | .insert _ ips _ => inferInstanceAs (Decidable (∀ ip ∈ ips, ¬ own ip))
  | .reconcile _ current previous _ =>
      inferInstanceAs (Decidable ((∀ ip ∈ current, ¬ own ip) ∧ ∀ ip ∈ previous, ¬ own ip))
  | .remove _ ips => inferInstanceAs (Decidable (∀ ip ∈ ips, ¬ own ip))
  | .park ips => inferInstanceAs (Decidable (∀ ip ∈ ips, ¬ own ip))
  | .get _ => inferInstanceAs (Decidable True)
  | .call _ _ => inferInstanceAs (Decidable True)
  | .join t => inferInstanceAs (Decidable (t ≠ task))

/-! ## Removals -/

variable {os : OsRules} {me : Nat} {value : T} {s s' : RelayState T} {ca : CallAction}
  {m₀ : IpAddr → Option (PeerValue T)} {current stale : List IpAddr} {reqs reqs' : List OsRequest}

/-- The withdrawal of `stale` under way: a future that has been polled has asked once, and nothing has
    happened to `current`. -/
structure RemoveProgress (m₀ : IpAddr → Option (PeerValue T)) (current stale : List IpAddr)
    (m : IpAddr → Option (PeerValue T)) (reqs : List OsRequest)
    (futures : List (IpAddr × RemoveFuture)) : Prop where
  keys : futures.map Prod.fst = stale
  asked : ∀ ip f, (ip, f) ∈ futures → f ≠ .start → reqs.count (.remove ip) = 1
  unasked : ∀ ip, (ip, RemoveFuture.start) ∈ futures → reqs.count (.remove ip) = 0
  others : ∀ ip, ip ∉ stale → reqs.count (.remove ip) = 0
  inserts : ∀ ip, reqs.count (.insert ip) = 0
  kept : ∀ ip ∈ current, m ip = none ↔ m₀ ip = none

/-- One future of the withdrawal advances. -/
theorem RemoveProgress.set {m m' : IpAddr → Option (PeerValue T)}
    {futures : List (IpAddr × RemoveFuture)} {i : Nat} {ip : IpAddr} {f f' : RemoveFuture}
    (hp : RemoveProgress m₀ current stale m reqs futures) (hnodup : stale.Nodup)
    (hstale : ∀ x ∈ stale, x ∉ current) (hfut : futures[i]? = some (ip, f)) (hstart : f' ≠ .start)
    (hm : ∀ x, x ≠ ip → m' x = m x)
    (hreqs : ∀ x, x ≠ ip → reqs'.count (.remove x) = reqs.count (.remove x))
    (hins : ∀ x, reqs'.count (.insert x) = reqs.count (.insert x))
    (hasked : reqs'.count (.remove ip) = 1) :
    RemoveProgress m₀ current stale m' reqs' (futures.set i (ip, f')) := by
  have hkeys : (futures.map Prod.fst).Nodup := hp.keys ▸ hnodup
  have hip : ip ∈ stale := hp.keys ▸ List.mem_map.2 ⟨_, List.mem_of_getElem? hfut, rfl⟩
  refine ⟨(Batch.keys_set hfut).trans hp.keys, ?_, ?_, ?_, fun x => (hins x).trans (hp.inserts x), ?_⟩
  · intro x g hx hg
    by_cases hxi : x = ip
    · exact hxi ▸ hasked
    · exact (hreqs x hxi).trans (hp.asked x g (Batch.mem_of_mem_set_of_ne hx hxi) hg)
  · intro x hx
    by_cases hxi : x = ip
    · subst hxi
      exact absurd (Batch.eq_of_mem_set hkeys hfut hx).symm hstart
    · exact (hreqs x hxi).trans (hp.unasked x (Batch.mem_of_mem_set_of_ne hx hxi))
  · intro x hx
    have hxi : x ≠ ip := fun heq => hx (heq ▸ hip)
    exact (hreqs x hxi).trans (hp.others x hx)
  · intro x hx
    have hxi : x ≠ ip := fun heq => hstale ip hip (heq ▸ hx)
    rw [hm x hxi]
    exact hp.kept x hx

theorem RemoveStep.progress {futures futures' : List (IpAddr × RemoveFuture)}
    {next : Option (List IpAddr × T)} (h : RemoveStep os s futures ca s' futures')
    (hkeyed : s.Keyed) (hnodup : stale.Nodup) (hstale : ∀ x ∈ stale, x ∉ current)
    (hp : RemoveProgress m₀ current stale s.peerMap reqs futures) :
    RemoveProgress m₀ current stale s'.peerMap
      (reqs ++ ((Call.removing futures next).requests s ca).toList) futures' := by
  cases h with
  | @untrack i ip old hfut hentry =>
      have hreq : (Call.removing futures next).requests s (.poll i) = some (.remove ip) := by
        simp [Call.requests, Call.request, hfut, pollRemove, hentry, hkeyed ip old hentry]
      have hnone := hp.unasked ip (List.mem_of_getElem? hfut)
      rw [hreq]
      refine hp.set hnodup hstale hfut (by simp) ?_ ?_ ?_ ?_
      · intro x hx
        exact Function.update_of_ne hx _ _
      · intro x hx
        simp [List.count_append, Ne.symm hx]
      · intro x
        simp [List.count_append]
      · simp [List.count_append, hnone]
  | @direct i ip hfut hentry =>
      have hreq : (Call.removing futures next).requests s (.poll i) = some (.remove ip) := by
        simp [Call.requests, Call.request, hfut, pollRemove, hentry]
      have hnone := hp.unasked ip (List.mem_of_getElem? hfut)
      rw [hreq]
      refine hp.set hnodup hstale hfut (by simp) (fun _ _ => rfl) ?_ ?_ ?_
      · intro x hx
        simp [List.count_append, Ne.symm hx]
      · intro x
        simp [List.count_append]
      · simp [List.count_append, hnone]
  | @reply i ip target ok present hfut hos =>
      have hasked := hp.asked ip _ (List.mem_of_getElem? hfut) (by simp)
      refine hp.set hnodup hstale hfut (by simp) (fun _ _ => rfl) ?_ ?_ ?_ <;>
        simp [Call.requests, hasked]
  | @done i ip target ok hfut =>
      have hreq : (Call.removing futures next).requests s (.poll i) = none := by
        simp [Call.requests, Call.request, hfut, pollRemove]
      have hasked := hp.asked ip _ (List.mem_of_getElem? hfut) (by simp)
      rw [hreq]
      refine hp.set hnodup hstale hfut (by simp) (fun _ _ => rfl) ?_ ?_ ?_ <;> simp [hasked]

/-! ## Insertions -/

/-- The insertion of `current` under way: a future that has been polled has asked once, if its address
    was not tracked to begin with. -/
structure InsertProgress (m₀ : IpAddr → Option (PeerValue T)) (current stale : List IpAddr)
    (m : IpAddr → Option (PeerValue T)) (reqs : List OsRequest)
    (futures : List (IpAddr × InsertFuture)) : Prop where
  keys : futures.map Prod.fst = current
  asked : ∀ ip f, (ip, f) ∈ futures → f ≠ .start →
    reqs.count (.insert ip) = if (m₀ ip).isNone then 1 else 0
  adding : ∀ ip reply, (ip, InsertFuture.adding reply) ∈ futures → m₀ ip = none
  unasked : ∀ ip, (ip, InsertFuture.start) ∈ futures →
    reqs.count (.insert ip) = 0 ∧ (m ip = none ↔ m₀ ip = none)
  others : ∀ ip, ip ∉ current → reqs.count (.insert ip) = 0
  removes : ∀ ip, reqs.count (.remove ip) = if ip ∈ stale then 1 else 0

/-- One future of the insertion advances. -/
theorem InsertProgress.set {m m' : IpAddr → Option (PeerValue T)}
    {futures : List (IpAddr × InsertFuture)} {i : Nat} {ip : IpAddr} {f f' : InsertFuture}
    (hp : InsertProgress m₀ current stale m reqs futures) (hnodup : current.Nodup)
    (hfut : futures[i]? = some (ip, f)) (hstart : f' ≠ .start)
    (hm : ∀ x, x ≠ ip → m' x = m x)
    (hreqs : ∀ x, x ≠ ip → reqs'.count (.insert x) = reqs.count (.insert x))
    (hrem : ∀ x, reqs'.count (.remove x) = reqs.count (.remove x))
    (hasked : reqs'.count (.insert ip) = if (m₀ ip).isNone then 1 else 0)
    (hadding : ∀ reply, f' = .adding reply → m₀ ip = none) :
    InsertProgress m₀ current stale m' reqs' (futures.set i (ip, f')) := by
  have hkeys : (futures.map Prod.fst).Nodup := hp.keys ▸ hnodup
  have hip : ip ∈ current := hp.keys ▸ List.mem_map.2 ⟨_, List.mem_of_getElem? hfut, rfl⟩
  refine ⟨(Batch.keys_set hfut).trans hp.keys, ?_, ?_, ?_, ?_, fun x => (hrem x).trans (hp.removes x)⟩
  · intro x g hx hg
    by_cases hxi : x = ip
    · exact hxi ▸ hasked
    · exact (hreqs x hxi).trans (hp.asked x g (Batch.mem_of_mem_set_of_ne hx hxi) hg)
  · intro x reply hx
    by_cases hxi : x = ip
    · subst hxi
      exact hadding reply (Batch.eq_of_mem_set hkeys hfut hx).symm
    · exact hp.adding x reply (Batch.mem_of_mem_set_of_ne hx hxi)
  · intro x hx
    by_cases hxi : x = ip
    · subst hxi
      exact absurd (Batch.eq_of_mem_set hkeys hfut hx).symm hstart
    · rw [hreqs x hxi, hm x hxi]
      exact hp.unasked x (Batch.mem_of_mem_set_of_ne hx hxi)
  · intro x hx
    have hxi : x ≠ ip := fun heq => hx (heq ▸ hip)
    exact (hreqs x hxi).trans (hp.others x hx)

theorem InsertStep.progress {futures futures' : List (IpAddr × InsertFuture)}
    (h : InsertStep os value s futures ca s' futures') (hnodup : current.Nodup)
    (hp : InsertProgress m₀ current stale s.peerMap reqs futures) :
    InsertProgress m₀ current stale s'.peerMap
      (reqs ++ ((Call.inserting value futures).requests s ca).toList) futures' := by
  cases h with
  | @rearm i ip entry hfut hentry =>
      have hreq : (Call.inserting value futures).requests s (.poll i) = none := by
        simp [Call.requests, Call.request, hfut, pollInsert, hentry]
      obtain ⟨hcount, htracked⟩ := hp.unasked ip (List.mem_of_getElem? hfut)
      have hm₀ : m₀ ip ≠ none := fun hnone => by simp [htracked.2 hnone] at hentry
      rw [hreq]
      refine hp.set hnodup hfut (by simp) ?_ (by simp) (by simp) ?_ (by simp)
      · intro x hx
        exact Function.update_of_ne hx _ _
      · simp [hcount, hm₀]
  | @request i ip hfut hentry =>
      have hreq : (Call.inserting value futures).requests s (.poll i) = some (.insert ip) := by
        simp [Call.requests, Call.request, hfut, pollInsert, hentry]
      obtain ⟨hcount, htracked⟩ := hp.unasked ip (List.mem_of_getElem? hfut)
      have hm₀ : m₀ ip = none := htracked.1 hentry
      rw [hreq]
      refine hp.set hnodup hfut (by simp) (fun _ _ => rfl) ?_ ?_ ?_ fun _ _ => hm₀
      · intro x hx
        simp [List.count_append, Ne.symm hx]
      · intro x
        simp [List.count_append]
      · simp [List.count_append, hcount, hm₀]
  | @reply i ip ok present hfut hos =>
      have hmem := List.mem_of_getElem? hfut
      have hasked := hp.asked ip _ hmem (by simp)
      refine hp.set hnodup hfut (by simp) (fun _ _ => rfl) ?_ ?_ ?_ fun _ _ => hp.adding ip none hmem
      · simp [Call.requests]
      · simp [Call.requests]
      · simpa [Call.requests] using hasked
  | @register i ip hfut =>
      have hreq : (Call.inserting value futures).requests s (.poll i) = none := by
        simp [Call.requests, Call.request, hfut, pollInsert]
      have hasked := hp.asked ip _ (List.mem_of_getElem? hfut) (by simp)
      rw [hreq]
      refine hp.set hnodup hfut (by simp) ?_ (by simp) (by simp) (by simpa using hasked) (by simp)
      intro x hx
      exact Function.update_of_ne hx _ _
  | @refused i ip hfut =>
      have hreq : (Call.inserting value futures).requests s (.poll i) = none := by
        simp [Call.requests, Call.request, hfut, pollInsert]
      have hasked := hp.asked ip _ (List.mem_of_getElem? hfut) (by simp)
      rw [hreq]
      exact hp.set hnodup hfut (by simp) (fun _ _ => rfl) (by simp) (by simp)
        (by simpa using hasked) (by simp)

/-! ## The call -/

/-- The call has failed, and undoes what it did or has. -/
def Call.failed : Call T → Bool
  | .rollback _ => true
  | .returned false => true
  | _ => false

/-- How far the call is, in requests made so far. -/
def Call.Progress (m₀ : IpAddr → Option (PeerValue T)) (current stale : List IpAddr)
    (m : IpAddr → Option (PeerValue T)) (reqs : List OsRequest) : Call T → Prop
  | .removeLock ips _ => ips = stale ∧ reqs = [] ∧ ∀ ip ∈ current, m ip = none ↔ m₀ ip = none
  | .removing futures _ => RemoveProgress m₀ current stale m reqs futures
  | .insertLock ips _ =>
      ips = current ∧ (∀ ip, reqs.count (.remove ip) = if ip ∈ stale then 1 else 0) ∧
        (∀ ip, reqs.count (.insert ip) = 0) ∧ ∀ ip ∈ current, m ip = none ↔ m₀ ip = none
  | .inserting _ futures => InsertProgress m₀ current stale m reqs futures
  | .returned true =>
      (∀ ip, reqs.count (.remove ip) = if ip ∈ stale then 1 else 0) ∧
        ∀ ip, reqs.count (.insert ip) = if ip ∈ current ∧ m₀ ip = none then 1 else 0
  | .rollback _ => True
  | .returned false => True

/-- The addresses `reconcile` withdraws. -/
def staleAddrs (current previous : List IpAddr) : List IpAddr :=
  previous.filter fun ip => !current.contains ip

theorem mem_staleAddrs {previous : List IpAddr} {ip : IpAddr} :
    ip ∈ staleAddrs current previous ↔ ip ∈ previous ∧ ip ∉ current := by
  simp [staleAddrs]

theorem Call.Progress.reconcile (previous : List IpAddr) (v : T) :
    (Call.reconcile current previous v).Progress m₀ current (staleAddrs current previous) m₀ [] := by
  unfold Call.reconcile
  simp only
  split_ifs with hstale
  · have hnil : staleAddrs current previous = [] := List.isEmpty_iff.1 hstale
    exact ⟨rfl, by simp [hnil], by simp, fun _ _ => Iff.rfl⟩
  · exact ⟨rfl, rfl, fun _ _ => Iff.rfl⟩

theorem InsertProgress.start {m : IpAddr → Option (PeerValue T)}
    (hrem : ∀ ip, reqs.count (.remove ip) = if ip ∈ stale then 1 else 0)
    (hins : ∀ ip, reqs.count (.insert ip) = 0) (hkept : ∀ ip ∈ current, m ip = none ↔ m₀ ip = none) :
    InsertProgress m₀ current stale m reqs (current.map fun ip => (ip, .start)) where
  keys := by simp [Function.comp_def]
  asked := by
    intro ip f hf hne
    obtain ⟨x, -, hx⟩ := List.mem_map.1 hf
    exact absurd (Prod.mk.inj hx).2.symm hne
  adding := by
    intro ip reply hf
    obtain ⟨x, -, hx⟩ := List.mem_map.1 hf
    exact absurd (Prod.mk.inj hx).2 (by simp)
  unasked := by
    intro ip hf
    obtain ⟨x, hx, heq⟩ := List.mem_map.1 hf
    obtain ⟨rfl, -⟩ := Prod.mk.inj heq
    exact ⟨hins x, hkept x hx⟩
  others := fun ip _ => hins ip
  removes := hrem

theorem RemoveProgress.start {m : IpAddr → Option (PeerValue T)}
    (hkept : ∀ ip ∈ current, m ip = none ↔ m₀ ip = none) :
    RemoveProgress m₀ current stale m [] (stale.map fun ip => (ip, .start)) where
  keys := by simp [Function.comp_def]
  asked := by
    intro ip f hf hne
    obtain ⟨x, -, hx⟩ := List.mem_map.1 hf
    exact absurd (Prod.mk.inj hx).2.symm hne
  unasked := fun _ _ => rfl
  others := fun _ _ => rfl
  inserts := fun _ => rfl
  kept := hkept

/-- A withdrawal that is complete has asked once for every address. -/
theorem RemoveProgress.count_of_done {m : IpAddr → Option (PeerValue T)}
    {futures : List (IpAddr × RemoveFuture)} (hp : RemoveProgress m₀ current stale m reqs futures)
    (hall : ∀ f ∈ futures, f.2 = .done) (ip : IpAddr) :
    reqs.count (.remove ip) = if ip ∈ stale then 1 else 0 := by
  split_ifs with hip
  · rw [← hp.keys] at hip
    obtain ⟨⟨x, f⟩, hmem, rfl⟩ := List.mem_map.1 hip
    obtain rfl : f = .done := hall _ hmem
    exact hp.asked x .done hmem (by simp)
  · exact hp.others ip hip

/-- An insertion that is complete has asked once for every address that had no entry. -/
theorem InsertProgress.count_of_done {m : IpAddr → Option (PeerValue T)}
    {futures : List (IpAddr × InsertFuture)} (hp : InsertProgress m₀ current stale m reqs futures)
    (hall : ∀ f ∈ futures, f.2 = .done true) (ip : IpAddr) :
    reqs.count (.insert ip) = if ip ∈ current ∧ m₀ ip = none then 1 else 0 := by
  by_cases hip : ip ∈ current
  · have hkey : ip ∈ futures.map Prod.fst := hp.keys ▸ hip
    obtain ⟨⟨x, f⟩, hmem, rfl⟩ := List.mem_map.1 hkey
    obtain rfl : f = .done true := hall _ hmem
    simpa [hip] using hp.asked x (.done true) hmem (by simp)
  · simpa [hip] using hp.others ip hip

theorem CallStep.progress {c c' : Call T} {batch : List IpAddr × T} {own : IpAddr → Prop}
    (h : CallStep os me s c ca s' c') (hfailed : c'.failed = false) (hkeyed : s.Keyed)
    (hcur : current.Nodup) (hstale : stale.Nodup) (hdisj : ∀ x ∈ stale, x ∉ current)
    (hentries : c.EntryInv own s.peerMap (some batch)) (hbatch : batch.1 = current)
    (hp : c.Progress m₀ current stale s.peerMap reqs) :
    c'.Progress m₀ current stale s'.peerMap (reqs ++ (c.requests s ca).toList) := by
  cases h with
  | lockInsert _ =>
      obtain ⟨rfl, hrem, hins, hkept⟩ := hp
      simp only [Call.requests, Option.toList_none, List.append_nil]
      exact InsertProgress.start hrem hins hkept
  | insert hstep => exact hstep.progress hcur hp
  | fail _ => exact absurd hfailed (by simp [Call.failed])
  | inserted hall =>
      have hdone : InsertProgress m₀ current stale s.peerMap reqs _ := hp
      simp only [Call.requests, Option.toList_none, List.append_nil]
      exact ⟨hdone.removes, hdone.count_of_done hall⟩
  | undo _ => exact absurd hfailed (by simp [Call.failed])
  | undone _ => exact absurd hfailed (by simp [Call.failed])
  | lockRemove _ =>
      obtain ⟨rfl, rfl, hkept⟩ := hp
      exact RemoveProgress.start hkept
  | remove hstep => exact hstep.progress hkeyed hstale hdisj hp
  | @removed futures next hall =>
      obtain ⟨rfl, -⟩ := hentries
      have hdone : RemoveProgress m₀ current stale s.peerMap reqs futures := hp
      simp only [Call.requests, Option.toList_none, List.append_nil]
      exact ⟨hbatch, hdone.count_of_done hall, hdone.inserts, hdone.kept⟩

/-! ## No gap -/

/-- `insert` takes no entry away. -/
theorem InsertStep.tracked {futures futures' : List (IpAddr × InsertFuture)}
    (h : InsertStep os value s futures ca s' futures') {x : IpAddr} (hx : s.peerMap x ≠ none) :
    s'.peerMap x ≠ none := by
  cases h with
  | @rearm i ip entry _ _ =>
      by_cases hxi : x = ip
      · simp [RelayState.setEntry, hxi]
      · simpa [RelayState.setEntry, hxi] using hx
  | @register i ip _ =>
      by_cases hxi : x = ip
      · simp [RelayState.insertEntry, RelayState.setEntry, hxi]
      · simpa [RelayState.insertEntry, RelayState.setEntry, hxi] using hx
  | _ => exact hx

/-- An address of `current` that is tracked at the start keeps its entry and its route as long as the
    call has not failed. -/
theorem CallStep.keeps {c c' : Call T} (h : CallStep os me s c ca s' c')
    (hfailed : c'.failed = false) (hc : c.Keyed) (hdisj : ∀ x ∈ stale, x ∉ current)
    (hp : c.Progress m₀ current stale s.peerMap reqs) {x : IpAddr} (hx : x ∈ current)
    (hm₀ : m₀ x ≠ none) (hm : s.peerMap x ≠ none) :
    s'.peerMap x ≠ none ∧ s'.osRoutes x = s.osRoutes x := by
  cases h with
  | insert hstep =>
      refine ⟨hstep.tracked hm, ?_⟩
      cases hstep with
      | @reply i ip ok present hfut _ =>
          have hxi : x ≠ ip := by
            intro heq
            exact hm₀ (heq ▸ InsertProgress.adding hp ip none (List.mem_of_getElem? hfut))
          exact Function.update_of_ne hxi _ _
      | _ => rfl
  | @remove futures futures' next _ _ hstep =>
      have hprog : RemoveProgress m₀ current stale s.peerMap reqs futures := hp
      have hout : x ∉ futures.map Prod.fst := by
        rw [hprog.keys]
        exact fun hmem => hdisj x hmem hx
      refine ⟨?_, hstep.osFrame hc hout⟩
      rw [hstep.frame hout]
      exact hm
  | undo _ => exact absurd hfailed (by simp [Call.failed])
  | undone _ => exact absurd hfailed (by simp [Call.failed])
  | _ => exact ⟨hm, rfl⟩

/-! ## The call among others -/

/-- What holds of a call of `reconcile` that has not failed, against the state `s₀` it started in. -/
structure ReconcileInv (s₀ : RelayState T) (current previous : List IpAddr) (value : T)
    (s : RelayState T) (c : Call T) (reqs : List OsRequest) : Prop where
  within : c.Within fun ip => ip ∈ current ∨ ip ∈ previous
  entries : c.EntryInv (fun ip => ip ∈ current ∨ ip ∈ previous) s.peerMap (some (current, value))
  progress : c.Progress s₀.peerMap current (staleAddrs current previous) s.peerMap reqs
  kept : ∀ ip ∈ current, s₀.peerMap ip ≠ none →
    s.peerMap ip ≠ none ∧ (s₀.osRoutes ip = true → s.osRoutes ip = true)

theorem ReconcileInv.start (s₀ : RelayState T) (current previous : List IpAddr) (value : T) :
    ReconcileInv s₀ current previous value s₀ (.reconcile current previous value) [] where
  within := Call.addrs_reconcile current previous value
  entries := by
    unfold Call.reconcile
    simp only
    split_ifs with hstale
    · refine ⟨rfl, ?_⟩
      rintro ip (hip | hip) -
      · exact hip
      · simpa using List.filter_eq_nil_iff.1 (List.isEmpty_iff.1 hstale) ip hip
    · refine ⟨rfl, ?_⟩
      intro ip hown _
      by_cases hip : ip ∈ current
      · exact List.mem_append_right _ hip
      · exact List.mem_append_left _ (mem_staleAddrs.2 ⟨hown.resolve_left hip, hip⟩)
  progress := .reconcile previous value
  kept := fun _ _ hm => ⟨hm, id⟩

theorem ReconcileInv.step {s₀ : RelayState T} {previous : List IpAddr} {c c' : Call T}
    (hinv : ReconcileInv s₀ current previous value s c reqs) (hcur : current.Nodup)
    (hprev : previous.Nodup) (hkeyed : s.Keyed) (hc : c.Keyed) (h : CallStep os me s c ca s' c')
    (hfailed : c'.failed = false) :
    ReconcileInv s₀ current previous value s' c' (reqs ++ (c.requests s ca).toList) := by
  have hdisj : ∀ x ∈ staleAddrs current previous, x ∉ current := fun x hx => (mem_staleAddrs.1 hx).2
  refine ⟨h.within hinv.within, h.entryInv hinv.entries, ?_, ?_⟩
  · exact h.progress hfailed hkeyed hcur (hprev.filter _) hdisj hinv.entries rfl hinv.progress
  · intro ip hip hm₀
    obtain ⟨hm, hroute⟩ := hinv.kept ip hip hm₀
    obtain ⟨hm', hsame⟩ := h.keeps hfailed hc hdisj hinv.progress hip hm₀ hm
    exact ⟨hm', fun h => hsame.trans (hroute h)⟩

/-- The invariant reads the addresses of the two lists only. -/
theorem ReconcileInv.congr {s₀ : RelayState T} {previous : List IpAddr} {c : Call T}
    (hinv : ReconcileInv s₀ current previous value s c reqs)
    (hsame : ∀ ip, ip ∈ current ∨ ip ∈ previous →
      s'.peerMap ip = s.peerMap ip ∧ s'.osRoutes ip = s.osRoutes ip) :
    ReconcileInv s₀ current previous value s' c reqs := by
  have hcurrent : ∀ ip ∈ current, s'.peerMap ip = s.peerMap ip := fun ip hip =>
    (hsame ip (Or.inl hip)).1
  refine ⟨hinv.within, hinv.entries.congr hinv.within fun ip hip => (hsame ip hip).1, ?_, ?_⟩
  · have hp := hinv.progress
    cases c with
    | removeLock ips next =>
        exact ⟨hp.1, hp.2.1, fun ip hip => by rw [hcurrent ip hip]; exact hp.2.2 ip hip⟩
    | removing futures next =>
        have hp : RemoveProgress _ _ _ _ _ futures := hp
        exact { hp with kept := fun ip hip => by rw [hcurrent ip hip]; exact hp.kept ip hip }
    | insertLock ips v =>
        exact ⟨hp.1, hp.2.1, hp.2.2.1, fun ip hip => by
          rw [hcurrent ip hip]; exact hp.2.2.2 ip hip⟩
    | inserting v futures =>
        have hp : InsertProgress _ _ _ _ _ futures := hp
        refine { hp with unasked := ?_ }
        intro ip hmem
        have hip : ip ∈ current := hp.keys ▸ List.mem_map.2 ⟨_, hmem, rfl⟩
        rw [hcurrent ip hip]
        exact hp.unasked ip hmem
    | rollback futures => trivial
    | returned ok => cases ok <;> exact hp
  · intro ip hip hm₀
    obtain ⟨hentry, hroute⟩ := hsame ip (Or.inl hip)
    rw [hentry, hroute]
    exact hinv.kept ip hip hm₀

variable {sys sys' : RelaySystem T} {a : RelayAction T} {task : Nat} {own : IpAddr → Prop}

/-- A step is the task's own, or leaves its call alone. -/
theorem RelaySystem.step_task (h : sys.step os a = some sys') {c : Call T}
    (hc : sys.calls task = some c) (hjoin : a ≠ .join task) :
    (∃ ca c', a = .call task ca ∧ CallStep os task sys.relay c ca sys'.relay c' ∧
      sys'.calls task = some c') ∨
      (sys'.calls task = some c ∧ ∀ ca, a ≠ .call task ca) := by
  cases (RelaySystem.step_sound h).2 with
  | @start _ t d hstart hfree =>
      have ht : task ≠ t := by
        rintro rfl
        simp [hc] at hfree
      refine Or.inr ⟨by simpa [ht] using hc, ?_⟩
      rintro ca rfl
      exact absurd hstart (by simp [RelayAction.starts])
  | park => exact Or.inr ⟨hc, by simp⟩
  | get => exact Or.inr ⟨hc, by simp⟩
  | @call t ca d d' s' hcall hstep =>
      by_cases ht : task = t
      · subst ht
        obtain rfl := Option.some.inj (hc.symm.trans hcall)
        exact Or.inl ⟨ca, d', rfl, hstep, by simp⟩
      · refine Or.inr ⟨by simpa [ht] using hc, ?_⟩
        intro ca' heq
        exact ht (RelayAction.call.inj heq).1.symm
  | @join t ok hcall =>
      have ht : task ≠ t := by
        rintro rfl
        exact hjoin rfl
      exact Or.inr ⟨by simpa [ht] using hc, by simp⟩

/-- The other tasks' calls keep away from `own`. -/
structure RelaySystem.Apart (task : Nat) (own : IpAddr → Prop) (sys : RelaySystem T) : Prop where
  keyed : sys.LockInv (fun s => s.Keyed) (fun _ c => c.Keyed)
  others : ∀ t c, t ≠ task → sys.calls t = some c → c.Within fun ip => ¬ own ip

theorem RelayAction.Elsewhere.within (helse : a.Elsewhere task own) {t : Nat} {c : Call T}
    (h : a.starts = some (t, c)) : c.Within fun ip => ¬ own ip := by
  cases a with
  | insert t' ips v =>
      obtain ⟨-, rfl⟩ := Prod.mk.inj (Option.some.inj h)
      exact helse
  | reconcile t' current previous v =>
      obtain ⟨-, rfl⟩ := Prod.mk.inj (Option.some.inj h)
      intro ip hip
      rcases Call.addrs_reconcile current previous v ip hip with hip | hip
      · exact helse.1 ip hip
      · exact helse.2 ip hip
  | remove t' ips =>
      obtain ⟨-, rfl⟩ := Prod.mk.inj (Option.some.inj h)
      intro ip hip
      exact helse ip (by simpa [Call.remove, Call.addrs] using hip)
  | _ => exact absurd h (by simp [starts])

theorem RelaySystem.Apart.step (hapart : sys.Apart task own) (helse : a.Elsewhere task own)
    (h : sys.step os a = some sys') : sys'.Apart task own := by
  refine ⟨keyed_lockRule.step_inv hapart.keyed (fun _ _ hs => RelayAction.keyed_starts hs) h, ?_⟩
  intro t c ht hc
  cases (RelaySystem.step_sound h).2 with
  | @start _ t' d hstart hfree =>
      rcases calls_update hc with ⟨rfl, hd⟩ | ⟨-, hc⟩
      · obtain rfl := Option.some.inj hd
        exact helse.within hstart
      · exact hapart.others t c ht hc
  | park => exact hapart.others t c ht hc
  | get => exact hapart.others t c ht hc
  | @call t' ca d d' s' hcall hstep =>
      rcases calls_update hc with ⟨rfl, hd⟩ | ⟨-, hc⟩
      · obtain rfl := Option.some.inj hd
        exact hstep.within (hapart.others t d ht hcall)
      · exact hapart.others t c ht hc
  | join hcall =>
      rcases calls_update hc with ⟨-, hd⟩ | ⟨-, hc⟩
      · exact absurd hd (by simp)
      · exact hapart.others t c ht hc

/-- A step of another task, or of none, does not touch `own`. -/
theorem RelaySystem.Apart.frame (hapart : sys.Apart task own) (helse : a.Elsewhere task own)
    (h : sys.step os a = some sys') (hother : ∀ ca, a ≠ .call task ca) {ip : IpAddr}
    (hip : own ip) :
    sys'.relay.peerMap ip = sys.relay.peerMap ip ∧
      sys'.relay.osRoutes ip = sys.relay.osRoutes ip := by
  cases (RelaySystem.step_sound h).2 with
  | start _ _ => exact ⟨rfl, rfl⟩
  | @park ips =>
      refine ⟨?_, congrFun (sys.relay.osRoutes_park ips) ip⟩
      rw [RelayState.peerMap_park]
      exact if_neg fun hmem => helse ip hmem hip
  | get => exact ⟨rfl, rfl⟩
  | @call t ca c c' s' hcall hstep =>
      have ht : t ≠ task := fun heq => hother ca (heq ▸ rfl)
      have hout : ip ∉ c.addrs := fun hmem => hapart.others t c ht hcall ip hmem hip
      exact ⟨hstep.frame.1 ip hout, hstep.osFrame (hapart.keyed.calls t c hcall) hout⟩
  | join _ => exact ⟨rfl, rfl⟩

/-! ## Runs -/

/-- The call of `task` has not failed, and the other calls keep away from its addresses. -/
structure RelaySystem.Reconciling (task : Nat) (s₀ : RelayState T) (current previous : List IpAddr)
    (value : T) (sys : RelaySystem T) (reqs : List OsRequest) : Prop where
  apart : sys.Apart task fun ip => ip ∈ current ∨ ip ∈ previous
  call : ∃ c, sys.calls task = some c ∧ ReconcileInv s₀ current previous value sys.relay c reqs

/-- The call of `task` has failed. -/
def RelaySystem.Failed (task : Nat) (sys : RelaySystem T) : Prop :=
  ∃ c, sys.calls task = some c ∧ c.failed = true

theorem CallStep.failed_mono {c c' : Call T} (h : CallStep os me s c ca s' c')
    (hfailed : c.failed = true) : c'.failed = true := by
  cases h with
  | undo _ => rfl
  | undone _ => rfl
  | _ => exact absurd hfailed (by simp [Call.failed])

theorem RelayAction.Elsewhere.ne_join (helse : a.Elsewhere task own) : a ≠ .join task := by
  rintro rfl
  exact helse rfl

theorem RelaySystem.Failed.step (hfailed : sys.Failed task) (helse : a.Elsewhere task own)
    (h : sys.step os a = some sys') : sys'.Failed task := by
  obtain ⟨c, hc, hf⟩ := hfailed
  rcases RelaySystem.step_task h hc helse.ne_join with ⟨ca, c', -, hstep, hc'⟩ | ⟨hc', -⟩
  · exact ⟨c', hc', hstep.failed_mono hf⟩
  · exact ⟨c, hc', hf⟩

theorem RelaySystem.Reconciling.step {s₀ : RelayState T} {previous : List IpAddr}
    (hinv : sys.Reconciling task s₀ current previous value reqs) (hcur : current.Nodup)
    (hprev : previous.Nodup) (helse : a.Elsewhere task fun ip => ip ∈ current ∨ ip ∈ previous)
    (h : sys.step os a = some sys') (hok : ¬ sys'.Failed task) :
    sys'.Reconciling task s₀ current previous value (reqs ++ (sys.request task a).toList) := by
  obtain ⟨c, hc, hcinv⟩ := hinv.call
  refine ⟨hinv.apart.step helse h, ?_⟩
  rcases RelaySystem.step_task h hc helse.ne_join with ⟨ca, c', rfl, hstep, hc'⟩ | ⟨hc', hother⟩
  · have hreq : sys.request task (.call task ca) = c.requests sys.relay ca := by
      simp [RelaySystem.request, hc]
    have hnot : c'.failed = false := by
      by_contra hfailed
      exact hok ⟨c', hc', by simpa using hfailed⟩
    rw [hreq]
    exact ⟨c', hc', hcinv.step hcur hprev hinv.apart.keyed.relay
      (hinv.apart.keyed.calls task c hc) hstep hnot⟩
  · have hreq : sys.request task a = none := by
      cases a with
      | call t ca =>
          have ht : t ≠ task := fun heq => hother ca (heq ▸ rfl)
          simp [RelaySystem.request, ht]
      | _ => rfl
    simp only [hreq, Option.toList_none, List.append_nil]
    exact ⟨c, hc', hcinv.congr fun ip hip => hinv.apart.frame helse h hother hip⟩

/-- The task's own step leaves every other address as it is. -/
def RelaySystem.LeavesOthers (os : OsRules) (task : Nat) (own : IpAddr → Prop)
    (sys : RelaySystem T) (a : RelayAction T) : Prop :=
  ∀ ca sys', a = .call task ca → sys.step os a = some sys' → ∀ ip, ¬ own ip →
    sys'.relay.get ip = sys.relay.get ip ∧ sys'.relay.osRoutes ip = sys.relay.osRoutes ip

theorem RelaySystem.Reconciling.leavesOthers {s₀ : RelayState T} {previous : List IpAddr}
    (hinv : sys.Reconciling task s₀ current previous value reqs) (a : RelayAction T) :
    sys.LeavesOthers os task (fun ip => ip ∈ current ∨ ip ∈ previous) a := by
  rintro ca sys' rfl h ip hip
  obtain ⟨c, hc, hcinv⟩ := hinv.call
  have hout : ip ∉ c.addrs := fun hmem => hip (hcinv.within ip hmem)
  rcases RelaySystem.step_task h hc (by simp) with ⟨ca', c', heq, hstep, -⟩ | ⟨-, hother⟩
  · refine ⟨?_, hstep.osFrame (hinv.apart.keyed.calls task c hc) hout⟩
    simp only [RelayState.get, hstep.frame.1 ip hout]
  · exact absurd rfl (hother ca)

/-- **`reconcile` is exact and gap-free.** Let `task` call `reconcile` in any reachable state, while
    other calls and `park` work on other addresses and anybody calls `get`. If the call returns `Ok`,
    then `current` is registered with the new value and what it replaces is gone; its steps changed
    nothing else; it asked the OS once for each removal and for each route that was not there, and for
    nothing else; and what was tracked and stays was never without its entry, nor without the route
    that a tracked address has if adding one installs it. -/
theorem RelaySystem.reconcile_exact (os : OsRules) (routes : IpAddr → Bool)
    (before : List (RelayAction T)) (sys₀ : RelaySystem T)
    (hreach : runFrom (RelaySystem.step os) (RelaySystem.onTable routes) before = some sys₀)
    (task : Nat) (current previous : List IpAddr) (value : T) (hcur : current.Nodup)
    (hprev : previous.Nodup)
    (hothers : ∀ t c, sys₀.calls t = some c → ∀ ip ∈ c.addrs, ¬ (ip ∈ current ∨ ip ∈ previous))
    (acts : List (RelayAction T))
    (helse : ∀ a ∈ acts, a.Elsewhere task fun ip => ip ∈ current ∨ ip ∈ previous)
    (sys : RelaySystem T)
    (hrun : runFrom (RelaySystem.step os) sys₀ (.reconcile task current previous value :: acts)
      = some sys)
    (hok : sys.calls task = some (.returned true)) :
    (∀ ip ∈ current, sys.relay.get ip = some (.connected value)) ∧
    (∀ ip ∈ previous, ip ∉ current → sys.relay.get ip = none) ∧
    RunMeets (RelaySystem.step os)
      (RelaySystem.LeavesOthers os task fun ip => ip ∈ current ∨ ip ∈ previous) sys₀
      (.reconcile task current previous value :: acts) ∧
    (∀ ip,
      (trace (RelaySystem.step os) (RelaySystem.request task) sys₀
        (.reconcile task current previous value :: acts)).count (.remove ip)
        = if ip ∈ previous ∧ ip ∉ current then 1 else 0) ∧
    (∀ ip,
      (trace (RelaySystem.step os) (RelaySystem.request task) sys₀
        (.reconcile task current previous value :: acts)).count (.insert ip)
        = if ip ∈ current ∧ sys₀.relay.peerMap ip = none then 1 else 0) ∧
    RunSatisfies (RelaySystem.step os)
      (fun s => ∀ ip ∈ current, sys₀.relay.peerMap ip ≠ none →
        s.relay.get ip ≠ none ∧
          (os.Installs ∨ sys₀.relay.osRoutes ip = true → s.relay.osRoutes ip = true))
      sys₀ (.reconcile task current previous value :: acts) := by
  obtain ⟨sys₁, hstart, hacts⟩ := runFrom_cons hrun
  have hkeyed := RelaySystem.keyed_of_run hreach
  -- the call starts with nothing done
  have hinv₁ : sys₁.Reconciling task sys₀.relay current previous value [] := by
    have hkeyed₁ := keyed_lockRule.step_inv hkeyed (fun _ _ hs => RelayAction.keyed_starts hs) hstart
    cases (RelaySystem.step_sound hstart).2 with
    | @start _ t c hs hfree =>
        obtain ⟨rfl, rfl⟩ := Prod.mk.inj (Option.some.inj hs)
        refine ⟨⟨hkeyed₁, ?_⟩, _, by simp, ReconcileInv.start sys₀.relay current previous value⟩
        intro t c ht hc
        exact hothers t c (by simpa [ht] using hc)
  -- a call that ends in `Ok` has not failed on the way
  have hmeets : RunMeets (RelaySystem.step os) (fun s a =>
      a.Elsewhere task (fun ip => ip ∈ current ∨ ip ∈ previous) ∧
        ∀ s', s.step os a = some s' → ¬ s'.Failed task) sys₁ acts := by
    have hE : RunMeets (RelaySystem.step os)
        (fun _ a => a.Elsewhere task fun ip => ip ∈ current ∨ ip ∈ previous) sys₁ acts :=
      RunMeets.of_forall sys₁ acts fun a ha _ => helse a ha
    refine hE.and (RunMeets.of_absorbing (fun _ _ _ hF hE hs => hF.step hE hs) hE hacts ?_)
    rintro ⟨c, hc, hf⟩
    obtain rfl := Option.some.inj (hok.symm.trans hc)
    exact absurd hf (by simp [Call.failed])
  have hend : sys.Reconciling task sys₀.relay current previous value
      ([] ++ trace (RelaySystem.step os) (RelaySystem.request task) sys₁ acts) :=
    trace_invariant_of_meets
      (fun _ _ _ _ hI hC hs => hI.step hcur hprev hC.1 hs (hC.2 _ hs)) hinv₁ hmeets hacts
  have hall : RunSatisfies (RelaySystem.step os)
      (fun s => ∃ reqs, s.Reconciling task sys₀.relay current previous value reqs) sys₁ acts := by
    refine runSatisfies_of_meets ?_ ⟨[], hinv₁⟩ hmeets
    rintro s a s' ⟨reqs, hI⟩ hC hs
    exact ⟨_, hI.step hcur hprev hC.1 hs (hC.2 _ hs)⟩
  obtain ⟨c, hc, hcinv⟩ := hend.call
  obtain rfl := Option.some.inj (hok.symm.trans hc)
  have hreg : Registered (fun ip => ip ∈ current ∨ ip ∈ previous) sys.relay.peerMap current
      (some value) := hcinv.entries
  have htrace : trace (RelaySystem.step os) (RelaySystem.request task) sys₀
      (.reconcile task current previous value :: acts)
      = trace (RelaySystem.step os) (RelaySystem.request task) sys₁ acts := by
    simp [trace, hstart, RelaySystem.request]
  rw [htrace]
  obtain ⟨hremoves, hinserts⟩ := hcinv.progress
  simp only [List.nil_append] at hremoves hinserts
  have hroute₀ : ∀ ip, sys₀.relay.peerMap ip ≠ none →
      os.Installs ∨ sys₀.relay.osRoutes ip = true → sys₀.relay.osRoutes ip = true := by
    rintro ip hm (hos | hroute)
    · exact RelaySystem.installed_of_run hos hreach hm
    · exact hroute
  refine ⟨?_, ?_, ?_, ?_, hinserts, ?_⟩
  · intro ip hip
    obtain ⟨route, hentry⟩ := (hreg ip (Or.inl hip)).1 hip
    simp [RelayState.get, hentry]
  · intro ip hip hnot
    simp [RelayState.get, (hreg ip (Or.inr hip)).2 hnot]
  · refine RunMeets.cons hstart ?_ (hall.meets fun s a hI => hI.choose_spec.leavesOthers a)
    intro ca sys' heq
    exact absurd heq (by simp)
  · intro ip
    rw [hremoves ip]
    simp only [mem_staleAddrs]
  · refine ⟨?_, ?_⟩
    · intro ip _ hm
      exact ⟨by simpa [RelayState.get] using hm, hroute₀ ip hm⟩
    · intro s hs
      obtain rfl := Option.some.inj (hstart.symm.trans hs)
      refine hall.mono ?_
      rintro s ⟨reqs, hI⟩ ip hip hm
      obtain ⟨c, -, hcinv⟩ := hI.call
      obtain ⟨hentry, hroute⟩ := hcinv.kept ip hip hm
      exact ⟨by simpa [RelayState.get] using hentry, fun h => hroute (hroute₀ ip hm h)⟩

end

/-- Two addresses are registered, and parked when the connection drops. -/
def registerAndPark : List (RelayAction Nat) :=
  [.insert 0 [.v4 1, .v4 2] 1, .call 0 .acquire, .call 0 (.poll 0), .call 0 (.poll 1),
    .call 0 (.osReply 1 true true), .call 0 (.osReply 0 true true), .call 0 (.poll 0),
    .call 0 (.poll 1), .call 0 .finish, .join 0, .park [.v4 1, .v4 2]]

/-- The peer drops the first address and adds a third, while another task registers a fourth between
    the withdrawal and the insertion. -/
def reconnect : List (RelayAction Nat) :=
  [.call 0 .acquire, .insert 1 [.v4 4] 7, .call 0 (.poll 0), .get (.v4 2),
    .call 0 (.osReply 0 true false), .call 0 (.poll 0), .call 0 .finish, .call 1 .acquire,
    .call 1 (.poll 0), .call 1 (.osReply 0 true true), .call 1 (.poll 0), .call 1 .finish,
    .call 0 .acquire, .call 0 (.poll 1), .call 0 (.poll 0), .call 0 (.osReply 1 true true),
    .call 0 (.poll 1), .call 0 .finish]

theorem reconcile_exact_reconnect :
    ∃ sys₀ sys : RelaySystem Nat,
      runFrom (RelaySystem.step .exclusive) (RelaySystem.onTable fun _ => false) registerAndPark
        = some sys₀ ∧
      runFrom (RelaySystem.step .exclusive) sys₀
        (.reconcile 0 [.v4 2, .v4 3] [.v4 1, .v4 2] 2 :: reconnect) = some sys ∧
      sys.relay.get (.v4 2) = some (.connected 2) ∧ sys.relay.get (.v4 1) = none ∧
      (trace (RelaySystem.step .exclusive) (RelaySystem.request 0) sys₀
        (.reconcile 0 [.v4 2, .v4 3] [.v4 1, .v4 2] 2 :: reconnect)).count (.insert (.v4 2)) = 0 ∧
      RunSatisfies (RelaySystem.step .exclusive) (fun s => s.relay.osRoutes (.v4 2) = true) sys₀
        (.reconcile 0 [.v4 2, .v4 3] [.v4 1, .v4 2] 2 :: reconnect) := by
  refine ⟨_, _, rfl, rfl, ?_⟩
  have h := RelaySystem.reconcile_exact .exclusive (fun _ => false) registerAndPark _ rfl 0
    [.v4 2, .v4 3] [.v4 1, .v4 2] 2 (by decide) (by decide) ?_ reconnect ?_ _ rfl rfl
  · refine ⟨h.1 _ (by simp), h.2.1 _ (by simp) (by decide), ?_, ?_⟩
    · rw [h.2.2.2.2.1]
      rfl
    · refine h.2.2.2.2.2.mono fun s hs => ?_
      exact (hs (.v4 2) (by simp) (Option.some_ne_none _)).2 (Or.inl OsRules.exclusive_installs)
  · intro t c hc
    by_cases ht : t = 0
    · subst ht
      exact absurd hc (Option.some_ne_none c).symm
    · have hnone : (none : Option (Call Nat)) = some c := by
        rw [← hc]
        simp [Function.update, ht, RelaySystem.onTable]
      exact absurd hnone (by simp)
  · decide

end P2pVpn
