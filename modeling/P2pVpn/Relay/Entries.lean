import P2pVpn.Lib.Batch
import P2pVpn.Relay.Calls

set_option autoImplicit false

/-! # The entries of the addresses one task owns

`Registered own m ips value` says that, of the addresses in `own`, exactly `ips` have an entry, and
that it carries `value`. `Call.EntryInv` says where those entries are while the owner's call runs, so
that a call that returns leaves them `Registered`. Nothing is assumed about the OS, and calls of other
tasks do not matter as long as they stay within their own addresses (`Call.Within`). -/

namespace P2pVpn

section

variable {T : Type}

/-- Of the addresses in `own`, exactly `ips` have an entry, with this value. -/
def Registered (own : IpAddr → Prop) (m : IpAddr → Option (PeerValue T)) (ips : List IpAddr)
    (value : Option T) : Prop :=
  ∀ ip, own ip → (ip ∈ ips → ∃ route, m ip = some ⟨value, route⟩) ∧ (ip ∉ ips → m ip = none)

theorem Registered.mem_of_ne_none {own : IpAddr → Prop} {m : IpAddr → Option (PeerValue T)}
    {ips : List IpAddr} {value : Option T} (h : Registered own m ips value) {ip : IpAddr}
    (hown : own ip) (hip : m ip ≠ none) : ip ∈ ips := by
  by_contra hnot
  exact hip ((h ip hown).2 hnot)

theorem Registered.value_eq {own : IpAddr → Prop} {m : IpAddr → Option (PeerValue T)}
    {ips : List IpAddr} {value : Option T} (h : Registered own m ips value) {ip : IpAddr}
    {e : PeerValue T} (hown : own ip) (he : m ip = some e) : e.value = value := by
  obtain ⟨route, hentry⟩ := (h ip hown).1 (h.mem_of_ne_none hown (by simp [he]))
  obtain rfl := Option.some.inj (he.symm.trans hentry)
  rfl

theorem Registered.congr {own : IpAddr → Prop} {m m' : IpAddr → Option (PeerValue T)}
    {ips : List IpAddr} {value : Option T} (h : Registered own m ips value)
    (hsame : ∀ ip, own ip → m' ip = m ip) : Registered own m' ips value := by
  intro ip hown
  rw [hsame ip hown]
  exact h ip hown

/-! ## `park` -/

theorem RelayState.peerMap_parkOne (s : RelayState T) (ip x : IpAddr) :
    (s.parkOne ip).peerMap x
      = if x = ip then (s.peerMap x).map fun e => { e with value := none } else s.peerMap x := by
  unfold parkOne
  by_cases hx : x = ip
  · subst hx
    cases hentry : s.peerMap x with
    | none => simp [hentry]
    | some entry => simp [setEntry]
  · rw [if_neg hx]
    cases hentry : s.peerMap ip with
    | none => rfl
    | some entry => simp [setEntry, hx]

/-- `park` clears the value of every known address of its list and changes nothing else. -/
theorem RelayState.peerMap_park (s : RelayState T) (ips : List IpAddr) (x : IpAddr) :
    (s.park ips).peerMap x
      = if x ∈ ips then (s.peerMap x).map fun e => { e with value := none } else s.peerMap x := by
  unfold park
  induction ips generalizing s with
  | nil => rfl
  | cons ip rest ih =>
      rw [List.foldl_cons, ih, peerMap_parkOne]
      by_cases hx : x = ip
      · subst hx
        simp only [if_true, List.mem_cons_self]
        cases s.peerMap x <;> simp
      · simp [hx]

theorem Registered.park {own : IpAddr → Prop} {s : RelayState T} {ips : List IpAddr}
    {value : Option T} (h : Registered own s.peerMap ips value) :
    Registered own (s.park ips).peerMap ips none := by
  intro ip hown
  rw [RelayState.peerMap_park]
  refine ⟨?_, ?_⟩
  · intro hin
    obtain ⟨route, hentry⟩ := (h ip hown).1 hin
    exact ⟨route, by rw [if_pos hin, hentry]; rfl⟩
  · intro hout
    rw [if_neg hout]
    exact (h ip hown).2 hout

/-! ## Addresses a call may touch -/

/-- The addresses the call may still touch. -/
def Call.addrs : Call T → List IpAddr
  | .insertLock ips _ => ips
  | .inserting _ futures => futures.map Prod.fst
  | .rollback futures => futures.map Prod.fst
  | .removeLock ips next => ips ++ (next.elim [] Prod.fst)
  | .removing futures next => futures.map Prod.fst ++ (next.elim [] Prod.fst)
  | .returned _ => []

/-- The call touches addresses of `own` only. -/
def Call.Within (own : IpAddr → Prop) (c : Call T) : Prop := ∀ ip ∈ c.addrs, own ip

variable {os : OsRules} {me : Nat} {value : T} {s s' : RelayState T} {a : CallAction}

theorem InsertStep.keys {futures futures' : List (IpAddr × InsertFuture)}
    (h : InsertStep os value s futures a s' futures') :
    futures'.map Prod.fst = futures.map Prod.fst := by
  cases h with
  | rearm hfut _ => exact Batch.keys_set hfut
  | request hfut _ => exact Batch.keys_set hfut
  | reply hfut _ => exact Batch.keys_set hfut
  | register hfut => exact Batch.keys_set hfut
  | refused hfut => exact Batch.keys_set hfut

theorem RemoveStep.keys {futures futures' : List (IpAddr × RemoveFuture)}
    (h : RemoveStep os s futures a s' futures') :
    futures'.map Prod.fst = futures.map Prod.fst := by
  cases h with
  | untrack hfut _ => exact Batch.keys_set hfut
  | direct hfut _ => exact Batch.keys_set hfut
  | reply hfut _ => exact Batch.keys_set hfut
  | done hfut => exact Batch.keys_set hfut

theorem ne_of_not_mem_keys {φ : Type} {futures : List (IpAddr × φ)} {i : Nat} {ip : IpAddr} {f : φ}
    {x : IpAddr} (h : futures[i]? = some (ip, f)) (hx : x ∉ futures.map Prod.fst) : x ≠ ip := by
  intro heq
  exact hx (List.mem_map.2 ⟨(ip, f), List.mem_of_getElem? h, heq.symm⟩)

/-- Entries of addresses outside the batch stay as they are. -/
theorem InsertStep.frame {futures futures' : List (IpAddr × InsertFuture)}
    (h : InsertStep os value s futures a s' futures') {x : IpAddr}
    (hx : x ∉ futures.map Prod.fst) : s'.peerMap x = s.peerMap x := by
  cases h with
  | rearm hfut _ =>
      exact Function.update_of_ne (ne_of_not_mem_keys hfut hx) _ _
  | register hfut =>
      exact Function.update_of_ne (ne_of_not_mem_keys hfut hx) _ _
  | _ => rfl

theorem RemoveStep.frame {futures futures' : List (IpAddr × RemoveFuture)}
    (h : RemoveStep os s futures a s' futures') {x : IpAddr}
    (hx : x ∉ futures.map Prod.fst) : s'.peerMap x = s.peerMap x := by
  cases h with
  | untrack hfut _ =>
      exact Function.update_of_ne (ne_of_not_mem_keys hfut hx) _ _
  | _ => rfl

theorem Call.addrs_afterRemove (next : Option (List IpAddr × T)) :
    (Call.afterRemove next).addrs = next.elim [] Prod.fst := by
  cases next <;> rfl

/-- A call only touches entries of its own addresses, and never gets new ones. -/
theorem CallStep.frame {c c' : Call T} (h : CallStep os me s c a s' c') :
    (∀ x, x ∉ c.addrs → s'.peerMap x = s.peerMap x) ∧ ∀ x ∈ c'.addrs, x ∈ c.addrs := by
  cases h with
  | lockInsert _ => exact ⟨fun _ _ => rfl, fun x hx => by simpa [Call.addrs] using hx⟩
  | insert hstep => exact ⟨fun x hx => hstep.frame hx, fun x hx => by
      simpa only [Call.addrs, hstep.keys] using hx⟩
  | fail _ => exact ⟨fun _ _ => rfl, fun x hx => by simpa [Call.addrs] using hx⟩
  | inserted _ => exact ⟨fun _ _ => rfl, fun x hx => absurd hx (by simp [Call.addrs])⟩
  | undo hstep => exact ⟨fun x hx => hstep.frame hx, fun x hx => by
      simpa only [Call.addrs, hstep.keys] using hx⟩
  | undone _ => exact ⟨fun _ _ => rfl, fun x hx => absurd hx (by simp [Call.addrs])⟩
  | lockRemove _ => exact ⟨fun _ _ => rfl, fun x hx => by simpa [Call.addrs] using hx⟩
  | remove hstep =>
      refine ⟨fun x hx => hstep.frame fun hmem => hx (List.mem_append_left _ hmem), ?_⟩
      intro x hx
      simpa only [Call.addrs, hstep.keys] using hx
  | removed _ =>
      refine ⟨fun _ _ => rfl, ?_⟩
      intro x hx
      rw [Call.addrs_afterRemove] at hx
      exact List.mem_append_right _ hx

theorem CallStep.within {own : IpAddr → Prop} {c c' : Call T} (h : CallStep os me s c a s' c')
    (hw : c.Within own) : c'.Within own := fun ip hip => hw ip (h.frame.2 ip hip)

/-! ## The entry invariant -/

/-- Removals not yet polled, for the addresses that still have an entry. -/
def Unstarted (futures : List (IpAddr × RemoveFuture)) (ip : IpAddr) : Prop :=
  ∀ f, (ip, f) ∈ futures → f = .start

/-- Where the entries of `own` are while a call runs that is to end with `batch` registered (or with
    nothing, for `none`). -/
def Call.EntryInv (own : IpAddr → Prop) (m : IpAddr → Option (PeerValue T))
    (batch : Option (List IpAddr × T)) : Call T → Prop
  | .insertLock ips value => batch = some (ips, value) ∧ ∀ ip, own ip → m ip ≠ none → ip ∈ ips
  | .inserting value futures =>
      batch = some (futures.map Prod.fst, value) ∧
      (∀ ip, own ip → m ip ≠ none → ip ∈ futures.map Prod.fst) ∧
      ∀ ip, (ip, InsertFuture.done true) ∈ futures → ∃ route, m ip = some ⟨some value, route⟩
  | .rollback futures =>
      ∀ ip, own ip → m ip ≠ none → ip ∈ futures.map Prod.fst ∧ Unstarted futures ip
  | .removeLock ips next =>
      batch = next ∧ ∀ ip, own ip → m ip ≠ none → ip ∈ ips ++ next.elim [] Prod.fst
  | .removing futures next =>
      batch = next ∧ ∀ ip, own ip → m ip ≠ none →
        ip ∈ futures.map Prod.fst ++ next.elim [] Prod.fst ∧ Unstarted futures ip
  | .returned true =>
      match batch with
      | some (ips, value) => Registered own m ips (some value)
      | none => Registered own m [] none
  | .returned false => Registered own m [] none

/-- The invariant reads the entries of `own` only. -/
theorem Call.EntryInv.congr {own : IpAddr → Prop} {m m' : IpAddr → Option (PeerValue T)}
    {batch : Option (List IpAddr × T)} {c : Call T} (h : c.EntryInv own m batch)
    (hw : c.Within own) (hsame : ∀ ip, own ip → m' ip = m ip) : c.EntryInv own m' batch := by
  cases c with
  | insertLock ips v => exact ⟨h.1, fun ip hown hip => h.2 ip hown (hsame ip hown ▸ hip)⟩
  | inserting v futures =>
      refine ⟨h.1, fun ip hown hip => h.2.1 ip hown (hsame ip hown ▸ hip), ?_⟩
      intro ip hip
      rw [hsame ip (hw ip (List.mem_map.2 ⟨_, hip, rfl⟩))]
      exact h.2.2 ip hip
  | rollback futures => exact fun ip hown hip => h ip hown (hsame ip hown ▸ hip)
  | removeLock ips next => exact ⟨h.1, fun ip hown hip => h.2 ip hown (hsame ip hown ▸ hip)⟩
  | removing futures next => exact ⟨h.1, fun ip hown hip => h.2 ip hown (hsame ip hown ▸ hip)⟩
  | returned ok =>
      cases ok with
      | false => exact Registered.congr h hsame
      | true =>
          cases batch with
          | none => exact Registered.congr h hsame
          | some b => exact Registered.congr h hsame

variable {own : IpAddr → Prop} {batch : Option (List IpAddr × T)}

/-- In the batch of `insert`, entries appear only at its addresses, and a future that is done has
    left its value there. -/
theorem InsertStep.entryInv {futures futures' : List (IpAddr × InsertFuture)}
    (h : InsertStep os value s futures a s' futures')
    (hinv : (Call.inserting value futures).EntryInv own s.peerMap batch) :
    (Call.inserting value futures').EntryInv own s'.peerMap batch := by
  obtain ⟨hbatch, hin, hdone⟩ := hinv
  have hkeys := h.keys
  refine ⟨hkeys ▸ hbatch, ?_, ?_⟩
  · intro x hown hx
    by_cases hmem : x ∈ futures.map Prod.fst
    · exact hkeys ▸ hmem
    · exact absurd (hin x hown (h.frame hmem ▸ hx)) hmem
  · cases h with
    | @rearm i ip entry hfut hentry =>
        intro x hx
        by_cases hxi : x = ip
        · subst hxi
          exact ⟨entry.route, by simp [RelayState.setEntry]⟩
        · obtain ⟨route, hroute⟩ := hdone x (Batch.mem_of_mem_set_of_ne hx hxi)
          exact ⟨route, by simpa [RelayState.setEntry, hxi] using hroute⟩
    | request hfut hentry =>
        intro x hx
        exact hdone x (Batch.mem_of_mem_set hx (by simp))
    | reply hfut hos =>
        intro x hx
        exact hdone x (Batch.mem_of_mem_set hx (by simp))
    | @register i ip hfut =>
        intro x hx
        by_cases hxi : x = ip
        · subst hxi
          exact ⟨⟨x⟩, by simp [RelayState.insertEntry, RelayState.setEntry]⟩
        · obtain ⟨route, hroute⟩ := hdone x (Batch.mem_of_mem_set_of_ne hx hxi)
          exact ⟨route, by simpa [RelayState.insertEntry, RelayState.setEntry, hxi] using hroute⟩
    | refused hfut =>
        intro x hx
        exact hdone x (Batch.mem_of_mem_set hx (by simp))

/-- A removal stays unpolled when a future of another address advances, or one that has been. -/
theorem Unstarted.set {futures : List (IpAddr × RemoveFuture)} {i : Nat} {ip x : IpAddr}
    {f f' : RemoveFuture} (hun : Unstarted futures x) (hfut : futures[i]? = some (ip, f))
    (hother : x = ip → f ≠ .start) : Unstarted (futures.set i (ip, f')) x := by
  intro g hg
  rcases Batch.mem_set hg with hg | ⟨rfl, -⟩
  · exact hun g hg
  · exact absurd (hun f (List.mem_of_getElem? hfut)) (hother rfl)

/-- In the batch of `remove_locked`, an address that still has an entry has not been polled. -/
theorem RemoveStep.unstarted {futures futures' : List (IpAddr × RemoveFuture)}
    (h : RemoveStep os s futures a s' futures') {x : IpAddr}
    (hx : s'.peerMap x ≠ none) (hold : s.peerMap x ≠ none → Unstarted futures x) :
    s.peerMap x ≠ none ∧ Unstarted futures' x := by
  cases h with
  | @untrack i ip old hfut hentry =>
      by_cases hxi : x = ip
      · subst hxi
        exact absurd (by simp [RelayState.removeEntry]) hx
      · have hne : s.peerMap x ≠ none := by simpa [RelayState.removeEntry, hxi] using hx
        exact ⟨hne, (hold hne).set hfut fun heq => absurd heq hxi⟩
  | @direct i ip hfut hentry =>
      exact ⟨hx, (hold hx).set hfut fun heq => absurd (heq ▸ hentry) hx⟩
  | reply hfut hos => exact ⟨hx, (hold hx).set hfut fun _ => by simp⟩
  | done hfut => exact ⟨hx, (hold hx).set hfut fun _ => by simp⟩

/-- Removals only take entries away. -/
theorem RemoveStep.peerMap_of_eq_some {futures futures' : List (IpAddr × RemoveFuture)}
    (h : RemoveStep os s futures a s' futures') {x : IpAddr} {e : PeerValue T}
    (hx : s'.peerMap x = some e) : s.peerMap x = some e := by
  cases h with
  | @untrack i ip old hfut hentry =>
      by_cases hxi : x = ip
      · subst hxi; exact absurd hx (by simp [RelayState.removeEntry])
      · simpa [RelayState.removeEntry, hxi] using hx
  | _ => exact hx

theorem unstarted_of_forall {futures : List (IpAddr × RemoveFuture)}
    (h : ∀ f ∈ futures, f.2 = .start) (ip : IpAddr) : Unstarted futures ip :=
  fun f hf => h (ip, f) hf

theorem not_unstarted_of_done {futures : List (IpAddr × RemoveFuture)}
    (h : ∀ f ∈ futures, f.2 = .done) {ip : IpAddr} (hip : ip ∈ futures.map Prod.fst) :
    ¬ Unstarted futures ip := by
  obtain ⟨⟨x, f⟩, hmem, rfl⟩ := List.mem_map.1 hip
  intro hun
  exact absurd ((hun f hmem).symm.trans (h _ hmem)) (by simp)

/-- Every step of the owner's call keeps the entry invariant. -/
theorem CallStep.entryInv {c c' : Call T} (h : CallStep os me s c a s' c')
    (hinv : c.EntryInv own s.peerMap batch) : c'.EntryInv own s'.peerMap batch := by
  cases h with
  | lockInsert _ =>
      refine ⟨by simpa [Function.comp_def] using hinv.1, ?_, ?_⟩
      · intro ip hown hip
        simpa [Function.comp_def] using hinv.2 ip hown hip
      · intro ip hip
        exact absurd hip (by simp)
  | insert hstep => exact hstep.entryInv hinv
  | fail _ =>
      intro ip hown hip
      refine ⟨by simpa [Function.comp_def] using hinv.2.1 ip hown hip, unstarted_of_forall ?_ ip⟩
      intro f hf
      obtain ⟨g, -, rfl⟩ := List.mem_map.1 hf
      rfl
  | @inserted v futures hall =>
      obtain ⟨rfl, hin, hdone⟩ := hinv
      intro ip hown
      refine ⟨?_, ?_⟩
      · intro hip
        obtain ⟨⟨x, f⟩, hmem, rfl⟩ := List.mem_map.1 hip
        obtain rfl : f = .done true := hall _ hmem
        exact hdone x hmem
      · intro hip
        by_contra hne
        exact hip (hin ip hown hne)
  | undo hstep =>
      intro ip hown hip
      obtain ⟨hne, hun⟩ := hstep.unstarted hip fun hne => (hinv ip hown hne).2
      exact ⟨hstep.keys ▸ (hinv ip hown hne).1, hun⟩
  | undone hall =>
      intro ip hown
      refine ⟨fun hip => absurd hip (by simp), ?_⟩
      intro _
      by_contra hne
      obtain ⟨hmem, hun⟩ := hinv ip hown hne
      exact not_unstarted_of_done hall hmem hun
  | lockRemove _ =>
      refine ⟨hinv.1, fun ip hown hip => ⟨?_, unstarted_of_forall ?_ ip⟩⟩
      · simpa [Function.comp_def] using hinv.2 ip hown hip
      · intro f hf
        obtain ⟨ip, -, rfl⟩ := List.mem_map.1 hf
        rfl
  | remove hstep =>
      refine ⟨hinv.1, ?_⟩
      intro ip hown hip
      obtain ⟨hne, hun⟩ := hstep.unstarted hip fun hne => (hinv.2 ip hown hne).2
      exact ⟨hstep.keys ▸ (hinv.2 ip hown hne).1, hun⟩
  | @removed futures next hall =>
      obtain ⟨rfl, hin⟩ := hinv
      -- what is left belongs to the batch that `reconcile` inserts next
      have hrest : ∀ ip, own ip → s.peerMap ip ≠ none → ip ∈ batch.elim [] Prod.fst := by
        intro ip hown hip
        obtain ⟨hmem, hun⟩ := hin ip hown hip
        rcases List.mem_append.1 hmem with hmem | hmem
        · exact absurd hun (not_unstarted_of_done hall hmem)
        · exact hmem
      cases batch with
      | none =>
          intro ip hown
          refine ⟨fun hip => absurd hip (by simp), ?_⟩
          intro _
          by_contra hne
          exact absurd (hrest ip hown hne) (by simp)
      | some b => exact ⟨rfl, hrest⟩

/-- What holds of every value in the entries, and of the value the call registers, stays true. -/
theorem CallStep.values {P : Option T → Prop} {c c' : Call T} (h : CallStep os me s c a s' c')
    (hinv : c.EntryInv own s.peerMap batch) (hP : ∀ ips v, batch = some (ips, v) → P (some v))
    (hvals : ∀ ip e, own ip → s.peerMap ip = some e → P e.value) :
    ∀ ip e, own ip → s'.peerMap ip = some e → P e.value := by
  intro x e hown he
  cases h with
  | insert hstep =>
      obtain ⟨rfl, -, -⟩ := hinv
      cases hstep with
      | @rearm i ip entry hfut hentry =>
          by_cases hx : x = ip
          · subst hx
            obtain rfl : { entry with value := some _ } = e := by
              simpa [RelayState.setEntry] using he
            exact hP _ _ rfl
          · exact hvals x e hown (by simpa [RelayState.setEntry, hx] using he)
      | @register i ip hfut =>
          by_cases hx : x = ip
          · subst hx
            obtain rfl : (⟨some _, ⟨x⟩⟩ : PeerValue T) = e := by
              simpa [RelayState.insertEntry, RelayState.setEntry] using he
            exact hP _ _ rfl
          · refine hvals x e hown ?_
            simpa [RelayState.insertEntry, RelayState.setEntry, hx] using he
      | _ => exact hvals x e hown he
  | undo hstep => exact hvals x e hown (hstep.peerMap_of_eq_some he)
  | remove hstep => exact hvals x e hown (hstep.peerMap_of_eq_some he)
  | _ => exact hvals x e hown he

/-! ## Starting a call -/

/-- `reconcile` starts from the registered routes of the previous connection. -/
theorem Registered.reconcile {m : IpAddr → Option (PeerValue T)} {previous : List IpAddr}
    {old : Option T} (h : Registered own m previous old) (current : List IpAddr) (value : T) :
    (Call.reconcile current previous value).EntryInv own m (some (current, value)) := by
  unfold Call.reconcile
  simp only
  split_ifs with hstale
  · refine ⟨rfl, ?_⟩
    intro ip hown hip
    have hprev := h.mem_of_ne_none hown hip
    simpa using List.filter_eq_nil_iff.1 (List.isEmpty_iff.1 hstale) ip hprev
  · refine ⟨rfl, ?_⟩
    intro ip hown hip
    have hprev := h.mem_of_ne_none hown hip
    by_cases hcur : ip ∈ current
    · exact List.mem_append_right _ hcur
    · exact List.mem_append_left _ (List.mem_filter.2 ⟨hprev, by simpa using hcur⟩)

theorem Registered.remove {m : IpAddr → Option (PeerValue T)} {ips : List IpAddr}
    {old : Option T} (h : Registered own m ips old) :
    (Call.remove ips).EntryInv own m none :=
  ⟨rfl, fun ip hown hip => by simpa using h.mem_of_ne_none hown hip⟩

theorem Call.addrs_reconcile (current previous : List IpAddr) (v : T) :
    ∀ ip ∈ (Call.reconcile current previous v).addrs, ip ∈ current ∨ ip ∈ previous := by
  intro ip hip
  unfold Call.reconcile at hip
  simp only at hip
  split_ifs at hip with hstale
  · exact Or.inl hip
  · rcases List.mem_append.1 hip with hip | hip
    · exact Or.inr (List.mem_filter.1 hip).1
    · exact Or.inl hip

end

end P2pVpn
