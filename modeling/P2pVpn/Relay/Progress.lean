import P2pVpn.Relay.Guards

set_option autoImplicit false

/-! # Calls on the relay return

All calls take one lock and keep it across their OS requests. None of them waits for another while it
has the lock, so the holder can always go on as long as the OS answers, and the lock comes free. Every
step brings a call closer to its end: calls do not block each other for good, and they all return. -/

namespace P2pVpn

/-- The OS answers every request, in some way. -/
structure OsRules.Answers (os : OsRules) : Prop where
  add : ∀ before, ∃ ok after, os.add before ok after = true
  remove : ∀ before, ∃ ok after, os.remove before ok after = true

theorem OsRules.exclusive_answers : OsRules.exclusive.Answers where
  add := fun before => ⟨!before, true, by cases before <;> rfl⟩
  remove := fun before => ⟨true, false, by cases before <;> rfl⟩

section

variable {T : Type}

/-- The step is one of a call in progress. -/
def RelayAction.isCall : RelayAction T → Bool
  | .call _ _ => true
  | _ => false

/-- The call has returned. -/
def Call.isReturned : Call T → Bool
  | .returned _ => true
  | _ => false

/-- No call waits or works. -/
def RelaySystem.AllReturned (sys : RelaySystem T) : Prop :=
  ∀ task c, sys.calls task = some c → c.isReturned = true

/-! ## Steps left -/

/-- How many steps the future has left. -/
def InsertFuture.work : InsertFuture → Nat
  | .start => 3
  | .adding none => 2
  | .adding (some _) => 1
  | .done _ => 0

/-- How many steps the future has left. -/
def RemoveFuture.work : RemoveFuture → Nat
  | .start => 3
  | .removing _ none => 2
  | .removing _ (some _) => 1
  | .done => 0

/-- What `insert` may take: the lock, its batch, the error, the batch once more to undo it, the end. -/
def insertWork (addresses : Nat) : Nat := 6 * addresses + 3

/-- An upper bound on the steps a call has left. -/
def Call.work : Call T → Nat
  | .insertLock ips _ => insertWork ips.length
  | .inserting _ futures => Batch.work InsertFuture.work futures + 3 * futures.length + 2
  | .rollback futures => Batch.work RemoveFuture.work futures + 1
  | .removeLock ips next => 3 * ips.length + 2 + next.elim 0 fun b => insertWork b.1.length
  | .removing futures next =>
      Batch.work RemoveFuture.work futures + 1 + next.elim 0 fun b => insertWork b.1.length
  | .returned _ => 0

/-- The steps the calls of some tasks have left. -/
def RelaySystem.work (sys : RelaySystem T) (tasks : Finset Nat) : Nat :=
  ∑ task ∈ tasks, (sys.calls task).elim 0 Call.work

variable {os : OsRules} {me : Nat} {value : T} {s s' : RelayState T} {sys sys' : RelaySystem T}

theorem InsertStep.work_lt {futures futures' : List (IpAddr × InsertFuture)} {ca : CallAction}
    (h : InsertStep os value s futures ca s' futures') :
    Batch.work InsertFuture.work futures' < Batch.work InsertFuture.work futures ∧
      futures'.length = futures.length := by
  cases h with
  | rearm hfut _ => exact ⟨Batch.work_set_lt hfut (by decide), List.length_set⟩
  | request hfut _ => exact ⟨Batch.work_set_lt hfut (by decide), List.length_set⟩
  | reply hfut _ => exact ⟨Batch.work_set_lt hfut Nat.one_lt_two, List.length_set⟩
  | register hfut => exact ⟨Batch.work_set_lt hfut (by decide), List.length_set⟩
  | refused hfut => exact ⟨Batch.work_set_lt hfut (by decide), List.length_set⟩

theorem RemoveStep.work_lt {futures futures' : List (IpAddr × RemoveFuture)} {ca : CallAction}
    (h : RemoveStep os s futures ca s' futures') :
    Batch.work RemoveFuture.work futures' < Batch.work RemoveFuture.work futures := by
  cases h with
  | untrack hfut _ => exact Batch.work_set_lt hfut (Nat.lt_succ_self 2)
  | direct hfut _ => exact Batch.work_set_lt hfut (Nat.lt_succ_self 2)
  | reply hfut _ => exact Batch.work_set_lt hfut Nat.one_lt_two
  | done hfut => exact Batch.work_set_lt hfut Nat.one_pos

theorem Call.work_afterRemove (next : Option (List IpAddr × T)) :
    (Call.afterRemove next).work = next.elim 0 fun b => insertWork b.1.length := by
  cases next <;> rfl

theorem CallStep.work_lt {c c' : Call T} {ca : CallAction} (h : CallStep os me s c ca s' c') :
    c'.work < c.work := by
  cases h with
  | @lockInsert ips value _ =>
      have hstart := Batch.work_start InsertFuture.work (id : IpAddr → IpAddr) .start ips
      simp only [id, InsertFuture.work] at hstart
      simp only [Call.work, insertWork, List.length_map, hstart]
      omega
  | insert hstep =>
      obtain ⟨hlt, hlength⟩ := hstep.work_lt
      simp only [Call.work, hlength]
      omega
  | @fail value futures ip _ =>
      have hstart := Batch.work_start RemoveFuture.work
        (Prod.fst : IpAddr × InsertFuture → IpAddr) .start futures
      simp only [RemoveFuture.work] at hstart
      simp only [Call.work, hstart]
      omega
  | inserted _ => exact Nat.succ_pos _
  | undo hstep => exact Nat.succ_lt_succ hstep.work_lt
  | undone _ => exact Nat.succ_pos _
  | @lockRemove ips next _ =>
      have hstart := Batch.work_start RemoveFuture.work (id : IpAddr → IpAddr) .start ips
      simp only [id, RemoveFuture.work] at hstart
      simp only [Call.work, hstart]
      omega
  | remove hstep =>
      have hlt := hstep.work_lt
      simp only [Call.work]
      omega
  | removed _ =>
      rw [Call.work_afterRemove]
      simp only [Call.work]
      omega

/-- It is enough to look at the task that took a step. -/
theorem RelaySystem.work_lt_of_task {tasks : Finset Nat} {task : Nat} (htask : task ∈ tasks)
    (hothers : ∀ t, t ≠ task → sys'.calls t = sys.calls t)
    (hlt : (sys'.calls task).elim 0 Call.work < (sys.calls task).elim 0 Call.work) :
    sys'.work tasks < sys.work tasks := by
  refine Finset.sum_lt_sum ?_ ⟨task, htask, hlt⟩
  intro t _
  by_cases ht : t = task
  · subst ht
    exact hlt.le
  · rw [hothers t ht]

/-- A step of a call lowers its own work and leaves that of the others. -/
theorem RelaySystem.work_lt {tasks : Finset Nat} {a : RelayAction T} (ha : a.isCall = true)
    (htasks : ∀ task, sys.calls task ≠ none → task ∈ tasks)
    (h : sys.step os a = some sys') : sys'.work tasks < sys.work tasks := by
  cases (RelaySystem.step_sound h).2 with
  | @call task ca c c' s' hcall hstep =>
      refine RelaySystem.work_lt_of_task (htasks task (by simp [hcall])) ?_ ?_
      · intro t ht
        simp [ht]
      · simpa [hcall] using hstep.work_lt
  | start hstart _ => cases a <;> simp [RelayAction.starts, RelayAction.isCall] at hstart ha
  | park => exact absurd ha (by simp [RelayAction.isCall])
  | get => exact absurd ha (by simp [RelayAction.isCall])
  | join _ => exact absurd ha (by simp [RelayAction.isCall])

/-! ## A step that is possible -/

theorem exists_insertStep (hos : os.Answers) {futures : List (IpAddr × InsertFuture)} {ip : IpAddr}
    {f : InsertFuture} (hmem : (ip, f) ∈ futures) (hopen : ∀ ok, f ≠ .done ok) :
    ∃ ca s' futures', InsertStep os value s futures ca s' futures' := by
  obtain ⟨i, hi⟩ := List.mem_iff_getElem?.1 hmem
  match f with
  | .start =>
      cases hentry : s.peerMap ip with
      | some entry => exact ⟨_, _, _, .rearm hi hentry⟩
      | none => exact ⟨_, _, _, .request hi hentry⟩
  | .adding none =>
      obtain ⟨ok, present, hadd⟩ := hos.add (s.osRoutes ip)
      exact ⟨_, _, _, .reply hi hadd⟩
  | .adding (some true) => exact ⟨_, _, _, .register hi⟩
  | .adding (some false) => exact ⟨_, _, _, .refused hi⟩
  | .done ok => exact absurd rfl (hopen ok)

theorem exists_removeStep (hos : os.Answers) {futures : List (IpAddr × RemoveFuture)} {ip : IpAddr}
    {f : RemoveFuture} (hmem : (ip, f) ∈ futures) (hopen : f ≠ .done) :
    ∃ ca s' futures', RemoveStep os s futures ca s' futures' := by
  obtain ⟨i, hi⟩ := List.mem_iff_getElem?.1 hmem
  match f with
  | .start =>
      cases hentry : s.peerMap ip with
      | some old => exact ⟨_, _, _, .untrack hi hentry⟩
      | none => exact ⟨_, _, _, .direct hi hentry⟩
  | .removing target none =>
      obtain ⟨ok, present, hremove⟩ := hos.remove (s.osRoutes target)
      exact ⟨_, _, _, .reply hi hremove⟩
  | .removing target (some ok) => exact ⟨_, _, _, .done hi⟩
  | .done => exact absurd rfl hopen

/-- A batch of removals is done or goes on. -/
theorem removing_goes_on (hos : os.Answers) (s : RelayState T)
    (futures : List (IpAddr × RemoveFuture)) :
    (∀ f ∈ futures, f.2 = .done) ∨ ∃ ca s' futures', RemoveStep os s futures ca s' futures' := by
  by_cases hall : ∀ f ∈ futures, f.2 = .done
  · exact Or.inl hall
  · simp only [not_forall] at hall
    obtain ⟨⟨ip, f⟩, hmem, hopen⟩ := hall
    exact Or.inr (exists_removeStep hos hmem hopen)

/-- A call that has the lock waits for nothing but the OS. -/
theorem Call.goes_on (hos : os.Answers) {c : Call T} (hlock : c.holdsLock = true) :
    ∃ ca s' c', CallStep os me s c ca s' c' := by
  cases c with
  | inserting value futures =>
      by_cases hall : ∀ f ∈ futures, f.2 = .done true
      · exact ⟨_, _, _, .inserted hall⟩
      · simp only [not_forall] at hall
        obtain ⟨⟨ip, f⟩, hmem, hf⟩ := hall
        by_cases herr : f = .done false
        · exact ⟨_, _, _, .fail (herr ▸ hmem)⟩
        · have hopen : ∀ ok, f ≠ .done ok := by
            intro ok
            cases ok with
            | false => exact herr
            | true => exact hf
          obtain ⟨ca, s', futures', hstep⟩ := exists_insertStep hos hmem hopen
          exact ⟨ca, s', _, .insert hstep⟩
  | rollback futures =>
      rcases removing_goes_on hos s futures with hall | ⟨ca, s', futures', hstep⟩
      · exact ⟨_, _, _, .undone hall⟩
      · exact ⟨ca, s', _, .undo hstep⟩
  | removing futures next =>
      rcases removing_goes_on hos s futures with hall | ⟨ca, s', futures', hstep⟩
      · exact ⟨_, _, _, .removed hall⟩
      · exact ⟨ca, s', _, .remove hstep⟩
  | _ => exact absurd hlock (by simp [Call.holdsLock])

/-- A call that waits for the lock goes on when it is free. -/
theorem Call.acquires {c : Call T} (hfree : s.handle = none) (hlock : c.holdsLock = false)
    (hopen : c.isReturned = false) : ∃ ca s' c', CallStep os me s c ca s' c' := by
  cases c with
  | insertLock ips value => exact ⟨_, _, _, .lockInsert hfree⟩
  | removeLock ips next => exact ⟨_, _, _, .lockRemove hfree⟩
  | returned ok => exact absurd hopen (by simp [Call.isReturned])
  | _ => exact absurd hlock (by simp [Call.holdsLock])

/-! ## The lock has a holder -/

/-- The lock is with a call that is past it. -/
def RelaySystem.Held (sys : RelaySystem T) : Prop :=
  ∀ task, sys.relay.handle = some task → ∃ c, sys.calls task = some c ∧ c.holdsLock = true

/-- A call that took a step has the lock, or nobody has it. -/
theorem CallStep.keeps_or_frees {c c' : Call T} {ca : CallAction}
    (h : CallStep os me s c ca s' c') (hholder : c.holdsLock = true → s.handle = some me) :
    s'.handle = none ∨ (s'.handle = some me ∧ c'.holdsLock = true) := by
  cases h with
  | lockInsert _ => exact Or.inr ⟨rfl, rfl⟩
  | lockRemove _ => exact Or.inr ⟨rfl, rfl⟩
  | insert hstep => exact Or.inr ⟨hstep.handle_eq.trans (hholder rfl), rfl⟩
  | undo hstep => exact Or.inr ⟨hstep.handle_eq.trans (hholder rfl), rfl⟩
  | remove hstep => exact Or.inr ⟨hstep.handle_eq.trans (hholder rfl), rfl⟩
  | fail _ => exact Or.inr ⟨hholder rfl, rfl⟩
  | inserted _ => exact Or.inl rfl
  | undone _ => exact Or.inl rfl
  | removed _ => exact Or.inl rfl

theorem RelaySystem.Held.step {a : RelayAction T}
    (hinv : sys.LockInv (fun _ => True) (fun _ _ => True)) (hheld : sys.Held)
    (h : sys.step os a = some sys') : sys'.Held := by
  cases (RelaySystem.step_sound h).2 with
  | @start _ task c _ hfree =>
      intro t ht
      obtain ⟨d, hd, hlock⟩ := hheld t ht
      have hne : t ≠ task := by
        rintro rfl
        exact absurd (hd.symm.trans hfree) (by simp)
      exact ⟨d, by simpa [hne] using hd, hlock⟩
  | @park ips =>
      intro t ht
      exact hheld t ((sys.relay.handle_park ips).symm.trans ht)
  | get => exact hheld
  | @call task ca c c' s' hcall hstep =>
      intro t ht
      rcases hstep.keeps_or_frees (hinv.holder task c hcall) with hnone | ⟨hme, hlock⟩
      · exact absurd (ht.symm.trans hnone) (by simp)
      · obtain rfl := Option.some.inj (ht.symm.trans hme)
        exact ⟨c', by simp, hlock⟩
  | @join task ok hcall =>
      intro t ht
      obtain ⟨d, hd, hlock⟩ := hheld t ht
      have hne : t ≠ task := by
        rintro rfl
        obtain rfl := Option.some.inj (hd.symm.trans hcall)
        exact absurd hlock (by simp [Call.holdsLock])
      exact ⟨d, by simpa [hne] using hd, hlock⟩

theorem trivial_lockRule : LockRule os (fun _ : RelayState T => True) (fun _ _ => True) where
  idle := fun _ _ _ _ _ => trivial
  parkRelay := fun _ _ _ => trivial
  parkCall := fun _ _ _ _ => trivial
  step := fun _ _ _ _ _ _ _ _ _ _ => ⟨trivial, trivial⟩

theorem RelaySystem.held {acts : List (RelayAction T)}
    (hrun : runFrom (RelaySystem.step os) RelaySystem.new acts = some sys) : sys.Held := by
  refine (runFrom_invariant
    (I := fun sys => sys.LockInv (fun _ => True) (fun _ _ => True) ∧ sys.Held)
    ?_ ⟨.new trivial, ?_⟩ hrun).2
  · intro sys a sys' hI hs
    exact ⟨trivial_lockRule.step_inv hI.1 (fun _ _ _ => trivial) hs, hI.2.step hI.1 hs⟩
  · intro task hlock
    exact absurd hlock (by simp [RelaySystem.new, RelayState.new])

/-- **No deadlock.** Where no call can take a step, all have returned and the lock is free. -/
theorem RelaySystem.at_rest (hos : os.Answers) (hheld : sys.Held)
    (hpanic : sys.relay.panicked = false) (hrest : ∀ task ca, sys.step os (.call task ca) = none) :
    sys.AllReturned ∧ sys.relay.handle = none := by
  -- what a call in progress can do, its task can do
  have hstuck : ∀ task c, sys.calls task = some c →
      ¬ ∃ ca s' c', CallStep os task sys.relay c ca s' c' := by
    rintro task c hcall ⟨ca, s', c', hstep⟩
    exact absurd (SystemStep.complete hpanic (.call hcall hstep)) (by simp [hrest])
  have hfree : sys.relay.handle = none := by
    by_contra hsome
    obtain ⟨task, htask⟩ := Option.ne_none_iff_exists'.1 hsome
    obtain ⟨c, hcall, hlock⟩ := hheld task htask
    exact hstuck task c hcall (Call.goes_on hos hlock)
  refine ⟨?_, hfree⟩
  intro task c hcall
  by_contra hopen
  refine hstuck task c hcall ?_
  cases hlock : c.holdsLock with
  | true => exact Call.goes_on hos hlock
  | false => exact Call.acquires hfree hlock (by simpa using hopen)

/-! ## Whole runs -/

/-- The tasks a run started calls for. -/
def startedTasks (acts : List (RelayAction T)) : Finset Nat :=
  (acts.filterMap fun a => a.starts.map Prod.fst).toFinset

/-- A step brings in no task but the one it starts. -/
theorem RelaySystem.step_calls {a : RelayAction T} {task : Nat} (h : sys.step os a = some sys')
    (htask : sys'.calls task ≠ none) :
    sys.calls task ≠ none ∨ a.starts.map Prod.fst = some task := by
  cases (RelaySystem.step_sound h).2 with
  | @start _ t c hstart _ =>
      by_cases ht : task = t
      · exact Or.inr (by simp [hstart, ht])
      · exact Or.inl (by simpa [ht] using htask)
  | park => exact Or.inl htask
  | get => exact Or.inl htask
  | @call t ca c c' s' hcall _ =>
      by_cases ht : task = t
      · exact Or.inl (by simp [ht, hcall])
      · exact Or.inl (by simpa [ht] using htask)
  | @join t ok hcall =>
      by_cases ht : task = t
      · exact Or.inl (by simp [ht, hcall])
      · exact Or.inl (by simpa [ht] using htask)

theorem RelaySystem.calls_started {acts : List (RelayAction T)}
    (hrun : runFrom (RelaySystem.step os) RelaySystem.new acts = some sys) (task : Nat)
    (htask : sys.calls task ≠ none) : task ∈ startedTasks acts := by
  refine runFrom_invariant_of_meets (C := fun _ a => a ∈ acts)
    (I := fun sys => ∀ t, sys.calls t ≠ none → t ∈ startedTasks acts) ?_ ?_
    (RunMeets.of_forall _ acts fun a ha _ => ha) hrun task htask
  · intro sys a sys' hI ha hs t ht
    rcases RelaySystem.step_calls hs ht with hold | hnew
    · exact hI t hold
    · exact List.mem_toFinset.2 (List.mem_filterMap.2 ⟨a, ha, hnew⟩)
  · intro t ht
    exact absurd rfl ht

/-- A step of a call starts nothing. -/
theorem RelayAction.batch_of_isCall {a : RelayAction T} (ha : a.isCall = true) : a.batch = none := by
  cases a with
  | call task ca => rfl
  | _ => exact absurd ha (by simp [RelayAction.isCall])

theorem RelaySystem.calls_of_isCall {a : RelayAction T} {tasks : Finset Nat}
    (ha : a.isCall = true) (htasks : ∀ task, sys.calls task ≠ none → task ∈ tasks)
    (h : sys.step os a = some sys') : ∀ task, sys'.calls task ≠ none → task ∈ tasks := by
  intro task htask
  rcases RelaySystem.step_calls h htask with hold | hnew
  · exact htasks task hold
  · cases a <;> simp [RelayAction.isCall, RelayAction.starts] at ha hnew

/-- **Concurrent calls all return.** On an OS that answers, whatever calls were started (no list to
    register with a repetition) and however far they are: the calls take a bounded number of further
    steps, in every order; where none can take another one, all have returned, the lock is free and
    no guard was lost; and such a state is reached. -/
theorem RelaySystem.calls_return (hos : os.Answers) {acts : List (RelayAction T)}
    (hbatch : ∀ a ∈ acts, ∀ ips, a.batch = some ips → ips.Nodup)
    (hrun : runFrom (RelaySystem.step os) RelaySystem.new acts = some sys) :
    (∀ more sys', (∀ a ∈ more, a.isCall = true) →
      runFrom (RelaySystem.step os) sys more = some sys' →
      more.length ≤ sys.work (startedTasks acts) ∧
        ((∀ task ca, sys'.step os (.call task ca) = none) →
          sys'.AllReturned ∧ sys'.relay.handle = none ∧ sys'.relay.panicked = false)) ∧
    ∃ more sys', (∀ a ∈ more, a.isCall = true) ∧
      runFrom (RelaySystem.step os) sys more = some sys' ∧
      ∀ task ca, sys'.step os (.call task ca) = none := by
  have htasks : ∀ task, sys.calls task ≠ none → task ∈ startedTasks acts :=
    RelaySystem.calls_started hrun
  have hkeep : ∀ (s : RelaySystem T) a s',
      (∀ task, s.calls task ≠ none → task ∈ startedTasks acts) → a.isCall = true →
      s.step os a = some s' → ∀ task, s'.calls task ≠ none → task ∈ startedTasks acts :=
    fun s a s' hI ha hs => RelaySystem.calls_of_isCall ha hI hs
  have hlt : ∀ (s : RelaySystem T) a s',
      (∀ task, s.calls task ≠ none → task ∈ startedTasks acts) → a.isCall = true →
      s.step os a = some s' → s'.work (startedTasks acts) < s.work (startedTasks acts) :=
    fun s a s' hI ha hs => RelaySystem.work_lt ha hI hs
  refine ⟨?_, ?_⟩
  · intro more sys' hmore hgo
    have hlength := length_add_le_of_decreasing hkeep hlt htasks hmore hgo
    refine ⟨by omega, ?_⟩
    intro hrest
    have hwhole : runFrom (RelaySystem.step os) RelaySystem.new (acts ++ more) = some sys' := by
      rw [runFrom_append hrun, hgo]
    have hnodup : ∀ a ∈ acts ++ more, ∀ ips, a.batch = some ips → ips.Nodup := by
      intro a ha ips hips
      rcases List.mem_append.1 ha with ha | ha
      · exact hbatch a ha ips hips
      · exact absurd (hips.symm.trans (RelayAction.batch_of_isCall (hmore a ha))) (by simp)
    have hpanic := (RelaySystem.guardsKept_of_nodup hnodup hwhole).1
    obtain ⟨hall, hfree⟩ := RelaySystem.at_rest hos (RelaySystem.held hwhole) hpanic hrest
    exact ⟨hall, hfree, hpanic⟩
  · obtain ⟨more, sys', hmore, hgo, -, hrest⟩ := exists_run_to_rest hkeep hlt htasks
    exact ⟨more, sys', hmore, hgo, fun task ca => hrest (.call task ca) rfl⟩

/-- Actions without a list to register may be taken to register none. -/
theorem nodup_of_getD {α : Type} {acts : List α} {batch : α → Option (List IpAddr)}
    (h : ∀ a ∈ acts, ((batch a).getD []).Nodup) :
    ∀ a ∈ acts, ∀ ips, batch a = some ips → ips.Nodup := by
  intro a ha ips hips
  simpa [hips] using h a ha

/-- An insertion that has the lock, and a removal and a reconciliation that wait for it. -/
def contendedRelay : List (RelayAction Nat) :=
  [.insert 0 [.v4 10, .v4 11] 7, .remove 1 [.v4 12], .reconcile 2 [.v4 13] [.v4 10] 8,
    .call 0 .acquire, .call 0 (.poll 1)]

/-- They all return, within 32 steps. -/
theorem RelaySystem.calls_return_contended :
    ∃ sys, runFrom (RelaySystem.step OsRules.exclusive) RelaySystem.new contendedRelay = some sys ∧
      sys.relay.handle = some 0 ∧
      ∃ more sys', more.length ≤ 32 ∧
        runFrom (RelaySystem.step OsRules.exclusive) sys more = some sys' ∧
        sys'.AllReturned ∧ sys'.relay.handle = none := by
  obtain ⟨sys, hrun, hlock, hwork⟩ : ∃ sys,
      runFrom (RelaySystem.step OsRules.exclusive) RelaySystem.new contendedRelay = some sys ∧
        sys.relay.handle = some 0 ∧ sys.work (startedTasks contendedRelay) ≤ 32 :=
    ⟨_, rfl, rfl, by decide⟩
  obtain ⟨hbound, more, sys', hmore, hgo, hrest⟩ :=
    RelaySystem.calls_return OsRules.exclusive_answers (nodup_of_getD (by decide)) hrun
  obtain ⟨hlength, hend⟩ := hbound more sys' hmore hgo
  obtain ⟨hall, hfree, -⟩ := hend hrest
  exact ⟨sys, hrun, hlock, more, sys', hlength.trans hwork, hgo, hall, hfree⟩

end

end P2pVpn
