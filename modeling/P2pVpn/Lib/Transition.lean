import Mathlib

set_option autoImplicit false

/-! # Runs of an executable transition function

A machine is a partial step function on states and labels: `none` means the label is not enabled. A
run is a list of labels. Invariants are proved by one step lemma and one of the rules below; a
condition on the steps of a run (`RunMeets`) may look at the state each step starts from. -/

section

variable {σ α : Type}

/-- The state after a list of labels, if every one of them was enabled. -/
def runFrom (step : σ → α → Option σ) : σ → List α → Option σ
  | s, [] => some s
  | s, a :: rest =>
      match step s a with
      | some s' => runFrom step s' rest
      | none => none

/-- `P` holds in every state the run goes through. -/
def RunSatisfies (step : σ → α → Option σ) (P : σ → Prop) : σ → List α → Prop
  | s, [] => P s
  | s, a :: rest => P s ∧ ∀ s', step s a = some s' → RunSatisfies step P s' rest

/-- Every step of the run satisfies `C`, evaluated in the state the step starts from. -/
def RunMeets (step : σ → α → Option σ) (C : σ → α → Prop) : σ → List α → Prop
  | _, [] => True
  | s, a :: rest => C s a ∧ ∀ s', step s a = some s' → RunMeets step C s' rest

/-- What the steps of a run put out, in order. -/
def trace {β : Type} (step : σ → α → Option σ) (out : σ → α → Option β) : σ → List α → List β
  | _, [] => []
  | s, a :: rest =>
      (out s a).toList ++
        match step s a with
        | some s' => trace step out s' rest
        | none => []

theorem runFrom_cons {step : σ → α → Option σ} {s s' : σ} {a : α} {rest : List α}
    (h : runFrom step s (a :: rest) = some s') :
    ∃ mid, step s a = some mid ∧ runFrom step mid rest = some s' := by
  unfold runFrom at h
  cases hs : step s a with
  | none => simp [hs] at h
  | some mid => exact ⟨mid, rfl, by simpa [hs] using h⟩

theorem runFrom_step {step : σ → α → Option σ} {s s' : σ} {a : α} (h : step s a = some s')
    (rest : List α) : runFrom step s (a :: rest) = runFrom step s' rest := by
  simp [runFrom, h]

theorem runFrom_append {step : σ → α → Option σ} {s mid : σ} {acts : List α}
    (h : runFrom step s acts = some mid) (rest : List α) :
    runFrom step s (acts ++ rest) = runFrom step mid rest := by
  induction acts generalizing s with
  | nil =>
      obtain rfl := Option.some.inj h
      rfl
  | cons a acts ih =>
      obtain ⟨t, hs, hacts⟩ := runFrom_cons h
      rw [List.cons_append, runFrom_step hs, ih hacts]

theorem runFrom_append_eq_some {step : σ → α → Option σ} {s s' : σ} {acts rest : List α}
    (h : runFrom step s (acts ++ rest) = some s') :
    ∃ mid, runFrom step s acts = some mid ∧ runFrom step mid rest = some s' := by
  induction acts generalizing s with
  | nil => exact ⟨s, rfl, h⟩
  | cons a acts ih =>
      obtain ⟨t, hs, hacts⟩ := runFrom_cons h
      obtain ⟨mid, hmid, hrest⟩ := ih hacts
      exact ⟨mid, by rw [runFrom_step hs, hmid], hrest⟩

theorem RunMeets.cons {step : σ → α → Option σ} {C : σ → α → Prop} {s mid : σ} {a : α}
    {rest : List α} (hs : step s a = some mid) (hC : C s a) (hrest : RunMeets step C mid rest) :
    RunMeets step C s (a :: rest) :=
  ⟨hC, fun _ h => Option.some.inj (hs.symm.trans h) ▸ hrest⟩

/-- **Invariant rule, conditional form.** What every step that meets `C` preserves holds at the end
    of every run whose steps all meet `C`. -/
theorem runFrom_invariant_of_meets {step : σ → α → Option σ} {C : σ → α → Prop} {I : σ → Prop}
    (hstep : ∀ s a s', I s → C s a → step s a = some s' → I s') {s s' : σ} {acts : List α}
    (h0 : I s) (hC : RunMeets step C s acts) (hrun : runFrom step s acts = some s') : I s' := by
  induction acts generalizing s with
  | nil => obtain rfl := Option.some.inj hrun; exact h0
  | cons a rest ih =>
      obtain ⟨mid, hs, hrest⟩ := runFrom_cons hrun
      exact ih (hstep s a mid h0 hC.1 hs) (hC.2 mid hs) hrest

/-- **Invariant rule, with what was put out so far.** -/
theorem trace_invariant_of_meets {β : Type} {step : σ → α → Option σ} {out : σ → α → Option β}
    {C : σ → α → Prop} {I : σ → List β → Prop}
    (hstep : ∀ s outs a s', I s outs → C s a → step s a = some s' →
      I s' (outs ++ (out s a).toList))
    {s s' : σ} {outs : List β} {acts : List α} (h0 : I s outs) (hC : RunMeets step C s acts)
    (hrun : runFrom step s acts = some s') : I s' (outs ++ trace step out s acts) := by
  induction acts generalizing s outs with
  | nil =>
      obtain rfl := Option.some.inj hrun
      simpa [trace] using h0
  | cons a rest ih =>
      obtain ⟨mid, hs, hrest⟩ := runFrom_cons hrun
      have hmid := ih (hstep s outs a mid h0 hC.1 hs) (hC.2 mid hs) hrest
      simpa [trace, hs] using hmid

/-- What every step that meets `C` preserves holds all along a run whose steps all meet `C`. -/
theorem runSatisfies_of_meets {step : σ → α → Option σ} {C : σ → α → Prop} {I : σ → Prop}
    (hstep : ∀ s a s', I s → C s a → step s a = some s' → I s') {s : σ} {acts : List α}
    (h0 : I s) (hC : RunMeets step C s acts) : RunSatisfies step I s acts := by
  induction acts generalizing s with
  | nil => exact h0
  | cons a rest ih =>
      refine ⟨h0, ?_⟩
      intro mid hs
      exact ih (hstep s a mid h0 hC.1 hs) (hC.2 mid hs)

theorem RunSatisfies.head {step : σ → α → Option σ} {P : σ → Prop} {s : σ} {acts : List α}
    (h : RunSatisfies step P s acts) : P s := by
  cases acts with
  | nil => exact h
  | cons a rest => exact h.1

theorem RunSatisfies.mono {step : σ → α → Option σ} {P Q : σ → Prop} (hPQ : ∀ s, P s → Q s) {s : σ}
    {acts : List α} (h : RunSatisfies step P s acts) : RunSatisfies step Q s acts := by
  induction acts generalizing s with
  | nil => exact hPQ s h
  | cons a rest ih => exact ⟨hPQ s h.1, fun s' hs => ih (h.2 s' hs)⟩

theorem RunSatisfies.meets {step : σ → α → Option σ} {P : σ → Prop} {C : σ → α → Prop}
    (hPC : ∀ s a, P s → C s a) {s : σ} {acts : List α} (h : RunSatisfies step P s acts) :
    RunMeets step C s acts := by
  induction acts generalizing s with
  | nil => trivial
  | cons a rest ih => exact ⟨hPC s a h.1, fun s' hs => ih (h.2 s' hs)⟩

theorem RunMeets.mono {step : σ → α → Option σ} {C D : σ → α → Prop} (hCD : ∀ s a, C s a → D s a)
    {s : σ} {acts : List α} (h : RunMeets step C s acts) : RunMeets step D s acts := by
  induction acts generalizing s with
  | nil => trivial
  | cons a rest ih => exact ⟨hCD s a h.1, fun s' hs => ih (h.2 s' hs)⟩

theorem RunMeets.and {step : σ → α → Option σ} {C D : σ → α → Prop} {s : σ} {acts : List α}
    (hC : RunMeets step C s acts) (hD : RunMeets step D s acts) :
    RunMeets step (fun s a => C s a ∧ D s a) s acts := by
  induction acts generalizing s with
  | nil => trivial
  | cons a rest ih => exact ⟨⟨hC.1, hD.1⟩, fun s' hs => ih (hC.2 s' hs) (hD.2 s' hs)⟩

/-- A run that does not end in a class of states it could not have left never enters it. -/
theorem RunMeets.of_absorbing {step : σ → α → Option σ} {C : σ → α → Prop} {D : σ → Prop}
    (hstep : ∀ s a s', D s → C s a → step s a = some s' → D s') {s s' : σ} {acts : List α}
    (hC : RunMeets step C s acts) (hrun : runFrom step s acts = some s') (hend : ¬ D s') :
    RunMeets step (fun s a => ∀ t, step s a = some t → ¬ D t) s acts := by
  induction acts generalizing s with
  | nil => trivial
  | cons a rest ih =>
      obtain ⟨mid, hs, hrest⟩ := runFrom_cons hrun
      refine RunMeets.cons hs ?_ (ih (hC.2 mid hs) hrest)
      intro t ht hD
      obtain rfl := Option.some.inj (hs.symm.trans ht)
      exact hend (runFrom_invariant_of_meets hstep hD (hC.2 mid hs) hrest)

/-- A condition that holds of the labels in every state is met by every run over them. -/
theorem RunMeets.of_forall {step : σ → α → Option σ} {C : σ → α → Prop} (s : σ) (acts : List α)
    (h : ∀ a ∈ acts, ∀ t, C t a) : RunMeets step C s acts := by
  induction acts generalizing s with
  | nil => trivial
  | cons a rest ih =>
      refine ⟨h a (List.mem_cons_self ..) s, fun s' _ => ih s' fun b hb => ?_⟩
      exact h b (List.mem_cons_of_mem a hb)

/-- A condition on the labels alone. -/
theorem runMeets_iff_forall {step : σ → α → Option σ} {C : α → Prop} {s s' : σ} {acts : List α}
    (hrun : runFrom step s acts = some s') :
    RunMeets step (fun _ a => C a) s acts ↔ ∀ a ∈ acts, C a := by
  constructor
  · intro h
    induction acts generalizing s with
    | nil => simp
    | cons a rest ih =>
        obtain ⟨mid, hs, hrest⟩ := runFrom_cons hrun
        exact List.forall_mem_cons.2 ⟨h.1, ih hrest (h.2 mid hs)⟩
  · intro h
    exact RunMeets.of_forall s acts fun a ha _ => h a ha

/-- **Invariant rule.** What every step preserves holds at the end of every run. -/
theorem runFrom_invariant {step : σ → α → Option σ} {I : σ → Prop}
    (hstep : ∀ s a s', I s → step s a = some s' → I s') {s s' : σ} {acts : List α}
    (h0 : I s) (hrun : runFrom step s acts = some s') : I s' :=
  runFrom_invariant_of_meets (fun s a s' hI _ hs => hstep s a s' hI hs) h0
    (RunMeets.of_forall (C := fun _ _ => True) s acts fun _ _ _ => trivial) hrun

/-- **Exact condition for an invariant.** If, as long as `P` has held, a step keeps `P` exactly when
    it meets `C`, then `P` holds all along a run exactly when all its steps meet `C`. `J` is what the
    steps preserve on the way, under the assumption `A` on the steps. -/
theorem runSatisfies_iff_runMeets {step : σ → α → Option σ} {A C : σ → α → Prop} {J P : σ → Prop}
    (hstep : ∀ s a s', A s a → J s → P s → step s a = some s' →
      (P s' ↔ C s a) ∧ (P s' → J s'))
    {s s' : σ} {acts : List α} (hJ : J s) (hP : P s) (hA : RunMeets step A s acts)
    (hrun : runFrom step s acts = some s') :
    RunSatisfies step P s acts ↔ RunMeets step C s acts := by
  induction acts generalizing s with
  | nil => exact ⟨fun _ => trivial, fun _ => hP⟩
  | cons a rest ih =>
      obtain ⟨mid, hs, hrest⟩ := runFrom_cons hrun
      obtain ⟨hiff, hJ'⟩ := hstep s a mid hA.1 hJ hP hs
      -- the step is deterministic: every state after it is `mid`
      have hmid : ∀ {t}, step s a = some t → mid = t := fun ht => Option.some.inj (hs.symm.trans ht)
      refine ⟨?_, ?_⟩
      · intro h
        have hPmid : P mid := (h.2 mid hs).head
        refine ⟨hiff.1 hPmid, ?_⟩
        intro t ht
        obtain rfl := hmid ht
        exact (ih (hJ' hPmid) hPmid (hA.2 mid hs) hrest).1 (h.2 mid hs)
      · intro h
        have hPmid : P mid := hiff.2 h.1
        refine ⟨hP, ?_⟩
        intro t ht
        obtain rfl := hmid ht
        exact (ih (hJ' hPmid) hPmid (hA.2 mid hs) hrest).2 (h.2 mid hs)

/-- Outputs that agree wherever a run can be. -/
theorem trace_congr {β : Type} {step : σ → α → Option σ} {out out' : σ → α → Option β} {I : σ → Prop}
    (hI : ∀ s a s', I s → step s a = some s' → I s')
    (hout : ∀ s a s', I s → step s a = some s' → out s a = out' s a) {s s' : σ} {acts : List α}
    (h0 : I s) (hrun : runFrom step s acts = some s') :
    trace step out s acts = trace step out' s acts := by
  induction acts generalizing s with
  | nil => rfl
  | cons a rest ih =>
      obtain ⟨mid, hs, hrest⟩ := runFrom_cons hrun
      simp only [trace, hs, hout s a mid h0 hs, ih (hI s a mid h0 hs) hrest]

/-- What the outputs are mapped to. -/
theorem trace_bind {β γ : Type} {step : σ → α → Option σ} (out : σ → α → Option β)
    (f : β → Option γ) (s : σ) (acts : List α) :
    trace step (fun s a => (out s a).bind f) s acts = (trace step out s acts).filterMap f := by
  induction acts generalizing s with
  | nil => rfl
  | cons a rest ih =>
      have hhead : ((out s a).bind f).toList = (out s a).toList.filterMap f := by
        cases hout : out s a with
        | none => rfl
        | some y => cases hf : f y <;> simp [hf]
      simp only [trace]
      rw [List.filterMap_append, hhead]
      cases step s a with
      | none => rfl
      | some mid => simp only [ih mid]

/-- Every output of a step of a run is among those of the run. -/
theorem runMeets_mem_trace {β : Type} {step : σ → α → Option σ} (out : σ → α → Option β) (s : σ)
    (acts : List α) :
    RunMeets step (fun t a => ∀ y, out t a = some y → y ∈ trace step out s acts) s acts := by
  -- the steps left put out no more than all of them
  suffices h : ∀ (l : List β) (t : σ) (rest : List α), trace step out t rest ⊆ l →
      RunMeets step (fun t a => ∀ y, out t a = some y → y ∈ l) t rest from
    h _ s acts (List.Subset.refl _)
  intro l t rest hsub
  induction rest generalizing t with
  | nil => trivial
  | cons a rest ih =>
      refine ⟨fun y hy => hsub (by simp [trace, hy]), fun t' hs => ih t' fun y hy => hsub ?_⟩
      simp only [trace, hs, List.mem_append]
      exact Or.inr hy

/-! ## Runs that come to an end -/

/-- **Bounded runs.** If every step with a label in `P` lowers `μ`, a run of such steps is no longer
    than `μ` says. -/
theorem length_add_le_of_decreasing {step : σ → α → Option σ} {I : σ → Prop} {P : α → Prop}
    {μ : σ → Nat} (hI : ∀ s a s', I s → P a → step s a = some s' → I s')
    (hμ : ∀ s a s', I s → P a → step s a = some s' → μ s' < μ s) {s s' : σ} {acts : List α}
    (h0 : I s) (hP : ∀ a ∈ acts, P a) (hrun : runFrom step s acts = some s') :
    acts.length + μ s' ≤ μ s := by
  induction acts generalizing s with
  | nil =>
      obtain rfl := Option.some.inj hrun
      simp
  | cons a rest ih =>
      obtain ⟨mid, hs, hrest⟩ := runFrom_cons hrun
      have ha := hP a (List.mem_cons_self ..)
      have hlt := hμ s a mid h0 ha hs
      have hle := ih (hI s a mid h0 ha hs) (fun b hb => hP b (List.mem_cons_of_mem a hb)) hrest
      rw [List.length_cons]
      omega

/-- **Rest is reached.** Then some run of such steps also ends where none of them is possible. -/
theorem exists_run_to_rest {step : σ → α → Option σ} {I : σ → Prop} {P : α → Prop} {μ : σ → Nat}
    (hI : ∀ s a s', I s → P a → step s a = some s' → I s')
    (hμ : ∀ s a s', I s → P a → step s a = some s' → μ s' < μ s) {s : σ} (h0 : I s) :
    ∃ acts s', (∀ a ∈ acts, P a) ∧ runFrom step s acts = some s' ∧ I s' ∧
      ∀ a, P a → step s' a = none := by
  induction hn : μ s using Nat.strong_induction_on generalizing s with
  | _ n ih =>
      by_cases hrest : ∀ a, P a → step s a = none
      · exact ⟨[], s, by simp, rfl, h0, hrest⟩
      · simp only [not_forall] at hrest
        obtain ⟨a, ha, hstep⟩ := hrest
        obtain ⟨mid, hmid⟩ := Option.ne_none_iff_exists'.1 hstep
        obtain ⟨acts, s', hP, hrun, hI', hend⟩ :=
          ih (μ mid) (hn ▸ hμ s a mid h0 ha hmid) (hI s a mid h0 ha hmid) rfl
        exact ⟨a :: acts, s', List.forall_mem_cons.2 ⟨ha, hP⟩, by rw [runFrom_step hmid, hrun], hI',
          hend⟩

/-- An evaluated run, with what was checked of its last state. -/
theorem exists_of_any {o : Option σ} {P : σ → Prop} [DecidablePred P]
    (h : o.any (fun s => decide (P s)) = true) : ∃ s, o = some s ∧ P s := by
  cases o with
  | none => exact absurd h (by simp)
  | some s => exact ⟨s, rfl, by simpa using h⟩

end
