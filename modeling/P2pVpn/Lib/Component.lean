import P2pVpn.Lib.Transition

set_option autoImplicit false

/-! # A machine that is part of another

A system steps one of its parts at a time, or none: `view` is the state of the part, `label` the step
the part takes in a step of the system. A run of the system is then a run of the part, and what was
proved of the part's runs holds of what the system lets one see of it. -/

section

variable {σ τ α β γ : Type}

/-- Each step of the system is a step of the part, or leaves it alone. -/
def IsPart (step : σ → α → Option σ) (part : τ → β → Option τ) (view : σ → τ)
    (label : σ → α → Option β) : Prop :=
  ∀ s a s', step s a = some s' →
    (∀ b, label s a = some b → part (view s) b = some (view s')) ∧
      (label s a = none → view s' = view s)

/-- What the part puts out, seen in the system. -/
def seen (view : σ → τ) (label : σ → α → Option β) (out : τ → β → Option γ) (s : σ) (a : α) :
    Option γ :=
  (label s a).bind (out (view s))

variable {step : σ → α → Option σ} {part : τ → β → Option τ} {view : σ → τ}
  {label : σ → α → Option β} {s s' : σ} {acts : List α}

/-- **The part runs.** -/
theorem IsPart.run_eq_some (h : IsPart step part view label) (hrun : runFrom step s acts = some s') :
    runFrom part (view s) (trace step label s acts) = some (view s') := by
  induction acts generalizing s with
  | nil =>
      obtain rfl := Option.some.inj hrun
      rfl
  | cons a rest ih =>
      obtain ⟨mid, hs, hrest⟩ := runFrom_cons hrun
      simp only [trace, hs]
      cases hlabel : label s a with
      | none => simpa [(h s a mid hs).2 hlabel] using ih hrest
      | some b =>
          rw [Option.toList_some, List.singleton_append, runFrom_step ((h s a mid hs).1 b hlabel)]
          exact ih hrest

/-- **What it puts out** is what is seen of it. -/
theorem IsPart.trace_eq (h : IsPart step part view label) (out : τ → β → Option γ)
    (hrun : runFrom step s acts = some s') :
    trace part out (view s) (trace step label s acts)
      = trace step (seen view label out) s acts := by
  induction acts generalizing s with
  | nil => rfl
  | cons a rest ih =>
      obtain ⟨mid, hs, hrest⟩ := runFrom_cons hrun
      simp only [trace, hs, seen]
      cases hlabel : label s a with
      | none => simpa [(h s a mid hs).2 hlabel] using ih hrest
      | some b => simp [trace, (h s a mid hs).1 b hlabel, ih hrest]

/-- **What its steps meet** is what they meet in the system. -/
theorem IsPart.runMeets (h : IsPart step part view label) {C : τ → β → Prop}
    (hC : RunMeets step (fun s a => ∀ b, label s a = some b → C (view s) b) s acts)
    (hrun : runFrom step s acts = some s') :
    RunMeets part C (view s) (trace step label s acts) := by
  induction acts generalizing s with
  | nil => trivial
  | cons a rest ih =>
      obtain ⟨mid, hs, hrest⟩ := runFrom_cons hrun
      have htail := ih (hC.2 mid hs) hrest
      simp only [trace, hs]
      cases hlabel : label s a with
      | none => simpa [(h s a mid hs).2 hlabel] using htail
      | some b => exact RunMeets.cons ((h s a mid hs).1 b hlabel) (hC.1 b hlabel) htail

/-! ## Several steps for one

A step of the system may stand for several steps of a more detailed machine, or for none. -/

/-- Each step of the system with label `a` is a run of the other machine, over labels that `L` allows
    for `a`. -/
def RefinedBy (step : σ → α → Option σ) (fine : τ → β → Option τ) (view : σ → τ)
    (L : α → β → Prop) : Prop :=
  ∀ s a s', step s a = some s' →
    ∃ labels, (∀ b ∈ labels, L a b) ∧ runFrom fine (view s) labels = some (view s')

/-- **Runs refine.** -/
theorem RefinedBy.run {fine : τ → β → Option τ} {L : α → β → Prop}
    (h : RefinedBy step fine view L) (hrun : runFrom step s acts = some s') :
    ∃ labels, (∀ b ∈ labels, ∃ a ∈ acts, L a b) ∧
      runFrom fine (view s) labels = some (view s') := by
  induction acts generalizing s with
  | nil =>
      obtain rfl := Option.some.inj hrun
      exact ⟨[], by simp, rfl⟩
  | cons a rest ih =>
      obtain ⟨mid, hs, hrest⟩ := runFrom_cons hrun
      obtain ⟨first, hfirst, hgo⟩ := h s a mid hs
      obtain ⟨labels, hlabels, hend⟩ := ih hrest
      refine ⟨first ++ labels, ?_, by rw [runFrom_append hgo, hend]⟩
      intro b hb
      rcases List.mem_append.1 hb with hb | hb
      · exact ⟨a, List.mem_cons_self .., hfirst b hb⟩
      · obtain ⟨a', ha', hL⟩ := hlabels b hb
        exact ⟨a', List.mem_cons_of_mem a ha', hL⟩

end
