import P2pVpn.Lib.Transition

set_option autoImplicit false

/-! # What flows through a machine

A machine takes things in and puts things out, and in between it holds some. Each rule below turns a
fact about one step, `out ++ held afterwards` against `held before ++ in`, into the same fact about a
whole run. How the two sides compare is a parameter: equality for a machine that keeps the order and
loses nothing, `List.Sublist` for one that may lose, `List.Subperm` for one that may also reorder. -/

/-- A way to compare lists piece by piece. -/
structure FlowRel {β : Type} (R : List β → List β → Prop) : Prop where
  refl : ∀ l, R l l
  trans : ∀ {a b c}, R a b → R b c → R a c
  append : ∀ {a b c d}, R a b → R c d → R (a ++ c) (b ++ d)

section

variable {σ α β : Type}

theorem FlowRel.eq : FlowRel (β := β) (· = ·) where
  refl := fun _ => rfl
  trans := Eq.trans
  append := by rintro _ _ _ _ rfl rfl; rfl

theorem FlowRel.sublist : FlowRel (β := β) List.Sublist where
  refl := List.Sublist.refl
  trans := List.Sublist.trans
  append := List.Sublist.append

theorem FlowRel.subperm : FlowRel (β := β) List.Subperm where
  refl := List.Subperm.refl
  trans := List.Subperm.trans
  append := by
    rintro a b c d ⟨a', ha, hsub⟩ ⟨c', hc, hsub'⟩
    exact ⟨a' ++ c', ha.append hc, hsub.append hsub'⟩

variable {step : σ → α → Option σ} {C : σ → α → Prop} {I : σ → Prop} {inp out : σ → α → Option β}
  {hold : σ → List β} {s s' : σ} {acts : List α}

/-- **Flow rule.** -/
theorem flow_of_meets {R : List β → List β → Prop} (hR : FlowRel R)
    (hI : ∀ s a s', I s → C s a → step s a = some s' → I s')
    (hstep : ∀ s a s', I s → C s a → step s a = some s' →
      R ((out s a).toList ++ hold s') (hold s ++ (inp s a).toList))
    (h0 : I s) (hC : RunMeets step C s acts) (hrun : runFrom step s acts = some s') :
    R (trace step out s acts ++ hold s') (hold s ++ trace step inp s acts) := by
  induction acts generalizing s with
  | nil =>
      obtain rfl := Option.some.inj hrun
      simpa [trace] using hR.refl (hold s)
  | cons a rest ih =>
      obtain ⟨mid, hs, hrest⟩ := runFrom_cons hrun
      have hhead := hstep s a mid h0 hC.1 hs
      have htail := ih (hI s a mid h0 hC.1 hs) (hC.2 mid hs) hrest
      -- the head's output, then what the rest puts out and holds, then what the rest takes in
      have hleft := hR.append (hR.refl (out s a).toList) htail
      have hright := hR.append hhead (hR.refl (trace step inp mid rest))
      simpa [trace, hs] using hR.trans hleft (by simpa using hright)

/-- **Flow rule for an intake that may be shut.** Until then nothing is lost; the step that shuts it
    may lose what was taken in last, and nothing is taken in or lost afterwards. -/
theorem flow_until_shut {isOpen : σ → Prop} {n : Nat}
    (hI : ∀ s a s', I s → step s a = some s' → I s')
    (hopen : ∀ s a s', I s → step s a = some s' → isOpen s → isOpen s' →
      hold s ++ (inp s a).toList = (out s a).toList ++ hold s')
    (hshut : ∀ s a s', I s → step s a = some s' → isOpen s → ¬ isOpen s' →
      inp s a = none ∧ ∃ lost, hold s = (out s a).toList ++ hold s' ++ lost ∧ lost.length ≤ n)
    (hafter : ∀ s a s', I s → step s a = some s' → ¬ isOpen s →
      ¬ isOpen s' ∧ inp s a = none ∧ hold s = (out s a).toList ++ hold s')
    (h0 : I s) (hrun : runFrom step s acts = some s') :
    ∃ lost, hold s ++ trace step inp s acts = trace step out s acts ++ hold s' ++ lost ∧
      lost.length ≤ n ∧ (isOpen s' → lost = []) ∧
      (¬ isOpen s → lost = [] ∧ ¬ isOpen s' ∧ trace step inp s acts = []) := by
  induction acts generalizing s with
  | nil =>
      obtain rfl := Option.some.inj hrun
      exact ⟨[], by simp [trace], Nat.zero_le n, fun _ => rfl, fun h => ⟨rfl, h, rfl⟩⟩
  | cons a rest ih =>
      obtain ⟨mid, hs, hrest⟩ := runFrom_cons hrun
      obtain ⟨lost, hflow, hlen, hkept, hclosed⟩ := ih (hI s a mid h0 hs) hrest
      by_cases hs_open : isOpen s
      · by_cases hmid_open : isOpen mid
        · have hhead := hopen s a mid h0 hs hs_open hmid_open
          refine ⟨lost, ?_, hlen, hkept, fun h => absurd hs_open h⟩
          simp only [trace, hs]
          rw [← List.append_assoc, hhead, List.append_assoc, hflow]
          simp
        · obtain ⟨hin, lost', hhead, hlen'⟩ := hshut s a mid h0 hs hs_open hmid_open
          obtain ⟨rfl, hend, hnone⟩ := hclosed hmid_open
          rw [hnone] at hflow
          refine ⟨lost', ?_, hlen', fun h => absurd h hend, fun h => absurd hs_open h⟩
          simp only [trace, hs, hin, hnone, Option.toList_none, List.append_nil] at hflow ⊢
          rw [hhead, hflow]
          simp
      · obtain ⟨hmid, hin, hhead⟩ := hafter s a mid h0 hs hs_open
        obtain ⟨rfl, hend, hnone⟩ := hclosed hmid
        refine ⟨[], ?_, Nat.zero_le n, fun _ => rfl, fun _ => ⟨rfl, hend, ?_⟩⟩
        · rw [hnone] at hflow
          simp only [trace, hs, hin, hnone, Option.toList_none, List.append_nil] at hflow ⊢
          rw [hhead, hflow]
          simp
        · simp [trace, hs, hin, hnone]

/-- **What comes out came by.** If every output of a step goes back to something observed in the same
    step, the outputs of a run go back to a sublist of what was observed. -/
theorem trace_sublistForall₂ {γ : Type} {seen : σ → α → Option γ} {R : β → γ → Prop}
    (hI : ∀ s a s', I s → C s a → step s a = some s' → I s')
    (hstep : ∀ s a s' y, I s → C s a → step s a = some s' → out s a = some y →
      ∃ x, seen s a = some x ∧ R y x)
    (h0 : I s) (hC : RunMeets step C s acts) (hrun : runFrom step s acts = some s') :
    List.SublistForall₂ R (trace step out s acts) (trace step seen s acts) := by
  induction acts generalizing s with
  | nil => exact .nil
  | cons a rest ih =>
      obtain ⟨mid, hs, hrest⟩ := runFrom_cons hrun
      have htail := ih (hI s a mid h0 hC.1 hs) (hC.2 mid hs) hrest
      simp only [trace, hs]
      cases hout : out s a with
      | some y =>
          obtain ⟨x, hx, hR⟩ := hstep s a mid y h0 hC.1 hs hout
          rw [hx]
          exact .cons hR htail
      | none =>
          cases seen s a with
          | none => exact htail
          | some x => exact .cons_right htail

/-- Some of what came out, mapped. -/
theorem sublistForall₂_filterMap {γ δ : Type} {R : β → γ → Prop} {R' : δ → γ → Prop}
    {f : β → Option δ} (hR : ∀ x y z, R x y → f x = some z → R' z y) {l : List β} {l' : List γ}
    (h : List.SublistForall₂ R l l') : List.SublistForall₂ R' (l.filterMap f) l' := by
  induction h with
  | nil => exact .nil
  | @cons x y l l' hxy _ ih =>
      cases hf : f x with
      | none =>
          rw [List.filterMap_cons_none hf]
          exact .cons_right ih
      | some z =>
          rw [List.filterMap_cons_some hf]
          exact .cons (hR x y z hxy hf) ih
  | cons_right _ ih => exact .cons_right ih

theorem subperm_filterMap {γ : Type} (f : β → Option γ) {l l' : List β} (h : l.Subperm l') :
    (l.filterMap f).Subperm (l'.filterMap f) := by
  obtain ⟨l'', hperm, hsub⟩ := h
  exact ⟨l''.filterMap f, hperm.filterMap f, hsub.filterMap f⟩

end
