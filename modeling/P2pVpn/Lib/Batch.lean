import Mathlib

set_option autoImplicit false

/-! # Batches of keyed tasks

A batch is a list of pairs of a key and a task state; a step replaces the state of one position and
keeps its key. The lemmas say which pairs the batch has afterwards. -/

namespace Batch

section

variable {κ φ : Type} {batch : List (κ × φ)} {i : Nat} {k x : κ} {f f' g : φ}

/-- A step keeps the keys. -/
theorem keys_set (h : batch[i]? = some (k, f)) :
    (batch.set i (k, f')).map Prod.fst = batch.map Prod.fst := by
  induction batch generalizing i with
  | nil => rfl
  | cons p rest ih =>
      cases i with
      | zero =>
          obtain rfl : p = (k, f) := by simpa using h
          rfl
      | succ i =>
          simp only [List.set_cons_succ, List.map_cons, List.cons.injEq, true_and]
          exact ih (by simpa using h)

theorem mem_set (h : (x, g) ∈ batch.set i (k, f')) : (x, g) ∈ batch ∨ (x = k ∧ g = f') := by
  rcases List.mem_or_eq_of_mem_set h with h | h
  · exact Or.inl h
  · exact Or.inr (Prod.mk.inj h)

/-- A pair with another state was there before. -/
theorem mem_of_mem_set (h : (x, g) ∈ batch.set i (k, f')) (hne : f' ≠ g) : (x, g) ∈ batch := by
  rcases mem_set h with h | ⟨-, heq⟩
  · exact h
  · exact absurd heq.symm hne

/-- So was a pair with another key. -/
theorem mem_of_mem_set_of_ne (h : (x, g) ∈ batch.set i (k, f')) (hne : x ≠ k) :
    (x, g) ∈ batch := by
  rcases mem_set h with h | ⟨heq, -⟩
  · exact h
  · exact absurd heq hne

theorem mem_set_self (h : batch[i]? = some (k, f)) : (k, f') ∈ batch.set i (k, f') := by
  obtain ⟨hi, -⟩ := List.getElem?_eq_some_iff.1 h
  exact List.mem_set hi (k, f')

/-- The other pairs stay. -/
theorem mem_set_of_ne (h : batch[i]? = some (k, f)) (hx : (x, g) ∈ batch)
    (hne : (x, g) ≠ (k, f)) : (x, g) ∈ batch.set i (k, f') := by
  induction batch generalizing i with
  | nil => exact absurd hx (by simp)
  | cons p rest ih =>
      cases i with
      | zero =>
          obtain rfl : p = (k, f) := by simpa using h
          rcases List.mem_cons.1 hx with hx | hx
          · exact absurd hx hne
          · exact List.mem_cons_of_mem (k, f') hx
      | succ i =>
          rcases List.mem_cons.1 hx with rfl | hx
          · exact List.mem_cons_self ..
          · exact List.mem_cons_of_mem p (ih (by simpa using h) hx)

/-- Without repeated keys a key has one task. -/
theorem eq_of_mem (hnodup : (batch.map Prod.fst).Nodup) (hf : (k, f) ∈ batch) (hg : (k, g) ∈ batch) :
    f = g :=
  (Prod.mk.inj (List.inj_on_of_nodup_map hnodup hf hg rfl)).2

/-- The task that was advanced is then the only one of its key. -/
theorem eq_of_mem_set (hnodup : (batch.map Prod.fst).Nodup) (h : batch[i]? = some (k, f))
    (hg : (k, g) ∈ batch.set i (k, f')) : g = f' := by
  refine eq_of_mem ?_ hg (mem_set_self h)
  rw [keys_set h]
  exact hnodup

/-- A key that has a task in a class `P` still has one, when the step stays in the class. -/
theorem exists_mem_set {P : φ → Prop} (h : batch[i]? = some (k, f)) (hP : P f → P f')
    (hx : ∃ g, (x, g) ∈ batch ∧ P g) : ∃ g, (x, g) ∈ batch.set i (k, f') ∧ P g := by
  obtain ⟨g, hg, hPg⟩ := hx
  by_cases heq : (x, g) = (k, f)
  · obtain ⟨rfl, rfl⟩ := Prod.mk.inj heq
    exact ⟨f', mem_set_self h, hP hPg⟩
  · exact ⟨g, mem_set_of_ne h hg heq, hPg⟩

/-- Tasks of the other keys are not affected. -/
theorem exists_mem_set_of_ne {P : φ → Prop} (h : batch[i]? = some (k, f)) (hne : x ≠ k)
    (hx : ∃ g, (x, g) ∈ batch ∧ P g) : ∃ g, (x, g) ∈ batch.set i (k, f') ∧ P g := by
  obtain ⟨g, hg, hPg⟩ := hx
  exact ⟨g, mem_set_of_ne h hg fun heq => hne (Prod.mk.inj heq).1, hPg⟩

/-! ## What is left to do -/

/-- The work of all tasks, `w` for each. -/
def work (w : φ → Nat) (batch : List (κ × φ)) : Nat := (batch.map fun p => w p.2).sum

/-- A step that leaves its task less to do leaves the batch less to do. -/
theorem work_set_lt {w : φ → Nat} (h : batch[i]? = some (k, f)) (hlt : w f' < w f) :
    work w (batch.set i (k, f')) < work w batch := by
  unfold work
  induction batch generalizing i with
  | nil => exact absurd h (by simp)
  | cons p rest ih =>
      cases i with
      | zero =>
          obtain rfl : p = (k, f) := by simpa using h
          simpa using hlt
      | succ i => simpa using ih (by simpa using h)

/-- A batch of tasks in one state. -/
theorem work_start {ι : Type} (w : φ → Nat) (key : ι → κ) (f : φ) (items : List ι) :
    work w (items.map fun x => (key x, f)) = items.length * w f := by
  simp [work, Function.comp_def]

end

end Batch
