import Mathlib

set_option autoImplicit false

/-! # Tables of owned things

A table gives out places that are never used again: a new entry goes to the end, and an entry that is
given up leaves an empty place. The number of entries is counted through every update. -/

namespace Slots

section

variable {α : Type} {slots : List (Option α)} {i j : Nat} {x y : α}

/-- The entries that are still there and satisfy `p`. -/
def count (p : α → Bool) (slots : List (Option α)) : Nat := slots.countP (Option.any p)

/-- All entries that are still there. -/
def live (slots : List (Option α)) : Nat := count (fun _ => true) slots

theorem count_append (p : α → Bool) (slots : List (Option α)) (x : α) :
    count p (slots ++ [some x]) = count p slots + (p x).toNat := by
  cases hx : p x <;> simp [count, hx]

theorem count_pos {p : α → Bool} (h : slots[i]? = some (some x)) (hx : p x = true) :
    0 < count p slots := by
  apply List.countP_pos_iff.2
  exact ⟨some x, List.mem_of_getElem? h, hx⟩

theorem live_pos (h : slots[i]? = some (some x)) : 0 < live slots := count_pos h rfl

/-- An entry changes. -/
theorem count_set_some (p : α → Bool) (h : slots[i]? = some (some x)) (y : α) :
    count p (slots.set i (some y)) + (p x).toNat = count p slots + (p y).toNat := by
  obtain ⟨hi, hget⟩ := List.getElem?_eq_some_iff.1 h
  have hset : count p (slots.set i (some y))
      = count p slots - (if p x then 1 else 0) + (if p y then 1 else 0) := by
    unfold count
    rw [List.countP_set hi, hget]
    rfl
  cases hx : p x with
  | false => cases hy : p y <;> simp [hset, hx, hy]
  | true =>
      have hpos := count_pos h hx
      cases hy : p y <;> simp only [hset, hx, hy, if_true, Bool.toNat_true, Bool.toNat_false] <;>
        simp <;> omega

/-- An entry is given up. -/
theorem count_set_none (p : α → Bool) (h : slots[i]? = some (some x)) :
    count p (slots.set i none) + (p x).toNat = count p slots := by
  obtain ⟨hi, hget⟩ := List.getElem?_eq_some_iff.1 h
  have hset : count p (slots.set i none) = count p slots - (if p x then 1 else 0) := by
    unfold count
    rw [List.countP_set hi, hget]
    simp
  cases hx : p x with
  | false => simp [hset, hx]
  | true =>
      have hpos := count_pos h hx
      simp only [hset, hx, if_true, Bool.toNat_true]
      omega

theorem live_set_some (h : slots[i]? = some (some x)) (y : α) :
    live (slots.set i (some y)) = live slots :=
  Nat.add_right_cancel (count_set_some (fun _ => true) h y)

theorem live_set_none (h : slots[i]? = some (some x)) :
    live (slots.set i none) + 1 = live slots :=
  count_set_none (fun _ => true) h

theorem live_append (slots : List (Option α)) (x : α) :
    live (slots ++ [some x]) = live slots + 1 :=
  count_append (fun _ => true) slots x

/-- The entries after one of them has changed. -/
theorem get_set_some (h : (slots.set i (some y))[j]? = some (some x)) :
    (j = i ∧ x = y) ∨ (j ≠ i ∧ slots[j]? = some (some x)) := by
  by_cases hj : j = i
  · subst hj
    obtain ⟨_, heq⟩ := List.getElem?_eq_some_iff.1 h
    rw [List.getElem_set_self] at heq
    exact Or.inl ⟨rfl, (Option.some.inj heq).symm⟩
  · rw [List.getElem?_set_ne (Ne.symm hj)] at h
    exact Or.inr ⟨hj, h⟩

theorem get_set_none (h : (slots.set i none)[j]? = some (some x)) :
    j ≠ i ∧ slots[j]? = some (some x) := by
  by_cases hj : j = i
  · subst hj
    obtain ⟨_, heq⟩ := List.getElem?_eq_some_iff.1 h
    rw [List.getElem_set_self] at heq
    exact absurd heq (by simp)
  · rw [List.getElem?_set_ne (Ne.symm hj)] at h
    exact ⟨hj, h⟩

theorem get_append (h : (slots ++ [some y])[j]? = some (some x)) :
    (j = slots.length ∧ x = y) ∨ (j < slots.length ∧ slots[j]? = some (some x)) := by
  by_cases hj : j < slots.length
  · rw [List.getElem?_append_left hj] at h
    exact Or.inr ⟨hj, h⟩
  · rw [List.getElem?_append_right (by omega)] at h
    obtain ⟨hlast, heq⟩ := List.getElem?_eq_some_iff.1 h
    simp only [List.length_singleton] at hlast
    exact Or.inl ⟨by omega, by simpa using heq.symm⟩

/-! ## Weights -/

/-- What the entries that are still there weigh together. -/
def weight (w : α → Nat) (slots : List (Option α)) : Nat := (slots.map fun o => o.elim 0 w).sum

theorem weight_append (w : α → Nat) (slots : List (Option α)) (x : α) :
    weight w (slots ++ [some x]) = weight w slots + w x := by
  simp [weight]

theorem weight_set (w : α → Nat) {o : Option α} (h : slots[i]? = some o) (o' : Option α) :
    weight w (slots.set i o') + o.elim 0 w = weight w slots + o'.elim 0 w := by
  unfold weight
  induction slots generalizing i with
  | nil => simp at h
  | cons first rest ih =>
      cases i with
      | zero =>
          obtain rfl : first = o := by simpa using h
          simp only [List.set_cons_zero, List.map_cons, List.sum_cons]
          omega
      | succ i =>
          have hrest := ih (i := i) (by simpa using h)
          simp only [List.set_cons_succ, List.map_cons, List.sum_cons]
          omega

end

end Slots
