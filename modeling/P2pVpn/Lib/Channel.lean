import Mathlib

set_option autoImplicit false

/-! # Bounded channels

A multi-producer channel of fixed capacity. Sending ends are counted: a weak end can be upgraded as
long as a strong one is left. When the receiving end is dropped the channel is closed and what is
queued is lost. -/

/-- A bounded channel with many sending ends and one receiving end. -/
structure Channel (α : Type) where
  maxCapacity : Nat
  queue : List α
  /-- Strong sending ends. -/
  senders : Nat
  /-- The receiving end is gone. -/
  closed : Bool
  bounded : queue.length ≤ maxCapacity

/-- Why a message is not taken. -/
inductive TrySendError where
  | full
  | closed
  deriving DecidableEq

namespace Channel

variable {α : Type}

/-- An empty channel with one sending end. -/
def new (capacity : Nat) : Channel α := ⟨capacity, [], 1, false, Nat.zero_le _⟩

/-- Free places. -/
def capacity (c : Channel α) : Nat := c.maxCapacity - c.queue.length

/-- Sends without waiting. -/
def trySend (c : Channel α) (message : α) : Except TrySendError (Channel α) :=
  if c.closed then .error .closed
  else if h : c.queue.length < c.maxCapacity then
    .ok { c with
      queue := c.queue ++ [message]
      bounded := by rw [List.length_append, List.length_singleton]; omega }
  else .error .full

/-- The oldest message, if there is one: a receiver waits for it otherwise. -/
def recv (c : Channel α) : Option (α × Channel α) :=
  c.queue.head?.map fun message =>
    (message,
      { c with
        queue := c.queue.tail
        bounded := by
          have := c.bounded
          rw [List.length_tail]
          omega })

/-- A strong sending end from a weak one. -/
def upgrade (c : Channel α) : Option (Channel α) :=
  if c.senders = 0 then none else some { c with senders := c.senders + 1 }

/-- A strong sending end is dropped. -/
def dropSender (c : Channel α) : Channel α := { c with senders := c.senders - 1 }

/-- The receiving end is dropped, and with it what is queued. -/
def dropReceiver (c : Channel α) : Channel α :=
  { c with queue := [], closed := true, bounded := Nat.zero_le _ }

/-- A message sent now is taken. -/
def hasRoom (c : Channel α) : Bool := !c.closed && decide (c.queue.length < c.maxCapacity)

/-! ## What the operations do -/

theorem maxCapacity_sub_capacity (c : Channel α) : c.maxCapacity - c.capacity = c.queue.length := by
  have := c.bounded
  unfold capacity
  omega

theorem trySend_ok {c c' : Channel α} {message : α} (h : c.trySend message = .ok c') :
    c.closed = false ∧ c'.queue = c.queue ++ [message] ∧ c'.closed = c.closed ∧
      c'.maxCapacity = c.maxCapacity ∧ c'.senders = c.senders := by
  unfold trySend at h
  split_ifs at h with hclosed hfree
  obtain rfl := Except.ok.inj h
  exact ⟨by simpa using hclosed, rfl, rfl, rfl, rfl⟩

/-- Only a full channel is reported as full. -/
theorem trySend_full {c : Channel α} {message : α} (h : c.trySend message = .error .full) :
    c.closed = false ∧ c.queue.length = c.maxCapacity := by
  unfold trySend at h
  split_ifs at h with hclosed hfree
  · simp at h
  · exact ⟨by simpa using hclosed, by have := c.bounded; omega⟩

theorem trySend_closed {c : Channel α} {message : α} (h : c.trySend message = .error .closed) :
    c.closed = true := by
  unfold trySend at h
  split_ifs at h with hclosed hfree
  · exact hclosed
  · simp at h

theorem trySend_of_hasRoom {c : Channel α} (h : c.hasRoom = true) (message : α) :
    ∃ c', c.trySend message = .ok c' := by
  simp only [hasRoom, Bool.and_eq_true, Bool.not_eq_true', decide_eq_true_eq] at h
  unfold trySend
  rw [if_neg (by simp [h.1]), dif_pos h.2]
  exact ⟨_, rfl⟩

theorem recv_eq_some {c c' : Channel α} {message : α} (h : c.recv = some (message, c')) :
    c.queue = message :: c'.queue ∧ c'.closed = c.closed ∧ c'.maxCapacity = c.maxCapacity ∧
      c'.senders = c.senders := by
  unfold recv at h
  obtain ⟨first, hhead, heq⟩ := Option.map_eq_some_iff.1 h
  simp only [Prod.mk.injEq] at heq
  obtain ⟨rfl, rfl⟩ := heq
  exact ⟨(List.cons_head?_tail hhead).symm, rfl, rfl, rfl⟩

theorem upgrade_eq_some {c c' : Channel α} (h : c.upgrade = some c') :
    c'.queue = c.queue ∧ c'.closed = c.closed ∧ c'.maxCapacity = c.maxCapacity ∧
      c'.senders = c.senders + 1 := by
  unfold upgrade at h
  split_ifs at h
  obtain rfl := Option.some.inj h
  exact ⟨rfl, rfl, rfl, rfl⟩

theorem upgrade_eq_none {c : Channel α} (h : c.upgrade = none) : c.senders = 0 := by
  unfold upgrade at h
  split_ifs at h with hzero
  exact hzero

end Channel
