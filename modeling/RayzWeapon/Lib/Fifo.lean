import Mathlib.Data.List.Basic

universe u

namespace RayzWeapon.Lib

structure Fifo (α : Type u) (capacity : Nat) where
  items : List α
  bounded : items.length ≤ capacity

namespace Fifo

variable {α : Type u} {capacity : Nat}

def empty (α : Type u) (capacity : Nat) : Fifo α capacity := ⟨[], Nat.zero_le capacity⟩

/-- Append a copy of the item unless the queue is full. -/
def send (q : Fifo α capacity) (x : α) : Fifo α capacity × Bool :=
  if room : q.items.length < capacity then
    (⟨q.items ++ [x], by rw [List.length_append]; exact room⟩, true)
  else (q, false)

def receive (q : Fifo α capacity) : Option (α × Fifo α capacity) :=
  match h : q.items with
  | [] => none
  | x :: rest => some (x, ⟨rest, by
      have bound := q.bounded
      rw [h] at bound
      exact Nat.le_of_succ_le bound⟩)

theorem send_ok_iff (q : Fifo α capacity) (x : α) :
    (q.send x).2 = true ↔ q.items.length < capacity := by
  unfold send
  split <;> simp [*]

theorem send_fails_iff (q : Fifo α capacity) (x : α) :
    (q.send x).2 = false ↔ q.items.length = capacity := by
  have bound := q.bounded
  rw [← Bool.not_eq_true, send_ok_iff]
  omega

theorem items_send (q : Fifo α capacity) (x : α) :
    (q.send x).1.items = q.items ++ if (q.send x).2 then [x] else [] := by
  unfold send
  split <;> simp

theorem receive_eq_some {q q' : Fifo α capacity} {x : α} (h : q.receive = some (x, q')) :
    q.items = x :: q'.items := by
  unfold receive at h
  split at h
  · cases h
  next y rest items =>
    cases h
    exact items

theorem receive_eq_none {q : Fifo α capacity} (h : q.receive = none) : q.items = [] := by
  unfold receive at h
  split at h
  next items => exact items
  next => cases h

theorem receive_eq_none_of_nil {q : Fifo α capacity} (drained : q.items = []) :
    q.receive = none := by
  cases received : q.receive with
  | none => rfl
  | some taken =>
    rw [receive_eq_some received] at drained
    cases drained

theorem exists_receive {q : Fifo α capacity} {x : α} {rest : List α} (items : q.items = x :: rest) :
    ∃ q', q.receive = some (x, q') ∧ q'.items = rest := by
  cases received : q.receive with
  | none =>
    rw [receive_eq_none received] at items
    cases items
  | some taken =>
    have taken' := receive_eq_some received
    rw [items] at taken'
    obtain ⟨rfl, rfl⟩ := List.cons_eq_cons.mp taken'
    exact ⟨taken.2, rfl, rfl⟩

def Conserved (delivered : List α) (q : Fifo α capacity) (accepted : List α) : Prop :=
  delivered ++ q.items = accepted

theorem conserved_empty : Conserved [] (empty α capacity) [] := rfl

theorem Conserved.send {delivered accepted : List α} {q : Fifo α capacity}
    (h : Conserved delivered q accepted) (x : α) :
    Conserved delivered (q.send x).1 (accepted ++ if (q.send x).2 then [x] else []) := by
  rw [Conserved, items_send, ← List.append_assoc, h]

theorem Conserved.receive {delivered accepted : List α} {q q' : Fifo α capacity} {x : α}
    (h : Conserved delivered q accepted) (received : q.receive = some (x, q')) :
    Conserved (delivered ++ [x]) q' accepted := by
  rw [Conserved, receive_eq_some received] at h
  simpa [Conserved] using h

end Fifo

end RayzWeapon.Lib
