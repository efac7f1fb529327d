/-!
# Latches

A latch is set once and stays set. Waiters that come before are kept in order and released when it
is set; a waiter that comes later is released at once.
-/

namespace EdgeCaller

/-- A latch, and the waiters it holds. -/
structure Latch (α : Type) where
  isSet : Bool := false
  waiting : List α := []

namespace Latch

variable {α : Type}

/-- Sets a latch: whether this call set it, and the waiters it releases. -/
def set (l : Latch α) : Bool × List α × Latch α :=
  if l.isSet then (false, [], l) else (true, l.waiting, ⟨true, []⟩)

/-- Adds a waiter, who is released at once by a latch that is set. -/
def wait (l : Latch α) (a : α) : List α × Latch α :=
  if l.isSet then ([a], l) else ([], { l with waiting := l.waiting ++ [a] })

@[simp] theorem isSet_set (l : Latch α) : l.set.2.2.isSet = true := by
  unfold set
  split <;> simp_all

@[simp] theorem isSet_wait (l : Latch α) (a : α) : (l.wait a).2.isSet = l.isSet := by
  unfold wait
  split <;> simp_all

end Latch

end EdgeCaller
