import EdgeCaller.Number.Basic
/-!
# Timers

Timers are kept in the order in which they were created. The next one to fire is the one that is
due first, and of several the one that was created first. A timer runs for a whole number of
milliseconds: a delay that is no number from one to the longest is taken as one millisecond, and
any other loses its fraction.

A machine that timers drive is a `Clockwork`. Its clock is advanced by firing every timer that
comes due on the way.
-/

namespace EdgeCaller

/-- A timer: when it is due, and what it wakes. -/
structure Timer (ω : Type) where
  due : Nat
  wake : ω

/-- Pending timers, in the order of their creation. -/
abbrev Timers (ω : Type) := List (Timer ω)

namespace Timers

variable {ω : Type}

/-- The longest delay, in milliseconds. -/
def longestDelay : Nat := 2147483647

/-- The time that a timer of this delay runs. -/
def effectiveDelay : Number → Nat
  | .finite q => if 1 ≤ q ∧ q ≤ (longestDelay : Rat) then q.floor.toNat else 1
  | _ => 1

/-- No timer fires in the instant in which it was created. -/
theorem effectiveDelay_pos (x : Number) : 0 < effectiveDelay x := by
  unfold effectiveDelay
  split
  · next q =>
    split
    · next h =>
      have : (1 : Int) ≤ q.floor := Rat.le_floor_iff.mpr (by simpa using h.1)
      omega
    · exact Nat.one_pos
  · exact Nat.one_pos

/-- Adds what is to come at a time, however far off. -/
def add (due : Nat) (wake : ω) (ts : Timers ω) : Timers ω := ts ++ [⟨due, wake⟩]

/-- Creates a timer. -/
def start (now : Nat) (delay : Number) (wake : ω) (ts : Timers ω) : Timers ω :=
  ts.add (now + effectiveDelay delay) wake

/-- Removes the timers that would wake what `p` accepts. -/
def cancel (p : ω → Bool) (ts : Timers ω) : Timers ω := ts.filter fun t => !p t.wake

/-- The next timer to fire, and the timers that remain. -/
def next? : Timers ω → Option (Timer ω × Timers ω)
  | [] => none
  | t :: ts =>
    match next? ts with
    | none => some (t, [])
    | some (u, rest) => if t.due ≤ u.due then some (t, ts) else some (u, t :: rest)

/-- When the next timer is due. -/
def nextDue (ts : Timers ω) : Option Nat := (next? ts).map (·.1.due)

theorem next?_eq_none {ts : Timers ω} : next? ts = none ↔ ts = [] := by
  cases ts with
  | nil => simp [next?]
  | cons t ts =>
    simp only [next?, reduceCtorEq, iff_false]
    split
    · simp
    · split <;> simp

/-- The next timer is one of the pending ones, and none of them is due before it; the others
remain. -/
theorem next?_eq_some {ts rest : Timers ω} {t : Timer ω} (h : next? ts = some (t, rest)) :
    t ∈ ts ∧ (∀ u ∈ ts, t.due ≤ u.due) ∧ rest.length + 1 = ts.length := by
  induction ts generalizing t rest with
  | nil => simp [next?] at h
  | cons s ts ih =>
    rw [next?] at h
    split at h
    · next hn =>
      obtain ⟨rfl, rfl⟩ := by simpa using h
      simp [next?_eq_none.mp hn]
    · next u r hs =>
      obtain ⟨hmem, hmin, hlen⟩ := ih hs
      split at h
      · next hle =>
        obtain ⟨rfl, rfl⟩ := by simpa using h
        refine ⟨by simp, fun v hv => ?_, by simp⟩
        rcases List.mem_cons.mp hv with rfl | hv
        · exact Nat.le_refl _
        · exact Nat.le_trans hle (hmin v hv)
      · next hle =>
        obtain ⟨rfl, rfl⟩ := by simpa using h
        refine ⟨List.mem_cons_of_mem _ hmem, fun v hv => ?_, by simp [hlen]⟩
        rcases List.mem_cons.mp hv with rfl | hv
        · omega
        · exact hmin v hv

/-- The next timer is taken out from among the others. -/
theorem split_of_next? {ts rest : Timers ω} {t : Timer ω}
    (h : ts.next? = some (t, rest)) :
    ∃ before after, ts = before ++ t :: after ∧ rest = before ++ after := by
  induction ts generalizing t rest with
  | nil => simp [next?] at h
  | cons s ts ih =>
    rw [next?] at h
    split at h
    · next hn =>
      obtain ⟨rfl, rfl⟩ := by simpa using h
      exact ⟨[], [], by rw [next?_eq_none.mp hn]; rfl, rfl⟩
    · next u r hs =>
      split at h
      · obtain ⟨rfl, rfl⟩ := by simpa using h
        exact ⟨[], ts, rfl, rfl⟩
      · obtain ⟨rfl, rfl⟩ := by simpa using h
        obtain ⟨before, after, rfl, rfl⟩ := ih hs
        exact ⟨s :: before, after, rfl, rfl⟩

end Timers

/-- A machine that timers drive. -/
structure Clockwork (σ : Type) where
  /-- When the next timer is due. -/
  nextDue : σ → Option Nat
  /-- Moves the clock to the next timer and fires it. -/
  fire : σ → σ
  /-- Moves the clock. -/
  moveTo : Nat → σ → σ

/-- Fires at most `fuel` of the timers that are due up to a time, and moves the clock there. -/
def Clockwork.advanceTo {σ : Type} (w : Clockwork σ) (time : Nat) : Nat → σ → σ
  | 0, s => w.moveTo time s
  | fuel + 1, s =>
    match w.nextDue s with
    | some due => if due ≤ time then w.advanceTo time fuel (w.fire s) else w.moveTo time s
    | none => w.moveTo time s

end EdgeCaller
