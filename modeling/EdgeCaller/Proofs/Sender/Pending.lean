import Mathlib.Tactic.Common
import EdgeCaller.Sender.Run
/-!
Pending timers.

Of the timers of a run, one may be that of the grace period; the others bring what the run itself
waits for. The two kinds do not touch each other.
-/

namespace EdgeCaller

namespace Sender

/-- Whether a timer is that of the grace period. -/
def Alarm.isGrace : Alarm → Bool
  | grace => true
  | pause | answer _ => false

end Sender

namespace Timers

open Sender

/-- The timers of the grace period. -/
def graces (ts : Timers Alarm) : Timers Alarm := ts.filter fun t => t.wake.isGrace

/-- The timers that a run itself waits for. -/
def drives (ts : Timers Alarm) : Timers Alarm := ts.filter fun t => !t.wake.isGrace

variable {ts rest : Timers Alarm} {t : Timer Alarm} {wake : Alarm} {off : Alarm → Bool}

lemma mem_graces : t ∈ graces ts ↔ t ∈ ts ∧ t.wake.isGrace = true := by
  rw [graces, List.mem_filter]

lemma mem_drives : t ∈ drives ts ↔ t ∈ ts ∧ t.wake.isGrace = false := by
  rw [drives, List.mem_filter, Bool.not_eq_true']

lemma graces_eq_self (h : drives ts = []) : graces ts = ts := by
  rw [drives, List.filter_eq_nil_iff] at h
  rw [graces, List.filter_eq_self]
  intro t ht
  simpa using h t ht

lemma drives_eq_self (h : graces ts = []) : drives ts = ts := by
  rw [graces, List.filter_eq_nil_iff] at h
  rw [drives, List.filter_eq_self]
  intro t ht
  simpa using h t ht

lemma graces_add_drive (h : wake.isGrace = false) (due : Nat) (ts : Timers Alarm) :
    (ts.add due wake).graces = ts.graces := by
  simp [graces, add, h]

lemma drives_add_drive (h : wake.isGrace = false) (due : Nat) (ts : Timers Alarm) :
    (ts.add due wake).drives = ts.drives ++ [⟨due, wake⟩] := by
  simp [drives, add, h]

lemma graces_add_grace (due : Nat) (ts : Timers Alarm) :
    (ts.add due .grace).graces = ts.graces ++ [⟨due, .grace⟩] := by
  simp [graces, add, Alarm.isGrace]

lemma drives_add_grace (due : Nat) (ts : Timers Alarm) :
    (ts.add due .grace).drives = ts.drives := by
  simp [drives, add, Alarm.isGrace]

lemma graces_cancel (h : off .grace = false) (ts : Timers Alarm) :
    (ts.cancel off).graces = ts.graces := by
  rw [graces, cancel, List.filter_filter, graces]
  refine List.filter_congr fun t _ => ?_
  cases ht : t.wake with
  | grace => simp [h]
  | pause | answer s => rfl

lemma graces_cancel_grace (h : off .grace = true) (ts : Timers Alarm) :
    (ts.cancel off).graces = [] := by
  rw [graces, cancel, List.filter_filter, List.filter_eq_nil_iff]
  intro t _
  cases ht : t.wake with
  | grace => simp [h]
  | pause | answer s => simp [Alarm.isGrace]

lemma drives_cancel (hp : off .pause = false) (ha : ∀ s, off (.answer s) = false)
    (ts : Timers Alarm) : (ts.cancel off).drives = ts.drives := by
  rw [drives, cancel, List.filter_filter, drives]
  refine List.filter_congr fun t _ => ?_
  cases ht : t.wake with
  | grace => rfl
  | pause => simp [hp]
  | answer s => simp [ha]

lemma drives_cancel_pause (h : off .pause = true) {due : Nat}
    (hts : ts.drives = [⟨due, .pause⟩]) : (ts.cancel off).drives = [] := by
  rw [drives, List.filter_eq_nil_iff]
  intro t ht hwake
  obtain ⟨hmem, hoff⟩ := List.mem_filter.mp ht
  have hdrive : t ∈ ts.drives := mem_drives.mpr ⟨hmem, by simpa using hwake⟩
  rw [hts, List.mem_singleton] at hdrive
  rw [hdrive, h] at hoff
  simp at hoff

/-- The next timer is one of the grace period, and the run waits for the same as before. -/
lemma graces_of_next? (h : ts.next? = some (t, rest)) (ht : t.wake.isGrace = true) :
    rest.drives = ts.drives ∧ rest.graces.length + 1 = ts.graces.length := by
  obtain ⟨before, after, rfl, rfl⟩ := split_of_next? h
  refine ⟨?_, ?_⟩
  · simp [drives, ht]
  · simp [graces, ht]
    omega

/-- The next timer is the one that the run waits for. -/
lemma drives_of_next? (h : ts.next? = some (t, rest)) (ht : t.wake.isGrace = false) :
    rest.graces = ts.graces ∧ t ∈ ts.drives ∧ rest.drives.length + 1 = ts.drives.length := by
  have hmem : t ∈ ts.drives := mem_drives.mpr ⟨(next?_eq_some h).1, ht⟩
  obtain ⟨before, after, rfl, rfl⟩ := split_of_next? h
  refine ⟨?_, hmem, ?_⟩
  · simp [graces, ht]
  · simp [drives, ht]
    omega

end Timers

end EdgeCaller
