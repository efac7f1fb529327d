import EdgeCaller.Proofs.Number.Whole
import EdgeCaller.Settings.Basic
import EdgeCaller.Timers
/-!
Delays that settings give.

The delay of a sender is a time span of whole milliseconds, one at least. A timer runs for it
exactly if it is not longer than the longest delay of a timer, and else for one millisecond.
-/

namespace EdgeCaller

open Number in
lemma TimeSpan.isWhole_fractionLength (f : List Char) : (fractionLength f).IsWhole := by
  unfold fractionLength
  split
  · exact isWhole_ofNat 0
  · exact isWhole_floor _

open Number in
/-- The length of a time span is a number of whole milliseconds. -/
lemma TimeSpan.isWhole_milliseconds (span : TimeSpan) : span.milliseconds.IsWhole := by
  cases span with
  | wholeDays d => exact (isWhole_ofNat d).mul (isWhole_ofNat dayLength)
  | clock d h m s f =>
    have hhours := ((isWhole_ofNat d).mul (isWhole_ofNat 24)).add (isWhole_ofNat h)
    have hminutes := (hhours.mul (isWhole_ofNat 60)).add (isWhole_ofNat m)
    have hseconds := (hminutes.mul (isWhole_ofNat 60)).add (isWhole_ofNat s)
    exact (hseconds.mul (isWhole_ofNat 1000)).add (isWhole_fractionLength f)

namespace Settings

variable {text : String} {interval : Number} {config : Config}

lemma delay_spec (h : delay text = .ok interval) :
    interval.IsWhole ∧ interval.isPositive = true := by
  unfold delay at h
  split at h
  · next ms hms =>
    split at h
    · next hpos =>
      obtain rfl := Except.ok.inj h
      obtain ⟨span, -, rfl⟩ := Option.map_eq_some_iff.mp hms
      exact ⟨span.isWhole_milliseconds, hpos⟩
    · simp at h
  · simp at h

lemma configure_spec {layer : Layer} (h : configure layer = .ok config) :
    config.interval.IsWhole ∧ config.interval.isPositive = true := by
  unfold configure at h
  split at h
  · cases hdelay : delay ((Members.get? delayName layer).getD standardDelay) with
    | error problem =>
      rw [hdelay] at h
      simp [bind, Except.bind] at h
    | ok interval =>
      rw [hdelay] at h
      cases htransport : transport (Members.get? transportName layer) with
      | error problem =>
        rw [htransport] at h
        simp [bind, Except.bind] at h
      | ok t =>
        rw [htransport] at h
        obtain rfl := Except.ok.inj h
        exact delay_spec hdelay
  · simp at h

/-- Settings that are accepted give a delay of whole milliseconds, above zero. -/
theorem interval_spec {tree : FileTree} {place : List String} {env : Environment}
    (h : load tree place env = .ok config) :
    config.interval.IsWhole ∧ config.interval.isPositive = true := by
  unfold load at h
  cases hlower : ofTree tree place with
  | error problem =>
    rw [hlower] at h
    simp [bind, Except.bind] at h
  | ok lower =>
    rw [hlower] at h
    exact configure_spec h

end Settings

namespace Timers

/-- A timer runs at least for a delay of whole milliseconds exactly if that is not longer than the
longest delay. -/
theorem atMost_effectiveDelay_iff {x : Number} (hx : x.IsWhole) (hpos : x.isPositive = true) :
    x.AtMost (effectiveDelay x) ↔ x.AtMost longestDelay := by
  cases x with
  | nan => exact Iff.rfl
  | infinite negative => exact Iff.rfl
  | finite q =>
    have hone : 1 ≤ q := hx.one_le (of_decide_eq_true hpos)
    by_cases hlong : q ≤ (longestDelay : Rat)
    · refine iff_of_true ?_ hlong
      obtain ⟨n, rfl⟩ := hx q rfl
      have hn : 0 ≤ n := by
        have hcast : 1 ≤ n := by exact_mod_cast hone
        omega
      rw [Number.AtMost, effectiveDelay, if_pos ⟨hone, hlong⟩, Rat.floor_intCast]
      exact_mod_cast (Int.toNat_of_nonneg hn).ge
    · refine iff_of_false (fun hmost => ?_) hlong
      rw [Number.AtMost, effectiveDelay, if_neg fun h => hlong h.2] at hmost
      have hle : (1 : Rat) ≤ (longestDelay : Rat) := by
        have hnat : 1 ≤ longestDelay := by decide
        exact_mod_cast hnat
      exact hlong (le_trans (by exact_mod_cast hmost) hle)

end Timers

end EdgeCaller
