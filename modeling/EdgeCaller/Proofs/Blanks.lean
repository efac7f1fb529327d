import Mathlib.Data.List.TakeWhile
import Mathlib.Tactic.Common
import EdgeCaller.Text.Blank
/-!
Blanks around a text.

Trimming leaves of a text what stands between its blanks. A text without blanks in it is all that is
left, whatever blanks surround it.
-/

namespace EdgeCaller.Text

/-- A text with blanks before and after it, or none. -/
def Pads (core cs : List Char) : Prop :=
  ∃ before after, (∀ c ∈ before, isBlank c = true) ∧ (∀ c ∈ after, isBlank c = true) ∧
    cs = before ++ core ++ after

variable {cs core : List Char}

lemma pads_self (core : List Char) : Pads core core := ⟨[], [], by simp, by simp, by simp⟩

/-- Every text is its trimmed one with blanks around it. -/
lemma pads_trim (cs : List Char) : Pads (trim cs) cs := by
  refine ⟨cs.takeWhile isBlank, ((trimStart cs).reverse.takeWhile isBlank).reverse,
    fun c hc => List.mem_takeWhile_imp hc, fun c hc => ?_, ?_⟩
  · exact List.mem_takeWhile_imp (List.mem_reverse.mp hc)
  · rw [List.append_assoc, trim, trimEnd, ← List.reverse_append, List.takeWhile_append_dropWhile,
      List.reverse_reverse, trimStart, List.takeWhile_append_dropWhile]

lemma trimStart_append {blanks : List Char} (hblanks : ∀ c ∈ blanks, isBlank c = true)
    (cs : List Char) : trimStart (blanks ++ cs) = trimStart cs :=
  List.dropWhile_append_of_pos hblanks

lemma trimEnd_append {blanks : List Char} (hblanks : ∀ c ∈ blanks, isBlank c = true)
    (cs : List Char) : trimEnd (cs ++ blanks) = trimEnd cs := by
  rw [trimEnd, List.reverse_append, List.dropWhile_append_of_pos (by simpa using hblanks), trimEnd]

/-- Blanks around a text change nothing of what trimming leaves. -/
lemma Pads.trim_eq_trim (h : Pads core cs) : trim cs = trim core := by
  obtain ⟨before, after, hbefore, hafter, rfl⟩ := h
  rw [List.append_assoc, trim, trimStart_append hbefore, trimStart, List.dropWhile_append, trim,
    trimStart]
  split
  · next hcore =>
    have hnone : after.dropWhile isBlank = [] := List.dropWhile_eq_nil_iff.mpr hafter
    rw [hnone, List.isEmpty_iff.mp hcore]
  · exact trimEnd_append hafter _

lemma trim_of_free (hcore : ∀ c ∈ core, isBlank c = false) : trim core = core := by
  have hself : ∀ cs : List Char, (∀ c ∈ cs, isBlank c = false) → cs.dropWhile isBlank = cs := by
    intro cs hcs
    cases cs with
    | nil => rfl
    | cons c cs => rw [List.dropWhile_cons_of_neg (by simp [hcs c])]
  rw [trim, trimStart, hself core hcore, trimEnd, hself _ (by simpa using hcore),
    List.reverse_reverse]

/-- Where nothing in a text is a blank, trimming takes off what surrounds it and no more. -/
lemma Pads.trim_eq (h : Pads core cs) (hcore : ∀ c ∈ core, isBlank c = false) : trim cs = core :=
  h.trim_eq_trim.trans (trim_of_free hcore)

end EdgeCaller.Text
