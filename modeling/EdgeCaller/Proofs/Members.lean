import Mathlib.Data.List.Nodup
import Mathlib.Data.List.Perm.Basic
import Mathlib.Tactic.Common
import EdgeCaller.Json.Reader
/-!
Looking members up.

A list of members may name one more than once; the first one counts when it is looked up, and the
last one when one list is laid over another. Where every name stands once the two agree. So it is
in what is read from a text, where a name that is given twice is settled.
-/

namespace EdgeCaller.Members

variable {α β : Type} {name : String} {ms : List (String × α)}

/-- No name stands twice. -/
def Distinct (ms : List (String × α)) : Prop := (ms.map (·.1)).Nodup

instance (ms : List (String × α)) : Decidable (Distinct ms) :=
  inferInstanceAs (Decidable (ms.map (·.1)).Nodup)

lemma get?_append (name : String) (ms ns : List (String × α)) :
    get? name (ms ++ ns) = (get? name ms).or (get? name ns) := by
  induction ms with
  | nil => rfl
  | cons m ms ih =>
    rw [List.cons_append, get?, get?, ih]
    split <;> rfl

lemma get?_eq_none_iff : get? name ms = none ↔ ∀ m ∈ ms, m.1 ≠ name := by
  induction ms with
  | nil => simp [get?]
  | cons m ms ih =>
    rw [get?, List.forall_mem_cons, ← ih]
    split
    · next h => simp [h]
    · next h => simp [h]

lemma get?_filter (p : String → Bool) (name : String) (ms : List (String × α)) :
    get? name (ms.filter fun m => p m.1) = if p name then get? name ms else none := by
  induction ms with
  | nil => simp [get?]
  | cons m ms ih =>
    rw [List.filter_cons, get?]
    by_cases hm : m.1 = name
    · subst hm
      cases hp : p m.1 with
      | true => simp [get?]
      | false => simpa [hp] using ih
    · cases hp : p m.1 with
      | true => simpa [get?, hm] using ih
      | false => simpa [hm] using ih

lemma get?_reverse_eq_none_iff : get? name ms.reverse = none ↔ get? name ms = none := by
  simp [get?_eq_none_iff]

lemma get?_map (f : α → β) (name : String) (ms : List (String × α)) :
    get? name (ms.map fun m => (m.1, f m.2)) = (get? name ms).map f := by
  induction ms with
  | nil => rfl
  | cons m ms ih =>
    rw [List.map_cons, get?, get?]
    split
    · rfl
    · exact ih

lemma Distinct.get?_reverse (h : Distinct ms) : get? name ms.reverse = get? name ms := by
  induction ms with
  | nil => rfl
  | cons m ms ih =>
    obtain ⟨hm, hms⟩ := List.nodup_cons.mp h
    rw [List.reverse_cons, get?_append, ih hms]
    by_cases hname : m.1 = name
    · have hnone : get? name ms = none :=
        get?_eq_none_iff.mpr fun n hn hsame =>
          hm (List.mem_map.mpr ⟨n, hn, hsame.trans hname.symm⟩)
      simp [get?, hname, hnone]
    · simp [get?, hname]

lemma Distinct.filter (h : Distinct ms) (p : String × α → Bool) : Distinct (ms.filter p) :=
  h.sublist (List.filter_sublist.map _)

lemma Distinct.filterMap (h : Distinct ms) {f : String × α → Option (String × β)}
    (hf : ∀ m n, f m = some n → n.1 = m.1) : Distinct (ms.filterMap f) := by
  refine h.sublist ?_
  induction ms with
  | nil => exact .slnil
  | cons m ms ih =>
    have htail := ih (List.nodup_cons.mp h).2
    cases hm : f m with
    | none => simpa [hm] using htail.cons m.1
    | some n => simpa [hm, hf m n hm] using htail

/-- Where every name stands once, members that are left out hide none of the same name. -/
lemma Distinct.get?_filterMap (h : Distinct ms) (f : α → Option β) (name : String) :
    get? name (ms.filterMap fun m => (f m.2).map (m.1, ·)) = (get? name ms).bind f := by
  induction ms with
  | nil => rfl
  | cons m ms ih =>
    obtain ⟨hm, hms⟩ := List.nodup_cons.mp h
    rw [List.filterMap_cons, get?]
    by_cases hname : m.1 = name
    · have hnone : get? name ms = none :=
        get?_eq_none_iff.mpr fun n hn hsame =>
          hm (List.mem_map.mpr ⟨n, hn, hsame.trans hname.symm⟩)
      cases hf : f m.2 with
      | none => simp [ih hms, hname, hnone, hf]
      | some b => simp [get?, hname, hf]
    · cases f m.2 with
      | none => simp [ih hms, hname]
      | some b => simp [get?, ih hms, hname]

/-! ### What is read from a text -/

lemma map_fst_set (name : String) (value : α) (ms : List (String × α)) :
    (set name value ms).map (·.1) =
      if name ∈ ms.map (·.1) then ms.map (·.1) else ms.map (·.1) ++ [name] := by
  induction ms with
  | nil => simp [set]
  | cons m ms ih =>
    by_cases hm : m.1 = name
    · simp [set, hm]
    · have hne : name ≠ m.1 := fun h => hm h.symm
      rw [set, if_neg hm, List.map_cons, ih]
      simp only [List.map_cons, List.mem_cons, hne, false_or]
      split <;> rfl

lemma Distinct.set (h : Distinct ms) (name : String) (value : α) :
    Distinct (Members.set name value ms) := by
  rw [Distinct, map_fst_set]
  split
  · exact h
  · next hname => exact List.nodup_append.mpr ⟨h, List.nodup_singleton name, by
      rintro m hm n hn rfl
      rw [List.mem_singleton.mp hn] at hm
      exact hname hm⟩

/-- Members are brought into order, and none is lost. -/
lemma inOrder_perm (ms : List (String × α)) : (inOrder ms).Perm ms := by
  have hnumbered : ∀ ms : List (String × α),
      (ms.filterMap fun m => (index? m.1).map fun n => (n, m)).map (·.2) =
        ms.filter fun m => !(index? m.1).isNone := by
    intro ms
    induction ms with
    | nil => rfl
    | cons m ms ih => cases hm : index? m.1 <;> simpa [hm] using ih
  have hsorted := (List.mergeSort_perm (ms.filterMap fun m => (index? m.1).map fun n => (n, m))
    fun a b => decide (a.1 ≤ b.1)).map (·.2)
  rw [hnumbered] at hsorted
  have hparts := List.filter_append_perm (fun m : String × α => (index? m.1).isNone) ms
  exact (hsorted.append_right _).trans (List.perm_append_comm.trans hparts)

lemma distinct_ofList (ms : List (String × α)) : Distinct (ofList ms) := by
  have hfold : ∀ (ms acc : List (String × α)), Distinct acc →
      Distinct (ms.foldl (fun acc m => Members.set m.1 m.2 acc) acc) := by
    intro ms
    induction ms with
    | nil => exact fun _ hacc => hacc
    | cons m ms ih => exact fun acc hacc => ih _ (hacc.set _ _)
  exact ((inOrder_perm _).map _).nodup_iff.mpr (hfold ms [] List.nodup_nil)

end Members

namespace Json

lemma distinct_readValue {fuel : Nat} {cs rest : List Char} {members : List (String × Json)}
    (h : readValue fuel cs = some (.object members, rest)) : Members.Distinct members := by
  cases fuel with
  | zero => simp [readValue] at h
  | succ fuel =>
    rw [readValue] at h
    split at h
    · simp [Option.bind_eq_some_iff] at h
    · split at h
      · simp at h
      · simp [Option.bind_eq_some_iff] at h
    · split at h
      · obtain ⟨rfl, -⟩ := by simpa using h
        exact List.nodup_nil
      · obtain ⟨given, -, rfl, -⟩ := by simpa [Option.bind_eq_some_iff] using h
        exact Members.distinct_ofList _
    all_goals simp at h

/-- An object that is read has no two members of one name. -/
lemma distinct_read? {text : String} {members : List (String × Json)}
    (h : read? text = some (.object members)) : Members.Distinct members := by
  simp only [read?] at h
  split at h
  · next hvalue =>
    split at h
    · obtain rfl := Option.some.inj h
      exact distinct_readValue hvalue
    · simp at h
  · simp at h

end Json

end EdgeCaller
