import EdgeCaller.Proofs.Shutdown.Requests
/-!
More lines and fewer.

A threshold that is stricter than another prints of the same lines those that it admits. Two
journals are the same but for their thresholds if all events but the lines held back stand in both;
an act is indifferent if it does the same on two such journals. A line that is printed on one of
them only must not fail there, so what it shows has to have a plain form.
-/

namespace EdgeCaller

namespace Threshold

/-- `u` admits no more than `t`. -/
def Stricter (u t : Threshold) : Prop := ∀ level, u.admits level = true → t.admits level = true

/-- Of two thresholds one is the stricter. -/
lemma stricter_total (t u : Threshold) : u.Stricter t ∨ t.Stricter u := by
  cases t with
  | everything => exact .inl fun _ _ => rfl
  | «from» lowest =>
    cases u with
    | everything => exact .inr fun _ _ => rfl
    | «from» lowest' =>
      rcases Nat.le_total lowest.rank lowest'.rank with hle | hle
      · refine .inl fun level hadmits => ?_
        exact decide_eq_true (Nat.le_trans hle (of_decide_eq_true hadmits))
      · refine .inr fun level hadmits => ?_
        exact decide_eq_true (Nat.le_trans hle (of_decide_eq_true hadmits))

end Threshold

/-- Whether an event is seen under a threshold. Only a line may not be. -/
def Event.isSeen (u : Threshold) : Event → Bool
  | .line level _ => u.admits level
  | _ => true

/-- What is seen of some events under a threshold. -/
def seen (u : Threshold) (entries : List Entry) : List Entry :=
  entries.filter fun x => x.event.isSeen u

namespace Journal

variable {t u : Threshold} {j k : Journal} {e : Event} {level : Level} {s message stamp : String}
  {details : Option Value}

lemma seen_add (h : e.isSeen u = true) (j : Journal) :
    seen u (j.add e).entries = ⟨j.now, e⟩ :: seen u j.entries := by
  rw [seen, entries_add, List.filter_cons, if_pos h, seen]

lemma seen_printed (h : u.admits level = true) (s : String) (j : Journal) :
    seen u (printed level s j).entries = ⟨j.now, .line level s⟩ :: seen u j.entries :=
  seen_add (e := .line level s) h j

lemma seen_printed_of_not_admits (h : u.admits level = false) (s : String) (j : Journal) :
    seen u (printed level s j).entries = seen u j.entries := by
  have hhidden : (Event.line level s).isSeen u = false := h
  have hprinted : (printed level s j).entries = ⟨j.now, .line level s⟩ :: j.entries := rfl
  rw [hprinted, seen, List.filter_cons, hhidden]
  rfl

/-- A line that can be shown is printed. -/
lemma write_of_suffix (hadmits : j.console.threshold.admits level = true)
    (hs : suffix details = .ok s) (hstamp : Calendar.stamp? (j.epoch + j.now) = some stamp)
    (hfault : j.console.fault = none) :
    write level message details j = (.ok (), printed level (lineText stamp level message s) j) := by
  rw [write, if_pos hadmits, hs]
  simp only [hstamp, print, Console.afterLine, hfault]

/-- `k` is `j` as it is under the threshold `u` in the place of `t`. The console does not fail, and
the clock shows dates. -/
structure Narrows (t u : Threshold) (j k : Journal) : Prop where
  threshold : j.console.threshold = t
  threshold' : k.console.threshold = u
  undisturbed : j.Undisturbed
  fault : k.console.fault = none
  epoch : k.epoch = j.epoch
  now : k.now = j.now
  entries : k.entries = seen u j.entries

namespace Narrows

lemma add (h : j.Narrows t u k) (he : e.isSeen u = true) : (j.add e).Narrows t u (k.add e) where
  threshold := h.threshold
  threshold' := h.threshold'
  undisturbed := h.undisturbed.extends (extends_add (P := fun _ => True) trivial j)
  fault := h.fault
  epoch := h.epoch
  now := h.now
  entries := by rw [seen_add he, entries_add, h.entries, h.now]

/-- A line that both print. -/
lemma printed (h : j.Narrows t u k) (hadmits : u.admits level = true) (s : String) :
    (printed level s j).Narrows t u (printed level s k) where
  threshold := h.threshold
  threshold' := h.threshold'
  undisturbed := h.undisturbed.extends (extends_printed (P := fun _ => True) trivial j)
  fault := h.fault
  epoch := h.epoch
  now := h.now
  entries := by
    rw [seen_printed hadmits, ← h.entries, ← h.now]
    rfl

/-- A line that is held back. -/
lemma heldBack (h : j.Narrows t u k) (hadmits : u.admits level = false) (s : String) :
    (Journal.printed level s j).Narrows t u k where
  threshold := h.threshold
  threshold' := h.threshold'
  undisturbed := h.undisturbed.extends (extends_printed (P := fun _ => True) trivial j)
  fault := h.fault
  epoch := h.epoch
  now := h.now
  entries := by rw [seen_printed_of_not_admits hadmits, h.entries]

lemma moveTo (h : j.Narrows t u k) {time : Nat}
    (hu : Journal.Undisturbed { j with now := time }) :
    Narrows t u { j with now := time } { k with now := time } :=
  ⟨h.threshold, h.threshold', hu, h.fault, h.epoch, rfl, h.entries⟩

/-- Both write a line alike, if it can be shown wherever one of them only prints it. -/
lemma write (h : j.Narrows t u k) (hu : u.Stricter t)
    (hs : t.admits level = u.admits level ∨ ∃ s, suffix details = .ok s) (message : String) :
    (write level message details k).1 = (write level message details j).1 ∧
      (write level message details j).2.Narrows t u (write level message details k).2 := by
  obtain ⟨stamp, hstamp⟩ := stamp?_of_inRange h.undisturbed.now
  have hstamp' : Calendar.stamp? (k.epoch + k.now) = some stamp := by rwa [h.epoch, h.now]
  cases hadmits : u.admits level with
  | true =>
    have hadmitsj : j.console.threshold.admits level = true := by
      rw [h.threshold]
      exact hu level hadmits
    have hadmitsk : k.console.threshold.admits level = true := by rwa [h.threshold']
    cases hsuffix : suffix details with
    | error e =>
      rw [Journal.write, Journal.write, if_pos hadmitsj, if_pos hadmitsk, hsuffix]
      exact ⟨rfl, h⟩
    | ok s =>
      rw [write_of_suffix hadmitsj hsuffix hstamp h.undisturbed.fault,
        write_of_suffix hadmitsk hsuffix hstamp' h.fault]
      exact ⟨rfl, h.printed hadmits _⟩
  | false =>
    have hadmitsk : k.console.threshold.admits level = false := by rwa [h.threshold']
    rw [write_of_not_admits hadmitsk]
    cases hadmitsj : j.console.threshold.admits level with
    | false =>
      rw [write_of_not_admits hadmitsj]
      exact ⟨rfl, h⟩
    | true =>
      have hne : t.admits level ≠ u.admits level := by
        rw [← h.threshold, hadmitsj, hadmits]
        exact Bool.noConfusion
      obtain ⟨s, hsuffix⟩ := hs.resolve_left hne
      rw [write_of_suffix hadmitsj hsuffix hstamp h.undisturbed.fault]
      exact ⟨rfl, h.heldBack hadmits _⟩

end Narrows

end Journal

namespace Act

variable {α β : Type} {t u : Threshold} {level : Level}

/-- An act that does the same under `u` as under `t`, but for the lines that are printed. -/
def Indifferent (t u : Threshold) (act : Act α) : Prop :=
  ∀ j k, Journal.Narrows t u j k →
    (act.exec k).1 = (act.exec j).1 ∧ (act.exec j).2.Narrows t u (act.exec k).2

lemma indifferent_pure (a : α) : Indifferent t u (pure a : Act α) := fun _ _ h => ⟨rfl, h⟩

lemma indifferent_throw (e : Value) : Indifferent t u (throw e : Act α) := fun _ _ h => ⟨rfl, h⟩

lemma indifferent_bind {act : Act α} {f : α → Act β} (h : act.Indifferent t u)
    (hf : ∀ a, (f a).Indifferent t u) : (act >>= f).Indifferent t u := by
  intro j k hjk
  obtain ⟨hsame, hnarrows⟩ := h j k hjk
  rw [exec_bind, exec_bind]
  rcases hj : act.exec j with ⟨x, j'⟩
  rcases hk : act.exec k with ⟨x', k'⟩
  rw [hj, hk] at hsame hnarrows
  obtain rfl : x' = x := hsame
  cases x' with
  | error e => exact ⟨rfl, hnarrows⟩
  | ok a => exact hf a j' k' hnarrows

lemma indifferent_emit {e : Event} (h : e.isLine = false) : (emit e).Indifferent t u := by
  have hseen : e.isSeen u = true := by
    cases e with
    | line => simp [Event.isLine] at h
    | _ => rfl
  exact fun _ _ hjk => ⟨rfl, hjk.add hseen⟩

/-- What follows a text matters only where there is one. -/
lemma indifferent_ofText_bind {x : Except Unconvertible α} {f : α → Act β}
    (h : ∀ a, x = .ok a → (f a).Indifferent t u) : (ofText x >>= f).Indifferent t u := by
  intro j k hjk
  cases x with
  | error e => exact ⟨rfl, hjk⟩
  | ok a => exact h a rfl j k hjk

lemma indifferent_say (hu : u.Stricter t) (level : Level) (message : String) :
    (say level message).Indifferent t u := by
  have hs : ∃ s, Journal.suffix none = .ok s := ⟨"", rfl⟩
  exact fun _ _ hjk => hjk.write hu (.inr hs) message

/-- A line that may be printed under one threshold only has to show what it is to show. -/
lemma indifferent_tell (hu : u.Stricter t) {details : List (String × Value)}
    (h : t.admits level = u.admits level ∨ ∀ m ∈ details, m.2.Shown m.1) (message : String) :
    (tell level message details).Indifferent t u :=
  fun _ _ hjk => hjk.write hu (h.imp_right Journal.suffix_record_iff.mpr) message

/-- An error is printed under both. -/
lemma indifferent_error (hu : u.Stricter t) (message : String) (details : List (String × Value)) :
    (tell .error message details).Indifferent t u :=
  indifferent_tell hu (.inl (by simp)) message

end Act

namespace Coordinator

variable {t u : Threshold}

lemma indifferent_request (hu : u.Stricter t) (c : Coordinator) (reason : String) :
    (c.request reason).Indifferent t u := by
  have hshown : ∀ m ∈ c.graceDetails, m.2.Shown m.1 := fun m hm =>
    (c.writable_graceDetails m hm).shown m.1
  unfold request
  split
  · exact Act.indifferent_bind (Act.indifferent_say hu _ _) fun _ => Act.indifferent_pure _
  · exact Act.indifferent_bind (Act.indifferent_tell hu (.inr hshown) _) fun _ =>
      Act.indifferent_bind (Act.indifferent_emit rfl) fun _ => Act.indifferent_pure _

lemma indifferent_graceEnded (hu : u.Stricter t) (c : Coordinator) :
    c.graceEnded.Indifferent t u := by
  unfold graceEnded
  split
  · exact Act.indifferent_pure _
  · exact Act.indifferent_bind (Act.indifferent_error hu _ _) fun _ => Act.indifferent_pure _

end Coordinator

end EdgeCaller
