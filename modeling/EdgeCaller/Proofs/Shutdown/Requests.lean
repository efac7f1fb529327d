import EdgeCaller.Proofs.Writing
import EdgeCaller.Shutdown.Coordinator
/-!
What a coordinator does to the journal.

A request adds a line, and the first one adds the abort to it. The end of a grace period adds a line
unless teardown is finished. Where nothing is wrong with the console and the clock all of this comes
to its end.
-/

namespace EdgeCaller

namespace Journal

/-- The times of the events of one kind, the latest first. -/
def times (kind : Event → Bool) (j : Journal) : List Nat :=
  j.entries.filterMap fun x => if kind x.event then some x.time else none

variable {kind : Event → Bool} {P : Event → Prop} {j k : Journal}

@[simp] lemma times_add (kind : Event → Bool) (j : Journal) (e : Event) :
    (j.add e).times kind = if kind e then j.now :: j.times kind else j.times kind := by
  rw [times, entries_add, List.filterMap_cons]
  cases kind e <;> rfl

lemma Extends.times_eq (h : Extends P j k) (hkind : ∀ e, P e → kind e = false) :
    k.times kind = j.times kind := by
  obtain ⟨new, hnew, hP⟩ := h.entries
  have hnone : (new.map (Entry.mk j.now)).filterMap
      (fun x => if kind x.event then some x.time else none) = [] := by
    rw [List.filterMap_eq_nil_iff]
    intro x hx
    obtain ⟨e, he, rfl⟩ := List.mem_map.mp hx
    simp [hkind e (hP e he)]
  rw [times, hnew, List.filterMap_append, hnone]
  rfl

end Journal

namespace Act

variable {j : Journal}

lemma exec_say (hj : j.Undisturbed) (level : Level) (message : String) :
    ∃ k, j.Extends (·.isLine = true) k ∧ (say level message).exec j = (.ok (), k) := by
  obtain ⟨_, k, hsay⟩ := succeeds_say hj level message
  have hwrites : Writes (·.isLine = true) (say level message) := writes_say (fun _ => rfl) message
  have hk := hwrites j
  rw [hsay] at hk
  exact ⟨k, hk, hsay⟩

lemma exec_tell {details : List (String × Value)} (hj : j.Undisturbed) (level : Level)
    (message : String) (h : ∀ m ∈ details, m.2.Writable) :
    ∃ k, j.Extends (·.isLine = true) k ∧ (tell level message details).exec j = (.ok (), k) := by
  obtain ⟨_, k, htell⟩ := succeeds_tell hj level message h
  have hwrites : Writes (·.isLine = true) (tell level message details) :=
    writes_tell (fun _ => rfl) message details
  have hk := hwrites j
  rw [htell] at hk
  exact ⟨k, hk, htell⟩

end Act

namespace Coordinator

variable {c : Coordinator} {j : Journal}

lemma writes_request {P : Event → Prop} (h : ∀ level text, P (.line level text))
    (habort : P (.abort c.id)) (reason : String) : (c.request reason).Writes P := by
  unfold request
  split
  · exact Act.writes_bind (Act.writes_say (h _) _) fun _ => Act.writes_pure _
  · exact Act.writes_bind (Act.writes_tell (h _) _ _) fun _ =>
      Act.writes_bind (Act.writes_emit habort) fun _ => Act.writes_pure _

lemma writes_graceEnded {P : Event → Prop} (h : ∀ level text, P (.line level text)) :
    c.graceEnded.Writes P := by
  unfold graceEnded
  split
  · exact Act.writes_pure _
  · exact Act.writes_bind (Act.writes_tell (h _) _ _) fun _ => Act.writes_pure _

/-- A request adds a line, which may fail. After it the first request aborts the work, and a later
one does nothing. -/
lemma exec_request_cases {P : Event → Prop} (h : ∀ level text, P (.line level text))
    (c : Coordinator) (reason : String) (j : Journal) : ∃ k, j.Extends P k ∧
      ((∃ e, (c.request reason).exec j = (.error e, k)) ∨
        (c.isAborted = true ∧ (c.request reason).exec j = (.ok (c, false), k)) ∨
        (c.isAborted = false ∧ (c.request reason).exec j =
          (.ok ({ c with reason := some reason }, true), k.add (.abort c.id)))) := by
  unfold request
  split
  · next ha =>
    have hk := Act.writes_say (h .info)
      ("Received " ++ reason ++ ", shutdown already in progress") j
    rw [Act.exec_bind]
    split
    · next hact =>
      rw [hact] at hk
      exact ⟨_, hk, .inr (.inl ⟨ha, rfl⟩)⟩
    · next hact =>
      rw [hact] at hk
      exact ⟨_, hk, .inl ⟨_, rfl⟩⟩
  · next ha =>
    have hk := Act.writes_tell (h .info) ("Received " ++ reason ++ ", shutting down...")
      c.graceDetails j
    rw [Act.exec_bind]
    split
    · next hact =>
      rw [hact] at hk
      exact ⟨_, hk, .inr (.inr ⟨by simpa using ha, rfl⟩)⟩
    · next hact =>
      rw [hact] at hk
      exact ⟨_, hk, .inl ⟨_, rfl⟩⟩

/-- The end of a grace period adds a line, which may fail, and asks for the exit, unless teardown is
finished. -/
lemma exec_graceEnded_cases {P : Event → Prop} (h : ∀ level text, P (.line level text))
    (c : Coordinator) (j : Journal) : ∃ k, j.Extends P k ∧
      ((∃ e, c.graceEnded.exec j = (.error e, k)) ∨
        (c.latch.isSet = true ∧ c.graceEnded.exec j = (.ok false, k)) ∨
        (c.latch.isSet = false ∧ c.graceEnded.exec j = (.ok true, k))) := by
  unfold graceEnded
  split
  · next hset => exact ⟨j, .refl _ _, .inr (.inl ⟨hset, rfl⟩)⟩
  · next hset =>
    have hk := Act.writes_tell (h .error) "Shutdown grace period elapsed before teardown completed"
      c.graceDetails j
    rw [Act.exec_bind]
    split
    · next hact =>
      rw [hact] at hk
      exact ⟨_, hk, .inr (.inr ⟨by simpa using hset, rfl⟩)⟩
    · next hact =>
      rw [hact] at hk
      exact ⟨_, hk, .inl ⟨_, rfl⟩⟩

lemma writable_graceDetails (c : Coordinator) : ∀ m ∈ c.graceDetails, m.2.Writable := by
  intro m hm
  rw [List.mem_singleton.mp hm]
  exact Value.writable_number _

/-- The first request aborts the work, after a line. -/
lemma exec_request (ha : c.isAborted = false) (hj : j.Undisturbed) (reason : String) :
    ∃ k, j.Extends (·.isLine = true) k ∧ (c.request reason).exec j =
      (.ok ({ c with reason := some reason }, true), k.add (.abort c.id)) := by
  obtain ⟨k, hk, htell⟩ := Act.exec_tell hj .info ("Received " ++ reason ++ ", shutting down...")
    c.writable_graceDetails
  refine ⟨k, hk, ?_⟩
  unfold request
  rw [if_neg (by simp [ha]), Act.exec_bind_of_ok htell]
  rfl

/-- A later request only adds a line. -/
lemma exec_request_again (ha : c.isAborted = true) (hj : j.Undisturbed) (reason : String) :
    ∃ k, j.Extends (·.isLine = true) k ∧ (c.request reason).exec j = (.ok (c, false), k) := by
  obtain ⟨k, hk, hsay⟩ := Act.exec_say hj .info
    ("Received " ++ reason ++ ", shutdown already in progress")
  refine ⟨k, hk, ?_⟩
  unfold request
  rw [if_pos ha, Act.exec_bind_of_ok hsay]
  rfl

/-- While the latch is not set, the end of the grace period asks for the exit. -/
lemma exec_graceEnded (hset : c.latch.isSet = false) (hj : j.Undisturbed) :
    ∃ k, j.Extends (·.isLine = true) k ∧ c.graceEnded.exec j = (.ok true, k) := by
  obtain ⟨k, hk, htell⟩ := Act.exec_tell hj .error
    "Shutdown grace period elapsed before teardown completed" c.writable_graceDetails
  refine ⟨k, hk, ?_⟩
  unfold graceEnded
  rw [if_neg (by simp [hset]), Act.exec_bind_of_ok htell]
  rfl

lemma exec_graceEnded_of_isSet (hset : c.latch.isSet = true) (j : Journal) :
    c.graceEnded.exec j = (.ok false, j) := by
  unfold graceEnded
  rw [if_pos hset]
  rfl

end Coordinator

end EdgeCaller
