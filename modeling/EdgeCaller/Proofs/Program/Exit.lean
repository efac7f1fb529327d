import EdgeCaller.Proofs.Program.Observation
import EdgeCaller.Proofs.Sender.Milestones
/-!
What the exit code of the program means.

The program exits with code 0 only when it has stopped cleanly: its configuration was loaded, the
client was created and opened, a signal was heard once the coordinator was armed, and the client was
closed, all before the grace period was over. A configuration that cannot be loaded is logged in one
line, and nothing else is done.
-/

namespace EdgeCaller

/-- Where a line is to be printed and can be, it is printed. -/
lemma Act.exec_tell_printed {j : Journal} (hj : j.Undisturbed) {level : Level}
    (hadmits : j.console.threshold.admits level = true) (message : String)
    {details : List (String × Value)} (h : ∀ m ∈ details, m.2.Writable) :
    ∃ text, (Act.tell level message details).exec j = (.ok (), Journal.printed level text j) := by
  obtain ⟨s, hs⟩ := Journal.suffix_record_iff.mpr fun m hm => (h m hm).shown m.1
  obtain ⟨stamp, hstamp⟩ := Journal.stamp?_of_inRange hj.now
  refine ⟨Journal.lineText stamp level message s, ?_⟩
  rw [Act.tell, Act.exec_log, Journal.write, if_pos hadmits, hs, hstamp]
  simp only [Journal.print, Console.afterLine, hj.fault]

namespace Sender.Run

/-- What a program has come through that has exited with code 0 under a schedule. -/
structure StopsCleanly (r : Run) (moves : List Move) : Prop where
  created : r.Obtains moves .creating
  opened : r.Obtains moves .opening
  /-- A signal was heard, and the coordinator was armed by then. -/
  signalled : ∃ after name before, moves = after ++ .signal name :: before ∧
    name ∈ ["SIGINT", "SIGTERM"] ∧ (r.follow before).hears name = true ∧
    .armed ∈ marks (r.follow before).journal.entries
  closedOnce : count Mark.isClose (r.follow moves).journal.entries = 1
  closeAnswered : ∃ s, closures (r.follow moves).journal.entries = [s]
  noneInFlight : count Mark.isCall (r.follow moves).journal.entries =
    count Mark.isAnswer (r.follow moves).journal.entries
  /-- The timer of the grace period never fired. -/
  inTime : ∀ after before t rest, moves = after ++ .fire :: before →
    (r.follow before).exit = none → (r.follow before).timers.next? = some (t, rest) →
    t.wake ≠ .grace
  exitsOnce : exits (r.follow moves).journal.entries = [0]

variable {plan : Plan} {r : Run} {moves : List Move}

lemma Accounted.follow (h : r.Accounted) (hr : r.Sound plan) (hdown : plan.scope.tearsDown = true)
    (moves : List Move) : (r.follow moves).Accounted := by
  induction moves with
  | nil => exact h
  | cons m past ih => exact ih.make (by rw [(hr.follow past).plan_eq]; exact hdown) m

lemma accounted_begin (plan : Plan) (console : Console) (epoch : Int) :
    (create plan (.start console epoch)).begin.Accounted := Going.begin ⟨rfl, rfl⟩

lemma not_opening_begin (hdown : plan.scope.tearsDown = true) (console : Console) (epoch : Int) :
    (create plan (.start console epoch)).begin.phase ≠ .dialing .opening := by
  rcases begin_cases (r := create plan (.start console epoch)) hdown with
    ⟨k, -, hconnects⟩ | ⟨r', e, -, hfailed⟩
  · rw [hconnects]
    rcases (connect_frame { create plan (.start console epoch) with journal := k }).1 with
      hphase | hphase <;> rw [hphase] <;> simp
  · rw [hfailed, Run.fail, (r'.finish_spec _).2.1]
    simp

/-- A run is not aborted before it begins, nor by beginning. -/
lemma not_isAborted_begin (hunprompted : plan.Unprompted) (console : Console) (epoch : Int) :
    (create plan (.start console epoch)).begin.coordinator.isAborted = false := by
  have hbegun := (create plan (.start console epoch)).proceeds_self.begin
  rw [Coordinator.isAborted, hbegun.reason hunprompted]
  rfl

/-- Where the exit was forced the code is 1, so it was not forced where the code is 0. -/
lemma Sound.in_time (hr : r.Sound plan) (hscope : plan.scope = .program)
    (hu : (r.follow moves).journal.Undisturbed) (hzero : (r.follow moves).exit = some 0)
    {after before : List Move} (hmoves : moves = after ++ .fire :: before)
    (hexit : (r.follow before).exit = none) {t : Timer Alarm} {rest : Timers Alarm}
    (hnext : (r.follow before).timers.next? = some (t, rest)) : t.wake ≠ .grace := by
  intro hgrace
  have hpast := hr.follow before
  have hfired : (r.follow before).make .fire = (r.follow before).fire := if_pos hexit
  have hsound := hpast.make .fire
  have hrest : r.follow moves = (r.follow before).fire.follow after := by
    rw [hmoves, follow_append, Run.follow, hfired]
  rw [hfired] at hsound
  rw [hrest] at hu hzero
  have hforced := exit_of_grace hpast hscope hnext hgrace (hsound.undisturbed_follow after hu)
  have hdown : (r.follow before).fire.plan.scope.tearsDown = true := by
    rw [hsound.plan_eq, hscope]
    rfl
  rw [exit_follow hforced hdown] at hzero
  simp at hzero

/-- A program that has exited with code 0 has stopped cleanly. -/
lemma stopsCleanly_begin (hscope : plan.scope = .program) (hlink : plan.link = .client)
    (hunprompted : plan.Unprompted) {console : Console} {epoch : Int}
    (hu : ((create plan (.start console epoch)).begin.follow moves).journal.Undisturbed)
    (hzero : 0 ∈ exits ((create plan (.start console epoch)).begin.follow moves).journal.entries) :
    (create plan (.start console epoch)).begin.StopsCleanly moves := by
  have hdown : plan.scope.tearsDown = true := by rw [hscope]; rfl
  have hbegun : (create plan (.start console epoch)).begin.Sound plan := Begins.sound .fresh
  have hsound := hbegun.follow moves
  have haccounted := (accounted_begin plan console epoch).follow hbegun hdown moves
  have hexit : ((create plan (.start console epoch)).begin.follow moves).exit = some 0 := by
    rw [haccounted.codes, Option.mem_toList] at hzero
    exact hzero
  obtain ⟨a, hended⟩ := haccounted.well hexit
  -- It has ended well, so it has torn down, because its work was aborted.
  obtain ⟨p, hfree, hends⟩ := hsound.exists_ends hended
  cases hends with
  | attempt hother | stopped hother => simp [hsound.plan_eq, hscope, Scope.tearsDown] at hother
  | finished haborted =>
    have hhistory := hfree.history
    obtain ⟨hdetached, -, s, -, hclosures⟩ := hhistory.recalls
    have hunarmed : Place.detached.unarmed ≠ 1 := by simp [Place.unarmed]
    have harmed : .armed ∈ marks ((create plan (.start console epoch)).begin.follow
        moves).journal.entries := by
      by_contra hnot
      exact hunarmed (hhistory.unarmed_of_not_mem (by rw [hsound.plan_eq]; exact hdown) hnot)
    have hopened := obtains_of_armed hbegun hlink hdown (unarmed_begin hdown console epoch) harmed
    refine
      { created := ?_
        opened := hopened
        signalled := ?_
        closedOnce := hhistory.count_closings
        closeAnswered := ⟨s, hclosures⟩
        noneInFlight := hhistory.count_calls
        inTime := fun _ _ _ _ hmoves hrunning hnext =>
          hbegun.in_time hscope hu hexit hmoves hrunning hnext
        exitsOnce := by rw [haccounted.codes, hexit]; rfl }
    · obtain ⟨after, before, -, rfl, -, hphase, -⟩ := hopened
      obtain ⟨after', before', a', rfl, hcreated⟩ := obtains_of_opening hbegun hlink hdown
        (not_opening_begin hdown console epoch) hphase
      exact ⟨after ++ .goOn :: after', before', a', by simp, hcreated⟩
    · obtain ⟨after, name, before, hmoves, hhears⟩ := hears_of_isAborted hbegun hdown hunprompted
        (not_isAborted_begin hunprompted console epoch) haborted
      obtain ⟨hname, harmed⟩ := (hbegun.follow before).of_hears hhears
      exact ⟨after, name, before, hmoves, hname, hhears, harmed⟩

/-- The method is called only over a client that is open. -/
lemma obtains_of_invoke (hdown : plan.scope.tearsDown = true) (hlink : plan.link = .client)
    {console : Console} {epoch : Int} (hcalled : 0 < count Mark.isInvoke
      ((create plan (.start console epoch)).begin.follow moves).journal.entries) :
    (create plan (.start console epoch)).begin.Obtains moves .opening := by
  have hbegun : (create plan (.start console epoch)).begin.Sound plan := Begins.sound .fresh
  have hsound := hbegun.follow moves
  refine obtains_of_armed hbegun hlink hdown (unarmed_begin hdown console epoch) ?_
  by_contra hnot
  obtain ⟨p, -, hhistory⟩ := hsound.exists_history
  have hcalls := hhistory.count_calls_of_unarmed (hhistory.unarmed_of_not_mem hdown hnot)
  have hle : count Mark.isInvoke ((create plan (.start console epoch)).begin.follow
      moves).journal.entries ≤ count Mark.isCall ((create plan (.start console epoch)).begin.follow
      moves).journal.entries :=
    List.countP_mono_left fun x _ hx => by rw [Mark.isCall, hx, Bool.true_or]
  omega

/-- Nothing but time happens to it under a schedule. -/
lemma Quiet.follow (h : r.Quiet) (moves : List Move) :
    ∃ time, r.journal.now ≤ time ∧ r.follow moves = r.moveTo time := by
  suffices hkept : (r.follow moves).Quiet ∧
      ∃ time, r.journal.now ≤ time ∧ r.follow moves = r.moveTo time from hkept.2
  induction moves with
  | nil => exact ⟨h, r.journal.now, Nat.le_refl _, rfl⟩
  | cons m past ih =>
    obtain ⟨hquiet, time, htime, hpast⟩ := ih
    rcases (r.follow past).make_cases m with hsame | hstep
    · rw [Run.follow, hsame]
      exact ⟨hquiet, time, htime, hpast⟩
    · refine ⟨(hquiet.step hstep).1, ?_⟩
      rw [Run.follow]
      rcases hquiet.step_cases hstep with hsame | ⟨later, hlater, hmoved⟩
      · rw [hsame]
        exact ⟨time, htime, hpast⟩
      · rw [hpast] at hlater
        rw [hmoved, hpast]
        exact ⟨later, Nat.le_trans htime hlater, rfl⟩

end Sender.Run

namespace Program

open Sender Run

lemma unprompted_plan (script : Script) (config : Config) (env : Environment) :
    (plan script config env).Unprompted := ⟨rfl, rfl, rfl, rfl⟩

lemma start_of_ok (script : Script) (epoch : Int) (fault : Option Fault) {files : FileTree}
    {env : Environment} {config : Config}
    (h : (Settings.Session.load ⟨files, env, false⟩ {}).1 = .ok config) :
    ∃ env', start script files env epoch fault = (create (plan script config env')
      (.start { threshold := threshold env, fault } epoch)).begin := by
  refine ⟨(Settings.Session.load ⟨files, env, false⟩ {}).2.env, ?_⟩
  simp only [start, h]

lemma quiet_start_of_error {script : Script} {files : FileTree} {env : Environment} {epoch : Int}
    {fault : Option Fault} {p : Settings.Problem}
    (h : (Settings.Session.load ⟨files, env, false⟩ {}).1 = .error p) :
    (start script files env epoch fault).Quiet := by
  simp only [start, h]
  exact quiet_refuse rfl _ p

/-- A program without a configuration says so in one line and exits with code 1. -/
lemma entries_start_of_error {script : Script} {files : FileTree} {env : Environment} {epoch : Int}
    {p : Settings.Problem} (h : (Settings.Session.load ⟨files, env, false⟩ {}).1 = .error p)
    (hu : (start script files env epoch none).journal.Undisturbed) :
    ∃ text, (start script files env epoch none).journal.entries =
      [⟨0, .exit 1⟩, ⟨0, .line .error text⟩] := by
  have hfresh := (extends_start script files env epoch none).undisturbed_iff.mp hu
  have hwritable : ∀ m ∈ [("error", Value.text p.message)], m.2.Writable := by
    intro m hm
    rw [List.mem_singleton.mp hm]
    exact Value.writable_text _
  obtain ⟨text, htell⟩ := Act.exec_tell_printed hfresh (Threshold.admits_error _)
    "Failed to load direct method sender configuration" hwritable
  refine ⟨text, ?_⟩
  simp only [start, h, refuse, create, perform, htell]
  rfl

/-- **Exit code 0 means a clean stop.** Whatever files, environment and script a program is given and
whatever happens to it, it exits with code 0 only after its configuration was loaded, its client was
created and opened, a signal was heard once the coordinator was armed, and closing the client was
asked for once and answered, with no other call in flight and before the grace period was over. The
method is not called before the client is open. A program whose configuration cannot be loaded prints
one line, an error, exits with code 1 and does nothing else. -/
theorem exits_zero_only_cleanly (script : Script) (files : FileTree) (env : Environment)
    (epoch : Int) (moves : List Move)
    (hu : ((start script files env epoch none).follow moves).journal.Undisturbed) :
    (0 ∈ exits ((start script files env epoch none).follow moves).journal.entries →
      (∃ config, (Settings.Session.load ⟨files, env, false⟩ {}).1 = .ok config) ∧
        (start script files env epoch none).StopsCleanly moves) ∧
    (0 < count Mark.isInvoke
        ((start script files env epoch none).follow moves).journal.entries →
      (start script files env epoch none).Obtains moves .opening) ∧
    ∀ p, (Settings.Session.load ⟨files, env, false⟩ {}).1 = .error p →
      ∃ text, ((start script files env epoch none).follow moves).journal.entries =
        [⟨0, .exit 1⟩, ⟨0, .line .error text⟩] := by
  cases hload : (Settings.Session.load ⟨files, env, false⟩ {}).1 with
  | ok config =>
    obtain ⟨env', hstart⟩ := start_of_ok script epoch none hload
    rw [hstart] at hu ⊢
    exact ⟨fun hzero => ⟨⟨config, rfl⟩, stopsCleanly_begin rfl rfl (unprompted_plan _ _ _) hu hzero⟩,
      obtains_of_invoke rfl rfl, fun p hp => by simp at hp⟩
  | error p =>
    obtain ⟨time, htime, hfollow⟩ := (quiet_start_of_error hload).follow moves
    rw [hfollow] at hu ⊢
    obtain ⟨text, hrefused⟩ := entries_start_of_error hload (undisturbed_earlier htime hu)
    have hall : ((start script files env epoch none).moveTo time).journal.entries =
        [⟨0, .exit 1⟩, ⟨0, .line .error text⟩] := hrefused
    rw [hall]
    refine ⟨fun hzero => ?_, fun hcalled => ?_, fun p' _ => ⟨text, rfl⟩⟩
    · simp [Event.exitCode?] at hzero
    · simp [Event.mark, Mark.isInvoke] at hcalled

/-- In an empty directory only the environment counts. -/
lemma load_bare (env : Environment) : (⟨{}, env, false⟩ : Settings.Session).load {} =
    (Settings.configure (Settings.overlay [] env.defined), ⟨{}, env, true⟩) := by
  have hnone : Settings.Holds {} [] [] := .absent (by decide)
  have htext : ∀ place, FileTree.text? {} place = none := by
    intro place
    cases place <;> rfl
  have hread : (⟨{}, env, false⟩ : Settings.Session).readEnvFile [] = ⟨{}, env, true⟩ := by
    simp only [Settings.Session.readEnvFile, Settings.Session.envFileEntries, htext]
    rfl
  change (Settings.load {} [] (Settings.Session.readEnvFile _ []).env,
    Settings.Session.readEnvFile _ []) = _
  rw [hread, hnone.load_eq]
  rfl

/-- An environment that names a device, and the errors as all that is logged. -/
def quietly : Environment := [(levelVariable, some "error"), (Settings.deviceName, some "device")]

/-- The schedule of a program that is given a signal during its first pause. -/
def interruption : List Move :=
  [.goOn, .goOn, .signal "SIGTERM", .goOn, .goOn, .goOn, .goOn]

/-- A program that is stopped in a pause, and one that has no device to call. -/
theorem exits_zero_only_cleanly_interrupted :
    (start {} {} quietly 0 none).StopsCleanly interruption ∧
    (start {} {} quietly 0 none).Obtains interruption .opening ∧
    ∃ text, ((start {} {} [] 0 none).follow interruption).journal.entries =
      [⟨0, .exit 1⟩, ⟨0, .line .error text⟩] := by
  obtain ⟨hcleanly, hopens, -⟩ := exits_zero_only_cleanly {} {} quietly 0 interruption <| by
    rw [start, load_bare]
    exact ⟨by decide +kernel, by decide +kernel, by decide +kernel⟩
  obtain ⟨-, -, hrefuses⟩ := exits_zero_only_cleanly {} {} [] 0 interruption <| by
    rw [start, load_bare]
    exact ⟨by decide +kernel, by decide +kernel, by decide +kernel⟩
  refine ⟨(hcleanly ?_).2, hopens ?_, hrefuses (.fields [.missingDevice]) ?_⟩
  · rw [start, load_bare]
    decide +kernel
  · rw [start, load_bare]
    decide +kernel
  · rw [load_bare]
    rfl

end Program

end EdgeCaller
