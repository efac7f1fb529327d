import EdgeCaller.Proofs.Program.Exit
/-!
The log level of the program and its layers.

A program takes its log level from the environment that it is started with, and its configuration
from that environment and the environment file below it. The level is the one of both layers together
exactly if the environment itself has the variable, or the file names no level but the one that holds
anyway.
-/

namespace EdgeCaller

namespace Sender.Run

variable {plan : Plan} {r : Run}

lemma Sound.threshold_follow (hr : r.Sound plan) (moves : List Move) :
    (r.follow moves).journal.console.threshold = r.journal.console.threshold := by
  induction moves with
  | nil => rfl
  | cons m past ih =>
    rw [Run.follow, ← ih]
    rcases (hr.follow past).make_cases m with hworld | ⟨-, -, s, -, hresumed⟩
    · exact hworld.threshold
    · rw [hresumed]
      exact (extends_resume { r.follow past with ready := none } s).threshold

end Sender.Run

namespace Program

open Sender Run Settings

/-- The threshold stays the one that was set when the program started. -/
lemma threshold_follow_start (script : Script) (files : FileTree) (env : Environment) (epoch : Int)
    (fault : Option Fault) (moves : List Move) :
    ((start script files env epoch fault).follow moves).journal.console.threshold =
      threshold env := by
  refine Eq.trans ?_ (extends_start script files env epoch fault).threshold
  cases hload : (Session.load ⟨files, env, false⟩ {}).1 with
  | ok config =>
    obtain ⟨env', hstart⟩ := start_of_ok script epoch fault hload
    rw [hstart]
    exact (Begins.sound .fresh).threshold_follow moves
  | error p =>
    obtain ⟨time, -, hfollow⟩ := (quiet_start_of_error hload).follow moves
    rw [hfollow]
    rfl

/-- A variable of a loaded session comes from the environment, or else from the file. -/
lemma value?_load (files : FileTree) (env : Environment) (name : String) :
    ((⟨files, env, false⟩ : Session).load {}).2.env.value? name =
      if env.has name then env.value? name
      else Members.get? name ((⟨files, env, false⟩ : Session).found none) := by
  rw [Session.load_of_not_loaded rfl none, Environment.value?, Environment.get?_union,
    Environment.value?, Environment.has]
  cases Members.get? name env with
  | some value? => rfl
  | none =>
    cases Members.get? name ((⟨files, env, false⟩ : Session).found none) with
    | some value => rfl
    | none => rfl

/-- **The log level is that of the environment alone.** Whatever a program is given and whatever
happens to it, what it prints is decided by the environment that it was started with. That is the
level of the environment over the environment file exactly if the environment has the variable, or
the file would leave the standard level as it is. -/
theorem threshold_layered_iff (script : Script) (files : FileTree) (env : Environment)
    (epoch : Int) (fault : Option Fault) (moves : List Move) :
    let session : Session := ⟨files, env, false⟩
    let mode := env.value? modeVariable
    let printed := ((start script files env epoch fault).follow moves).journal.console.threshold
    printed = threshold env ∧
    (printed = .ofSettings ((session.load {}).2.env.value? levelVariable) mode ↔
      env.has levelVariable = true ∨
      .ofSettings (Members.get? levelVariable (session.found none)) mode =
        Threshold.standard mode) := by
  intro session mode printed
  have hprinted : printed = threshold env := threshold_follow_start _ _ _ _ _ _
  refine ⟨hprinted, ?_⟩
  rw [hprinted, threshold, value?_load]
  by_cases henv : env.has levelVariable = true
  · rw [if_pos henv]
    exact iff_of_true rfl (.inl henv)
  · have hunset : env.value? levelVariable = none := by
      rw [Environment.has, Bool.not_eq_true, Option.isSome_eq_false_iff,
        Option.isNone_iff_eq_none] at henv
      rw [Environment.value?, henv]
      rfl
    have hstandard : Threshold.ofSettings none mode = Threshold.standard mode := rfl
    rw [if_neg henv, hunset, hstandard, or_iff_right henv]
    exact eq_comm

/-- A directory whose environment file asks for errors only. -/
def hushed : FileTree :=
  { nodes := [([".env"], .file "DIRECT_METHOD_SENDER_LOG_LEVEL=error\n")] }

/-- The file is not heeded, unless it is the environment itself that asks for errors only. -/
theorem threshold_layered_iff_hushed :
    let env : Environment := [(deviceName, some "device")]
    (start {} hushed env 0 none).journal.console.threshold = .from .info ∧
    Threshold.ofSettings (((⟨hushed, env, false⟩ : Session).load {}).2.env.value? levelVariable)
      (env.value? modeVariable) = .from .error ∧
    (start {} hushed quietly 0 none).journal.console.threshold = Threshold.ofSettings
      (((⟨hushed, quietly, false⟩ : Session).load {}).2.env.value? levelVariable)
      (quietly.value? modeVariable) := by
  intro env
  have hfound : (⟨hushed, env, false⟩ : Session).found none = [(levelVariable, "error")] := by
    decide +kernel
  have hprinted := (threshold_layered_iff {} hushed env 0 none []).1
  have hlayered := (threshold_layered_iff {} hushed quietly 0 none []).2.mpr
    (.inl (by decide +kernel))
  simp only [Run.follow] at hprinted hlayered
  refine ⟨hprinted.trans (by decide +kernel), ?_, hlayered⟩
  rw [value?_load, hfound]
  decide +kernel

end Program

end EdgeCaller
