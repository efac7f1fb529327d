import EdgeCaller.Program
import EdgeCaller.Proofs.Redaction
import EdgeCaller.Proofs.Sender.Schedule
import EdgeCaller.Proofs.Settings.Agreement
/-!
The access key stays hidden.

The connection string comes to a program in its environment. It is looked up for one purpose only,
to be shown when a sender starts, and it is shown without its keys. Two programs whose environments
agree up to the keys are therefore the same program, and go the same way under every schedule.
-/

namespace EdgeCaller

namespace Environment

/-- Two environments that agree up to the keys in their connection strings. -/
structure SameButKeys (env env' : Environment) : Prop where
  outside : AgreeOutside [connectionString] env env'
  string : Option.Rel (Option.Rel fun s t => Redaction.SameButKeys s.toList t.toList)
    (Members.get? connectionString env) (Members.get? connectionString env')

variable {env env' : Environment}

namespace SameButKeys

lemma union (h : SameButKeys env env') (entries : Settings.Layer) :
    SameButKeys (env.union entries) (env'.union entries) := by
  have hstring := h.string
  refine ⟨h.outside.union entries, ?_⟩
  rw [get?_union, get?_union]
  generalize Members.get? connectionString env = value, Members.get? connectionString env' = value'
    at hstring
  cases hstring with
  | some hvalue => exact .some hvalue
  | none =>
    cases Members.get? connectionString entries with
    | none => exact .none
    | some s => exact .some (.some (Redaction.SameButKeys.refl s.toList))

lemma clientConfiguration_eq (h : SameButKeys env env') :
    env.clientConfiguration = env'.clientConfiguration := by
  refine List.map_congr_left fun name _ => ?_
  by_cases hname : name = connectionString
  · have hstring := h.string
    rw [shown, shown, if_pos hname, if_pos hname, hname, value?, value?]
    generalize Members.get? connectionString env = value,
      Members.get? connectionString env' = value' at hstring
    cases hstring with
    | none => rfl
    | some hvalue =>
      cases hvalue with
      | none => rfl
      | some hkeys =>
        exact congrArg (fun s => (connectionString, some s)) (Redaction.redact_eq_redact hkeys)
  · rw [shown, shown, h.outside.value?_eq (by simpa using hname)]

end SameButKeys

end Environment

namespace Program

open Sender

variable {env env' : Environment}

lemma start_congr (h : env.SameButKeys env') (script : Script) (files : FileTree) (epoch : Int)
    (fault : Option Fault) :
    start script files env epoch fault = start script files env' epoch fault := by
  have hthreshold : threshold env = threshold env' := by
    rw [threshold, threshold, h.outside.value?_eq (by decide), h.outside.value?_eq (by decide)]
  obtain ⟨hresult, entries, henv, henv'⟩ := Settings.Session.load_congr h.outside (by decide) files
  have hconfiguration := (h.union entries).clientConfiguration_eq
  rw [← henv, ← henv'] at hconfiguration
  unfold start
  simp only [hthreshold, hresult]
  cases ((⟨files, env', false⟩ : Settings.Session).load {}).1 with
  | error p => rfl
  | ok config => simp only [plan, hconfiguration]

/-- **The access key never shows.** What is said of the configuration of a module client, what a
sender does that was given it, and what a program does are the same whatever the keys are, and so
under every schedule. -/
theorem key_never_shows {env env' : Environment} (h : env.SameButKeys env') :
    Environment.dump env.clientConfiguration = Environment.dump env'.clientConfiguration ∧
    (∀ (plan : Plan) (journal : Journal) moves,
      (Run.create { plan with configuration := env.clientConfiguration } journal).begin.follow moves =
        (Run.create { plan with
          configuration := env'.clientConfiguration } journal).begin.follow moves) ∧
    ∀ script files epoch fault moves,
      (start script files env epoch fault).follow moves =
        (start script files env' epoch fault).follow moves := by
  have hconfiguration := h.clientConfiguration_eq
  refine ⟨?_, fun plan journal moves => ?_, fun script files epoch fault moves => ?_⟩
  · rw [hconfiguration]
  · rw [hconfiguration]
  · rw [start_congr h]

/-- Of two keys the one spells the name of a key itself, over two lines. -/
theorem key_never_shows_nested :
    let env : Environment := [("EdgeHubConnectionString", some "HostName=h;sharedaccesskey=a;X=y")]
    let env' : Environment :=
      [("EdgeHubConnectionString", some "HostName=h;sharedaccesskey=SharedAccessKey=\nbc;X=y")]
    env ≠ env' ∧ env.SameButKeys env' ∧
    env.shown "EdgeHubConnectionString" = some "HostName=h;sharedaccesskey=[redacted];X=y" ∧
    Environment.dump env.clientConfiguration = Environment.dump env'.clientConfiguration ∧
    ∀ files moves, (start {} files env 0 none).follow moves =
      (start {} files env' 0 none).follow moves := by
  intro env env'
  have hletters : (("sharedaccesskey=".toList.zip Redaction.keyName).all fun m =>
      Text.sameLetter m.1 m.2) = true := by decide
  have hname : Redaction.IsKeyName "sharedaccesskey=".toList :=
    List.forall₂_iff_zip.mpr ⟨by decide, fun hm => List.all_eq_true.mp hletters _ hm⟩
  have hkey : Redaction.SameButKeys ("sharedaccesskey=".toList ++ "a".toList ++ ";X=y".toList)
      ("sharedaccesskey=".toList ++ "SharedAccessKey=\nbc".toList ++ ";X=y".toList) :=
    .key hname (by decide) (by decide) (.refl _)
  have h : env.SameButKeys env' := ⟨rfl, .some (.some (hkey.append "HostName=h;".toList))⟩
  obtain ⟨hdump, -, hstart⟩ := key_never_shows h
  exact ⟨by decide, h, by decide +kernel, hdump, fun files => hstart {} files 0 none⟩

end Program

end EdgeCaller
