import EdgeCaller.Program
import EdgeCaller.Proofs.Sender.Alike
import EdgeCaller.Proofs.Sender.Residue
import EdgeCaller.Proofs.Settings.Agreement
/-!
Logging observes.

The log level decides which lines are printed, and nothing else. Of two runs under one schedule, of
a loop, a sender or a program, the one with the stricter threshold does the same at the same times,
and prints those lines of the other that its threshold admits. There is one exception: a client may
fail to close with something that no line can show. The warning about it then fails where it is
printed, and does nothing where it is held back.
-/

namespace EdgeCaller

def Event.isError : Event → Bool
  | line .error _ => true
  | _ => false

lemma Event.isSeen_of_not_isLine {e : Event} (u : Threshold) (h : e.isLine = false) :
    e.isSeen u = true := by
  cases e with
  | line => exact nomatch h
  | _ => rfl

lemma Event.isSeen_of_isError {e : Event} (u : Threshold) (h : e.isError = true) :
    e.isSeen u = true := by
  unfold isError at h
  split at h
  · exact u.admits_error
  · exact nomatch h

/-- What is seen under every threshold can be picked out before or after. -/
lemma filter_seen {p : Event → Bool} {u : Threshold} (h : ∀ e, p e = true → e.isSeen u = true)
    (entries : List Entry) :
    (seen u entries).filter (fun x => p x.event) = entries.filter fun x => p x.event := by
  rw [seen, List.filter_filter]
  refine List.filter_congr fun x _ => ?_
  cases hx : p x.event with
  | false => rfl
  | true => rw [h _ hx, Bool.true_and]

namespace Sender.Run

variable {t u : Threshold} {plan : Plan} {r r' : Run} {e : Value}

/-- `r'` is as `r` is, and what happened in it is what happened in `r` but for the lines that `u`
holds back. -/
structure Observed (u : Threshold) (r r' : Run) : Prop where
  state : r' = { r with journal := r'.journal }
  now : r'.journal.now = r.journal.now
  /-- Calls, consultations of the policy, aborts, exits and ends are the same, at the same times. -/
  acts : r'.journal.events.filter (fun x => !x.event.isLine) =
    r.journal.events.filter fun x => !x.event.isLine
  /-- Of the lines those are printed that the threshold admits, in the same order. -/
  lines : r'.journal.events.filter (fun x => x.event.isLine) =
    seen u (r.journal.events.filter fun x => x.event.isLine)
  /-- The lines stand at the same places among the other events. -/
  events : r'.journal.events = seen u r.journal.events
  errors : r'.journal.events.filter (fun x => x.event.isError) =
    r.journal.events.filter fun x => x.event.isError

/-- So it stays under every schedule, as long as the console does not fail and the clock shows
dates. -/
def StaysObserved (u : Threshold) (r r' : Run) : Prop :=
  ∀ moves, (r.follow moves).journal.Undisturbed → (r.follow moves).Observed u (r'.follow moves)

lemma Alike.observed (h : r.Alike t u r') : r.Observed u r' := by
  obtain @⟨k, hj, -, -, -⟩ := h
  have hevents : k.events = seen u r.journal.events := by
    rw [Journal.events, hj.entries, seen, ← List.filter_reverse]
    rfl
  refine ⟨rfl, hj.now, ?_, ?_, hevents, ?_⟩
  · rw [hevents]
    exact filter_seen (p := fun e => !e.isLine)
      (fun e he => Event.isSeen_of_not_isLine u (by simpa using he)) _
  · rw [hevents, seen, seen, List.filter_filter, List.filter_filter]
    simp only [Bool.and_comm]
  · rw [hevents]
    exact filter_seen (fun _ he => Event.isSeen_of_isError u he) _

/-! ### Schedules -/

/-- A property of runs is carried along a schedule if no step ends it. -/
lemma Alike.follow_of (hu : u.Stricter t) {P : Run → Prop} (hr : P r)
    (hstep : ∀ r r', P r → Step r r' →
      P r' ∧ (r'.journal.Undisturbed → r.journal.Undisturbed))
    (hgo : ∀ r r' s, P r → r.Alike t u r' → r.ready = some s →
      r.Tells t u s ∧ ∀ s', ¬ { r with ready := none }.Pends s')
    (h : r.journal.Undisturbed → r.Alike t u r') (moves : List Move)
    (hdates : (r.follow moves).journal.Undisturbed) :
    (r.follow moves).Alike t u (r'.follow moves) := by
  have hmake : ∀ r m, P r →
      P (r.make m) ∧ ((r.make m).journal.Undisturbed → r.journal.Undisturbed) := by
    intro r m hr
    rcases r.make_cases m with hsame | hmade
    · rw [hsame]
      exact ⟨hr, id⟩
    · exact hstep _ _ hr hmade
  have hkept : ∀ moves, P (r.follow moves) := by
    intro moves
    induction moves with
    | nil => exact hr
    | cons m past ih => exact (hmake _ m ih).1
  induction moves with
  | nil => exact h hdates
  | cons m past ih =>
    have halike := ih ((hmake _ m (hkept past)).2 hdates)
    exact halike.make hu m (fun _ s hready => hgo _ _ s (hkept past) halike hready) hdates

/-- Runs of a plan stay alike under the same schedule. -/
lemma Alike.follow (hu : u.Stricter t) (hr : Reached plan r)
    (h : r.journal.Undisturbed → r.Alike t u r') (moves : List Move)
    (hdates : (r.follow moves).journal.Undisturbed) :
    (r.follow moves).Alike t u (r'.follow moves) := by
  refine .follow_of hu hr (fun r r' hr hstep => ⟨hr.step hstep, fun hdates => ?_⟩)
    (fun _ _ _ hr halike hready => halike.tells hr.sound hready) h moves hdates
  rcases hstep.undergoes_or_resume hr.sound with hundergoes | ⟨s, -, rfl⟩
  · exact hundergoes.undisturbed hdates
  · exact (extends_resume { r with ready := none } s).undisturbed_iff.mp hdates

/-- So do runs that nothing but time happens to. -/
lemma Alike.follow_quiet (hu : u.Stricter t) (hr : r.Quiet)
    (h : r.journal.Undisturbed → r.Alike t u r') (moves : List Move)
    (hdates : (r.follow moves).journal.Undisturbed) :
    (r.follow moves).Alike t u (r'.follow moves) := by
  refine .follow_of hu hr (fun r r' hr hstep => ⟨(hr.step hstep).1, fun hdates => ?_⟩)
    (fun _ _ _ hr _ hready => absurd hready (by simp [hr.ready])) h moves hdates
  rcases hr.step_cases hstep with rfl | ⟨time, htime, rfl⟩
  · exact hdates
  · exact undisturbed_earlier htime hdates

/-! ### Starts -/

/-- Before a run begins nothing is awaited. -/
lemma not_pends (hready : r.ready = none) (htimers : r.timers = []) (s : Settlement) :
    ¬ r.Pends s := by
  rintro (hs | ⟨due, hmem⟩)
  · simp [hready] at hs
  · simp [htimers] at hmem

lemma narrows_start {epoch : Int} (h : Journal.Undisturbed (.start { threshold := t } epoch)) :
    (Journal.start { threshold := t } epoch).Narrows t u (.start { threshold := u } epoch) :=
  ⟨rfl, rfl, h, rfl, rfl, rfl, rfl⟩

lemma alike_create {j k : Journal} (hj : j.Narrows t u k) (hlegible : plan.Legible)
    (hcloses : plan.link = .client → plan.script.ClosesAlike t u) :
    (create plan j).Alike t u (create plan k) :=
  ⟨hj, hlegible, hcloses, fun _ _ hphase => Phase.noConfusion hphase⟩

lemma undisturbed_launch {j : Journal} {aborted : Bool}
    (h : (launch plan j aborted).journal.Undisturbed) : j.Undisturbed := by
  unfold launch at h
  have hbegun := (proceeds_self _).begin.journal.undisturbed_iff.mp h
  split at hbegun
  · exact (undergoes_abort (create plan j)).undisturbed hbegun
  · exact hbegun

lemma alike_launch (hu : u.Stricter t) {j k : Journal} (hj : j.Narrows t u k)
    (hlegible : plan.Legible)
    (hcloses : plan.link = .client → plan.script.ClosesAlike t u)
    (aborted : Bool) : (launch plan j aborted).Alike t u (launch plan k aborted) := by
  have hcreated := alike_create hj hlegible hcloses
  unfold launch
  split
  · exact hcreated.abort.begin hu (not_pends rfl rfl)
  · exact hcreated.begin hu (not_pends rfl rfl)

lemma staysObserved_launch (hu : u.Stricter t) (hlegible : plan.Legible)
    (hcloses : plan.link = .client → plan.script.ClosesAlike t u)
    (epoch : Int) (aborted : Bool) :
    StaysObserved u (launch plan (.start { threshold := t } epoch) aborted)
      (launch plan (.start { threshold := u } epoch) aborted) := by
  intro moves hdates
  have hreached : Reached plan (launch plan (.start { threshold := t } epoch) aborted) :=
    reached_iff_follow.mpr ⟨_, epoch, aborted, [], rfl⟩
  refine (Alike.follow hu hreached (fun hstart => ?_) moves hdates).observed
  exact alike_launch hu (narrows_start (undisturbed_launch hstart)) hlegible hcloses aborted

/-! ### The failure that no line can show -/

/-- What the warning about a failure to close would show has no plain form. The connection counts as
closed all the same exactly if the warning is held back. -/
lemma latch_closing_iff {failure : Option Value} {words : Value} (hr : Reached plan r)
    (hlink : plan.link = .client) (hphase : r.phase = .closing failure)
    (hu : r.journal.Undisturbed) (hwords : e.brief = .ok words) (hshown : ¬ words.Shown "error") :
    (r.resume (.rejected e)).coordinator.latch.isSet = true ↔
      r.journal.console.threshold.admits .warn = false := by
  have hlatch := hr.sound.latch_of_closing hphase
  rw [← hr.sound.plan_eq] at hlink
  have hnoted : (r.note (.answered .close (.rejected e))).journal.Undisturbed :=
    ⟨hu.fault, hu.epoch, hu.now⟩
  have hwarns : (Client.closeAnswered (.rejected e)).Succeeds
      (r.note (.answered .close (.rejected e))).journal ↔
        r.journal.console.threshold.admits .warn = false := by
    rw [Client.closeAnswered, hwords]
    refine (Act.succeeds_tell_iff hnoted .warn "Failed to close module client").trans ?_
    simp only [List.mem_singleton, forall_eq, hshown, imp_false, Bool.not_eq_true]
    rfl
  have hfails : ∀ r' : Run, r'.coordinator = r.coordinator → ∀ e',
      (r'.fail e').coordinator.latch.isSet = false := by
    intro r' hc e'
    rw [Run.fail, (r'.finish_spec _).1.coordinator, hc, hlatch]
  rw [← hwarns]
  simp only [Run.resume, hphase, plan_note, hlink, perform]
  rcases hact : (Client.closeAnswered (.rejected e)).exec
      (r.note (.answered .close (.rejected e))).journal with ⟨e' | a, k⟩
  · refine iff_of_false (fun hset => ?_) fun h => h.ne_error hact
    have hended := hfails { r.note (.answered .close (.rejected e)) with journal := k } rfl e'
    exact Bool.false_ne_true (hended.symm.trans hset)
  · refine iff_of_true ?_ ⟨a, k, hact⟩
    rw [(proceeds_closed _ failure).latch]
    exact Latch.isSet_set _

end Sender.Run

namespace Program

open Sender Run

variable {t u : Threshold} {env env' : Environment}

lemma quiet_refuse {idle : Plan} (hscope : idle.scope = .program) (j : Journal)
    (p : Settings.Problem) : (refuse (Run.create idle j) p).Quiet := by
  have hdown : idle.scope.tearsDown = true := by rw [hscope]; rfl
  unfold refuse perform
  split
  · exact ⟨hdown, rfl, rfl, rfl⟩
  · exact ⟨hdown, rfl, rfl, rfl⟩

/-- A refusal is logged under every threshold. -/
lemma alike_refuse (hu : u.Stricter t) {r r' : Run} (h : r.Alike t u r') (p : Settings.Problem) :
    (refuse r p).Alike t u (refuse r' p) :=
  h.perform (Act.indifferent_error hu _ _) (fun _ _ e hr => hr.escape e) fun _ _ _ hr =>
    hr.exitWith 1

lemma extends_refuse (r : Run) (p : Settings.Problem) :
    r.journal.Extends (fun _ => True) (refuse r p).journal := by
  have htell : (Act.tell .error "Failed to load direct method sender configuration"
      [("error", .text p.message)]).Writes fun _ => True := Act.writes_tell (fun _ => trivial) _ _
  have hj := htell r.journal
  unfold refuse perform
  split
  · next k hact =>
    rw [hact] at hj
    exact hj.trans (Journal.extends_add trivial k)
  · next hact =>
    rw [hact] at hj
    exact hj

/-- To start takes no time. -/
lemma extends_start (script : Script) (files : FileTree) (env : Environment) (epoch : Int)
    (fault : Option Fault) : (Journal.start { threshold := threshold env, fault } epoch).Extends
      (fun _ => True) (start script files env epoch fault).journal := by
  unfold start
  rcases Settings.Session.load { files, env } {} with ⟨p | config, session⟩
  · exact extends_refuse (Run.create _ _) p
  · exact (Run.create _ _).proceeds_self.begin.journal.mono fun _ _ => trivial

/-- What the configuration is, and what is shown of the environment, does not depend on the
settings of the log level. -/
lemma staysObserved_start (hu : u.Stricter t) {script : Script} (hstatuses : script.Numeric)
    (hcloses : script.ClosesAlike t u)
    (henv : env.AgreeOutside [levelVariable, modeVariable] env') (ht : threshold env = t)
    (hu' : threshold env' = u) (files : FileTree) (epoch : Int) :
    StaysObserved u (start script files env epoch none) (start script files env' epoch none) := by
  obtain ⟨hresult, entries, hentries, hentries'⟩ :=
    Settings.Session.load_congr henv (by decide) files
  have hconfiguration := (henv.union entries).clientConfiguration_eq (by decide)
  rw [← hentries, ← hentries'] at hconfiguration
  unfold start
  simp only [ht, hu', ← hresult]
  cases ((⟨files, env, false⟩ : Settings.Session).load {}).1 with
  | ok config =>
    have hplan : plan script config ((⟨files, env, false⟩ : Settings.Session).load {}).2.env =
        plan script config ((⟨files, env', false⟩ : Settings.Session).load {}).2.env := by
      simp only [plan, hconfiguration]
    have hlegible : (plan script config
        ((⟨files, env, false⟩ : Settings.Session).load {}).2.env).Legible := ⟨hstatuses, trivial⟩
    simp only [← hplan]
    exact staysObserved_launch hu hlegible (fun _ => hcloses) epoch false
  | error p =>
    have hidle : Plan.Legible { scope := .program, link := .client, script, target := ⟨"", ""⟩ } :=
      ⟨hstatuses, trivial⟩
    intro moves hdates
    refine (Alike.follow_quiet hu (quiet_refuse rfl _ p) (fun hstart => ?_) moves hdates).observed
    have hfresh := (extends_refuse _ p).undisturbed_iff.mp hstart
    exact alike_refuse hu (alike_create (narrows_start hfresh) hidle fun _ => hcloses) p

/-- **Logging only observes.** Of two settings of the log level and the kind of run one is the
stricter. Under it a loop, a sender or a program does the same under every schedule, and prints of
the same lines those that its threshold admits, errors among them. So it is if the statuses of a
script are numbers, and if what a policy of its own and the failures of a client to close have to
say can be shown. The last is needed: where it cannot be shown, the sender is torn down exactly if the
warning is held back. -/
theorem logging_only_observes (t u : Threshold) :
    (u.Stricter t ∨ t.Stricter u) ∧
    (u.Stricter t →
      (∀ (plan : Plan) epoch aborted, plan.Legible →
        (plan.link = .client → plan.script.ClosesAlike t u) →
        StaysObserved u (launch plan (.start { threshold := t } epoch) aborted)
          (launch plan (.start { threshold := u } epoch) aborted)) ∧
      ∀ (script : Script) (env env' : Environment) files epoch, script.Numeric →
        script.ClosesAlike t u → env.AgreeOutside [levelVariable, modeVariable] env' →
        threshold env = t → threshold env' = u →
        StaysObserved u (start script files env epoch none) (start script files env' epoch none)) ∧
    ∀ (plan : Plan) r failure e words, Reached plan r → plan.link = .client →
      r.phase = .closing failure → r.journal.Undisturbed → e.brief = .ok words →
      ¬ words.Shown "error" →
      ((r.resume (.rejected e)).coordinator.latch.isSet = true ↔
        r.journal.console.threshold.admits .warn = false) := by
  refine ⟨t.stricter_total u, fun hu => ⟨?_, ?_⟩, ?_⟩
  · exact fun _ epoch aborted hlegible hcloses =>
      staysObserved_launch hu hlegible hcloses epoch aborted
  · exact fun _ _ _ files epoch hstatuses hcloses henv ht hu' =>
      staysObserved_start hu hstatuses hcloses henv ht hu' files epoch
  · exact fun _ _ _ _ _ hr hlink hphase hdates hwords hshown =>
      latch_closing_iff hr hlink hphase hdates hwords hshown

/-- A sender whose client fails to close with a value. -/
def closing (e : Value) : Plan where
  scope := .sender
  link := .client
  script := { closes := [{ course := .fails e 0 }] }
  target := ⟨"device", "module"⟩
  interval := 1000

/-- Its run until it awaits that the client is closed: one attempt is made, and a signal ends the
pause after it. -/
def untilClosing (e : Value) (u : Threshold) : Run :=
  (launch (closing e) (.start { threshold := u } 0) false).follow
    [.goOn, .signal "SIGTERM", .goOn, .goOn, .goOn, .goOn]

/-- A failure whose message is an integer, which no line can show. -/
def unshowable : Value := .derived [("message", .integer 1)] (Value.plainFailure "gone")

/-- A sender whose client fails to close, a program, and a sender whose client fails to close with
what no line can show, each under two levels. -/
theorem logging_only_observes_closing :
    let gone := Value.plainFailure "gone"
    let env : Environment := [(levelVariable, some "info"), ("IOTEDGE_DEVICEID", some "device")]
    let env' : Environment := [("IOTEDGE_DEVICEID", some "device"), (levelVariable, some "error")]
    ((untilClosing gone (.from .info)).make .goOn).Observed (.from .error)
      ((untilClosing gone (.from .error)).make .goOn) ∧
    (start {} {} env 0 none).Observed (.from .error) (start {} {} env' 0 none) ∧
    ¬ ((untilClosing unshowable (.from .info)).resume
      (.rejected unshowable)).coordinator.latch.isSet = true ∧
    ((untilClosing unshowable (.from .error)).resume
      (.rejected unshowable)).coordinator.latch.isSet = true := by
  intro gone env env'
  have hu : (Threshold.from .error).Stricter (.from .info) := by
    intro level hadmits
    cases level <;> first | rfl | exact hadmits
  obtain ⟨-, hobserves, hclosing⟩ := logging_only_observes (.from .info) (.from .error)
  obtain ⟨hlaunch, hstart⟩ := hobserves hu
  refine ⟨?_, ?_, ?_⟩
  · have hlegible : (closing gone).Legible :=
      ⟨fun _ hreply => absurd hreply List.not_mem_nil, trivial⟩
    refine hlaunch _ 0 false hlegible (fun _ => .inr ?_)
      [.goOn, .goOn, .signal "SIGTERM", .goOn, .goOn, .goOn, .goOn]
      ⟨by decide +kernel, by decide +kernel, by decide +kernel⟩
    rintro reply hreply e he words hwords
    obtain rfl := List.mem_singleton.mp hreply
    obtain rfl := Option.some.inj he
    obtain rfl := Except.ok.inj hwords
    exact (Value.writable_text _).shown _
  · have hdates : Journal.Undisturbed (.start { threshold := threshold env } 0) :=
      ⟨rfl, by decide +kernel, by decide +kernel⟩
    exact hstart {} env env' {} 0 (fun _ hreply => absurd hreply List.not_mem_nil)
      (.inr fun _ hreply => absurd hreply List.not_mem_nil) rfl (by decide +kernel)
      (by decide +kernel) [] (hdates.extends (extends_start _ _ _ _ _))
  · have hbrief : unshowable.brief = .ok (.integer 1) := rfl
    have hshown : ¬ (Value.integer 1).Shown "error" := by
      rintro ⟨j?, hj⟩
      rw [Value.plainAt] at hj
      simp at hj
    have hreached : ∀ u, Reached (closing unshowable) (untilClosing unshowable u) := fun u =>
      reached_iff_follow.mpr ⟨{ threshold := u }, 0, false, _, rfl⟩
    have hphase : (untilClosing unshowable (.from .info)).phase = .closing none := by
      decide +kernel
    have hphase' : (untilClosing unshowable (.from .error)).phase = .closing none := by
      decide +kernel
    constructor
    · rw [hclosing _ _ none _ _ (hreached _) rfl hphase
        ⟨by decide +kernel, by decide +kernel, by decide +kernel⟩ hbrief hshown]
      decide +kernel
    · refine (hclosing _ _ none _ _ (hreached _) rfl hphase'
        ⟨by decide +kernel, by decide +kernel, by decide +kernel⟩ hbrief hshown).mpr ?_
      decide +kernel

end Program

end EdgeCaller
