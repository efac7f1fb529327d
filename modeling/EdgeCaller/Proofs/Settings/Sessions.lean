import EdgeCaller.Proofs.Members
import EdgeCaller.Settings.Session
/-!
Loads in a session.

Whether the environment file has been read can be told from the commands of a session alone. The
first load that reads it adds to the environment what is not there yet, whatever comes of the load;
no other load touches the environment, whatever the files hold by then.
-/

namespace EdgeCaller

open Settings Session

namespace Environment

/-- An environment and the variables of a file that do not stand in it. -/
def union (env : Environment) (entries : Layer) : Environment :=
  env ++ (entries.filter fun m => !env.has m.1).map fun m => (m.1, some m.2)

lemma get?_union (env : Environment) (entries : Layer) (name : String) :
    Members.get? name (env.union entries) =
      (Members.get? name env).or ((Members.get? name entries).map some) := by
  rw [union, Members.get?_append, Members.get?_map, Members.get?_filter (fun name => !env.has name)]
  cases henv : Members.get? name env <;> simp [has, henv]

lemma union_nil (env : Environment) : env.union [] = env := List.append_nil env

/-- The order in which the variables are added does not matter while each has a name of its own. -/
lemma union_cons (env : Environment) {m : String × String} {entries : Layer}
    (h : Members.Distinct (m :: entries)) :
    env.union (m :: entries) =
      (if env.has m.1 then env else env ++ [(m.1, some m.2)]).union entries := by
  by_cases hm : env.has m.1 = true
  · simp [union, hm]
  · have hnew : ∀ n ∈ entries, (env ++ [(m.1, some m.2)]).has n.1 = env.has n.1 := by
      intro n hn
      have hne : m.1 ≠ n.1 := fun hsame =>
        (List.nodup_cons.mp h).1 (List.mem_map.mpr ⟨n, hn, hsame.symm⟩)
      rw [has, has, Members.get?_append]
      simp [Members.get?, hne]
    have hfilter : (entries.filter fun n => !(env ++ [(m.1, some m.2)]).has n.1) =
        entries.filter fun n => !env.has n.1 :=
      List.filter_congr fun n hn => by rw [hnew n hn]
    simp [union, hm, hfilter]

end Environment

namespace Settings.Session

variable {past more : List Command}

lemma supplement_eq {entries : Layer} (h : Members.Distinct entries) (env : Environment) :
    supplement env entries = env.union entries := by
  induction entries generalizing env with
  | nil => exact env.union_nil.symm
  | cons m entries ih =>
    rw [env.union_cons h, ← ih (List.nodup_cons.mp h).2]
    rfl

lemma distinct_envFileEntries (s : Session) (place : List String) :
    Members.Distinct (s.envFileEntries place) := by
  rw [envFileEntries]
  split
  · exact Members.distinct_ofList _
  · exact List.nodup_nil

/-! ### One load -/

lemma loaded_load (s : Session) (directory : Option String) :
    (s.load ⟨directory, none⟩).2.loaded = true := by
  change (s.readEnvFile _).loaded = true
  rw [readEnvFile]
  split
  · assumption
  · rfl

lemma files_load (s : Session) (options : LoadOptions) : (s.load options).2.files = s.files := by
  obtain ⟨directory, given⟩ := options
  cases given with
  | none =>
    change (s.readEnvFile _).files = s.files
    rw [readEnvFile]
    split <;> rfl
  | some given => rfl

/-- A load starts from the same place as long as the files are the same. -/
lemma place_congr {s s' : Session} (h : s.files = s'.files) (options : LoadOptions) :
    s.place options = s'.place options := by
  rw [place, place, h]

lemma load_of_loaded {s : Session} (h : s.loaded = true) (options : LoadOptions) :
    (s.load options).2 = s := by
  obtain ⟨directory, given⟩ := options
  cases given with
  | none =>
    change s.readEnvFile _ = s
    rw [readEnvFile, if_pos h]
  | some given => rfl

/-- The variables in the file that a load without an environment of its own looks for. -/
def found (s : Session) (directory : Option String) : Layer :=
  match s.files.text? (FileTree.resolve (s.place ⟨directory, none⟩)
      ((s.env.value? "DIRECT_METHOD_SENDER_ENV_FILE").getD ".env")) with
  | some text => EnvFile.entries text
  | none => []

lemma load_of_not_loaded {s : Session} (h : s.loaded = false) (directory : Option String) :
    (s.load ⟨directory, none⟩).2 =
      { s with env := s.env.union (s.found directory), loaded := true } := by
  change s.readEnvFile (s.place ⟨directory, none⟩) = _
  rw [readEnvFile, h, supplement_eq (s.distinct_envFileEntries _)]
  rfl

/-- What stands in the environment stays as it is. -/
lemma get?_load (s : Session) (options : LoadOptions) {name : String}
    (h : s.env.has name = true) :
    Members.get? name (s.load options).2.env = Members.get? name s.env := by
  by_cases hloaded : s.loaded = true
  · rw [load_of_loaded hloaded]
  · obtain ⟨directory, given⟩ := options
    cases given with
    | none =>
      obtain ⟨value, hvalue⟩ := Option.isSome_iff_exists.mp h
      rw [load_of_not_loaded (eq_false_of_ne_true hloaded), Environment.get?_union, hvalue]
      rfl
    | some given => rfl

/-! ### Commands in a row -/

/-- The session after some commands, of which the newest stands first. -/
def after (s : Session) (commands : List Command) : Session :=
  commands.foldr (fun c s => s.obey c) s

/-- Whether a load has read the environment file since the last reset. -/
def wasRead : List Command → Bool
  | [] => false
  | .reset :: _ => false
  | .load ⟨_, none⟩ :: _ => true
  | _ :: past => wasRead past

lemma loaded_setVariable (s : Session) (name : String) (value : Option String) :
    (s.setVariable name value).loaded = s.loaded := by
  cases value with
  | none => rfl
  | some value =>
    rw [setVariable]
    split <;> rfl

lemma loaded_after (s : Session) (hs : s.loaded = false) (past : List Command) :
    (s.after past).loaded = wasRead past := by
  induction past with
  | nil => exact hs
  | cons c past ih =>
    cases c with
    | setVariable name value => exact ((s.after past).loaded_setVariable name value).trans ih
    | load options =>
      obtain ⟨directory, given⟩ := options
      cases given with
      | none => exact (s.after past).loaded_load directory
      | some given => exact ih
    | reset => rfl
    | write | remove => exact ih

/-- Nothing but a reset has the file read again. -/
lemma loaded_after_of_loaded {s : Session} (hs : s.loaded = true)
    (hmore : Command.reset ∉ more) : (s.after more).loaded = true := by
  induction more with
  | nil => exact hs
  | cons c more ih =>
    obtain ⟨hc, hrest⟩ := not_or.mp (mt List.mem_cons.mpr hmore)
    cases c with
    | reset => exact absurd rfl hc
    | setVariable name value =>
      exact ((s.after more).loaded_setVariable name value).trans (ih hrest)
    | load options =>
      change ((s.after more).load options).2.loaded = true
      rw [load_of_loaded (ih hrest)]
      exact ih hrest
    | write | remove => exact ih hrest

/-- Loads in a row leave the files alone. -/
lemma files_after_loads (s : Session) (loads : List LoadOptions) :
    (s.after (loads.map .load)).files = s.files := by
  induction loads with
  | nil => rfl
  | cons options loads ih => exact ((s.after (loads.map .load)).files_load options).trans ih

/-- Where the file has been read, loads in a row leave the whole session alone. -/
lemma after_loads {s : Session} (hs : s.loaded = true) (loads : List LoadOptions) :
    s.after (loads.map .load) = s := by
  induction loads with
  | nil => rfl
  | cons options loads ih =>
    change ((s.after (loads.map .load)).load options).2 = s
    rw [ih, load_of_loaded hs]

/-- A load gives again what it gave, if nothing but loads has come between. -/
lemma load_again (s : Session) (options : LoadOptions) (others : List LoadOptions) :
    (((s.load options).2.after (others.map .load)).load options).1 = (s.load options).1 := by
  obtain ⟨directory, given⟩ := options
  cases given with
  | some given =>
    change Settings.load ((s.load _).2.after _).files _ given = Settings.load s.files _ given
    have hfiles := ((s.load ⟨directory, some given⟩).2.files_after_loads others).trans
      (s.files_load _)
    rw [place_congr hfiles, hfiles]
  | none =>
    have hloaded := s.loaded_load directory
    rw [after_loads hloaded]
    change Settings.load (readEnvFile _ _).files _ (readEnvFile _ _).env = _
    rw [readEnvFile, if_pos hloaded, place_congr (s.files_load _)]
    rfl

/-- What loads do to a session, told by the commands before them. -/
structure ReadsOnce (past : List Command) (s : Session) : Prop where
  /-- A load that is given an environment changes nothing. -/
  given : ∀ directory env, (s.load ⟨directory, some env⟩).2 = s
  /-- The first load without one reads the file, whether or not there is one and whatever comes of
  the load. -/
  first : wasRead past = false → ∀ directory, (s.load ⟨directory, none⟩).2 =
    { s with env := s.env.union (s.found directory), loaded := true }
  later : wasRead past = true → ∀ directory, (s.load ⟨directory, none⟩).2 = s
  keeps : ∀ options name, s.env.has name = true →
    Members.get? name (s.load options).2.env = Members.get? name s.env
  /-- Between two resets one load at most adds to the environment. -/
  once : ∀ options, (s.load options).2.env ≠ s.env → ∀ more, Command.reset ∉ more →
    ∀ options', let s' := (s.load options).2.after more
      (s'.load options').2 = s'
  again : ∀ options (others : List LoadOptions),
    (((s.load options).2.after (others.map .load)).load options).1 = (s.load options).1

/-- **The environment file is read once between two resets.** It adds what is not there and changes
nothing that is. -/
theorem readsOnce (files : FileTree) (env : Environment) (past : List Command) :
    ReadsOnce past (after ⟨files, env, false⟩ past) where
  given _ _ := rfl
  first hpast directory := load_of_not_loaded ((loaded_after _ rfl past).trans hpast) directory
  later hpast directory := load_of_loaded ((loaded_after _ rfl past).trans hpast) _
  keeps options _ h := get?_load _ options h
  once options hadds more hmore options' := by
    have hloaded : ((after ⟨files, env, false⟩ past).load options).2.loaded = true := by
      obtain ⟨directory, given⟩ := options
      cases given with
      | none => exact loaded_load _ directory
      | some given => exact absurd rfl hadds
    exact load_of_loaded (loaded_after_of_loaded hloaded hmore) options'
  again options others := load_again _ options others

end Settings.Session

end EdgeCaller
