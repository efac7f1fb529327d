import EdgeCaller.Proofs.Members
import EdgeCaller.Settings.Session
/-!
The layers of the settings.

A settings file counts as an environment below the one that a load is given: to load with the file
is to load without it from the two laid over each other. Of all that either may hold only four names
matter.
-/

namespace EdgeCaller

/-- Whether a value may stand in a settings file. -/
def Json.isScalar : Json → Bool
  | .null | .bool _ | .number _ | .text _ => true
  | .array _ | .object _ => false

namespace Settings

/-- The names of the settings. -/
def names : List String := [delayName, moduleName, deviceName, transportName]

/-- What the members of a settings file count as: texts, and nothing for the null value. -/
def texts (settings : List (String × Json)) : Layer :=
  settings.filterMap fun (name, v) => (scalarText? v).join.map (name, ·)

/-- The members of the settings file below a place. Where there is no file there are none. -/
inductive Holds (tree : FileTree) (place : List String) : List (String × Json) → Prop
  | absent : tree.node? (FileTree.resolve place fileName) = none → Holds tree place []
  | file {text settings} : tree.text? (FileTree.resolve place fileName) = some text →
      Json.read? text = some (.object settings) → (∀ m ∈ settings, m.2.isScalar = true) →
      Holds tree place settings

end Settings

/-- An environment that lies over the members of a settings file. What it defines itself stays, even
an empty text. -/
def Environment.over (env : Environment) (settings : List (String × Json)) : Environment :=
  ((Settings.texts settings).filter (fun m =>
      m.1 ≠ Members.reservedName ∧ Members.get? m.1 env.defined = none) ++ env.defined).map
    fun m => (m.1, some m.2)

namespace Settings

variable {tree : FileTree} {place : List String} {settings : List (String × Json)}
  {name : String}

lemma flatTexts?_eq (h : ∀ m ∈ settings, m.2.isScalar = true) :
    flatTexts? settings = some (texts settings) := by
  induction settings with
  | nil => rfl
  | cons m settings ih =>
    obtain ⟨hm, hsettings⟩ := List.forall_mem_cons.mp h
    obtain ⟨name, v⟩ := m
    rw [flatTexts?, ih hsettings]
    cases v with
    | array | object => simp [Json.isScalar] at hm
    | null | bool | number | text => rfl

lemma Holds.ofTree_eq (h : Holds tree place settings) :
    ofTree tree place = .ok (texts settings) := by
  cases h with
  | absent hnone => rw [ofTree, hnone]; rfl
  | file htext hread hscalar =>
    unfold FileTree.text? at htext
    split at htext
    · next s hfile =>
      obtain rfl := Option.some.inj htext
      simp only [ofTree, hfile, ofFile, hread, flatTexts?_eq hscalar]
    · simp at htext

lemma Holds.distinct_members (h : Holds tree place settings) : Members.Distinct settings := by
  cases h with
  | absent => exact List.nodup_nil
  | file _ hread => exact Json.distinct_read? hread

lemma Holds.distinct (h : Holds tree place settings) : Members.Distinct (texts settings) := by
  refine h.distinct_members.filterMap fun m n hn => ?_
  obtain ⟨s, -, rfl⟩ := Option.map_eq_some_iff.mp hn
  rfl

/-! ### What counts -/

/-- The last value of the upper layer wins, and after it the lower layer. -/
lemma get?_overlay (name : String) (lower upper : Layer) :
    Members.get? name (overlay lower upper) =
      (Members.get? name upper.reverse).or (Members.get? name lower) := by
  induction upper generalizing lower with
  | nil => rfl
  | cons m upper ih =>
    have hcons : overlay lower (m :: upper) = overlay (Members.set m.1 m.2 lower) upper := rfl
    rw [hcons, ih, List.reverse_cons, Members.get?_append, Option.or_assoc]
    congr 1
    by_cases hm : m.1 = name
    · simp [Members.get?, hm]
    · rw [Members.get?_set_of_ne (Ne.symm hm)]
      simp [Members.get?, hm]

/-- A configuration depends on four settings. -/
lemma configure_congr {a b : Layer}
    (h : ∀ name ∈ names, Members.get? name a = Members.get? name b) :
    configure a = configure b := by
  simp only [names, List.forall_mem_cons, List.not_mem_nil, false_imp_iff, implies_true,
    and_true] at h
  obtain ⟨hdelay, hmodule, hdevice, htransport⟩ := h
  simp only [configure, fieldProblems, hdelay, hmodule, hdevice, htransport]

lemma ne_reservedName (h : name ∈ names) : name ≠ Members.reservedName := by
  rintro rfl
  revert h
  decide

/-- Both layers at once say what the two say one over the other. -/
lemma get?_defined_over (env : Environment) (hs : Members.Distinct (texts settings))
    (hname : name ≠ Members.reservedName) :
    Members.get? name (env.over settings).defined.reverse =
      Members.get? name (overlay (texts settings) env.defined) := by
  have hdefined : (env.over settings).defined = (texts settings).filter (fun m =>
      m.1 ≠ Members.reservedName ∧ Members.get? m.1 env.defined = none) ++ env.defined := by
    simp [Environment.defined, Environment.over, List.filterMap_map]
  rw [hdefined, List.reverse_append, Members.get?_append, get?_overlay]
  cases henv : Members.get? name env.defined.reverse with
  | some s => rfl
  | none =>
    have hnone := Members.get?_reverse_eq_none_iff.mp henv
    rw [(hs.filter _).get?_reverse, Members.get?_filter (fun name =>
      name ≠ Members.reservedName ∧ Members.get? name env.defined = none)]
    simp [hname, hnone]

lemma value?_over {env : Environment} (henv : Members.Distinct env)
    (hname : name ≠ Members.reservedName) :
    (env.over settings).value? name =
      Members.get? name (overlay (texts settings) env.defined) := by
  have hdefined : Members.Distinct env.defined := henv.filterMap fun m n hn => by
    obtain ⟨s, -, rfl⟩ := Option.map_eq_some_iff.mp hn
    rfl
  rw [Environment.value?, Environment.over, Members.get?_map, Members.get?_append, get?_overlay,
    hdefined.get?_reverse, Members.get?_filter (fun name =>
      name ≠ Members.reservedName ∧ Members.get? name env.defined = none)]
  cases Members.get? name env.defined with
  | none => cases Members.get? name (texts settings) <;> simp [hname]
  | some s => simp

lemma Holds.load_eq (h : Holds tree place settings) (env : Environment) :
    load tree place env = configure (overlay (texts settings) env.defined) := by
  rw [load, h.ofTree_eq]
  rfl

lemma load_over (h : Holds tree place settings) {tree' : FileTree} {place' : List String}
    (h' : Holds tree' place' []) (env : Environment) :
    load tree place env = load tree' place' (env.over settings) := by
  rw [h.load_eq, h'.load_eq]
  refine configure_congr fun name hname => ?_
  rw [get?_overlay name (texts []), get?_defined_over env h.distinct (ne_reservedName hname)]
  exact Option.or_none.symm

/-- **A settings file is one more environment, below all others.** To load with it is to load
without it from an environment that lies over its members, and of what the two layers say together only
four names matter. -/
theorem load_eq_load_over (s : Session) (directory : Option String)
    {settings : List (String × Json)}
    (h : Holds s.files (s.place ⟨directory, none⟩) settings) (env : Environment) :
    (∀ (s' : Session) directory', Holds s'.files (s'.place ⟨directory', none⟩) [] →
      (s.load ⟨directory, some env⟩).1 = (s'.load ⟨directory', some (env.over settings)⟩).1) ∧
    ∀ (s' : Session) directory' settings' (env' : Environment), Members.Distinct env →
      Members.Distinct env' → Holds s'.files (s'.place ⟨directory', none⟩) settings' →
      (∀ name ∈ names, (env.over settings).value? name = (env'.over settings').value? name) →
      (s.load ⟨directory, some env⟩).1 = (s'.load ⟨directory', some env'⟩).1 := by
  constructor
  · intro s' directory' h'
    exact load_over h h' env
  · intro s' directory' settings' env' henv henv' h' hsame
    have hload : load s.files (s.place ⟨directory, none⟩) env =
        load s'.files (s'.place ⟨directory', none⟩) env' := by
      rw [h.load_eq, h'.load_eq]
      refine configure_congr fun name hname => ?_
      rw [← value?_over henv (ne_reservedName hname), hsame name hname,
        value?_over henv' (ne_reservedName hname)]
    exact hload

/-- A settings file with a number, a null value and a name that does not count. -/
def mixedText : String :=
  "\x7b\"DMDelay\": 1, \"TargetModuleId\": null, \"ClientTransportType\": \"mqtt\", \"Mode\": true\x7d"

/-- Its members. -/
def mixed : List (String × Json) :=
  [(delayName, .number 1), (moduleName, .null), (transportName, .text "mqtt"), ("Mode", .bool true)]

/-- Whether these members were read. -/
def isMixed : Option Json → Bool
  | some (.object [(a, .number x), (b, .null), (c, .text s), (d, .bool t)]) =>
    [a, b, c, d] = [delayName, moduleName, transportName, "Mode"] ∧ x = 1 ∧ s = "mqtt" ∧ t = true
  | _ => false

lemma eq_of_isMixed {json? : Option Json} (h : isMixed json? = true) :
    json? = some (.object mixed) := by
  unfold isMixed at h
  split at h
  · obtain ⟨hnames, rfl, rfl, rfl⟩ := of_decide_eq_true h
    simp only [List.cons.injEq] at hnames
    obtain ⟨rfl, rfl, rfl, rfl, -⟩ := hnames
    rfl
  · simp at h

lemma read?_mixedText : Json.read? mixedText = some (.object mixed) :=
  eq_of_isMixed (by decide +kernel)

/-- The environment keeps its empty text, and a variable without a value hides nothing. -/
theorem load_eq_load_over_mixed :
    let s : Session :=
      ⟨{ nodes := [(["config", "appsettings.json"], .file mixedText)] }, [], false⟩
    let bare : Session := ⟨{}, [], true⟩
    let env : Environment := [(deviceName, some "edge"), (transportName, some ""), (delayName, none)]
    Holds s.files (s.place ⟨none, none⟩) mixed ∧
    (s.load ⟨none, some env⟩).1 = .ok ⟨86400000, ⟨"edge", standardModule⟩, .standard⟩ ∧
    (s.load ⟨none, some env⟩).1 = (bare.load ⟨none,
      some [(transportName, some ""), ("PATH", some "/bin"), (deviceName, some "edge"),
        (delayName, some "1")]⟩).1 := by
  intro s bare env
  have hholds : Holds s.files (s.place ⟨none, none⟩) mixed :=
    .file (by decide) read?_mixedText (by decide)
  have hnone : Holds bare.files (bare.place ⟨none, none⟩) [] := .absent (by decide)
  obtain ⟨hover, hsame⟩ := load_eq_load_over s none hholds env
  refine ⟨hholds, ?_, ?_⟩
  · have hload : (s.load ⟨none, some env⟩).1 = configure (overlay [] (env.over mixed).defined) :=
      (hover bare none hnone).trans (hnone.load_eq _)
    rw [hload]
    decide +kernel
  · exact hsame bare none [] _ (by decide) (by decide) hnone (by decide +kernel)

end Settings

end EdgeCaller
