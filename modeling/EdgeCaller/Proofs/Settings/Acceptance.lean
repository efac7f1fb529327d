import EdgeCaller.Proofs.Settings.Layers
import EdgeCaller.Proofs.TimeSpan.Reading
/-!
What a load accepts.

A load looks at the settings file before anything else, then at the settings one by one: first at
the names of device and module together, then at the delay, then at the transport. The first of
these that is wrong decides what is thrown, and where nothing is wrong each setting is taken as it
is.
-/

namespace EdgeCaller

namespace Settings

/-- The text of a setting in a settings file. -/
def fileText? (settings : List (String × Json)) (name : String) : Option String :=
  (Members.get? name settings).bind fun v => (scalarText? v).join

/-- The text of a setting that is set nowhere. -/
def standardText? (name : String) : Option String :=
  if name = delayName then some standardDelay
  else if name = moduleName then some standardModule
  else none

/-- The text of a setting that counts. -/
def text? (settings : List (String × Json)) (env : Environment) (name : String) : Option String :=
  ((env.value? name).or (fileText? settings name)).or (standardText? name)

/-- A time span of one millisecond at least. -/
def IsDelay (text : String) : Prop :=
  ∃ core span, Text.Pads core text.toList ∧ TimeSpan.Denotes core span ∧ 1 ≤ span.exact

/-- The transport that a setting chooses. -/
inductive Chooses : Option String → Transport → Prop where
  | absent : Chooses none .amqpTcpOnly
  | empty : Chooses (some "") .amqpTcpOnly
  | named {name : String} {t : Transport} : name ≠ "" → Transport.parse? name = some t →
      Chooses (some name) t

/-- Whether this is wrong with a device and a module that have these texts. -/
def fails (text? : String → Option String) : FieldProblem → Bool
  | .emptyModule => text? moduleName = some ""
  | .missingDevice => text? deviceName = none
  | .emptyDevice => text? deviceName = some ""

/-- All that is wrong with them. -/
def failing (text? : String → Option String) : List FieldProblem :=
  [.emptyModule, .missingDevice, .emptyDevice].filter (fails text?)

/-- What comes of settings with these texts: an error with its words, or a configuration. -/
inductive Settles (text? : String → Option String) : Except String Config → Prop where
  | fields : failing text? ≠ [] →
      Settles text? (.error ("Invalid direct method sender configuration: " ++
        (Json.object ((failing text?).map fun p => (p.field, .array [.text p.message]))).compact))
  | delay {text : String} : failing text? = [] → text? delayName = some text → ¬ IsDelay text →
      Settles text? (.error
        ("DMDelay must be a positive time span such as 00:00:05, got \"" ++ text ++ "\""))
  | transport {text name : String} : failing text? = [] → text? delayName = some text →
      IsDelay text → text? transportName = some name → name ≠ "" → Transport.parse? name = none →
      Settles text? (.error ("ClientTransportType must be one of Amqp, Amqp_Tcp_Only, " ++
        "Amqp_WebSocket_Only, Mqtt, Mqtt_Tcp_Only, Mqtt_WebSocket_Only, got \"" ++ name ++ "\""))
  | accepted {device module text : String} {interval : Number} {t : Transport} :
      text? deviceName = some device → device ≠ "" → text? moduleName = some module →
      module ≠ "" → text? delayName = some text → TimeSpan.read? text = some interval →
      interval.isPositive = true → Chooses (text? transportName) t →
      Settles text? (.ok ⟨interval, ⟨device, module⟩, t⟩)

/-- What comes of a load: the settings file is looked at first, and then the settings. -/
inductive Yields (tree : FileTree) (place : List String) (env : Environment) :
    Except String Config → Prop where
  | directory : tree.node? (FileTree.resolve place fileName) = some .directory →
      Yields tree place env (.error "Invalid config/appsettings.json: <unreadable>")
  | unreadable {text : String} : tree.text? (FileTree.resolve place fileName) = some text →
      Json.read? text = none →
      Yields tree place env (.error "Invalid config/appsettings.json: <unreadable>")
  | notFlat {text : String} {json : Json} :
      tree.text? (FileTree.resolve place fileName) = some text → Json.read? text = some json →
      (¬ ∃ settings, json = .object settings ∧ ∀ m ∈ settings, m.2.isScalar = true) →
      Yields tree place env (.error
        "Invalid config/appsettings.json: expected a flat object of scalar values")
  | settled {settings : List (String × Json)} {result : Except String Config} :
      Holds tree place settings → Settles (text? settings env) result →
      Yields tree place env result

/-! ### Settings by themselves -/

lemma isDelay_iff {text : String} : IsDelay text ↔
    ∃ interval, TimeSpan.read? text = some interval ∧ interval.isPositive = true := by
  simp only [TimeSpan.read?_eq_some_iff]
  constructor
  · rintro ⟨core, span, hpads, hspan, hone⟩
    exact ⟨_, ⟨core, span, hpads, hspan, rfl⟩,
      (TimeSpan.isPositive_milliseconds hspan.inRange).mpr hone⟩
  · rintro ⟨_, ⟨core, span, hpads, hspan, rfl⟩, hpositive⟩
    exact ⟨core, span, hpads, hspan,
      (TimeSpan.isPositive_milliseconds hspan.inRange).mp hpositive⟩

variable {text : String} {layer : Layer} {v : String → Option String}

lemma delay_of_not_isDelay (h : ¬ IsDelay text) : delay text = .error (.delay text) := by
  rw [delay]
  split
  · next ms hms =>
    rw [if_neg fun hpositive => h (isDelay_iff.mpr ⟨ms, hms, hpositive⟩)]
  · rfl

lemma delay_of_read? {interval : Number} (h : TimeSpan.read? text = some interval)
    (hpositive : interval.isPositive = true) : delay text = .ok interval := by
  rw [delay, h]
  exact if_pos hpositive

lemma Chooses.transport_eq {name : Option String} {t : Transport} (h : Chooses name t) :
    transport name = .ok t := by
  cases h with
  | absent => rfl
  | empty => rfl
  | named hne hparse => simp only [transport, if_neg hne, hparse]

lemma transport_of_none {name : String} (hne : name ≠ "") (h : Transport.parse? name = none) :
    transport (some name) = .error (.transport name) := by
  simp only [transport, if_neg hne, h]

/-- The texts that a layer gives, the standard ones where it gives none. -/
def GivenBy (layer : Layer) (v : String → Option String) : Prop :=
  ∀ name ∈ names, v name = (Members.get? name layer).or (standardText? name)

namespace GivenBy

lemma device (h : GivenBy layer v) : v deviceName = Members.get? deviceName layer :=
  (h deviceName (by decide)).trans Option.or_none

lemma transport (h : GivenBy layer v) : v transportName = Members.get? transportName layer :=
  (h transportName (by decide)).trans Option.or_none

lemma delay (h : GivenBy layer v) :
    v delayName = some ((Members.get? delayName layer).getD standardDelay) := by
  rw [h delayName (by decide)]
  cases Members.get? delayName layer <;> rfl

lemma module (h : GivenBy layer v) :
    v moduleName = some ((Members.get? moduleName layer).getD standardModule) := by
  rw [h moduleName (by decide)]
  cases Members.get? moduleName layer <;> rfl

lemma fieldProblems_eq (h : GivenBy layer v) : fieldProblems layer = failing v := by
  have hempty : v moduleName = some "" ↔ Members.get? moduleName layer = some "" := by
    rw [h.module]
    cases Members.get? moduleName layer with
    | none => simp [standardModule]
    | some m => simp
  rw [fieldProblems, ← h.device]
  simp only [failing, List.filter_cons, List.filter_nil, fails, hempty]
  by_cases hm : Members.get? moduleName layer = some ""
  all_goals
    obtain hd | ⟨d, hd⟩ := Option.eq_none_or_eq_some (v deviceName)
    · simp [hm, hd]
    · by_cases hempty : d = "" <;> simp [hm, hd, hempty]

lemma configure_of_fails (h : GivenBy layer v) (hfails : failing v ≠ []) :
    configure layer = .error (.fields (failing v)) := by
  rw [← h.fieldProblems_eq] at hfails ⊢
  unfold configure
  split
  · next hnone => exact absurd hnone hfails
  · rfl

lemma configure_of_sound (h : GivenBy layer v) (hsound : failing v = [])
    {device module text : String} (hdevice : v deviceName = some device)
    (hmodule : v moduleName = some module) (hdelay : v delayName = some text) :
    configure layer = (do
      let interval ← Settings.delay text
      let t ← Settings.transport (v transportName)
      .ok ⟨interval, ⟨device, module⟩, t⟩) := by
  have hdevice : Members.get? deviceName layer = some device := h.device.symm.trans hdevice
  have hmodule := Option.some.inj (h.module.symm.trans hmodule)
  have hdelay := Option.some.inj (h.delay.symm.trans hdelay)
  rw [configure, h.fieldProblems_eq, hsound, hdevice, hmodule, hdelay, h.transport]
  rfl

/-- Nothing fails of a device and a module that are there. -/
lemma failing_eq_nil_iff (h : GivenBy layer v) : failing v = [] ↔
    ∃ device module, v deviceName = some device ∧ device ≠ "" ∧
      v moduleName = some module ∧ module ≠ "" := by
  simp only [failing, List.filter_eq_nil_iff, List.forall_mem_cons, List.not_mem_nil,
    false_imp_iff, implies_true, and_true, fails, decide_eq_true_eq, h.module, Option.some.injEq]
  rcases v deviceName with - | d
  · simp
  · simp [and_comm]

/-- What a layer is configured to is what its texts settle to. -/
lemma configure_eq {result : Except String Config} (h : GivenBy layer v)
    (hresult : Settles v result) : (configure layer).mapError Problem.message = result := by
  cases hresult with
  | fields hfails => rw [h.configure_of_fails hfails]; rfl
  | delay hsound hdelay hnot =>
    obtain ⟨device, module, hdevice, -, hmodule, -⟩ := h.failing_eq_nil_iff.mp hsound
    rw [h.configure_of_sound hsound hdevice hmodule hdelay, delay_of_not_isDelay hnot]
    rfl
  | transport hsound hdelay hdelay' hname hne hnone =>
    obtain ⟨device, module, hdevice, -, hmodule, -⟩ := h.failing_eq_nil_iff.mp hsound
    obtain ⟨interval, hread, hpositive⟩ := isDelay_iff.mp hdelay'
    rw [h.configure_of_sound hsound hdevice hmodule hdelay, delay_of_read? hread hpositive, hname,
      transport_of_none hne hnone]
    rfl
  | accepted hdevice hdevice' hmodule hmodule' hdelay hread hpositive ht =>
    have hsound := h.failing_eq_nil_iff.mpr ⟨_, _, hdevice, hdevice', hmodule, hmodule'⟩
    rw [h.configure_of_sound hsound hdevice hmodule hdelay, delay_of_read? hread hpositive,
      ht.transport_eq]
    rfl

end GivenBy

/-! ### The settings file -/

variable {tree : FileTree} {place : List String} {settings : List (String × Json)}
  {env : Environment}

lemma text?_eq_some_iff :
    tree.text? place = some text ↔ tree.node? place = some (.file text) := by
  unfold FileTree.text?
  split
  · next s hs => simp [hs]
  · next hnone => simpa using hnone text

lemma flatTexts?_eq_none (h : ¬ ∀ m ∈ settings, m.2.isScalar = true) :
    flatTexts? settings = none := by
  induction settings with
  | nil => simp at h
  | cons m settings ih =>
    obtain ⟨name, value⟩ := m
    rw [flatTexts?]
    rw [List.forall_mem_cons, not_and_or] at h
    obtain h | h := h
    · cases value <;> simp_all [Json.isScalar, scalarText?]
    · simp [ih h]

/-- A text that is JSON, but not that of a flat object. -/
lemma ofFile_of_not_flat {json : Json} (hread : Json.read? text = some json)
    (hflat : ¬ ∃ settings, json = .object settings ∧ ∀ m ∈ settings, m.2.isScalar = true) :
    ofFile text = .error .notFlat := by
  rw [ofFile, hread]
  cases json with
  | object settings =>
    have hnone := flatTexts?_eq_none fun hscalar => hflat ⟨settings, rfl, hscalar⟩
    simp only [hnone]
  | null | bool | number | text | array => rfl

/-- The values that count are those of the two layers, one over the other. -/
lemma Holds.givenBy (h : Holds tree place settings) (henv : Members.Distinct env) :
    GivenBy (overlay (texts settings) env.defined) (text? settings env) := by
  have hdefined : Members.Distinct env.defined := henv.filterMap fun m n hn => by
    obtain ⟨s, -, rfl⟩ := Option.map_eq_some_iff.mp hn
    rfl
  intro name _
  have henv := henv.get?_filterMap id name
  have hfile := h.distinct_members.get?_filterMap (fun v => (scalarText? v).join) name
  rw [get?_overlay, hdefined.get?_reverse, text?, Environment.value?, fileText?, ← hfile]
  congr 2
  exact henv.symm

lemma Yields.load_eq {result : Except String Config} (henv : Members.Distinct env)
    (h : Yields tree place env result) :
    (load tree place env).mapError Problem.message = result := by
  cases h with
  | directory hnode =>
    rw [load, ofTree, hnode]
    rfl
  | unreadable htext hread =>
    simp only [load, ofTree, text?_eq_some_iff.mp htext, ofFile, hread]
    rfl
  | notFlat htext hread hflat =>
    simp only [load, ofTree, text?_eq_some_iff.mp htext, ofFile_of_not_flat hread hflat]
    rfl
  | settled hholds hsettles =>
    rw [hholds.load_eq]
    exact (hholds.givenBy henv).configure_eq hsettles

end Settings

end EdgeCaller
