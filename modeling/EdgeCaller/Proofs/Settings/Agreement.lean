import EdgeCaller.Proofs.Settings.Layers
import EdgeCaller.Proofs.Settings.Sessions
/-!
Environments that agree on most names.

Two environments agree outside some names if nothing else tells them apart. What is looked up under
any other name is then the same in both, and what a file adds to them is added to both. A load looks
up five names.
-/

namespace EdgeCaller

namespace Environment

/-- The variables of other names. -/
def without (names : List String) (env : Environment) : Environment :=
  env.filter fun m => !names.contains m.1

def AgreeOutside (names : List String) (env env' : Environment) : Prop :=
  env.without names = env'.without names

variable {names : List String} {env env' : Environment} {name : String}

namespace AgreeOutside

lemma get?_eq (h : AgreeOutside names env env') (hname : name ∉ names) :
    Members.get? name env = Members.get? name env' := by
  have hfree : names.contains name = false := by simpa using hname
  have hget : ∀ env : Environment,
      Members.get? name (env.without names) = Members.get? name env := by
    intro env
    rw [without, Members.get?_filter (fun name => !names.contains name), hfree]
    rfl
  rw [← hget env, ← hget env', show env.without names = env'.without names from h]

lemma value?_eq (h : AgreeOutside names env env') (hname : name ∉ names) :
    env.value? name = env'.value? name := by
  rw [value?, value?, h.get?_eq hname]

/-- The last value of a name is the same as well. -/
lemma get?_defined_eq (h : AgreeOutside names env env') (hname : name ∉ names) :
    Members.get? name env.defined.reverse = Members.get? name env'.defined.reverse := by
  have hfree : names.contains name = false := by simpa using hname
  have hdefined : ∀ env : Environment, (env.without names).defined =
      env.defined.filter fun m => !names.contains m.1 := by
    intro env
    induction env with
    | nil => rfl
    | cons m env ih =>
      obtain ⟨name, value⟩ := m
      by_cases hm : names.contains name = true <;> cases value <;>
        simp_all [without, defined]
  have hget : ∀ env : Environment,
      Members.get? name (env.without names).defined.reverse =
        Members.get? name env.defined.reverse := by
    intro env
    rw [hdefined, ← List.filter_reverse, Members.get?_filter (fun name => !names.contains name),
      hfree]
    rfl
  rw [← hget env, ← hget env', show env.without names = env'.without names from h]

/-- A file adds the same to both. -/
lemma union (h : AgreeOutside names env env') (entries : Settings.Layer) :
    AgreeOutside names (env.union entries) (env'.union entries) := by
  have hadded : ∀ env : Environment, (env.union entries).without names = env.without names ++
      ((entries.filter fun m => !names.contains m.1).filter fun m => !env.has m.1).map
        fun m => (m.1, some m.2) := by
    intro env
    rw [Environment.union, without, List.filter_append, List.filter_map, List.filter_filter,
      List.filter_filter]
    simp only [Function.comp_def, Bool.and_comm]
    rfl
  have hhas : ∀ m ∈ entries.filter fun m => !names.contains m.1,
      (!env.has m.1) = !env'.has m.1 := by
    intro m hm
    have hfree : m.1 ∉ names := by simpa using (List.mem_filter.mp hm).2
    rw [has, has, h.get?_eq hfree]
  rw [AgreeOutside, hadded, hadded, List.filter_congr hhas,
    show env.without names = env'.without names from h]

lemma clientConfiguration_eq (h : AgreeOutside names env env')
    (hfree : ∀ name ∈ clientVariables, name ∉ names) :
    env.clientConfiguration = env'.clientConfiguration := by
  refine List.map_congr_left fun name hname => ?_
  rw [shown, shown, h.value?_eq (hfree name hname)]

end AgreeOutside

end Environment

namespace Settings

variable {names : List String} {env env' : Environment}

lemma load_congr (h : env.AgreeOutside names env')
    (hfree : ∀ name ∈ Settings.names, name ∉ names) (tree : FileTree)
    (place : List String) : load tree place env = load tree place env' := by
  unfold load
  cases ofTree tree place with
  | error p => rfl
  | ok lower =>
    refine configure_congr fun name hname => ?_
    rw [get?_overlay, get?_overlay, h.get?_defined_eq (hfree name hname)]

/-- A first load gives the same from both, and finds the same file. -/
lemma Session.load_congr (h : env.AgreeOutside names env')
    (hfree : ∀ name ∈ envFileVariable :: Settings.names, name ∉ names) (files : FileTree) :
    ((⟨files, env, false⟩ : Session).load {}).1 = ((⟨files, env', false⟩ : Session).load {}).1 ∧
      ∃ entries, ((⟨files, env, false⟩ : Session).load {}).2.env = env.union entries ∧
        ((⟨files, env', false⟩ : Session).load {}).2.env = env'.union entries := by
  obtain ⟨hfile, hnames⟩ := List.forall_mem_cons.mp hfree
  have hfound : found ⟨files, env, false⟩ none = found ⟨files, env', false⟩ none := by
    have hname := h.value?_eq hfile
    have hplace : ∀ options,
        place ⟨files, env, false⟩ options = place ⟨files, env', false⟩ options := place_congr rfl
    unfold envFileVariable at hname
    simp only [found, hname, hplace]
  have hadds : ∀ env : Environment, ((⟨files, env, false⟩ : Session).load {}).2.env =
      env.union (found ⟨files, env, false⟩ none) := fun env => by
    rw [load_of_not_loaded rfl none]
  refine ⟨?_, _, hadds env, by rw [hadds env', hfound]⟩
  have hloads : ∀ env : Environment, ((⟨files, env, false⟩ : Session).load {}).1 =
      Settings.load files files.directory ((⟨files, env, false⟩ : Session).load {}).2.env :=
    fun _ => rfl
  rw [hloads, hloads, hadds, hadds, hfound]
  exact Settings.load_congr (h.union _) hnames _ _

end Settings

end EdgeCaller
