import Mathlib.Data.List.Infix
import EdgeCaller.Proofs.Redaction
/-!
Redaction setting by setting.

A connection string is split at its semicolons, and in each setting what follows the first name of
a key is replaced. A scan of the whole text does the same: a name has no semicolon, so none reaches
over the end of its setting, and a later name in the same setting stands in what is left out. The
induction is on the settings, the last of which has no semicolon after it.
-/

namespace EdgeCaller.Redaction

/-- Whether a text is a spelling of the name can be computed. -/
instance : DecidablePred IsKeyName := fun cs =>
  inferInstanceAs (Decidable (List.Forall₂ (fun a b => Text.sameLetter a b = true) cs keyName))

/-- Where the first name of a key begins. -/
def firstKey? (setting : List Char) : Option Nat :=
  setting.tails.findIdx? fun rest => IsKeyName (rest.take keyName.length)

/-- A setting with everything after the first name of a key replaced. -/
def hideKey (setting : List Char) : List Char :=
  match firstKey? setting with
  | some n => setting.take (n + keyName.length) ++ mask
  | none => setting

/-- A text with the key of each setting hidden. -/
def bySettings (cs : List Char) : List Char :=
  [';'].intercalate ((cs.splitOn ';').map hideKey)

variable {c : Char} {cs ds name key setting : List Char}

/-! ### One setting -/

lemma startsWithKey_iff : startsWithKey cs = true ↔ IsKeyName (cs.take keyName.length) := by
  constructor
  · intro h
    rw [startsWithKey, Bool.and_eq_true, List.all_eq_true, decide_eq_true_eq] at h
    refine List.forall₂_iff_zip.mpr ⟨List.length_take_of_le h.1, fun hm => ?_⟩
    rw [zip_take_length] at hm
    exact h.2 _ hm
  · intro h
    rw [← List.take_append_drop keyName.length cs]
    exact h.startsWithKey_append _

lemma hideKey_nil : hideKey [] = [] := by decide

lemma hideKey_cons_of_starts (h : startsWithKey (c :: cs) = true) :
    hideKey (c :: cs) = (c :: cs).take keyName.length ++ mask := by
  have hfirst : firstKey? (c :: cs) = some 0 := by
    rw [firstKey?, List.tails_cons, List.findIdx?_cons, if_pos]
    exact decide_eq_true (startsWithKey_iff.mp h)
  simp only [hideKey, hfirst, Nat.zero_add]

lemma hideKey_cons (h : startsWithKey (c :: cs) = false) : hideKey (c :: cs) = c :: hideKey cs := by
  have hfirst : firstKey? (c :: cs) = (firstKey? cs).map (· + 1) := by
    rw [firstKey?, List.tails_cons, List.findIdx?_cons, if_neg, ← firstKey?]
    rw [decide_eq_true_eq, ← startsWithKey_iff, h]
    exact Bool.false_ne_true
  unfold hideKey
  rw [hfirst]
  cases firstKey? cs with
  | none => rfl
  | some n =>
    simp only [Option.map_some, Nat.add_right_comm n 1, List.take_succ_cons, List.cons_append]

/-- A setting and the same one with its key hidden agree up to their keys. -/
lemma sameButKeys_hideKey (h : ';' ∉ setting) (hcs : SameButKeys cs ds) :
    SameButKeys (setting ++ cs) (hideKey setting ++ ds) := by
  induction setting with
  | nil => simpa [hideKey_nil] using hcs
  | cons c setting ih =>
    cases hstarts : startsWithKey (c :: setting) with
    | true =>
      rw [hideKey_cons_of_starts hstarts]
      have hkey : ';' ∉ (c :: setting).drop keyName.length :=
        fun hmem => h (List.mem_of_mem_drop hmem)
      have hsame := SameButKeys.key (startsWithKey_iff.mp hstarts) hkey
        (by decide : ';' ∉ mask) hcs
      rwa [List.take_append_drop] at hsame
    | false =>
      rw [hideKey_cons hstarts]
      exact .shown c (ih fun hmem => h (List.mem_cons_of_mem c hmem))

/-! ### The end of a setting -/

/-- A text is at the end of a setting. -/
def AtEnd (cs : List Char) : Prop := ∀ c ∈ cs.head?, c = ';'

lemma atEnd_nil : AtEnd [] := fun _ h => by simp at h

lemma atEnd_semicolon (cs : List Char) : AtEnd (';' :: cs) := fun _ h => by
  simpa [eq_comm] using h

/-- A name that begins in a setting ends in it. -/
lemma AtEnd.startsWithKey_append (h : AtEnd cs) (setting : List Char) :
    startsWithKey (setting ++ cs) = startsWithKey setting := by
  rw [Bool.eq_iff_iff, startsWithKey_iff, startsWithKey_iff]
  rcases Nat.lt_or_ge setting.length keyName.length with hlt | hle
  · constructor
    · intro hname
      -- the name would go on with the semicolon after the setting
      exfalso
      cases cs with
      | nil =>
        have hlength := hname.length
        rw [List.append_nil, List.length_take] at hlength
        omega
      | cons c cs =>
        refine hname.semicolon_not_mem ?_
        rw [h c rfl, List.take_append]
        have hmore : keyName.length - setting.length = keyName.length - setting.length - 1 + 1 := by
          omega
        rw [hmore, List.take_succ_cons]
        exact List.mem_append_right _ List.mem_cons_self
    · intro hname
      have hlength := hname.length
      rw [List.length_take] at hlength
      omega
  · rw [List.take_append_of_le_length hle]

/-- At the end of a setting it is the same whether the scan stands in a key. -/
lemma AtEnd.scan_eq (h : AtEnd cs) : scan .key cs = scan .shown cs := by
  cases cs with
  | nil => rfl
  | cons c cs =>
    obtain rfl := h c rfl
    have hstarts : startsWithKey (';' :: cs) = false := by
      rw [← List.nil_append (';' :: cs), (atEnd_semicolon cs).startsWithKey_append]
      decide
    rw [scan, scan, hstarts]
    rfl

/-- A scan hides the key of one setting and goes on after it. -/
lemma scan_setting (h : ';' ∉ setting) (hend : AtEnd cs) :
    scan .shown (setting ++ cs) = hideKey setting ++ scan .shown cs := by
  induction setting with
  | nil => rw [hideKey_nil, List.nil_append, List.nil_append]
  | cons c setting ih =>
    cases hstarts : startsWithKey (c :: setting) with
    | true =>
      have hname := startsWithKey_iff.mp hstarts
      have hkey : ';' ∉ (c :: setting).drop keyName.length :=
        fun hmem => h (List.mem_of_mem_drop hmem)
      rw [hideKey_cons_of_starts hstarts, ← hend.scan_eq, ← scan_key_append hkey,
        ← scan_shown_append hname, ← List.append_assoc, List.take_append_drop]
    | false =>
      have hstarts' : startsWithKey (c :: (setting ++ cs)) = false := by
        rw [← List.cons_append, hend.startsWithKey_append, hstarts]
      rw [hideKey_cons hstarts, List.cons_append, scan, hstarts', if_neg Bool.false_ne_true,
        ih fun hmem => h (List.mem_cons_of_mem c hmem), List.cons_append]

/-! ### All settings -/

/-- What holds of a setting alone, and of a setting before a text of which it holds, holds of every
text. -/
lemma settings_induction {P : List Char → Prop} (last : ∀ setting, ';' ∉ setting → P setting)
    (next : ∀ setting cs, ';' ∉ setting → P cs → P (setting ++ ';' :: cs)) (cs : List Char) :
    P cs := by
  induction hn : cs.length using Nat.strong_induction_on generalizing cs with
  | _ n ih =>
    by_cases hmem : ';' ∈ cs
    · obtain ⟨setting, rest, rfl, hsetting⟩ := List.eq_append_cons_of_mem hmem
      refine next setting rest hsetting (ih rest.length ?_ rest rfl)
      rw [← hn, List.length_append, List.length_cons]
      omega
    · exact last cs hmem

lemma redactChars_setting (h : ';' ∉ setting) : redactChars setting = hideKey setting := by
  have hscan := scan_setting h atEnd_nil
  rwa [List.append_nil, scan, List.append_nil] at hscan

lemma redactChars_setting_append (h : ';' ∉ setting) (cs : List Char) :
    redactChars (setting ++ ';' :: cs) = hideKey setting ++ ';' :: redactChars cs := by
  have hscan := scan_setting h (atEnd_semicolon cs)
  have hsemicolon : scan .shown (';' :: cs) = ';' :: scan .shown cs :=
    (atEnd_semicolon cs).scan_eq.symm
  rw [redactChars, hscan, hsemicolon, redactChars]

lemma redactChars_eq_bySettings (cs : List Char) : redactChars cs = bySettings cs := by
  induction cs using settings_induction with
  | last setting h =>
    rw [redactChars_setting h, bySettings, List.splitOn_eq_singleton h, List.map_singleton,
      List.intercalate_singleton]
  | next setting cs h ih =>
    have hmore : (cs.splitOn ';').map hideKey ≠ [] := by simp [List.splitOn_ne_nil]
    rw [redactChars_setting_append h, ih, bySettings, bySettings,
      List.splitOn_append_cons_self_of_not_mem h, List.map_cons,
      List.intercalate_cons_of_ne_nil hmore, List.append_assoc, List.singleton_append]

lemma redactChars_append (cs ds : List Char) :
    redactChars (cs ++ ';' :: ds) = redactChars cs ++ ';' :: redactChars ds := by
  induction cs using settings_induction with
  | last setting h => rw [redactChars_setting_append h, redactChars_setting h]
  | next setting cs h ih =>
    rw [List.append_assoc, List.cons_append, redactChars_setting_append h, ih,
      redactChars_setting_append h, List.append_assoc, List.cons_append]

/-- A text agrees with what is shown of it up to the keys. -/
lemma sameButKeys_redactChars (cs : List Char) : SameButKeys cs (redactChars cs) := by
  induction cs using settings_induction with
  | last setting h =>
    have hsame := sameButKeys_hideKey h .nil
    rwa [List.append_nil, List.append_nil, ← redactChars_setting h] at hsame
  | next setting cs h ih =>
    rw [redactChars_setting_append h]
    exact sameButKeys_hideKey h (.shown ';' ih)

lemma redactChars_intercalate (texts : List (List Char)) :
    redactChars ([';'].intercalate texts) = [';'].intercalate (texts.map redactChars) := by
  induction texts with
  | nil => rfl
  | cons cs texts ih =>
    cases texts with
    | nil => rw [List.map_singleton, List.intercalate_singleton, List.intercalate_singleton]
    | cons ds texts =>
      rw [List.map_cons, List.intercalate_cons_cons, List.append_assoc, List.singleton_append,
        redactChars_append, ih, List.map_cons, List.intercalate_cons_cons, List.append_assoc,
        List.singleton_append]

/-- A text without the name of a key is shown as it is. -/
lemma redactChars_of_free (h : ∀ name, name <:+: cs → ¬IsKeyName name) : redactChars cs = cs := by
  induction cs with
  | nil => rfl
  | cons c cs ih =>
    have hstarts : startsWithKey (c :: cs) = false := by
      rw [Bool.eq_false_iff, ne_eq, startsWithKey_iff]
      exact h _ (List.take_prefix _ _).isInfix
    have hcs : scan .shown cs = cs := ih fun name hname =>
      h name (hname.trans (List.suffix_cons c cs).isInfix)
    rw [redactChars, scan, hstarts, if_neg Bool.false_ne_true, hcs]

/-! ### A setting of another name -/

lemma mem_zip_append {α β : Type} {a : α} {b : β} {as : List α} {bs : List β}
    (h : (a, b) ∈ as.zip bs) (as' : List α) : (a, b) ∈ (as ++ as').zip bs := by
  induction as generalizing bs with
  | nil => simp at h
  | cons _ as ih =>
    cases bs with
    | nil => simp at h
    | cons _ bs =>
      rw [List.cons_append, List.zip_cons_cons, List.mem_cons]
      rw [List.zip_cons_cons, List.mem_cons] at h
      exact h.imp_right ih

/-- A text whose letters are not those of the name is not the beginning of one. -/
lemma startsWithKey_append_of_differs
    (h : ((cs.zip keyName).all fun (a, b) => Text.sameLetter a b) = false) (ds : List Char) :
    startsWithKey (cs ++ ds) = false := by
  rw [Bool.eq_false_iff] at h ⊢
  intro hstarts
  rw [startsWithKey, Bool.and_eq_true, List.all_eq_true] at hstarts
  exact h (List.all_eq_true.mpr fun m hm => hstarts.2 m (mem_zip_append hm ds))

/-- Before a text, a beginning is shown as it is if at none of its places it is that of a name. -/
lemma redactChars_append_of_differs {before : List Char}
    (h : ∀ rest ∈ before.tails, rest = [] ∨
      ((rest.zip keyName).all fun (a, b) => Text.sameLetter a b) = false) (cs : List Char) :
    redactChars (before ++ cs) = before ++ redactChars cs := by
  induction before with
  | nil => rfl
  | cons c before ih =>
    rw [List.tails_cons] at h
    obtain ⟨hc, hbefore⟩ := List.forall_mem_cons.mp h
    have hstarts := startsWithKey_append_of_differs (hc.resolve_left (List.cons_ne_nil c before)) cs
    rw [List.cons_append] at hstarts ⊢
    rw [redactChars, scan, hstarts, if_neg Bool.false_ne_true, List.cons_append]
    exact congrArg (c :: ·) (ih hbefore)

lemma toList_redact (s : String) : (redact s).toList = redactChars s.toList :=
  String.toList_ofList

/-- **Redaction goes setting by setting and is complete.** What is shown of a text is the text with
the key of each setting hidden. So a text that was redacted once is not changed again, texts may be
joined by semicolons before or after they are redacted, a text without the name of a key is shown as
it is, the name of the key's policy among them, and two texts that differ in nothing but their keys
are shown alike. -/
theorem redact_bySettings (s t : String) (texts : List String) :
    redact s = String.ofList (bySettings s.toList) ∧
    redact (redact s) = redact s ∧
    redact (";".intercalate texts) = ";".intercalate (texts.map redact) ∧
    ((∀ name, name <:+: s.toList → ¬IsKeyName name) → redact s = s) ∧
    redact ("SharedAccessKeyName=" ++ s) = "SharedAccessKeyName=" ++ redact s ∧
    (SameButKeys s.toList t.toList → redact s = redact t) := by
  refine ⟨?_, ?_, ?_, fun hfree => ?_, ?_, redact_eq_redact⟩
  · rw [redact, redactChars_eq_bySettings]
  · refine (redact_eq_redact ?_).symm
    rw [toList_redact]
    exact sameButKeys_redactChars s.toList
  · have hredact : (texts.map redact).map String.toList =
        (texts.map String.toList).map redactChars := by
      simp only [List.map_map, Function.comp_def, toList_redact]
    rw [← String.toList_inj, toList_redact, String.toList_intercalate,
      String.toList_intercalate, hredact]
    exact redactChars_intercalate _
  · rw [redact, redactChars_of_free hfree, String.ofList_toList]
  · rw [← String.toList_inj, toList_redact, String.toList_append, String.toList_append,
      toList_redact]
    exact @redactChars_append_of_differs "SharedAccessKeyName=".toList (by decide) _

/-- A key is hidden however its name is written, and the name of its policy is shown. -/
theorem redact_bySettings_policy :
    let s := "SharedAccessKeyName=owner;sharedaccesskey=a=SharedAccessKey=b"
    let t := "SharedAccessKeyName=owner;sharedaccesskey=\nc"
    redact s = "SharedAccessKeyName=owner;sharedaccesskey=[redacted]" ∧ redact t = redact s ∧
    redact "SharedAccessKeyName=owner" = "SharedAccessKeyName=owner" := by
  intro s t
  let policy := "SharedAccessKeyName=owner;".toList
  let name := "sharedaccesskey=".toList
  have hs : s.toList = policy ++ (name ++ "a=SharedAccessKey=b".toList ++ []) := by decide +kernel
  have ht : t.toList = policy ++ (name ++ "\nc".toList ++ []) := by decide +kernel
  have hsame : SameButKeys t.toList s.toList := by
    rw [hs, ht]
    exact (SameButKeys.key (by decide) (by decide) (by decide) .nil).append policy
  have hplaces : ∀ n ≤ 25, startsWithKey ("SharedAccessKeyName=owner".toList.drop n) = false := by
    decide +kernel
  have hfree : ∀ name, name <:+: "SharedAccessKeyName=owner".toList → ¬IsKeyName name := by
    rintro name ⟨before, after, hparts⟩ hname
    have hlength := congrArg List.length hparts
    rw [List.length_append, List.length_append] at hlength
    have hplace := hplaces before.length (by simp at hlength; omega)
    rw [← hparts, List.append_assoc, List.drop_left, hname.startsWithKey_append] at hplace
    contradiction
  exact ⟨(redact_bySettings s s []).1.trans (by decide +kernel),
    (redact_bySettings t s []).2.2.2.2.2 hsame,
    (redact_bySettings "SharedAccessKeyName=owner" s []).2.2.2.1 hfree⟩

end EdgeCaller.Redaction
