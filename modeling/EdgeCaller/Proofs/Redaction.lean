import Mathlib.Data.List.Forall2
import Mathlib.Tactic.Common
import EdgeCaller.Redaction
/-!
What redaction hides.

Two texts agree up to their keys if other characters stand in the keys of the one than in those of
the other. They may be any but a semicolon, and may spell the name of a key themselves. What is
shown of two such texts is the same, wherever a scan of them stands: a scan reads no further ahead
than the name of a key is long, and the two agree that far.
-/

namespace EdgeCaller.Redaction

/-- A spelling of the name of the access key. -/
def IsKeyName (cs : List Char) : Prop :=
  List.Forall₂ (fun a b => Text.sameLetter a b = true) cs keyName

/-- Two texts that agree up to their keys. -/
inductive SameButKeys : List Char → List Char → Prop
  | nil : SameButKeys [] []
  | shown (c : Char) {cs ds : List Char} : SameButKeys cs ds → SameButKeys (c :: cs) (c :: ds)
  | key {name key key' cs ds : List Char} : IsKeyName name → ';' ∉ key → ';' ∉ key' →
      SameButKeys cs ds → SameButKeys (name ++ key ++ cs) (name ++ key' ++ ds)

variable {cs ds name key : List Char}

lemma SameButKeys.append (h : SameButKeys cs ds) (before : List Char) :
    SameButKeys (before ++ cs) (before ++ ds) := by
  induction before with
  | nil => exact h
  | cons c before ih => exact .shown c ih

lemma SameButKeys.refl (cs : List Char) : SameButKeys cs cs := by
  simpa using SameButKeys.nil.append cs

/-! ### The name of a key -/

lemma length_keyName : keyName.length = 16 := by decide

lemma zip_take_length {α β : Type} (cs : List α) (ds : List β) :
    (cs.take ds.length).zip ds = cs.zip ds := by
  induction ds generalizing cs with
  | nil => simp
  | cons d ds ih =>
    cases cs with
    | nil => rfl
    | cons c cs => simp [ih cs]

/-- Whether a text begins with the name of a key can be told from as many characters as that has. -/
lemma startsWithKey_take (cs : List Char) :
    startsWithKey (cs.take keyName.length) = startsWithKey cs := by
  have hle : keyName.length ≤ (cs.take keyName.length).length ↔ keyName.length ≤ cs.length := by
    rw [List.length_take]
    omega
  rw [startsWithKey, startsWithKey, zip_take_length]
  simp only [hle]

namespace IsKeyName

lemma length (h : IsKeyName name) : name.length = keyName.length := List.Forall₂.length_eq h

lemma startsWithKey_append (h : IsKeyName name) (cs : List Char) :
    startsWithKey (name ++ cs) = true := by
  have htake : (name ++ cs).take keyName.length = name := List.take_left' h.length
  rw [← startsWithKey_take, htake, startsWithKey, Bool.and_eq_true, List.all_eq_true]
  refine ⟨decide_eq_true (Nat.le_of_eq h.length.symm), fun m hm => ?_⟩
  exact (List.forall₂_iff_zip.mp h).2 hm

/-- No letter of the name is a semicolon. -/
lemma semicolon_not_mem (h : IsKeyName name) : ';' ∉ name := by
  have hletters : (keyName.all fun b => !Text.sameLetter ';' b) = true := by decide
  unfold IsKeyName at h
  generalize keyName = letters at h hletters
  induction h with
  | nil => exact List.not_mem_nil
  | @cons a b name letters hsame _ ih =>
    rw [List.all_cons, Bool.and_eq_true] at hletters
    obtain ⟨hb, hletters⟩ := hletters
    intro hmem
    rcases List.mem_cons.mp hmem with rfl | hmem
    · simp [hsame] at hb
    · exact ih hletters hmem

end IsKeyName

/-- Two texts that agree up to their keys agree on as many characters as the name of a key has. -/
lemma SameButKeys.take_eq (h : SameButKeys cs ds) {n : Nat} (hn : n ≤ keyName.length) :
    cs.take n = ds.take n := by
  induction h generalizing n with
  | nil => rfl
  | shown c _ ih =>
    cases n with
    | zero => rfl
    | succ n => rw [List.take_succ_cons, List.take_succ_cons, ih (Nat.le_of_succ_le hn)]
  | @key name _ _ _ _ hname =>
    have hle : n ≤ name.length := hname.length ▸ hn
    rw [List.append_assoc, List.append_assoc, List.take_append_of_le_length hle,
      List.take_append_of_le_length hle]

lemma SameButKeys.startsWithKey_eq (h : SameButKeys cs ds) :
    startsWithKey cs = startsWithKey ds := by
  rw [← startsWithKey_take cs, ← startsWithKey_take ds, h.take_eq (Nat.le_refl _)]

/-! ### Scans -/

/-- What stands in a key is left out. -/
lemma scan_key_append (h : ';' ∉ key) (cs : List Char) :
    scan .key (key ++ cs) = scan .key cs := by
  induction key with
  | nil => rfl
  | cons c key ih =>
    obtain ⟨hc, hkey⟩ := not_or.mp (mt List.mem_cons.mpr h)
    have hne : (c == ';') = false := by simpa using Ne.symm hc
    rw [List.cons_append, scan, hne]
    exact ih hkey

/-- The name of a key is shown to its end, and what follows it is masked. -/
lemma scan_name_append {left : Nat} (h : name.length = left + 1) (cs : List Char) :
    scan (.name left) (name ++ cs) = name ++ mask ++ scan .key cs := by
  induction left generalizing name with
  | zero =>
    obtain ⟨c, rfl⟩ := List.length_eq_one_iff.mp h
    rfl
  | succ left ih =>
    cases name with
    | nil => simp at h
    | cons c name =>
      rw [List.cons_append, scan, ih (by simpa using h)]
      rfl

lemma scan_shown_append (h : IsKeyName name) (cs : List Char) :
    scan .shown (name ++ cs) = name ++ mask ++ scan .key cs := by
  have hstarts := h.startsWithKey_append cs
  cases name with
  | nil => simpa [length_keyName] using h.length
  | cons c name =>
    have hname : name.length = keyName.length - 2 + 1 := by
      have hlength := h.length
      rw [List.length_cons] at hlength
      rw [length_keyName] at hlength ⊢
      omega
    rw [List.cons_append] at hstarts ⊢
    rw [scan, if_pos hstarts, scan_name_append hname]
    rfl

/-- Where a name begins inside the name of a key, what is left of it belongs to that key. -/
lemma scan_name_key {left : Nat} (hleft : left + 1 ≤ name.length) (hname : ';' ∉ name)
    (hkey : ';' ∉ key) (cs : List Char) :
    scan (.name left) (name ++ key ++ cs) = name.take (left + 1) ++ mask ++ scan .key cs := by
  have hparts : name ++ key ++ cs =
      name.take (left + 1) ++ (name.drop (left + 1) ++ key ++ cs) := by
    rw [← List.append_assoc, ← List.append_assoc, List.take_append_drop]
  have hhidden : ';' ∉ name.drop (left + 1) ++ key := by
    intro hmem
    rcases List.mem_append.mp hmem with hmem | hmem
    · exact hname (List.mem_of_mem_drop hmem)
    · exact hkey hmem
  rw [hparts, scan_name_append (List.length_take_of_le hleft), scan_key_append hhidden]

/-- The places that a scan comes to. -/
def Place.Occurs : Place → Prop
  | .shown | .key => True
  | .name left => left + 2 ≤ keyName.length

/-- Two texts that agree up to their keys are scanned alike, at every place. -/
lemma SameButKeys.scan_eq (h : SameButKeys cs ds) {p : Place} (hp : p.Occurs) :
    scan p cs = scan p ds := by
  induction h generalizing p with
  | nil => rfl
  | @shown c cs ds h ih =>
    match p with
    | .shown =>
      have hstarts := (SameButKeys.shown c h).startsWithKey_eq
      have hname : (Place.name (keyName.length - 2)).Occurs := Nat.le_refl _
      rw [scan, scan, hstarts, ih hname, ih (p := .shown) trivial]
    | .name 0 => rw [scan, scan, ih (p := .key) trivial]
    | .name (left + 1) =>
      have hname : (Place.name left).Occurs := Nat.le_of_succ_le hp
      rw [scan, scan, ih hname]
    | .key => rw [scan, scan, ih (p := .shown) trivial, ih (p := .key) trivial]
  | @key name key key' cs ds hname hkey hkey' _ ih =>
    have hrest : scan .key cs = scan .key ds := ih trivial
    match p with
    | .shown =>
      rw [List.append_assoc, List.append_assoc, scan_shown_append hname, scan_shown_append hname,
        scan_key_append hkey, scan_key_append hkey', hrest]
    | .name left =>
      have hleft : left + 1 ≤ name.length := by
        rw [hname.length]
        exact Nat.le_of_succ_le hp
      rw [scan_name_key hleft hname.semicolon_not_mem hkey,
        scan_name_key hleft hname.semicolon_not_mem hkey', hrest]
    | .key =>
      rw [List.append_assoc, List.append_assoc, scan_key_append hname.semicolon_not_mem,
        scan_key_append hname.semicolon_not_mem, scan_key_append hkey, scan_key_append hkey', hrest]

/-- **Redaction shows nothing of a key.** -/
theorem redact_eq_redact {s t : String} (h : SameButKeys s.toList t.toList) :
    redact s = redact t := by
  rw [redact, redact, redactChars, redactChars, h.scan_eq (p := .shown) trivial]

end EdgeCaller.Redaction
