import Mathlib.Data.List.Forall2
import Mathlib.Data.List.Infix
import Mathlib.Tactic.Common
import EdgeCaller.Text.Fold
import EdgeCaller.Text.LowerCase
import EdgeCaller.Text.Units
import EdgeCaller.Proofs.Blanks
/-!
Letter case in comparisons.

A text spells a name if it stands letter by letter for it, in whichever case. Only a letter of ASCII
stands for another one of a different case, and the Kelvin sign for a `k`. Comparing lower cases
finds just these spellings, and for that the lower case of ASCII and of the Kelvin sign is enough:
any other character has a lower case with something in it that is not ASCII, whatever stands around
the character.
-/

namespace EdgeCaller.Text

variable {c d : Char} {cs ds name : List Char} {endsWord : List Char → List Char → Bool}

/-! ### The lower case of a text -/

/-- A text of ASCII characters. -/
def isAscii (cs : List Char) : Bool := cs.all (·.toNat < 0x80)

lemma lt_of_mem_of_isAscii (h : isAscii cs = true) (hc : c ∈ cs) : c.toNat < 0x80 :=
  of_decide_eq_true (List.all_eq_true.mp h c hc)

/-- A character whose lower case is one of ASCII. -/
def IsPlain (c : Char) : Prop := c.toNat < 0x80 ∨ c = '\u212a'

/-- The capitals of ASCII are the first row, and the only one in ASCII. -/
lemma le_first_of_mem_tail : ∀ row ∈ capitals.tail, 0x80 ≤ row.first := by
  decide +kernel

lemma lowerCode_ascii {n : Nat} (hn : n < 0x80) :
    Char.ofNat (lowerCode n) = lowerChar (Char.ofNat n) := by
  have hothers : capitals.tail.findSome? (·.lowerCode? n) = none := by
    refine List.findSome?_eq_none_iff.mpr fun row hrow => ?_
    have hfirst := le_first_of_mem_tail row hrow
    rw [Capitals.lowerCode?, if_neg (by omega)]
  have hcapitals : capitals = ⟨0x41, 0x5a, 1, 0x61⟩ :: capitals.tail := rfl
  rw [lowerCode, hcapitals, List.findSome?_cons, hothers]
  clear hothers hcapitals
  revert n
  decide

lemma IsPlain.lowerOf_eq (h : IsPlain c) (endsWord : Bool) :
    lowerOf endsWord c = [lowerChar c] := by
  rcases h with h | rfl
  · have hdotted : c ≠ '\u0130' := by rintro rfl; exact absurd h (by decide)
    have hsigma : c ≠ '\u03a3' := by rintro rfl; exact absurd h (by decide)
    rw [lowerOf, if_neg hdotted, if_neg fun hc => hsigma hc.1, lowerCode_ascii h,
      Char.ofNat_toNat]
  · cases endsWord <;> decide +kernel

/-- Every row of capitals but that of ASCII and the Kelvin sign has its lower cases outside ASCII,
and all of them are characters. -/
lemma capitals_lower : ∀ row ∈ capitals, row.last < 0x80 ∨
    (row.first = 0x212a ∧ row.last = 0x212a) ∨
    (0x80 ≤ row.lower ∧ (row.lower + (row.last - row.first) < 0xd800 ∨
      (0xdfff < row.lower ∧ row.lower + (row.last - row.first) < 0x110000))) := by
  decide +kernel

lemma le_lowerCode (hc : ¬IsPlain c) : 0x80 ≤ (Char.ofNat (lowerCode c.toNat)).toNat := by
  obtain ⟨hascii, hkelvin⟩ := not_or.mp hc
  have hne : c.toNat ≠ 0x212a := fun h => hkelvin (by rw [← Char.ofNat_toNat c, h])
  unfold lowerCode
  cases hfound : capitals.findSome? (·.lowerCode? c.toNat) with
  | none =>
    rw [Option.getD_none, Char.ofNat_toNat]
    omega
  | some m =>
    obtain ⟨row, hrow, hm⟩ := List.exists_of_findSome?_eq_some hfound
    unfold Capitals.lowerCode? at hm
    split at hm
    · next hin =>
      obtain rfl := Option.some.inj hm
      have hlower := capitals_lower row hrow
      rw [Option.getD_some, toNat_ofNat (by omega)]
      omega
    · simp at hm

lemma exists_mem_lowerOf (hc : ¬IsPlain c) (endsWord : Bool) :
    ∃ d ∈ lowerOf endsWord c, 0x80 ≤ d.toNat := by
  unfold lowerOf
  split
  · exact ⟨'\u0307', by simp, by decide⟩
  · split
    · exact ⟨'\u03c2', by simp, by decide⟩
    · exact ⟨_, List.mem_singleton_self _, le_lowerCode hc⟩

lemma toLower_of_not_ascii (hc : ¬c.toNat < 0x80) : c.toLower = c := by
  have hle : ¬c.val ≤ 'Z'.val := fun h => hc (Nat.lt_of_le_of_lt h (by decide))
  exact dif_neg fun h => hle h.2

lemma lowerChar_of_not_isPlain (hc : ¬IsPlain c) : lowerChar c = c := by
  obtain ⟨hascii, hkelvin⟩ := not_or.mp hc
  rw [lowerChar, if_neg (by simpa using hkelvin), toLower_of_not_ascii hascii]

lemma lowerFrom_of_isPlain (h : ∀ c ∈ cs, IsPlain c) (before : List Char) :
    lowerFrom endsWord before cs = lower cs := by
  induction cs generalizing before with
  | nil => rfl
  | cons c cs ih =>
    obtain ⟨hc, hcs⟩ := List.forall_mem_cons.mp h
    rw [lowerFrom, hc.lowerOf_eq, ih hcs]
    rfl

lemma exists_mem_lowerFrom (hmem : c ∈ cs) (hc : ¬IsPlain c)
    (endsWord : List Char → List Char → Bool) (before : List Char) :
    ∃ d ∈ lowerFrom endsWord before cs, 0x80 ≤ d.toNat := by
  induction cs generalizing before with
  | nil => simp at hmem
  | cons b cs ih =>
    rcases List.mem_cons.mp hmem with rfl | hmem
    · obtain ⟨d, hd, hle⟩ := exists_mem_lowerOf hc (endsWord before cs)
      exact ⟨d, List.mem_append_left _ hd, hle⟩
    · obtain ⟨d, hd, hle⟩ := ih hmem (b :: before)
      exact ⟨d, List.mem_append_right _ hd, hle⟩

/-- **The lower case that a comparison needs.** Whatever rule there is for where a word ends, a text
has an ASCII text for its lower case exactly if `lower` gives that. -/
lemma lowerCase_eq_iff (hname : isAscii name = true)
    (endsWord : List Char → List Char → Bool) : lowerCase endsWord cs = name ↔ lower cs = name := by
  by_cases hplain : ∀ c ∈ cs, IsPlain c
  · rw [lowerCase, lowerFrom_of_isPlain hplain]
  · push Not at hplain
    obtain ⟨c, hmem, hc⟩ := hplain
    refine iff_of_false ?_ ?_
    · rintro rfl
      obtain ⟨d, hd, hle⟩ := exists_mem_lowerFrom hmem hc endsWord []
      exact absurd (lt_of_mem_of_isAscii hname hd) (by omega)
    · rintro rfl
      have hlower : c ∈ lower cs := List.mem_map.mpr ⟨c, hmem, lowerChar_of_not_isPlain hc⟩
      exact hc (.inl (lt_of_mem_of_isAscii hname hlower))

/-! ### Spellings of a name -/

/-- A character stands for a letter of a name: it is that letter in either case, or the Kelvin sign
where the letter is a `k`. -/
def StandsFor (c d : Char) : Prop :=
  sameLetter c d = true ∨ (c = '\u212a' ∧ sameLetter 'k' d = true)

/-- A text stands letter by letter for a name, and is as long. -/
def Spells (cs name : List Char) : Prop := List.Forall₂ StandsFor cs name

lemma toLower_eq_kelvin_iff : c.toLower = '\u212a' ↔ c = '\u212a' := by
  by_cases hc : c.toNat < 0x80
  · have hascii : ∀ n < 0x80, (Char.ofNat n).toLower ≠ '\u212a' := by decide
    refine iff_of_false ?_ ?_
    · rw [← Char.ofNat_toNat c]
      exact hascii _ hc
    · rintro rfl
      exact absurd hc (by decide)
  · rw [toLower_of_not_ascii hc]

lemma lowerChar_of_ne (hc : c ≠ '\u212a') : lowerChar c = c.toLower := by
  rw [lowerChar, if_neg (by simpa using hc)]

lemma standsFor_iff (hd : d ≠ '\u212a') : StandsFor c d ↔ lowerChar c = lowerChar d := by
  rw [lowerChar_of_ne hd, StandsFor, sameLetter, sameLetter, beq_iff_eq, beq_iff_eq]
  by_cases hc : c = '\u212a'
  · subst hc
    have hne : '\u212a' ≠ d.toLower := fun h => hd (toLower_eq_kelvin_iff.mp h.symm)
    simp [hne, lowerChar]
  · simp [hc, lowerChar_of_ne]

lemma StandsFor.lowerChar_eq (h : StandsFor c d) : lowerChar c = lowerChar d := by
  by_cases hd : d = '\u212a'
  · subst hd
    rcases h with h | ⟨-, h⟩
    · rw [toLower_eq_kelvin_iff.mp (beq_iff_eq.mp h)]
    · exact absurd h (by decide)
  · exact (standsFor_iff hd).mp h

lemma lower_eq_iff : lower cs = lower ds ↔ List.Forall₂ (lowerChar · = lowerChar ·) cs ds := by
  rw [lower, lower, ← List.forall₂_eq_eq_eq, List.forall₂_map_left_iff, List.forall₂_map_right_iff]

lemma Spells.lower_eq (h : Spells cs ds) : lower cs = lower ds :=
  lower_eq_iff.mpr (h.imp fun _ _ => StandsFor.lowerChar_eq)

lemma spells_iff (hname : isAscii name = true) : Spells cs name ↔ lower cs = lower name := by
  refine ⟨Spells.lower_eq, fun h => ?_⟩
  have hletters := (List.forall₂_and_left name cs).mpr
    ⟨fun _ => lt_of_mem_of_isAscii hname, lower_eq_iff.mp h.symm⟩
  refine hletters.flip.imp fun c d ⟨hd, hsame⟩ => (standsFor_iff ?_).mpr hsame.symm
  rintro rfl
  exact absurd hd (by decide)

/-! ### Blanks -/

lemma isBlank_lowerChar (c : Char) : isBlank (lowerChar c) = isBlank c := by
  by_cases hc : IsPlain c
  · rcases hc with hc | rfl
    · have hascii : ∀ n < 0x80, isBlank (lowerChar (Char.ofNat n)) = isBlank (Char.ofNat n) := by
        decide
      rw [← Char.ofNat_toNat c]
      exact hascii _ hc
    · decide
  · rw [lowerChar_of_not_isPlain hc]

lemma trim_lower (cs : List Char) : trim (lower cs) = lower (trim cs) := by
  have hblank : isBlank ∘ lowerChar = isBlank := funext isBlank_lowerChar
  simp only [trim, trimEnd, trimStart, lower, List.dropWhile_map, ← List.map_reverse, hblank]

/-- A text begins with a spelling of a name exactly if its lower case begins with the name's. -/
lemma exists_prefix_spells_iff (hname : isAscii name = true) :
    (∃ part, part <+: cs ∧ Spells part name) ↔ lower name <+: lower cs := by
  rw [lower.eq_def cs, List.prefix_map_iff]
  exact exists_congr fun part => and_congr_right' ((spells_iff hname).trans eq_comm)

/-- A text contains a spelling of a name exactly if its lower case contains the name's. -/
lemma exists_infix_spells_iff (hname : isAscii name = true) :
    (∃ part, part <:+: cs ∧ Spells part name) ↔ lower name <:+: lower cs := by
  rw [lower.eq_def cs, List.infix_map_iff]
  exact exists_congr fun part => and_congr_right' ((spells_iff hname).trans eq_comm)

end EdgeCaller.Text
