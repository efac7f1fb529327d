/-!
# Sixteen-bit units

A text is a row of sixteen-bit units. A character up to U+FFFF is one unit, any other is a pair of
halves, a high one and then a low one. A half may also stand alone. It is no character then, and is
kept as one from a range that stands for nothing else, U+ED800 to U+EDFFF; a character that really
is from this range is kept as its two halves. So every row of units has one text, `ofUnits`, and
`unitsOfChars_ofUnits` says that the row can be read off it again.

A listing of variables is sorted by the units of their names, so that a character above U+FFFF comes
before U+E000.
-/

namespace EdgeCaller.Text

/-- Whether a unit is the first half of a pair. -/
def isHigh (u : Nat) : Bool := 0xd800 ≤ u && u < 0xdc00

/-- Whether a unit is the second half of a pair. -/
def isLow (u : Nat) : Bool := 0xdc00 ≤ u && u < 0xe000

/-- What a half is kept as. -/
def half (u : Nat) : Char := Char.ofNat (0xe0000 + u)

/-- The half that a character is kept for. -/
def half? (c : Char) : Option Nat :=
  if 0xed800 ≤ c.toNat ∧ c.toNat < 0xee000 then some (c.toNat - 0xe0000) else none

/-- The first half of a character above U+FFFF. -/
def highHalf (c : Char) : Nat := 0xd800 + (c.toNat - 0x10000) / 0x400

/-- The second half of a character above U+FFFF. -/
def lowHalf (c : Char) : Nat := 0xdc00 + (c.toNat - 0x10000) % 0x400

/-- The character that two halves make. -/
def joined (high low : Nat) : Char :=
  Char.ofNat (0x10000 + (high - 0xd800) * 0x400 + (low - 0xdc00))

/-- The units of one character. -/
def unitsOf (c : Char) : List Nat :=
  match half? c with
  | some u => [u]
  | none => if c.toNat < 0x10000 then [c.toNat] else [highHalf c, lowHalf c]

/-- The units of a row of characters. -/
def unitsOfChars (cs : List Char) : List Nat := cs.flatMap unitsOf

theorem unitsOfChars_cons (c : Char) (cs : List Char) :
    unitsOfChars (c :: cs) = unitsOf c ++ unitsOfChars cs := List.flatMap_cons

theorem unitsOfChars_append (cs ds : List Char) :
    unitsOfChars (cs ++ ds) = unitsOfChars cs ++ unitsOfChars ds := List.flatMap_append

/-- The units of a text. -/
def units (s : String) : List Nat := unitsOfChars s.toList

/-- A character as it is kept. -/
def ofChar (c : Char) : List Char :=
  if (half? c).isSome then [half (highHalf c), half (lowHalf c)] else [c]

/-- A text as it is kept. -/
def keep (s : String) : String := String.ofList (s.toList.flatMap ofChar)

/-- The text of a row of units. -/
def ofUnits : List Nat → List Char
  | [] => []
  | [u] => [if isHigh u || isLow u then half u else Char.ofNat u]
  | u :: v :: us =>
    if isHigh u && isLow v then ofChar (joined u v) ++ ofUnits us
    else (if isHigh u || isLow u then half u else Char.ofNat u) :: ofUnits (v :: us)

/-- The character that two that are kept for halves make together. -/
def pair? (c d : Char) : Option Char :=
  match half? c, half? d with
  | some u, some v => if isHigh u && isLow v then some (joined u v) else none
  | _, _ => none

theorem toNat_ofNat {n : Nat} (h : n < 0xd800 ∨ (0xdfff < n ∧ n < 0x110000)) :
    (Char.ofNat n).toNat = n := by
  have hv : n.isValidChar := h
  rw [Char.ofNat, dif_pos hv]
  rfl

private theorem half?_half {u : Nat} (h : isHigh u || isLow u) : half? (half u) = some u := by
  simp only [isHigh, isLow, Bool.or_eq_true, Bool.and_eq_true, decide_eq_true_eq] at h
  have hn : (half u).toNat = 0xe0000 + u := toNat_ofNat (by omega)
  simp only [half?, hn]
  rw [if_pos (by omega)]
  simp

private theorem unitsOf_half {u : Nat} (h : isHigh u || isLow u) : unitsOf (half u) = [u] := by
  simp [unitsOf, half?_half h]

private theorem unitsOf_ofNat {u : Nat} (hu : u < 0x10000) (h : (isHigh u || isLow u) = false) :
    unitsOf (Char.ofNat u) = [u] := by
  simp only [isHigh, isLow, Bool.or_eq_false_iff, Bool.and_eq_false_iff, decide_eq_false_iff_not]
    at h
  have hn : (Char.ofNat u).toNat = u := toNat_ofNat (by omega)
  have hh : half? (Char.ofNat u) = none := by
    simp only [half?, hn]
    rw [if_neg (by omega)]
  simp [unitsOf, hh, hn, hu]

private theorem unitsOf_single {u : Nat} (hu : u < 0x10000) :
    unitsOf (if isHigh u || isLow u then half u else Char.ofNat u) = [u] := by
  split
  · next h => exact unitsOf_half h
  · next h => exact unitsOf_ofNat hu (by simpa using h)

private theorem toNat_joined {u v : Nat} (hu : isHigh u) (hv : isLow v) :
    (joined u v).toNat = 0x10000 + (u - 0xd800) * 0x400 + (v - 0xdc00) := by
  simp only [isHigh, isLow, Bool.and_eq_true, decide_eq_true_eq] at hu hv
  exact toNat_ofNat (by omega)

private theorem highHalf_joined {u v : Nat} (hu : isHigh u) (hv : isLow v) :
    highHalf (joined u v) = u := by
  simp only [highHalf, toNat_joined hu hv]
  simp only [isHigh, isLow, Bool.and_eq_true, decide_eq_true_eq] at hu hv
  omega

private theorem lowHalf_joined {u v : Nat} (hu : isHigh u) (hv : isLow v) :
    lowHalf (joined u v) = v := by
  simp only [lowHalf, toNat_joined hu hv]
  simp only [isHigh, isLow, Bool.and_eq_true, decide_eq_true_eq] at hu hv
  omega

private theorem unitsOf_of_half?_none {u v : Nat} (hu : isHigh u) (hv : isLow v)
    (hn : half? (joined u v) = none) : unitsOf (joined u v) = [u, v] := by
  have hge : ¬(joined u v).toNat < 0x10000 := by
    have := toNat_joined hu hv
    omega
  rw [unitsOf, hn]
  simp only [hge, if_false, highHalf_joined hu hv, lowHalf_joined hu hv]

private theorem unitsOf_joined {u v : Nat} (hu : isHigh u) (hv : isLow v) :
    unitsOfChars (ofChar (joined u v)) = [u, v] := by
  unfold ofChar
  split
  · rw [unitsOfChars_cons, unitsOfChars_cons, highHalf_joined hu hv, lowHalf_joined hu hv,
      unitsOf_half (Bool.or_eq_true_iff.mpr (.inl hu)),
      unitsOf_half (Bool.or_eq_true_iff.mpr (.inr hv))]
    rfl
  · next h =>
    rw [unitsOfChars_cons, unitsOf_of_half?_none hu hv (Option.not_isSome_iff_eq_none.mp h)]
    rfl

/-- A row of units can be read off its text. -/
theorem unitsOfChars_ofUnits {us : List Nat} (h : ∀ u ∈ us, u < 0x10000) :
    unitsOfChars (ofUnits us) = us := by
  fun_induction ofUnits us with
  | case1 => rfl
  | case2 u =>
    simp only [unitsOfChars, List.flatMap_cons, List.flatMap_nil, List.append_nil]
    exact unitsOf_single (h u List.mem_cons_self)
  | case3 u v us hp ih =>
    obtain ⟨hu, hv⟩ := Bool.and_eq_true_iff.mp hp
    have hr := ih fun w hw => h w (List.mem_cons_of_mem _ (List.mem_cons_of_mem _ hw))
    rw [unitsOfChars_append, hr, unitsOf_joined hu hv]
    rfl
  | case4 u v us hp ih =>
    have hr := ih fun w hw => h w (List.mem_cons_of_mem _ hw)
    rw [unitsOfChars_cons, hr, unitsOf_single (h u List.mem_cons_self)]
    rfl

/-- The lexicographic order on lists of units. -/
def unitsLe : List Nat → List Nat → Bool
  | [], _ => true
  | _ :: _, [] => false
  | a :: as, b :: bs => if a == b then unitsLe as bs else decide (a < b)

/-- The order of a sorted listing. -/
def precedes (a b : String) : Bool := unitsLe (units a) (units b)

end EdgeCaller.Text
