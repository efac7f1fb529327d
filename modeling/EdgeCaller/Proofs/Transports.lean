import Mathlib.Tactic.Common
import EdgeCaller.Transport
import EdgeCaller.Proofs.LetterCase
/-!
Reading the name of a transport.

A text names a transport if it spells the transport's name, blanks around it aside. No two
transports have names that one text can spell, and what wire a text leads to can be seen from the
text itself: its first letters tell the protocol, and a web socket is only used where it is named.
-/

namespace EdgeCaller.Transport

open Text (Spells StandsFor Pads isAscii trim lower lowerCase)

variable {s : String} {t u : Transport}

lemma isAscii_name (t : Transport) : isAscii t.name.toList = true := by
  cases t <;> decide

lemma isAscii_lower_name (t : Transport) : isAscii (lower t.name.toList) = true := by
  cases t <;> decide

lemma lower_name_injective (h : lower t.name.toList = lower u.name.toList) : t = u := by
  cases t <;> cases u <;> first | rfl | exact absurd h (by decide)

lemma parse?_eq_some_iff :
    parse? s = some t ↔ lower (trim s.toList) = lower t.name.toList := by
  refine ⟨fun h => ?_, fun h => ?_⟩
  · have hfound := List.find?_some h
    exact (beq_iff_eq.mp hfound).symm
  · have hsome : (parse? s).isSome :=
      List.find?_isSome.mpr ⟨t, mem_all t, beq_iff_eq.mpr h.symm⟩
    obtain ⟨u, hu⟩ := Option.isSome_iff_exists.mp hsome
    have hfound := List.find?_some hu
    rw [hu, lower_name_injective ((beq_iff_eq.mp hfound).trans h)]

lemma parse?_eq_some_iff_spells : parse? s = some t ↔ Spells (trim s.toList) t.name.toList :=
  parse?_eq_some_iff.trans (Text.spells_iff t.isAscii_name).symm

lemma parse?_eq_none_iff :
    parse? s = none ↔ ∀ t : Transport, ¬Spells (trim s.toList) t.name.toList := by
  simp only [← parse?_eq_some_iff_spells, Option.eq_none_iff_forall_ne_some, ne_eq]

/-- What a text names depends only on its lower case without the blanks around it. -/
lemma parse?_congr {s' : String} (h : lower (trim s'.toList) = lower (trim s.toList)) :
    parse? s' = parse? s :=
  Option.ext fun t => by
    rw [parse?_eq_some_iff, parse?_eq_some_iff, h]

/-- Comparing whole lower cases finds the same transport. -/
lemma parse?_eq_find? (endsWord : List Char → List Char → Bool) : parse? s =
    all.find? fun t => lowerCase endsWord t.name.toList == lowerCase endsWord (trim s.toList) := by
  rw [parse?]
  refine congrArg (all.find? ·) (funext fun t => ?_)
  have hname : lowerCase endsWord t.name.toList = lower t.name.toList :=
    (Text.lowerCase_eq_iff t.isAscii_lower_name endsWord).mpr rfl
  rw [hname, Bool.eq_iff_iff, beq_iff_eq, beq_iff_eq, eq_comm,
    ← Text.lowerCase_eq_iff t.isAscii_lower_name endsWord, eq_comm]

lemma wire_mqtt_iff (t : Transport) :
    t.wire ∈ [.mqtt, .mqttWs] ↔ lower "mqtt".toList <+: lower t.name.toList := by
  cases t <;> decide

lemma wire_webSocket_iff (t : Transport) :
    t.wire ∈ [.amqpWs, .mqttWs] ↔ lower "websocket".toList <:+: lower t.name.toList := by
  cases t <;> decide

/-- **Which texts name a transport.** A text names the transport whose name it spells, blanks around
it aside, and there is none if it spells no name. It spells one name at most. Neither the blanks
around a text nor the case of its letters changes what it names, and a name names what it is the
name of. The wire that a text leads to is one of the two for MQTT exactly if the text begins with a
spelling of `mqtt`, and one of the two for web sockets exactly if it contains a spelling of
`websocket`. Whatever the rule for the end of a word is, the transport is the one whose name has the
lower case of the text. -/
theorem names_what_it_spells (s : String) :
    (∀ t, parse? s = some t ↔ Spells (trim s.toList) t.name.toList) ∧
    (parse? s = none ↔ ∀ t : Transport, ¬Spells (trim s.toList) t.name.toList) ∧
    (∀ t u : Transport, Spells (trim s.toList) t.name.toList →
      Spells (trim s.toList) u.name.toList → t = u) ∧
    (∀ s' : String, Pads s.toList s'.toList → parse? s' = parse? s) ∧
    (∀ s' : String, List.Forall₂ StandsFor s'.toList s.toList → parse? s' = parse? s) ∧
    (∀ t : Transport, parse? t.name = some t) ∧
    (∀ t, parse? s = some t →
      (t.wire ∈ [.mqtt, .mqttWs] ↔ ∃ part, part <+: trim s.toList ∧ Spells part "mqtt".toList) ∧
      (t.wire ∈ [.amqpWs, .mqttWs] ↔
        ∃ part, part <:+: trim s.toList ∧ Spells part "websocket".toList)) ∧
    ∀ endsWord, parse? s = all.find? fun t =>
      lowerCase endsWord t.name.toList == lowerCase endsWord (trim s.toList) := by
  refine ⟨fun t => parse?_eq_some_iff_spells, parse?_eq_none_iff, fun t u ht hu => ?_,
    fun s' h => ?_, fun s' h => ?_, parse?_name, fun t h => ?_, parse?_eq_find?⟩
  · exact lower_name_injective (ht.lower_eq.symm.trans hu.lower_eq)
  · exact parse?_congr (congrArg lower h.trim_eq_trim)
  · refine parse?_congr ?_
    rw [← Text.trim_lower, ← Text.trim_lower, Text.Spells.lower_eq h]
  · have hlower := parse?_eq_some_iff.mp h
    rw [Text.exists_prefix_spells_iff (by decide), Text.exists_infix_spells_iff (by decide), hlower]
    exact ⟨t.wire_mqtt_iff, t.wire_webSocket_iff⟩

/-- Blanks, capitals and a Kelvin sign are read over, and a letter with a mark is not. -/
theorem names_what_it_spells_kelvin :
    parse? "\u00a0mQtT_wEbSoC\u212aeT_oNlY\n" = some .mqttWebSocketOnly ∧
    mqttWebSocketOnly.wire ∈ [.amqpWs, .mqttWs] ∧ parse? "Am\u0327qp" = none := by
  have hspells : Spells (trim "\u00a0mQtT_wEbSoC\u212aeT_oNlY\n".toList)
      mqttWebSocketOnly.name.toList := by
    refine (Text.spells_iff mqttWebSocketOnly.isAscii_name).mpr ?_
    decide +kernel
  have hparse := ((names_what_it_spells _).1 _).mpr hspells
  refine ⟨hparse, ?_, ?_⟩
  · refine ((names_what_it_spells _).2.2.2.2.2.2.1 _ hparse).2.mpr ?_
    refine (Text.exists_infix_spells_iff (by decide)).mpr ?_
    decide +kernel
  · refine (names_what_it_spells _).2.1.mpr fun t ht => ?_
    have hlower := ht.lower_eq
    cases t <;> exact absurd hlower (by decide +kernel)

end EdgeCaller.Transport
