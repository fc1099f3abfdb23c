/-
UTF-16 loses nothing.

Every character is written as one unit that is no surrogate, or as a high surrogate and the low one
that belongs to it (`unitsOf_cases`).  So the units of a text are well-formed, reading them back
gives the text (`decode_encode`), and different texts have different units.

* `Units.toText_ofString` — a buffer made from a text has that text;
* `wellFormed_encode`, `length_encode` — what its units are like, and how many there are;
* `Units.ofString_lossless` — all of it together.

The one fact about characters that is needed is that no character is itself a surrogate: this
decides for every unit which branch of `decode` reads it.
-/
import ScriptHost.Text.Units

namespace ScriptHost.Text

variable {us vs : List UInt16} {u v : UInt16}

/-! ### Characters and units -/

/-- A character is no surrogate. -/
theorem toNat_not_surrogate (c : Char) : c.toNat < 0xD800 ∨ 0xDFFF < c.toNat := by
  have hv : c.toNat < 0xD800 ∨ (0xDFFF < c.toNat ∧ c.toNat < 0x110000) := c.valid
  omega

theorem toNat_lt (c : Char) : c.toNat < 0x110000 := by
  have hv : c.toNat < 0xD800 ∨ (0xDFFF < c.toNat ∧ c.toNat < 0x110000) := c.valid
  omega

theorem toNat_unit {n : Nat} (h : n < 0x10000) : (UInt16.ofNat n).toNat = n := by
  rw [UInt16.toNat_ofNat']
  omega

theorem toNat_high {n : Nat} (hmax : n < 0x110000) :
    (UInt16.ofNat (0xD800 + (n - 0x10000) / 0x400)).toNat = 0xD800 + (n - 0x10000) / 0x400 :=
  toNat_unit (by omega)

theorem toNat_low (n : Nat) :
    (UInt16.ofNat (0xDC00 + (n - 0x10000) % 0x400)).toNat = 0xDC00 + (n - 0x10000) % 0x400 :=
  toNat_unit (by omega)

theorem isHighSurrogate_iff : isHighSurrogate u = true ↔ 0xD800 ≤ u.toNat ∧ u.toNat < 0xDC00 :=
  decide_eq_true_iff

theorem isLowSurrogate_iff : isLowSurrogate u = true ↔ 0xDC00 ≤ u.toNat ∧ u.toNat < 0xE000 :=
  decide_eq_true_iff

theorem isHighSurrogate_high {n : Nat} (hmax : n < 0x110000) :
    isHighSurrogate (UInt16.ofNat (0xD800 + (n - 0x10000) / 0x400)) = true := by
  rw [isHighSurrogate_iff, toNat_high hmax]
  omega

theorem isLowSurrogate_low (n : Nat) :
    isLowSurrogate (UInt16.ofNat (0xDC00 + (n - 0x10000) % 0x400)) = true := by
  rw [isLowSurrogate_iff, toNat_low]
  omega

/-- The unit of a character that has only one is no surrogate. -/
theorem unit_not_surrogate {c : Char} (h : c.toNat < 0x10000) :
    isHighSurrogate (UInt16.ofNat c.toNat) = false ∧
      isLowSurrogate (UInt16.ofNat c.toNat) = false := by
  have hc := toNat_not_surrogate c
  rw [← Bool.not_eq_true, ← Bool.not_eq_true, isHighSurrogate_iff, isLowSurrogate_iff, toNat_unit h]
  omega

/-- A character is written as one unit or as a pair of surrogates. -/
theorem unitsOf_cases (c : Char) :
    (c.toNat < 0x10000 ∧ ∃ u, unitsOf c = [u] ∧ isHighSurrogate u = false ∧
        isLowSurrogate u = false) ∨
      (0x10000 ≤ c.toNat ∧ ∃ u v, unitsOf c = [u, v] ∧ isHighSurrogate u = true ∧
        isLowSurrogate v = true) := by
  by_cases h : c.toNat < 0x10000
  · exact Or.inl ⟨h, _, if_pos h, unit_not_surrogate h⟩
  · exact Or.inr ⟨Nat.le_of_not_lt h, _, _, if_neg h, isHighSurrogate_high (toNat_lt c),
      isLowSurrogate_low _⟩

/-! ### Reading back -/

/-- A unit that is no surrogate is read on its own. -/
theorem decode_cons (hh : isHighSurrogate u = false) (hl : isLowSurrogate u = false)
    (us : List UInt16) : decode (u :: us) = Char.ofNat u.toNat :: decode us := by
  rcases us with _ | ⟨v, us⟩
  · simp [decode, hh, hl]
  · simp [decode, hh, hl]

/-- A high surrogate is read together with the low one behind it. -/
theorem decode_pair {n : Nat} (hn : 0x10000 ≤ n) (hmax : n < 0x110000) (us : List UInt16) :
    decode (UInt16.ofNat (0xD800 + (n - 0x10000) / 0x400) ::
      UInt16.ofNat (0xDC00 + (n - 0x10000) % 0x400) :: us) = Char.ofNat n :: decode us := by
  rw [decode, if_pos (isHighSurrogate_high hmax), if_pos (isLowSurrogate_low n), pairChar,
    toNat_high hmax, toNat_low]
  rw [show 0x10000 + (0xD800 + (n - 0x10000) / 0x400 - 0xD800) * 0x400 +
    (0xDC00 + (n - 0x10000) % 0x400 - 0xDC00) = n by omega]

theorem decode_unitsOf (c : Char) (us : List UInt16) :
    decode (unitsOf c ++ us) = c :: decode us := by
  by_cases h : c.toNat < 0x10000
  · obtain ⟨hhigh, hlow⟩ := unit_not_surrogate h
    rw [unitsOf, if_pos h, List.singleton_append, decode_cons hhigh hlow, toNat_unit h,
      Char.ofNat_toNat]
  · rw [unitsOf, if_neg h, List.cons_append, List.singleton_append,
      decode_pair (by omega) (toNat_lt c), Char.ofNat_toNat]

/-- Reading the units of a text gives the text. -/
theorem decode_encode (text : List Char) : decode (encode text) = text := by
  induction text with
  | nil => rfl
  | cons c rest ih =>
    rw [encode, List.flatMap_cons, decode_unitsOf]
    rw [← encode, ih]

/-! ### Well-formed units -/

/-- Surrogates come in pairs: behind every high one stands a low one, and before every low one a
high one. -/
structure WellFormed (us : List UInt16) : Prop where
  followed : ∀ i u, us[i]? = some u → isHighSurrogate u = true →
    ∃ v, us[i + 1]? = some v ∧ isLowSurrogate v = true
  preceded : ∀ i v, us[i]? = some v → isLowSurrogate v = true →
    ∃ j u, i = j + 1 ∧ us[j]? = some u ∧ isHighSurrogate u = true

theorem wellFormed_nil : WellFormed [] := ⟨nofun, nofun⟩

/-- What stands behind well-formed units does not matter to them, and what stands before neither. -/
theorem WellFormed.append (hu : WellFormed us) (hv : WellFormed vs) : WellFormed (us ++ vs) where
  followed i u hi hhigh := by
    rcases Nat.lt_or_ge i us.length with hlt | hge
    · rw [List.getElem?_append_left hlt] at hi
      obtain ⟨v, hnext, hlow⟩ := hu.followed i u hi hhigh
      have hlt' : i + 1 < us.length := (List.getElem?_eq_some_iff.mp hnext).1
      exact ⟨v, (List.getElem?_append_left hlt').trans hnext, hlow⟩
    · rw [List.getElem?_append_right hge] at hi
      obtain ⟨v, hnext, hlow⟩ := hv.followed _ u hi hhigh
      refine ⟨v, ?_, hlow⟩
      rw [List.getElem?_append_right (by omega), ← hnext]
      congr 1
      omega
  preceded i v hi hlow := by
    rcases Nat.lt_or_ge i us.length with hlt | hge
    · rw [List.getElem?_append_left hlt] at hi
      obtain ⟨j, u, rfl, hbefore, hhigh⟩ := hu.preceded i v hi hlow
      exact ⟨j, u, rfl, (List.getElem?_append_left (by omega)).trans hbefore, hhigh⟩
    · rw [List.getElem?_append_right hge] at hi
      obtain ⟨j, u, hj, hbefore, hhigh⟩ := hv.preceded _ v hi hlow
      refine ⟨us.length + j, u, by omega, ?_, hhigh⟩
      rw [List.getElem?_append_right (by omega), Nat.add_sub_cancel_left, hbefore]

theorem wellFormed_singleton (hh : isHighSurrogate u = false) (hl : isLowSurrogate u = false) :
    WellFormed [u] := by
  have honly : ∀ {i w}, [u][i]? = some w → w = u := fun hw =>
    List.mem_singleton.mp (List.mem_of_getElem? hw)
  refine ⟨fun i w hw hhigh => ?_, fun i w hw hlow => ?_⟩
  · rw [honly hw, hh] at hhigh
    cases hhigh
  · rw [honly hw, hl] at hlow
    cases hlow

theorem wellFormed_pair (hh : isHighSurrogate u = true) (hl : isLowSurrogate v = true) :
    WellFormed [u, v] := by
  -- no unit is a surrogate of both kinds
  rw [isHighSurrogate_iff] at hh
  rw [isLowSurrogate_iff] at hl
  refine ⟨fun i w hw hhigh => ?_, fun i w hw hlow => ?_⟩
  · rcases i with _ | _ | i
    · exact ⟨v, rfl, isLowSurrogate_iff.mpr hl⟩
    · obtain rfl := Option.some.inj hw
      rw [isHighSurrogate_iff] at hhigh
      omega
    · cases hw
  · rcases i with _ | _ | i
    · obtain rfl := Option.some.inj hw
      rw [isLowSurrogate_iff] at hlow
      omega
    · exact ⟨0, u, rfl, rfl, isHighSurrogate_iff.mpr hh⟩
    · cases hw

theorem wellFormed_encode (text : List Char) : WellFormed (encode text) := by
  induction text with
  | nil => exact wellFormed_nil
  | cons c rest ih =>
    rw [encode, List.flatMap_cons, ← encode]
    refine WellFormed.append ?_ ih
    rcases unitsOf_cases c with ⟨-, u, hunits, hh, hl⟩ | ⟨-, u, v, hunits, hh, hl⟩
    · exact hunits ▸ wellFormed_singleton hh hl
    · exact hunits ▸ wellFormed_pair hh hl

/-- Every character counts once, and those beyond the first plane twice. -/
theorem length_encode (text : List Char) :
    (encode text).length = text.length + text.countP fun c => 0x10000 ≤ c.toNat := by
  induction text with
  | nil => rfl
  | cons c rest ih =>
    rw [encode, List.flatMap_cons, ← encode, List.length_append, ih, List.length_cons,
      List.countP_cons]
    rcases unitsOf_cases c with ⟨hlt, u, hunits, -⟩ | ⟨hge, u, v, hunits, -⟩
    · rw [hunits, if_neg (by simpa using hlt), List.length_singleton]
      omega
    · rw [hunits, if_pos (by simpa using hge), List.length_cons, List.length_singleton]
      omega

namespace Units

theorem toText_ofString (text : String) : (ofString text).toText = text := by
  rw [toText, ofString, decode_encode, String.ofList_toList]

/-- **No text is lost on its way to the renderer.**  A buffer made from a text has that text; it has
one unit for every character and one more for those from `U+10000` on; its surrogates come in pairs;
and buffers of different texts are different. -/
theorem ofString_lossless (text : String) :
    (ofString text).toText = text ∧
      (ofString text).length =
        text.length + text.toList.countP (fun c => 0x10000 ≤ c.toNat) ∧
      WellFormed (ofString text).units ∧
      ∀ other, ofString text = ofString other ↔ text = other := by
  refine ⟨toText_ofString text, ?_, wellFormed_encode text.toList, fun other => ?_⟩
  · rw [← String.length_toList]
    exact length_encode text.toList
  · have hleft : Function.LeftInverse toText ofString := toText_ofString
    exact hleft.injective.eq_iff

end Units
end ScriptHost.Text
