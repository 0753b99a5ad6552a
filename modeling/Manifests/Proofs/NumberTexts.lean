import Manifests.Value

/-! # Texts of numbers

A number is written with digits, signs and points or as one of a few words, so it is not written like a key of
letters (`Value.eq_text_of_scalarText?`). -/

namespace Manifests

/-- A digit, a sign or a point. -/
def Number.IsMark (c : Char) : Prop := c.isDigit = true ∨ c = '-' ∨ c = '.'

instance (c : Char) : Decidable (Number.IsMark c) := inferInstanceAs (Decidable (_ ∨ _ ∨ _))

theorem Number.isMark_of_mem_decimalDigits {n : Nat} {c : Char} (h : c ∈ decimalDigits n) : IsMark c :=
  .inl (Nat.isDigit_of_mem_toDigits (b := 10) (by decide) (by decide) h)

theorem Number.isMark_of_mem_decimal {i : Int} {c : Char} (h : c ∈ (decimal i).toList) : IsMark c := by
  cases i with
  | ofNat n => exact isMark_of_mem_decimalDigits (by simpa [decimal] using h)
  | negSucc n =>
    have hc : c = '-' ∨ c ∈ decimalDigits (n + 1) := by simpa [decimal] using h
    exact hc.elim (fun hsign => .inr (.inl hsign)) isMark_of_mem_decimalDigits

namespace Binary64

/-- A positional text has digits and points only. -/
theorem digit_or_point_of_mem_positional {m : Nat} {g : Int} {c : Char} (h : c ∈ positional m g) :
    c.isDigit = true ∨ c = '.' := by
  have hdigits {n : Nat} (hc : c ∈ Number.decimalDigits n) : c.isDigit = true :=
    Nat.isDigit_of_mem_toDigits (by decide) (by decide) hc
  have hpadded {k n : Nat} (hc : c ∈ List.replicate k '0' ++ Number.decimalDigits n) : c.isDigit = true := by
    rcases List.mem_append.mp hc with hc | hc
    · rw [List.eq_of_mem_replicate hc]
      rfl
    · exact hdigits hc
  unfold positional at h
  split at h
  split at h
  · rcases List.mem_append.mp h with hc | hc
    · exact .inl (hdigits hc)
    · rw [List.eq_of_mem_replicate hc]
      exact .inl rfl
  · rcases List.mem_append.mp h with hc | hc
    · exact .inl (hpadded (List.mem_of_mem_take hc))
    · exact (List.mem_cons.mp hc).elim .inr fun hc => .inl (hpadded (List.mem_of_mem_drop hc))

/-- A double that is no word is written with the characters of numbers. -/
theorem text_isMark (x : Binary64) :
    x.text ∈ ["NaN", "inf", "-inf"] ∨ ∀ c ∈ x.text.toList, Number.IsMark c := by
  have hsigned {negative : Bool} {cs : List Char} (h : ∀ c ∈ cs, Number.IsMark c) :
      ∀ c ∈ (String.ofList (signText negative ++ cs)).toList, Number.IsMark c := by
    rw [String.toList_ofList]
    refine List.forall_mem_append.mpr ⟨fun c hc => ?_, h⟩
    cases negative with
    | false => cases hc
    | true => exact .inr (.inl (List.mem_singleton.mp hc))
  cases x with
  | nan => exact .inl (by decide)
  | infinity negative => exact .inl (by cases negative <;> decide)
  | finite negative mantissa exponent =>
    cases mantissa with
    | zero => exact .inr (hsigned fun c hc => .inl (by rw [List.mem_singleton.mp hc]; rfl))
    | succ mantissa => exact .inr (hsigned fun c hc => (digit_or_point_of_mem_positional hc).imp id .inr)

end Binary64

namespace Value

/-- No number and no truth value is written like this. -/
def IsWord (s : String) : Prop :=
  (∃ c ∈ s.toList, ¬Number.IsMark c) ∧ s ∉ ["true", "false", "NaN", "inf", "-inf"]

instance (s : String) : Decidable (IsWord s) :=
  -- Characters are finitely many, so an instance that is searched for may try all of them.
  have : Decidable (∃ c ∈ s.toList, ¬Number.IsMark c) := List.decidableBEx (fun c => ¬Number.IsMark c) s.toList
  inferInstanceAs (Decidable (_ ∧ _))

/-- Of the scalars only a text has a word as its text. -/
theorem eq_text_of_scalarText? {v : Value} {word : String} (hword : IsWord word) (h : v.scalarText? = some word) :
    v = .text word := by
  obtain ⟨⟨c, hc, hmark⟩, hword⟩ := hword
  cases v with
  | text s => exact congrArg Value.text (Option.some.inj h)
  | bool b =>
    obtain rfl := Option.some.inj h
    cases b <;> exact absurd (by decide) hword
  | int i =>
    obtain rfl := Option.some.inj h
    exact absurd (Number.isMark_of_mem_decimal hc) hmark
  | float x =>
    obtain rfl := Option.some.inj h
    rcases x.text_isMark with hspecial | hmarks
    · refine absurd ?_ hword
      exact List.mem_cons_of_mem _ (List.mem_cons_of_mem _ hspecial)
    · exact absurd (hmarks c hc) hmark
  | null | map | list => cases h

end Value

end Manifests
