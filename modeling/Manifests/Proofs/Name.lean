import Manifests.Name
import Mathlib.Data.List.Infix

/-! # The characters of canonical names

Whatever text a name is declared with, its canonical form has lower-case letters, digits, dashes and points only:
spelling writes no other characters (`spell_cons`), and what follows only leaves some of them out. -/

namespace Manifests.Name

/-- A character that canonical names have. -/
def isPlain (c : Char) : Bool := isLower c || isDigit c || isSeparator c

/-- A letter of either case, or a digit. -/
def isAlphanumeric (c : Char) : Bool := isLower c || isUpper c || isDigit c

theorem isLower_toLower {c : Char} (h : isUpper c = true) : isLower c.toLower = true := by
  simp only [isUpper, Bool.and_eq_true, decide_eq_true_eq] at h
  have hval : c.toLower.val = c.val + 32 :=
    congrArg Char.val (dif_pos (show c.val ≥ 'A'.val ∧ c.val ≤ 'Z'.val from h))
  simp only [isLower, Bool.and_eq_true, decide_eq_true_eq, Char.le_def, hval] at h ⊢
  simp only [UInt32.le_iff_toNat_le, UInt32.toNat_add, Char.reduceVal, UInt32.reduceToNat] at h ⊢
  omega

theorem isUpper_of_isPlain {c : Char} (h : isPlain c = true) : isUpper c = false := by
  simp only [isPlain, isLower, isDigit, isSeparator, isUpper, Bool.or_eq_true, Bool.and_eq_true, decide_eq_true_eq,
    Bool.and_eq_false_iff, decide_eq_false_iff_not, Char.le_def, UInt32.le_iff_toNat_le, Char.reduceVal,
    UInt32.reduceToNat] at h ⊢
  obtain (h | h) | rfl | rfl := h
  · omega
  · omega
  · decide
  · decide

theorem isSeparator_of_isAlphanumeric {c : Char} (h : isAlphanumeric c = true) : isSeparator c = false := by
  rw [Bool.eq_false_iff]
  intro hseparator
  simp only [isSeparator, Bool.or_eq_true, decide_eq_true_eq] at hseparator
  obtain rfl | rfl := hseparator <;> revert h <;> decide

/-- Besides letters and digits, canonical names have separators only. -/
theorem isSeparator_iff {c : Char} (h : isPlain c = true) : isSeparator c = true ↔ isAlphanumeric c = false := by
  constructor
  · intro hseparator
    rw [Bool.eq_false_iff]
    intro halpha
    rw [isSeparator_of_isAlphanumeric halpha] at hseparator
    cases hseparator
  · intro halpha
    simp only [isAlphanumeric, Bool.or_eq_false_iff] at halpha
    simpa [isPlain, halpha] using h

/-! ### Spelling -/

/-- The character that a declared one is spelled with. -/
def respell (c : Char) : Char :=
  if isUpper c then c.toLower else if isLower c || isDigit c || c = '.' then c else '-'

/-- A character is spelled with one character, and with a dash before it where a part begins. -/
theorem spell_cons (joins : Bool) (c : Char) (cs : List Char) :
    spell joins (c :: cs) =
      (if isUpper c && joins then ['-'] else []) ++ respell c :: spell (isLower c || isDigit c) cs := by
  rw [spell, respell]
  cases isUpper c with
  | true => cases joins <;> rfl
  | false =>
    simp only [Bool.false_and, Bool.false_eq_true, if_false, List.nil_append]
    split <;> rfl

theorem isPlain_respell (c : Char) : isPlain (respell c) = true := by
  unfold respell
  split
  · simp [isPlain, isLower_toLower ‹_›]
  · split
    · rename_i hkept
      simp only [Bool.or_eq_true, decide_eq_true_eq] at hkept
      obtain hkept | rfl := hkept
      · simp [isPlain, hkept]
      · decide
    · decide

theorem isAlphanumeric_respell (c : Char) : isAlphanumeric (respell c) = isAlphanumeric c := by
  unfold respell
  split
  · rename_i hupper
    simp [isAlphanumeric, hupper, isLower_toLower hupper]
  · rename_i hupper
    split
    · rfl
    · rename_i hother
      simp only [Bool.or_eq_true, decide_eq_true_eq, not_or, Bool.not_eq_true] at hother hupper
      simp only [isAlphanumeric, hother, hupper]
      decide

theorem isPlain_of_mem_spell {joins : Bool} {cs : List Char} : ∀ c ∈ spell joins cs, isPlain c = true := by
  induction cs generalizing joins with
  | nil => nofun
  | cons d cs ih =>
    rw [spell_cons, List.forall_mem_append, List.forall_mem_cons]
    refine ⟨fun c hc => ?_, isPlain_respell d, ih⟩
    split at hc
    · obtain rfl := List.mem_singleton.mp hc
      decide
    · cases hc

theorem spell_eq_self {joins : Bool} {cs : List Char} (h : ∀ c ∈ cs, isPlain c = true) : spell joins cs = cs := by
  induction cs generalizing joins with
  | nil => rfl
  | cons c cs ih =>
    obtain ⟨hc, hcs⟩ := List.forall_mem_cons.mp h
    have hsame : respell c = c := by
      rw [respell, isUpper_of_isPlain hc, if_neg Bool.false_ne_true]
      split
      · rfl
      · rename_i hother
        simp only [Bool.or_eq_true, decide_eq_true_eq, not_or, Bool.not_eq_true] at hother
        simpa [isPlain, isSeparator, hother, eq_comm] using hc
    rw [spell_cons, isUpper_of_isPlain hc, hsame, ih hcs]
    rfl

/-- What is declared without letters and digits is spelled with separators alone. -/
theorem forall_isSeparator_spell_iff {joins : Bool} {cs : List Char} :
    (∀ c ∈ spell joins cs, isSeparator c = true) ↔ ∀ c ∈ cs, isAlphanumeric c = false := by
  induction cs generalizing joins with
  | nil => exact ⟨nofun, nofun⟩
  | cons c cs ih =>
    have hdash : ∀ d ∈ (if isUpper c && joins then ['-'] else []), isSeparator d = true := by
      intro d hd
      split at hd
      · obtain rfl := List.mem_singleton.mp hd
        decide
      · cases hd
    rw [spell_cons, List.forall_mem_append, List.forall_mem_cons, List.forall_mem_cons, ih,
      isSeparator_iff (isPlain_respell c), isAlphanumeric_respell]
    exact and_iff_right hdash

/-! ### What is left out -/

theorem collapse_sublist (afterDash : Bool) (cs : List Char) : (collapse afterDash cs).Sublist cs := by
  induction cs generalizing afterDash with
  | nil => exact .slnil
  | cons c cs ih =>
    unfold collapse
    split
    · subst c
      split
      · exact (ih true).cons _
      · exact (ih true).cons_cons _
    · exact (ih false).cons_cons _

theorem trimEnd_isPrefix (cs : List Char) : trimEnd cs <+: cs := by
  have hsuffix := List.dropWhile_suffix isSeparator (l := cs.reverse)
  rwa [← List.reverse_prefix, List.reverse_reverse] at hsuffix

theorem trim_isInfix (cs : List Char) : trim cs <:+: cs :=
  (trimEnd_isPrefix _).isInfix.trans (List.dropWhile_suffix _).isInfix

theorem toList_normalize (declared : String) :
    (normalize declared).toList = trimEnd ((trim (collapse false (spell false declared.toList))).take maxLength) :=
  String.toList_ofList

/-- A canonical name is a piece of what is declared, spelled with one dash for each run of dashes. -/
theorem normalize_isInfix (declared : String) :
    (normalize declared).toList <:+: collapse false (spell false declared.toList) := by
  rw [toList_normalize]
  exact (trimEnd_isPrefix _).isInfix.trans <| (List.take_prefix _ _).isInfix.trans <| trim_isInfix _

theorem isPlain_of_mem_normalize {declared : String} {c : Char} (h : c ∈ (normalize declared).toList) :
    isPlain c = true :=
  isPlain_of_mem_spell c ((collapse_sublist _ _).subset ((normalize_isInfix declared).subset h))

end Manifests.Name
