import Manifests.Proofs.Name
import Mathlib.Data.List.Chain
import Mathlib.Data.List.TakeWhile

/-! # The form of canonical names

A canonical name has the characters of names only, 63 of them at most, no `--`, and no separator at either end
(`IsCanonical`). Every text of this form is its own canonical name. The first 63 characters may end with a separator
that stood inside the name, which is why the end is trimmed again after the cut; the beginning stays as it is. -/

namespace Manifests.Name

/-- A text has the form of a canonical name. -/
structure IsCanonical (name : String) : Prop where
  plain : ∀ c ∈ name.toList, isPlain c = true
  short : name.length ≤ 63
  /-- No two dashes stand side by side. -/
  dashes : name.toList.IsChain fun a b => ¬(a = '-' ∧ b = '-')
  starts : ∀ c ∈ name.toList.head?, isSeparator c = false
  ends : ∀ c ∈ name.toList.getLast?, isSeparator c = false

section
variable {cs : List Char}

/-! ### Ends -/

theorem head?_dropWhile : ∀ c ∈ (cs.dropWhile isSeparator).head?, isSeparator c = false := by
  intro c hc
  have hfirst := List.head?_dropWhile_not isSeparator cs
  rwa [Option.mem_def.mp hc] at hfirst

theorem dropWhile_eq_self (h : ∀ c ∈ cs.head?, isSeparator c = false) : cs.dropWhile isSeparator = cs := by
  cases cs with
  | nil => rfl
  | cons c cs => exact List.dropWhile_cons_of_neg (by simp [h c rfl])

theorem getLast?_trimEnd : ∀ c ∈ (trimEnd cs).getLast?, isSeparator c = false := by
  rw [trimEnd, List.getLast?_reverse]
  exact head?_dropWhile

theorem trimEnd_eq_self (h : ∀ c ∈ cs.getLast?, isSeparator c = false) : trimEnd cs = cs := by
  rw [trimEnd, dropWhile_eq_self (by rwa [List.head?_reverse]), List.reverse_reverse]

theorem trimEnd_eq_nil_iff : trimEnd cs = [] ↔ ∀ c ∈ cs, isSeparator c = true := by
  rw [trimEnd, List.reverse_eq_nil_iff, List.dropWhile_eq_nil_iff]
  simp only [List.mem_reverse]

theorem head?_of_isPrefix {ds : List Char} (h : cs <+: ds) : ∀ c ∈ cs.head?, c ∈ ds.head? := by
  obtain ⟨rest, rfl⟩ := h
  cases cs with
  | nil => nofun
  | cons => exact fun c hc => hc

theorem head?_trim : ∀ c ∈ (trim cs).head?, isSeparator c = false :=
  fun c hc => head?_dropWhile c (head?_of_isPrefix (trimEnd_isPrefix _) c hc)

theorem trim_eq_self (hstarts : ∀ c ∈ cs.head?, isSeparator c = false)
    (hends : ∀ c ∈ cs.getLast?, isSeparator c = false) : trim cs = cs := by
  rw [trim, dropWhile_eq_self hstarts, trimEnd_eq_self hends]

/-- A text that begins with no separator is empty if it has nothing else. -/
theorem eq_nil_of_starts (hstarts : ∀ c ∈ cs.head?, isSeparator c = false) (h : ∀ c ∈ cs, isSeparator c = true) :
    cs = [] := by
  cases cs with
  | nil => rfl
  | cons c cs =>
    have hfirst := hstarts c rfl
    rw [h c List.mem_cons_self] at hfirst
    cases hfirst

theorem trim_eq_nil_iff : trim cs = [] ↔ ∀ c ∈ cs, isSeparator c = true := by
  rw [trim, trimEnd_eq_nil_iff]
  constructor
  · exact fun h => List.dropWhile_eq_nil_iff.mp (eq_nil_of_starts head?_dropWhile h)
  · exact fun h c hc => h c ((List.dropWhile_suffix _).subset hc)

/-! ### Dashes -/

variable {afterDash : Bool}

theorem isChain_collapse (afterDash : Bool) (cs : List Char) :
    (collapse afterDash cs).IsChain (fun a b => ¬(a = '-' ∧ b = '-')) ∧
      (afterDash = true → '-' ∉ (collapse afterDash cs).head?) := by
  induction cs generalizing afterDash with
  | nil => exact ⟨.nil, nofun⟩
  | cons c cs ih =>
    unfold collapse
    split
    · split
      · exact ⟨(ih true).1, fun _ => (ih true).2 rfl⟩
      · obtain ⟨hchain, hhead⟩ := ih true
        refine ⟨List.isChain_cons.mpr ⟨fun b hb hdash => ?_, hchain⟩, fun h => absurd h ‹_›⟩
        exact hhead rfl (hdash.2 ▸ hb)
    · rename_i hc
      refine ⟨List.isChain_cons.mpr ⟨fun b hb hdash => hc hdash.1, (ih false).1⟩, fun _ hdash => ?_⟩
      exact hc (Option.some.inj hdash)

theorem collapse_eq_self (h : cs.IsChain fun a b => ¬(a = '-' ∧ b = '-'))
    (hhead : afterDash = true → '-' ∉ cs.head?) : collapse afterDash cs = cs := by
  induction cs generalizing afterDash with
  | nil => rfl
  | cons c cs ih =>
    obtain ⟨hnext, hchain⟩ := List.isChain_cons.mp h
    unfold collapse
    split
    · subst c
      have hafter : afterDash ≠ true := fun hafter => hhead hafter rfl
      rw [if_neg hafter, ih hchain fun _ hdash => hnext '-' hdash ⟨rfl, rfl⟩]
    · rw [ih hchain (absurd · Bool.false_ne_true)]

theorem mem_collapse_iff {c : Char} (h : c ≠ '-') : c ∈ collapse afterDash cs ↔ c ∈ cs := by
  induction cs generalizing afterDash with
  | nil => rfl
  | cons d cs ih =>
    unfold collapse
    split
    · subst d
      split <;> simp [ih, h]
    · simp [ih]

theorem forall_isSeparator_collapse_iff :
    (∀ c ∈ collapse afterDash cs, isSeparator c = true) ↔ ∀ c ∈ cs, isSeparator c = true := by
  constructor
  · intro h c hc
    by_cases hdash : c = '-'
    · rw [hdash]
      decide
    · exact h c ((mem_collapse_iff hdash).mpr hc)
  · exact fun h c hc => h c ((collapse_sublist _ _).subset hc)

end

/-! ### Canonical names -/

/-- Neighbours in a canonical name are neighbours before it is trimmed and cut. -/
theorem isChain_normalize {R : Char → Char → Prop} {declared : String}
    (h : (collapse false (spell false declared.toList)).IsChain R) : (normalize declared).toList.IsChain R := by
  obtain ⟨before, after, hpiece⟩ := normalize_isInfix declared
  rw [← hpiece] at h
  exact h.left_of_append.right_of_append

theorem isCanonical_normalize (declared : String) : IsCanonical (normalize declared) where
  plain c hc := isPlain_of_mem_normalize hc
  short := by
    rw [← String.length_toList, toList_normalize]
    exact (trimEnd_isPrefix _).length_le.trans (List.length_take_le _ _)
  dashes := isChain_normalize (isChain_collapse false _).1
  starts := by
    rw [toList_normalize]
    intro c hc
    exact head?_trim c (head?_of_isPrefix ((trimEnd_isPrefix _).trans (List.take_prefix _ _)) c hc)
  ends := by
    rw [toList_normalize]
    exact getLast?_trimEnd

theorem IsCanonical.normalize_eq_self {name : String} (h : IsCanonical name) : normalize name = name := by
  have hshort : name.toList.length ≤ maxLength := h.short
  rw [← String.toList_inj, toList_normalize, spell_eq_self h.plain,
    collapse_eq_self h.dashes (absurd · Bool.false_ne_true), trim_eq_self h.starts h.ends,
    List.take_of_length_le hshort, trimEnd_eq_self h.ends]

theorem normalize_eq_empty_iff (declared : String) :
    normalize declared = "" ↔ ∀ c ∈ declared.toList, isAlphanumeric c = false := by
  let kept := trim (collapse false (spell false declared.toList))
  have hkept : kept = [] ↔ ∀ c ∈ declared.toList, isAlphanumeric c = false :=
    trim_eq_nil_iff.trans (forall_isSeparator_collapse_iff.trans forall_isSeparator_spell_iff)
  rw [← hkept, ← String.toList_inj, toList_normalize, String.toList_empty, trimEnd_eq_nil_iff]
  constructor
  · intro h
    -- What is cut begins as what is kept does, with no separator.
    have hcut : kept.take maxLength = [] :=
      eq_nil_of_starts (fun c hc => head?_trim c (head?_of_isPrefix (List.take_prefix _ _) c hc)) h
    exact (List.take_eq_nil_iff.mp hcut).resolve_left (by decide)
  · intro h
    show ∀ c ∈ kept.take maxLength, isSeparator c = true
    rw [h, List.take_nil]
    nofun

/-- Canonical names are the texts of the form, each of them that of itself, and a name is empty exactly if it is
    declared without letters and digits. -/
theorem normalize_image (declared : String) :
    IsCanonical (normalize declared) ∧ (normalize declared = declared ↔ IsCanonical declared) ∧
      normalize (normalize declared) = normalize declared ∧
      (normalize declared = "" ↔ ∀ c ∈ declared.toList, isAlphanumeric c = false) :=
  ⟨isCanonical_normalize declared, ⟨fun h => h ▸ isCanonical_normalize declared, IsCanonical.normalize_eq_self⟩,
    (isCanonical_normalize declared).normalize_eq_self, normalize_eq_empty_iff declared⟩

end Manifests.Name
