import Manifests.Proofs.Name.Form

/-! # Canonical names as domain names

A domain name is a list of labels divided by points, and each label begins and ends with a letter or digit. The ends of
a canonical name are trimmed and its dashes collapsed, but the separators beside a point inside it stay: it is a domain
name exactly if letters or digits stand beside its points (`PointsApart`). Spelling and collapsing keep the points
apart, so the name of a text whose points are apart is a domain name. -/

namespace Manifests.Name

/-- A label of a domain name: lower-case letters, digits and dashes, with no dash at either end. -/
structure IsLabel (label : List Char) : Prop where
  nonempty : label ≠ []
  chars : ∀ c ∈ label, (isLower c || isDigit c || c = '-') = true
  starts : ∀ c ∈ label.head?, (isLower c || isDigit c) = true
  ends : ∀ c ∈ label.getLast?, (isLower c || isDigit c) = true

/-- A text is a domain name, whose labels are divided by points. -/
def IsSubdomain (name : String) : Prop := ∀ label ∈ name.toList.splitOn '.', IsLabel label

/-- Beside a point stand letters or digits. -/
def PointsApart (cs : List Char) : Prop :=
  cs.IsChain fun a b => (a = '.' → isAlphanumeric b = true) ∧ (b = '.' → isAlphanumeric a = true)

/-! ### Labels -/

theorem isAlphanumeric_iff {c : Char} (h : isPlain c = true) :
    isAlphanumeric c = true ↔ (isLower c || isDigit c) = true := by
  rw [isAlphanumeric, isUpper_of_isPlain h, Bool.or_false]

theorem not_isAlphanumeric_point : isAlphanumeric '.' ≠ true := by decide

section
variable {cs : List Char}

/-- A piece without points is a label if its ends are letters or digits. -/
theorem isLabel_iff (hplain : ∀ c ∈ cs, isPlain c = true) (hpoint : '.' ∉ cs) :
    IsLabel cs ↔
      cs ≠ [] ∧ (∀ c ∈ cs.head?, isAlphanumeric c = true) ∧ ∀ c ∈ cs.getLast?, isAlphanumeric c = true := by
  have hhead : ∀ c ∈ cs.head?, isAlphanumeric c = true ↔ (isLower c || isDigit c) = true :=
    fun c hc => isAlphanumeric_iff (hplain c (List.mem_of_mem_head? hc))
  have hlast : ∀ c ∈ cs.getLast?, isAlphanumeric c = true ↔ (isLower c || isDigit c) = true :=
    fun c hc => isAlphanumeric_iff (hplain c (List.mem_of_mem_getLast? hc))
  constructor
  · intro h
    exact ⟨h.nonempty, fun c hc => (hhead c hc).mpr (h.starts c hc), fun c hc => (hlast c hc).mpr (h.ends c hc)⟩
  · rintro ⟨hne, hstarts, hends⟩
    refine ⟨hne, fun c hc => ?_, fun c hc => (hhead c hc).mp (hstarts c hc),
      fun c hc => (hlast c hc).mp (hends c hc)⟩
    have hother : c ≠ '.' := fun h => hpoint (h ▸ hc)
    simpa [isPlain, isSeparator, hother] using hplain c hc

theorem pointsApart_of_not_mem (h : '.' ∉ cs) : PointsApart cs := by
  induction cs with
  | nil => exact .nil
  | cons c cs ih =>
    rw [List.mem_cons, not_or] at h
    refine List.isChain_cons.mpr ⟨fun b hb => ⟨fun hc => absurd hc.symm h.1, fun hpoint => ?_⟩, ih h.2⟩
    exact absurd (hpoint ▸ List.mem_of_mem_head? hb) h.2

theorem pointsApart_append_iff {rest : List Char} (h : '.' ∉ cs) :
    PointsApart (cs ++ '.' :: rest) ↔
      (∀ c ∈ cs.getLast?, isAlphanumeric c = true) ∧ (∀ c ∈ rest.head?, isAlphanumeric c = true) ∧
        PointsApart rest := by
  rw [PointsApart, List.isChain_append, List.isChain_cons]
  constructor
  · rintro ⟨-, ⟨hnext, hrest⟩, hlast⟩
    exact ⟨fun c hc => (hlast c hc '.' rfl).2 rfl, fun c hc => (hnext c hc).1 rfl, hrest⟩
  · rintro ⟨hlast, hnext, hrest⟩
    refine ⟨pointsApart_of_not_mem h, ⟨fun c hc => ⟨fun _ => hnext c hc, ?_⟩, hrest⟩, ?_⟩
    · rintro rfl
      exact absurd (hnext '.' hc) not_isAlphanumeric_point
    · rintro c hc b hb
      obtain rfl := Option.some.inj hb
      refine ⟨?_, fun _ => hlast c hc⟩
      rintro rfl
      exact absurd (List.mem_of_mem_getLast? hc) h

/-- The pieces between the points are labels exactly if letters or digits stand beside the points and at the ends. -/
theorem forall_isLabel_iff (hne : cs ≠ []) (hplain : ∀ c ∈ cs, isPlain c = true) :
    (∀ label ∈ cs.splitOn '.', IsLabel label) ↔
      (∀ c ∈ cs.head?, isAlphanumeric c = true) ∧ (∀ c ∈ cs.getLast?, isAlphanumeric c = true) ∧ PointsApart cs := by
  induction hlength : cs.length using Nat.strong_induction_on generalizing cs with
  | _ n ih =>
    by_cases hpoint : '.' ∈ cs
    · -- The first piece is split off, and the induction is on what follows its point.
      obtain ⟨label, rest, rfl, hlabel⟩ := List.eq_append_cons_of_mem hpoint
      rw [List.splitOn_append_cons_self_of_not_mem hlabel, List.forall_mem_cons,
        isLabel_iff (fun c hc => hplain c (List.mem_append_left _ hc)) hlabel, pointsApart_append_iff hlabel]
      rcases label with _ | ⟨c, label⟩
      · simp [not_isAlphanumeric_point]
      rcases rest with _ | ⟨d, rest⟩
      · -- A point at the end has an empty piece after it.
        constructor
        · rintro ⟨-, hrest⟩
          exact absurd rfl (hrest [] (by simp)).nonempty
        · rintro ⟨-, hlast, -⟩
          exact absurd (hlast '.' List.getLast?_concat) not_isAlphanumeric_point
      have hrest : (d :: rest).length < n := by
        rw [← hlength]
        simp only [List.length_append, List.length_cons]
        omega
      have hlast : (c :: label ++ '.' :: d :: rest).getLast? = (d :: rest).getLast? := by
        simp [List.getLast?_append, List.getLast?_cons]
      rw [ih _ hrest (List.cons_ne_nil d rest) (fun c hc => hplain c (by simp [hc])) rfl, hlast]
      constructor
      · rintro ⟨⟨-, hstarts, hends⟩, hstarts', hends', hpoints⟩
        exact ⟨hstarts, hends', hends, hstarts', hpoints⟩
      · rintro ⟨hstarts, hends', hends, hstarts', hpoints⟩
        exact ⟨⟨List.cons_ne_nil c label, hstarts, hends⟩, hstarts', hends', hpoints⟩
    · rw [List.splitOn_eq_singleton hpoint, List.forall_mem_singleton, isLabel_iff hplain hpoint]
      exact ⟨fun h => ⟨h.2.1, h.2.2, pointsApart_of_not_mem hpoint⟩, fun h => ⟨hne, h.1, h.2.1⟩⟩

/-! ### Points -/

variable {joins : Bool}

theorem respell_eq_point_iff {c : Char} : respell c = '.' ↔ c = '.' := by
  constructor
  · intro h
    unfold respell at h
    split at h
    · have hlower := isLower_toLower ‹_›
      rw [h] at hlower
      exact absurd hlower (by decide)
    · split at h
      · exact h
      · exact absurd h (by decide)
  · rintro rfl
    rfl

theorem head?_spell : ∀ b ∈ (spell joins cs).head?, (b = '-' ∧ joins = true) ∨ ∃ c ∈ cs.head?, b = respell c := by
  intro b hb
  cases cs with
  | nil => cases hb
  | cons c cs =>
    rw [spell_cons] at hb
    split at hb
    · rename_i hbegins
      obtain rfl := Option.some.inj hb
      exact .inl ⟨rfl, ((Bool.and_eq_true _ _).mp hbegins).2⟩
    · obtain rfl := Option.some.inj hb
      exact .inr ⟨c, rfl, rfl⟩

/-- A dash begins a part only between letters or digits, so points stay apart. -/
theorem PointsApart.spell (h : PointsApart cs) : PointsApart (spell joins cs) := by
  induction cs generalizing joins with
  | nil => exact .nil
  | cons c cs ih =>
    obtain ⟨hnext, hcs⟩ := List.isChain_cons.mp h
    have hspelled : PointsApart (respell c :: Name.spell (isLower c || isDigit c) cs) := by
      refine List.isChain_cons.mpr ⟨fun b hb => ?_, ih hcs⟩
      rw [isAlphanumeric_respell, respell_eq_point_iff]
      obtain ⟨rfl, hjoins⟩ | ⟨d, hd, rfl⟩ := head?_spell b hb
      · refine ⟨?_, fun hdash => absurd hdash (by decide)⟩
        rintro rfl
        exact absurd hjoins (by decide)
      · rw [isAlphanumeric_respell, respell_eq_point_iff]
        exact hnext d hd
    rw [spell_cons]
    split
    · rename_i hbegins
      refine List.isChain_cons.mpr ⟨fun b hb => ⟨fun hdash => absurd hdash (by decide), fun hpoint => ?_⟩, hspelled⟩
      obtain rfl := Option.some.inj hb
      obtain rfl := respell_eq_point_iff.mp hpoint
      exact absurd hbegins (by cases joins <;> decide)
    · exact hspelled

theorem PointsApart.cons_collapse {a : Char} (h : PointsApart (a :: cs)) :
    PointsApart (a :: collapse (a = '-') cs) := by
  induction cs generalizing a with
  | nil => exact h
  | cons c cs ih =>
    obtain ⟨hac, hcs⟩ := List.isChain_cons_cons.mp h
    unfold collapse
    split
    · subst c
      split
      · have ha : a = '-' := of_decide_eq_true ‹_›
        subst a
        exact ih hcs
      · exact List.isChain_cons_cons.mpr ⟨hac, ih hcs⟩
    · rename_i hc
      have hkept := ih hcs
      rw [decide_eq_false hc] at hkept
      exact List.isChain_cons_cons.mpr ⟨hac, hkept⟩

theorem PointsApart.collapse (h : PointsApart cs) : PointsApart (collapse false cs) := by
  cases cs with
  | nil => exact .nil
  | cons c cs =>
    have hkept := h.cons_collapse
    unfold Name.collapse
    split
    · subst c
      exact hkept
    · rename_i hc
      rwa [decide_eq_false hc] at hkept

end

/-! ### Canonical names -/

theorem pointsApart_normalize {declared : String} (h : PointsApart declared.toList) :
    PointsApart (normalize declared).toList :=
  isChain_normalize h.spell.collapse

theorem IsCanonical.isSubdomain_iff {name : String} (h : IsCanonical name) (hne : name ≠ "") :
    IsSubdomain name ↔ PointsApart name.toList := by
  have halpha : ∀ c ∈ name.toList, isSeparator c = false → isAlphanumeric c = true := by
    intro c hc hother
    rw [← Bool.not_eq_false, ← isSeparator_iff (h.plain c hc), hother]
    exact Bool.false_ne_true
  rw [IsSubdomain, forall_isLabel_iff (by simpa using hne) h.plain]
  constructor
  · exact fun hlabels => hlabels.2.2
  · intro hpoints
    exact ⟨fun c hc => halpha c (List.mem_of_mem_head? hc) (h.starts c hc),
      fun c hc => halpha c (List.mem_of_mem_getLast? hc) (h.ends c hc), hpoints⟩

/-- A canonical name that is not empty is a domain name exactly if letters or digits stand beside its points, which
    they do if they stand beside the points of what is declared. -/
theorem normalize_isSubdomain {declared : String} (h : normalize declared ≠ "") :
    (IsSubdomain (normalize declared) ↔ PointsApart (normalize declared).toList) ∧
      (PointsApart declared.toList → IsSubdomain (normalize declared)) := by
  have hiff := (isCanonical_normalize declared).isSubdomain_iff h
  exact ⟨hiff, fun hpoints => hiff.mpr (pointsApart_normalize hpoints)⟩

theorem normalize_isSubdomain_reviews :
    normalize "reviews.Prod_v2" = "reviews.prod-v2" ∧ IsSubdomain (normalize "reviews.Prod_v2") := by
  have hname : normalize "reviews.Prod_v2" = "reviews.prod-v2" := by decide +kernel
  refine ⟨hname, (normalize_isSubdomain ?_).2 (by simp [PointsApart, isAlphanumeric, isLower, isUpper, isDigit])⟩
  rw [hname]
  decide

/-- Points side by side stay, so a canonical name can have an empty label. -/
theorem not_isSubdomain_normalize : normalize "a..b" = "a..b" ∧ ¬IsSubdomain (normalize "a..b") := by
  have hname : normalize "a..b" = "a..b" := by decide +kernel
  refine ⟨hname, fun h => ?_⟩
  rw [hname] at h
  exact (h [] (by decide)).nonempty rfl

end Manifests.Name
