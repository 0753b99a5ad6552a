import Mathlib.Data.List.Basic
import Manifests.Proofs.Path

/-! # Paths as texts

The steps that a text writes stand between its slashes (`isWritten_ofText`), and a path of such steps is read back from
its text (`ofText_text`). Shortening takes steps out and puts none in, so what normalizing and joining make of such
paths is read back too. -/

namespace Manifests

/-- The step is one that a text between slashes writes. -/
structure Step.IsWritten (s : Step) : Prop where
  noSlash : '/' ∉ s.text.toList
  nonempty : s.text ≠ ""
  reads : Step.ofText s.text = s

theorem Step.text_ofText (s : String) : (Step.ofText s).text = s := by
  unfold ofText
  split
  · exact Eq.symm ‹_›
  · split
    · exact Eq.symm ‹_›
    · rfl

theorem Step.isWritten_ofText {s : String} (hslash : '/' ∉ s.toList) (hempty : s ≠ "") : (Step.ofText s).IsWritten where
  noSlash := (text_ofText s).symm ▸ hslash
  nonempty := (text_ofText s).symm ▸ hempty
  reads := congrArg Step.ofText (text_ofText s)

namespace Path

/-! ### Between slashes -/

theorem pieces_eq_splitOn (cs : List Char) : pieces cs = cs.splitOn '/' := by
  induction cs with
  | nil => rfl
  | cons c cs ih =>
    rw [pieces, ih, List.splitOn_cons_eq_if_modifyHead]
    cases hrest : cs.splitOn '/' with
    | nil => exact absurd hrest (List.splitOn_ne_nil _ _)
    | cons piece rest => by_cases hc : c = '/' <;> simp [hc]

theorem pieces_slash_cons (cs : List Char) : pieces ('/' :: cs) = [] :: pieces cs := by
  rw [pieces_eq_splitOn, pieces_eq_splitOn, List.splitOn_cons_eq_if_modifyHead, if_pos (beq_self_eq_true _)]

theorem pieces_cons_of_ne {c : Char} (h : c ≠ '/') (cs : List Char) :
    pieces (c :: cs) = (pieces cs).modifyHead (c :: ·) := by
  rw [pieces_eq_splitOn, pieces_eq_splitOn, List.splitOn_cons_eq_if_modifyHead, if_neg (by simpa using h)]

theorem slash_not_mem_of_mem_pieces {cs piece : List Char} (h : piece ∈ pieces cs) : '/' ∉ piece := by
  induction cs generalizing piece with
  | nil =>
    rw [List.mem_singleton.mp h]
    exact List.not_mem_nil
  | cons c cs ih =>
    by_cases hc : c = '/'
    · rw [hc, pieces_slash_cons] at h
      rcases List.mem_cons.mp h with rfl | h
      · exact List.not_mem_nil
      · exact ih h
    · rw [pieces_cons_of_ne hc] at h
      cases hrest : pieces cs with
      | nil => simp [hrest] at h
      | cons first rest =>
        rw [hrest] at h ih
        rcases List.mem_cons.mp h with rfl | h
        · rw [List.mem_cons, not_or]
          exact ⟨Ne.symm hc, ih List.mem_cons_self⟩
        · exact ih (List.mem_cons_of_mem _ h)

theorem isWritten_of_mem_stepsOf {cs : List Char} {s : Step} (h : s ∈ stepsOf cs) : s.IsWritten := by
  obtain ⟨piece, hpiece, rfl⟩ := List.mem_map.mp h
  obtain ⟨hpiece, hne⟩ := List.mem_filter.mp hpiece
  refine Step.isWritten_ofText ?_ ?_
  · rw [String.toList_ofList]
    exact slash_not_mem_of_mem_pieces hpiece
  · rw [ne_eq, String.ofList_eq_empty_iff]
    simpa using hne

theorem stepsOf_slash_cons (cs : List Char) : stepsOf ('/' :: cs) = stepsOf cs := by
  rw [stepsOf, pieces_slash_cons, List.filter_cons_of_neg (by simp), stepsOf]

section
variable {steps : List Step}

theorem stepsOf_intercalate (h : ∀ s ∈ steps, s.IsWritten) :
    stepsOf (['/'].intercalate (steps.map (·.text.toList))) = steps := by
  by_cases hempty : steps = []
  · rw [hempty]
    rfl
  · have hpieces : pieces (['/'].intercalate (steps.map (·.text.toList))) = steps.map (·.text.toList) := by
      rw [pieces_eq_splitOn]
      refine List.splitOn_intercalate '/' ?_ (by simpa using hempty)
      rintro piece hpiece
      obtain ⟨s, hs, rfl⟩ := List.mem_map.mp hpiece
      exact (h s hs).noSlash
    have hfilter : (steps.map (·.text.toList)).filter (!·.isEmpty) = steps.map (·.text.toList) := by
      refine List.filter_eq_self.mpr fun piece hpiece => ?_
      obtain ⟨s, hs, rfl⟩ := List.mem_map.mp hpiece
      simpa using (h s hs).nonempty
    have hread : ∀ s ∈ steps, Step.ofText (String.ofList s.text.toList) = s := by
      intro s hs
      rw [String.ofList_toList]
      exact (h s hs).reads
    calc stepsOf (['/'].intercalate (steps.map (·.text.toList)))
      _ = steps.map fun s => Step.ofText (String.ofList s.text.toList) := by
        rw [stepsOf, hpieces, hfilter, List.map_map]
        rfl
      _ = steps := by rw [List.map_congr_left hread, List.map_id']

theorem intercalate_ne_nil (h : ∀ s ∈ steps, s.IsWritten) (hne : steps ≠ []) :
    ['/'].intercalate (steps.map (·.text.toList)) ≠ [] := by
  intro hnil
  have hsteps := stepsOf_intercalate h
  rw [hnil] at hsteps
  exact hne hsteps.symm

theorem intercalate_cons {s : Step} (hne : steps ≠ []) :
    ['/'].intercalate ((s :: steps).map (·.text.toList)) =
      s.text.toList ++ ['/'] ++ ['/'].intercalate (steps.map (·.text.toList)) := by
  obtain ⟨next, rest, rfl⟩ := List.exists_cons_of_ne_nil hne
  exact List.intercalate_cons_cons

theorem head?_intercalate (h : ∀ s ∈ steps, s.IsWritten) :
    (['/'].intercalate (steps.map (·.text.toList))).head? ≠ some '/' := by
  cases steps with
  | nil => simp
  | cons s rest =>
    have hs := h s List.mem_cons_self
    have hhead : s.text.toList.head? ≠ some '/' := fun hhead => hs.noSlash (List.mem_of_head? hhead)
    by_cases hrest : rest = []
    · rw [hrest, List.map_singleton, List.intercalate_singleton]
      exact hhead
    · have hne : s.text.toList ≠ [] := fun hnil => hs.nonempty (String.toList_eq_nil_iff.mp hnil)
      rw [intercalate_cons hrest, List.append_assoc, List.head?_append_of_ne_nil _ hne]
      exact hhead

theorem getLast?_intercalate (h : ∀ s ∈ steps, s.IsWritten) :
    (['/'].intercalate (steps.map (·.text.toList))).getLast? ≠ some '/' := by
  induction steps with
  | nil => simp
  | cons s rest ih =>
    by_cases hne : rest = []
    · rw [hne, List.map_singleton, List.intercalate_singleton]
      exact fun hlast => (h s List.mem_cons_self).noSlash (List.mem_of_getLast? hlast)
    · have hrest : ∀ t ∈ rest, t.IsWritten := fun t ht => h t (List.mem_cons_of_mem _ ht)
      rw [intercalate_cons hne, List.getLast?_append_of_ne_nil _ (intercalate_ne_nil hrest hne)]
      exact ih hrest

end

/-! ### Reading back -/

/-- Every step of the path is one that a text writes. -/
def IsWritten (p : Path) : Prop := ∀ s ∈ p.steps, s.IsWritten

theorem isWritten_ofText (text : String) : (ofText text).IsWritten := by
  intro s hs
  rcases List.mem_append.mp hs with hs | hs
  · exact isWritten_of_mem_stepsOf hs
  · have hcurrent : s = .current := by
      split at hs
      · exact List.mem_singleton.mp hs
      · cases hs
    exact hcurrent ▸ ⟨by decide, by decide, rfl⟩

theorem text_toList (p : Path) :
    p.text.toList = (if p.absolute then ['/'] else []) ++ ['/'].intercalate (p.steps.map (·.text.toList)) := by
  rw [text, String.toList_append, String.toList_intercalate, List.map_map]
  cases p.absolute <;> rfl

/-- A path is read back from its text. -/
theorem ofText_text {p : Path} (h : p.IsWritten) : ofText p.text = p := by
  obtain ⟨absolute, steps⟩ := p
  have hsteps := stepsOf_intercalate h
  have hlast := getLast?_intercalate h
  cases absolute with
  | false =>
    have hhead := head?_intercalate h
    rw [ofText, text_toList]
    simp [hsteps, hhead, hlast]
  | true =>
    -- The text of the root is a slash alone, which is its last character too.
    by_cases hempty : steps = []
    · rw [hempty]
      rfl
    · have hne := intercalate_ne_nil h hempty
      rw [ofText, text_toList]
      simp [stepsOf_slash_cons, hsteps, List.getLast?_cons_of_ne_nil hne, hlast]

/-- A text without slashes that is not empty and no dots is one step. -/
theorem ofText_of_slash_notMem {s : String} (h : '/' ∉ s.toList) (hempty : s ≠ "") (hcurrent : s ≠ ".")
    (hparent : s ≠ "..") : ofText s = ⟨false, [.name s]⟩ := by
  have hreads : Step.ofText s = .name s := by rw [Step.ofText, if_neg hcurrent, if_neg hparent]
  have hwritten : IsWritten ⟨false, [.name s]⟩ := List.forall_mem_singleton.mpr ⟨h, hempty, hreads⟩
  have htext : text ⟨false, [.name s]⟩ = s := by simp [text, Step.text]
  rw [← ofText_text hwritten, htext]

/-! ### Normalizing and joining -/

theorem mem_of_shortens {steps shorter : List Step} (h : Relation.ReflTransGen Shortens steps shorter) {s : Step}
    (hs : s ∈ shorter) : s ∈ steps := by
  induction h with
  | refl => exact hs
  | tail _ hstep ih => exact ih (hstep.sublist.subset hs)

theorem IsWritten.normalize {p : Path} (h : p.IsWritten) : p.normalize.IsWritten :=
  fun s hs => h s (mem_of_shortens (shortens_normalize p) hs)

theorem IsWritten.join {p q : Path} (hp : p.IsWritten) (hq : q.IsWritten) : (p.join q).IsWritten := by
  unfold Path.join
  split
  · exact hq
  · intro s hs
    rcases List.mem_append.mp hs with hs | hs
    · exact hp s hs
    · exact hq s hs

end Path

end Manifests
