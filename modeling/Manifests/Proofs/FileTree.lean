import Manifests.Proofs.Place

/-! # Changes of a file tree

Putting an item at a place changes that place only. Making a directory adds one where nothing stood
(`createDirectory_eq_ok`, `NewDirectories`). Writing a file changes the place of its name in the directory, and the
directory is found at the same place afterwards (`walk_put`), so files of different names that are written one after
the other do not touch each other. -/

namespace Manifests.FileTree

/-! ### Putting items -/

theorem lookup_filter_ne {place q : Place} (h : q ≠ place) (items : List (Place × Item)) :
    (items.filter fun entry => !decide (entry.1 = place)).lookup q = items.lookup q := by
  induction items with
  | nil => rfl
  | cons entry items ih =>
    obtain ⟨p, item⟩ := entry
    by_cases hp : p = place
    · have hq : (q == p) = false := by simpa [hp] using h
      rw [List.filter_cons_of_neg (by simpa using hp), List.lookup_cons, hq, ih]
    · rw [List.filter_cons_of_pos (by simpa using hp), List.lookup_cons, List.lookup_cons, ih]

theorem lookup_filter_self (place : Place) (items : List (Place × Item)) :
    (items.filter fun entry => !decide (entry.1 = place)).lookup place = none := by
  rw [List.lookup_eq_none_iff]
  intro entry hentry
  have hne : entry.1 ≠ place := by simpa using (List.mem_filter.mp hentry).2
  simpa using hne.symm

theorem ne_nil_of_item?_none {tree : FileTree} {place : Place} (h : tree.item? place = none) : place ≠ [] := by
  rintro rfl
  cases h

theorem item?_put (tree : FileTree) {place : Place} (hplace : place ≠ []) (item : Item) (q : Place) :
    (tree.put place item).item? q = if q = place then some item else tree.item? q := by
  simp only [item?, put, ne_eq, decide_not]
  by_cases hq : q = []
  · simp [hq, hplace.symm]
  · rw [if_neg hq, if_neg hq, List.lookup_append]
    by_cases heq : q = place
    · rw [heq, lookup_filter_self]
      simp
    · have hbeq : (q == place) = false := by simpa using heq
      rw [lookup_filter_ne heq, if_neg heq, List.lookup_cons, hbeq, List.lookup_nil, Option.or_none]

/-! ### Walking -/

/-- Where an item is put in place of no directory, a step leads where it led. -/
theorem follow_put {tree : FileTree} {q place found : Place} {step : Step} {item : Item} (hq : q ≠ [])
    (hfile : tree.item? q ≠ some .directory) (h : tree.follow place step = .ok found) :
    (tree.put q item).follow place step = .ok found := by
  -- The step starts in a directory, and what it finds is still there.
  have hsome : ∀ p, (tree.item? p).isSome → ((tree.put q item).item? p).isSome := by
    intro p hp
    rw [item?_put tree hq]
    split
    · rfl
    · exact hp
  unfold follow at h ⊢
  cases hitem : tree.item? place with
  | none => simp [hitem] at h
  | some there =>
    cases there with
    | file _ => simp [hitem] at h
    | directory =>
      have hplace : (tree.put q item).item? place = some .directory := by
        rw [item?_put tree hq, if_neg]
        · exact hitem
        · rintro rfl
          exact hfile hitem
      rw [hitem] at h
      rw [hplace]
      cases step with
      | current => exact h
      | parent => exact h
      | name s =>
        dsimp only at h ⊢
        split at h
        · cases h
        · rename_i hbytes
          split at h
          · rename_i hthere
            rw [if_neg hbytes, if_pos (hsome _ hthere)]
            exact h
          · cases h

theorem foldlM_follow_put {tree : FileTree} {q place found : Place} {steps : List Step} {item : Item}
    (hq : q ≠ []) (hfile : tree.item? q ≠ some .directory) (h : steps.foldlM tree.follow place = .ok found) :
    steps.foldlM (tree.put q item).follow place = .ok found := by
  induction steps generalizing place with
  | nil => exact h
  | cons step steps ih =>
    rw [List.foldlM_cons] at h ⊢
    cases hstep : tree.follow place step with
    | error fault => rw [hstep] at h; cases h
    | ok next =>
      rw [hstep] at h
      rw [follow_put hq hfile hstep]
      exact ih h

/-- Where an item is put in place of no directory, a path leads where it led. -/
theorem walk_put {tree : FileTree} {here q found : Place} {path : Path} {item : Item} (hq : q ≠ [])
    (hfile : tree.item? q ≠ some .directory) (h : tree.walk here path = .ok found) :
    (tree.put q item).walk here path = .ok found :=
  foldlM_follow_put hq hfile h

theorem walk_of_steps_append {tree : FileTree} {here above : Place} {path : Path} {steps : List Step} {s : String}
    (hsteps : path.steps = steps ++ [.name s]) (hwalk : tree.walk here ⟨path.absolute, steps⟩ = .ok above)
    (habove : tree.item? above = some .directory) (hbytes : ¬maxNameBytes < s.utf8ByteSize)
    (hthere : (tree.item? (above ++ [s])).isSome) : tree.walk here path = .ok (above ++ [s]) := by
  have hlast : tree.follow above (.name s) = .ok (above ++ [s]) := by
    unfold follow
    rw [habove]
    dsimp only
    rw [if_neg hbytes, if_pos hthere]
  rw [walk, hsteps, List.foldlM_append, bind_eq_ok_iff]
  refine ⟨above, hwalk, ?_⟩
  rw [List.foldlM_cons, hlast]
  rfl

/-! ### Changes -/

section
variable {ε : Type} {f : FileTree → Except ε FileTree} {tree : FileTree}

theorem change_of_ok {after : FileTree} (h : f tree = .ok after) : (change f).run tree = (.ok (), after) := by
  simp only [change, StateT.run_bind, StateT.run_get, pure_bind, h]
  rfl

theorem change_of_error {fault : ε} (h : f tree = .error fault) : (change f).run tree = (.error fault, tree) := by
  simp only [change, StateT.run_bind, StateT.run_get, pure_bind, h]
  rfl

theorem run_bind_of_run {α β : Type} {action : StateM FileTree α} {result : α} {after : FileTree}
    (h : action.run tree = (result, after)) (next : α → StateM FileTree β) :
    (action >>= next).run tree = (next result).run after := by
  rw [StateT.run_bind, h]
  rfl

end

/-! ### Making directories -/

/-- The second tree has directories at some of the places where the first has nothing, and else the same. -/
def NewDirectories (places : Place → Prop) (tree after : FileTree) : Prop :=
  ∀ q, after.item? q = tree.item? q ∨ (places q ∧ tree.item? q = none ∧ after.item? q = some .directory)

namespace NewDirectories
variable {places : Place → Prop} {tree after last : FileTree}

theorem refl (places : Place → Prop) (tree : FileTree) : NewDirectories places tree tree := fun _ => Or.inl rfl

theorem mono {more : Place → Prop} (h : NewDirectories places tree after) (hmore : ∀ q, places q → more q) :
    NewDirectories more tree after :=
  fun q => (h q).imp_right fun ⟨hq, hnew⟩ => ⟨hmore q hq, hnew⟩

theorem trans (h₁ : NewDirectories places tree after) (h₂ : NewDirectories places after last) :
    NewDirectories places tree last := by
  intro q
  rcases h₂ q with heq | ⟨hq, hnone, hdir⟩
  · rw [heq]
    exact h₁ q
  · rcases h₁ q with heq | ⟨-, -, hdir'⟩
    · exact Or.inr ⟨hq, heq ▸ hnone, hdir⟩
    · rw [hnone] at hdir'
      cases hdir'

theorem put {place : Place} (h : tree.item? place = none) :
    NewDirectories (· = place) tree (tree.put place .directory) := by
  intro q
  rw [item?_put tree (ne_nil_of_item?_none h)]
  split
  · rename_i hq
    exact Or.inr ⟨hq, hq ▸ h, rfl⟩
  · exact Or.inl rfl

end NewDirectories

/-- A directory that is made stands at the place of its path, where nothing was, and the path leads there. -/
theorem createDirectory_eq_ok {tree after : FileTree} {here : Place} {path : Path}
    (h : tree.createDirectory here path = .ok after) :
    NewDirectories (· = path.place here) tree after ∧ after.walk here path = .ok (path.place here) := by
  unfold createDirectory at h
  split at h
  · cases h
  · split at h
    · cases h
    · rename_i last hlast
      obtain ⟨steps, hsteps⟩ := List.getLast?_eq_some_iff.mp hlast
      rw [hsteps, List.dropLast_concat] at h
      obtain ⟨above, hwalk, hmake⟩ := bind_eq_ok_iff.mp h
      by_cases habove : tree.item? above = some .directory
      · rw [if_neg (not_not.mpr habove)] at hmake
        match last, hmake with
        | .name s, hmake =>
          dsimp only at hmake
          split at hmake
          · cases hmake
          · rename_i hbytes
            split at hmake
            · cases hmake
            · rename_i hthere
              obtain rfl := Except.ok.inj hmake
              have hnone : tree.item? (above ++ [s]) = none := Option.not_isSome_iff_eq_none.mp hthere
              have hplace : path.place here = above ++ [s] := by
                rw [Path.place_of_steps_append hsteps, ← place_of_walk hwalk]
                rfl
              rw [hplace]
              have hput := item?_put tree (ne_nil_of_item?_none hnone) .directory
              refine ⟨NewDirectories.put hnone, walk_of_steps_append hsteps ?_ ?_ hbytes ?_⟩
              · exact walk_put (ne_nil_of_item?_none hnone) (by simp [hnone]) hwalk
              · rw [hput, if_neg (by simp)]
                exact habove
              · rw [hput, if_pos rfl]
                rfl
      · rw [if_pos habove] at hmake
        cases hmake

end Manifests.FileTree
