import Manifests.Proofs.Loading.Visits

/-! # Loading in depth-first order

Loading follows the imports in depth-first order. Where files have a post-order, visiting them loads the files that
stand in it, each where it stands first (`foldlM_visit`). Where a visit succeeds, the file has a post-order
(`exists_postOrder_of_visit`). So a file is loaded if and only if all that it reaches can be read, finds its imports
and does not reach itself. -/

namespace Manifests

/-! ### First occurrences -/

section
variable {α : Type} [DecidableEq α] {xs : List α}

theorem eraseDups_append_of_subset {ys : List α} (h : ys ⊆ xs) : (xs ++ ys).eraseDups = xs.eraseDups := by
  have hnone : ys.removeAll xs = [] := by
    rw [List.removeAll, List.filter_eq_nil_iff]
    intro y hy
    simpa using h hy
  rw [List.eraseDups_append, hnone, List.eraseDups_nil, List.append_nil]

theorem eraseDups_append_singleton {x : α} (h : x ∉ xs) : (xs ++ [x]).eraseDups = xs.eraseDups ++ [x] := by
  have hnew : [x].removeAll xs = [x] := by simp [List.removeAll, h]
  rw [List.eraseDups_append, hnew]
  rfl

end

namespace TextStore

variable {store : TextStore} {directory : Path}

/-- The file at a path as it is loaded. -/
def loadedFile (store : TextStore) (path : Path) : LoadedFile := ⟨path, store.resources path⟩

@[simp] theorem loadedFile_path (path : Path) : (store.loadedFile path).path = path := rfl

theorem loadedFile_eq {path : Path} {f : DeclarationFile} (h : store.file? path = some f) :
    store.loadedFile path = ⟨path, f.resources⟩ := by
  rw [loadedFile, resources, h]
  rfl

theorem flatMap_loadedFile (paths : List Path) :
    (paths.map store.loadedFile).flatMap (·.resources) = paths.flatMap store.resources :=
  List.flatMap_map _ _ paths

/-! ### Files with a post-order are loaded -/

/-- Different files of the store are in progress, and each reaches the files that are to be visited. The fuel is more
    than the files that can still come into progress. -/
structure InProgress (store : TextStore) (fuel : Nat) (stack paths : List Path) : Prop where
  nodup : stack.Nodup
  stored : stack ⊆ store.files.map (·.1)
  reaches : ∀ s ∈ stack, ∀ path ∈ paths, Relation.TransGen store.Imports s path
  fuel : store.files.length < stack.length + fuel

namespace InProgress
variable {fuel : Nat} {stack paths : List Path}

theorem mono {some : List Path} (h : store.InProgress fuel stack paths) (hsub : some ⊆ paths) :
    store.InProgress fuel stack some :=
  ⟨h.nodup, h.stored, fun s hs path hpath => h.reaches s hs path (hsub hpath), h.fuel⟩

/-- The fuel does not end, as only files of the store come into progress. -/
theorem exists_fuel (h : store.InProgress fuel stack paths) : ∃ less, fuel = less + 1 := by
  refine Nat.exists_eq_succ_of_ne_zero ?_
  rintro rfl
  have hlength : stack.length ≤ store.files.length := by
    simpa using h.nodup.length_le_of_subset h.stored
  have hfuel := h.fuel
  omega

/-- A file that does not reach itself comes into progress, while what it imports is visited. -/
theorem enter {path : Path} {f : DeclarationFile} {imported : List Path}
    (h : store.InProgress (fuel + 1) stack [path]) (hpath : path.normalize = path) (hf : store.file? path = some f)
    (himports : ∀ q ∈ imported, store.Imports path q) (hacyclic : ¬Relation.TransGen store.Imports path path) :
    store.InProgress fuel (stack ++ [path]) imported where
  nodup := by
    rw [List.nodup_append]
    refine ⟨h.nodup, List.nodup_singleton path, ?_⟩
    rintro s hs t ht rfl
    obtain rfl := List.mem_singleton.mp ht
    exact hacyclic (h.reaches s hs s (List.mem_singleton.mpr rfl))
  stored := by
    exact List.append_subset.mpr ⟨h.stored, List.cons_subset.mpr ⟨mem_files_of_file? hpath hf, List.nil_subset _⟩⟩
  reaches := by
    intro s hs q hq
    rcases List.mem_append.mp hs with hs | hs
    · exact (h.reaches s hs path (List.mem_singleton.mpr rfl)).tail (himports q hq)
    · obtain rfl := List.mem_singleton.mp hs
      exact .single (himports q hq)
  fuel := by
    have hfuel := h.fuel
    rw [List.length_append, List.length_singleton]
    omega

end InProgress

section
variable {fuel : Nat} {stack visited done : List Path}

/-- A visit of a file adds the file after what visits of its imports add. -/
theorem visit_of_foldlM {path : Path} {f : DeclarationFile} {imported below : List Path}
    (hf : store.file? path = some f) (hfinds : List.Forall₂ (store.Finds directory path) f.imports imported)
    (hbelow : store.PostOrder directory imported below) (hdone : store.PostOrder directory visited done)
    (hpath : path.normalize = path) (hprogress : store.InProgress fuel stack [path])
    (hfold : ∀ {fuel stack}, store.InProgress fuel stack imported →
      imported.foldlM (store.visit directory fuel stack) (done.eraseDups.map store.loadedFile) =
        .ok ((done ++ below).eraseDups.map store.loadedFile)) :
    store.visit directory fuel stack (done.eraseDups.map store.loadedFile) path =
      .ok ((done ++ (below ++ [path])).eraseDups.map store.loadedFile) := by
  have hown : store.PostOrder directory [path] (below ++ [path]) := .cons hf hfinds hbelow .nil
  obtain ⟨fuel, rfl⟩ := hprogress.exists_fuel
  by_cases hmem : path ∈ done
  · -- The file is loaded, and so is all that it reaches.
    have hsub : below ++ [path] ⊆ done := fun q hq => hdone.mem_of_reaches hmem (hown.mem_iff_reaches.mp hq)
    rw [eraseDups_append_of_subset hsub]
    exact visit_of_mem (by simpa using hmem)
  · have himports : ∀ q ∈ imported, store.Imports path q := fun q hq => (imports_iff_mem hf hfinds).mpr hq
    have hinner := hprogress.enter hpath hf himports hown.acyclic
    have hnot : path ∉ done ++ below := by
      intro hpath
      rcases List.mem_append.mp hpath with hpath | hpath
      · exact hmem hpath
      · obtain ⟨q, hq, hreaches⟩ := hbelow.exists_reaches_of_mem hpath
        exact hown.acyclic (.head' (himports q hq) hreaches)
    rw [visit_eq_ok (by simpa using hmem)]
    refine ⟨f, imported, (done ++ below).eraseDups.map store.loadedFile, hf, hfinds, ?_, hfold hinner, ?_⟩
    · intro q hq hstack
      obtain ⟨own, hq', -⟩ := hbelow.exists_of_mem (hbelow.subset hq)
      exact hq'.acyclic (hinner.reaches q hstack q hq)
    · rw [← List.append_assoc, eraseDups_append_singleton hnot, List.map_append, List.map_singleton,
        loadedFile_eq hf]

/-- Visiting files that have a post-order loads the files that stand in it and are not loaded yet, each where it
    stands first. -/
theorem foldlM_visit {paths order : List Path} (h : store.PostOrder directory paths order)
    (hdone : store.PostOrder directory visited done) (hpaths : ∀ path ∈ paths, path.normalize = path)
    (hprogress : store.InProgress fuel stack paths) :
    paths.foldlM (store.visit directory fuel stack) (done.eraseDups.map store.loadedFile) =
      .ok ((done ++ order).eraseDups.map store.loadedFile) := by
  -- The files that are done grow along the post-order, and they always have one themselves.
  induction h generalizing fuel stack visited done with
  | nil =>
    rw [List.append_nil]
    rfl
  | @cons path f imported paths below after hf hfinds hbelow _ ihbelow ihafter =>
    have hvisit := visit_of_foldlM hf hfinds hbelow hdone (hpaths path List.mem_cons_self)
      (hprogress.mono (by simp)) fun {_ _} hinner =>
        ihbelow hdone (fun q hq => ((imports_iff_mem hf hfinds).mpr hq).normalize) hinner
    have hafter := ihafter (hdone.append (.cons hf hfinds hbelow .nil))
      (fun q hq => hpaths q (List.mem_cons_of_mem _ hq)) (hprogress.mono (List.subset_cons_self path paths))
    rw [List.append_assoc, List.append_assoc, List.singleton_append] at hafter
    rw [List.foldlM_cons, hvisit]
    exact hafter

end

theorem visit_of_postOrder {file : Path} {order : List Path} {fuel : Nat} (hfile : file.normalize = file)
    (h : store.PostOrder directory [file] order) (hfuel : store.files.length < fuel) :
    store.visit directory fuel [] [] file = .ok (order.eraseDups.map store.loadedFile) := by
  have hfold := foldlM_visit h .nil (by simpa using hfile)
    (⟨.nil, List.nil_subset _, by simp, by simpa using hfuel⟩ : store.InProgress fuel [] [file])
  rw [List.foldlM_cons, bind_eq_ok_iff] at hfold
  obtain ⟨loaded, hvisit, hloaded⟩ := hfold
  cases hloaded
  exact hvisit

/-! ### Files that are loaded have a post-order -/

/-- Each of the files that are loaded has a post-order. -/
def Complete (store : TextStore) (directory : Path) (loaded : List LoadedFile) : Prop :=
  ∀ path ∈ loaded.map (·.path), ∃ order, store.PostOrder directory [path] order

/-- Later files are loaded after earlier ones, which are all still there, and are complete if these are. -/
structure Extends (store : TextStore) (directory : Path) (loaded after : List LoadedFile) : Prop where
  subset : loaded.map (·.path) ⊆ after.map (·.path)
  complete : store.Complete directory loaded → store.Complete directory after

namespace Extends
variable {loaded after last : List LoadedFile}

theorem refl (loaded : List LoadedFile) : store.Extends directory loaded loaded := ⟨fun _ h => h, id⟩

theorem trans (h : store.Extends directory loaded after) (h' : store.Extends directory after last) :
    store.Extends directory loaded last :=
  ⟨fun _ hpath => h'.subset (h.subset hpath), fun hcomplete => h'.complete (h.complete hcomplete)⟩

end Extends

theorem foldlM_extends {visit : List LoadedFile → Path → Except LoadFailure (List LoadedFile)}
    (hvisit : ∀ {loaded after path}, visit loaded path = .ok after →
      store.Extends directory loaded after ∧ path ∈ after.map (·.path))
    {paths : List Path} {loaded after : List LoadedFile} (h : paths.foldlM visit loaded = .ok after) :
    store.Extends directory loaded after ∧ paths ⊆ after.map (·.path) :=
  foldlM_related (Q := fun loaded path => path ∈ loaded.map (·.path)) Extends.refl Extends.trans
    (fun hextends hpath => hextends.subset hpath) hvisit h

/-- A visit loads the file, and it leaves no file that is loaded without a post-order. -/
theorem visit_extends {fuel : Nat} {stack : List Path} {loaded after : List LoadedFile} {path : Path}
    (h : store.visit directory fuel stack loaded path = .ok after) :
    store.Extends directory loaded after ∧ path ∈ after.map (·.path) := by
  -- The imports of the file are visited with less fuel, and give the post-order below it.
  induction fuel generalizing stack loaded after path with
  | zero => cases h
  | succ fuel ih =>
    by_cases hmem : path ∈ loaded.map (·.path)
    · rw [visit_of_mem hmem] at h
      cases h
      exact ⟨.refl _, hmem⟩
    · rw [visit_eq_ok hmem] at h
      obtain ⟨f, imported, below, hf, hfinds, -, hbelow, rfl⟩ := h
      obtain ⟨hextends, himported⟩ := foldlM_extends ih hbelow
      refine ⟨⟨?_, fun hcomplete => ?_⟩, by simp⟩
      · rw [List.map_append]
        exact List.subset_append_of_subset_left _ hextends.subset
      · have hcomplete := hextends.complete hcomplete
        obtain ⟨order, horder⟩ := PostOrder.exists_of_forall fun q hq => hcomplete q (himported hq)
        intro q hq
        rw [List.map_append, List.map_singleton] at hq
        rcases List.mem_append.mp hq with hq | hq
        · exact hcomplete q hq
        · obtain rfl := List.mem_singleton.mp hq
          exact ⟨_, .cons hf hfinds horder .nil⟩

theorem exists_postOrder_of_visit {fuel : Nat} {stack : List Path} {loaded : List LoadedFile} {file : Path}
    (h : store.visit directory fuel stack [] file = .ok loaded) : ∃ order, store.PostOrder directory [file] order := by
  obtain ⟨hextends, hfile⟩ := visit_extends h
  exact hextends.complete (by simp [Complete]) file hfile

/-- With fuel for all files of the store, more fuel makes no difference. -/
theorem visit_of_fuel_le {file : Path} {fuel more : Nat} {loaded : List LoadedFile} (hfile : file.normalize = file)
    (hfuel : store.files.length < fuel) (hmore : store.files.length < more)
    (h : store.visit directory fuel [] [] file = .ok loaded) :
    store.visit directory more [] [] file = .ok loaded := by
  obtain ⟨order, horder⟩ := exists_postOrder_of_visit h
  rw [visit_of_postOrder hfile horder hfuel] at h
  rw [visit_of_postOrder hfile horder hmore]
  exact h

end TextStore

end Manifests
