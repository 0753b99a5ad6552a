import Manifests.Proofs.Loading.DepthFirst

/-! # The declarations that are loaded

Loading gives the declarations of the files that the first one reaches, file after file: each file once, in the order
of the post-order, and so after the files that it imports. -/

namespace Manifests

theorem nodup_eraseDups {α : Type} [DecidableEq α] (xs : List α) : xs.eraseDups.Nodup := by
  induction xs using List.reverseRecOn with
  | nil => exact .nil
  | append_singleton xs x ih =>
    by_cases hx : x ∈ xs
    · rwa [eraseDups_append_of_subset (by simpa using hx)]
    · rw [eraseDups_append_singleton hx, List.nodup_append]
      refine ⟨ih, List.nodup_singleton x, ?_⟩
      rintro y hy z hz rfl
      obtain rfl := List.mem_singleton.mp hz
      exact hx (List.mem_eraseDups.mp hy)

namespace TextStore

variable {store : TextStore} {directory : Path}

/-- The files that a file reaches, in the order in which they are loaded: each once, where it stands first in the
    post-order, and before those that import it. -/
structure LoadOrder (store : TextStore) (directory file : Path) (files : List Path) : Prop where
  postOrder : ∃ order, store.PostOrder directory [file] order ∧ files = order.eraseDups
  nodup : files.Nodup
  mem_iff : ∀ path, path ∈ files ↔ store.Reaches file path
  imports : files.Pairwise fun path later => ¬store.Imports path later

/-- Where files first stand in a post-order, none stands before a file that it imports. -/
theorem PostOrder.pairwise_not_imports {paths visited order done : List Path}
    (h : store.PostOrder directory paths order) (hdone : store.PostOrder directory visited done)
    (hpairwise : done.eraseDups.Pairwise fun path later => ¬store.Imports path later) :
    (done ++ order).eraseDups.Pairwise fun path later => ¬store.Imports path later := by
  induction h generalizing visited done with
  | nil => rwa [List.append_nil]
  | @cons path f imported paths below after hf hfinds hbelow _ ihbelow ihafter =>
    have hpair : (done ++ (below ++ [path])).eraseDups.Pairwise fun path later => ¬store.Imports path later := by
      have hfirst := ihbelow hdone hpairwise
      rw [← List.append_assoc]
      by_cases hmem : path ∈ done ++ below
      · rwa [eraseDups_append_of_subset (by simpa using hmem)]
      · -- What is loaded imports nothing that is not, as its imports are complete.
        rw [eraseDups_append_singleton hmem, List.pairwise_append]
        refine ⟨hfirst, List.pairwise_singleton _ _, ?_⟩
        intro q hq later hlater himports
        obtain rfl := List.mem_singleton.mp hlater
        exact hmem ((hdone.append hbelow).mem_of_imports (List.mem_eraseDups.mp hq) himports)
    have hrest := ihafter (hdone.append (.cons hf hfinds hbelow .nil)) hpair
    rwa [List.append_assoc, List.append_assoc, List.singleton_append] at hrest

theorem PostOrder.loadOrder {file : Path} {order : List Path} (h : store.PostOrder directory [file] order) :
    store.LoadOrder directory file order.eraseDups where
  postOrder := ⟨order, h, rfl⟩
  nodup := nodup_eraseDups order
  mem_iff _ := List.mem_eraseDups.trans h.mem_iff_reaches
  imports := h.pairwise_not_imports .nil .nil

/-- Loading visits the first file, which no other is loaded before. -/
theorem loadFiles_eq_ok {root : String} {loaded : List LoadedFile} :
    (store.source.loadFiles root).run.run = .ok loaded ↔ ∃ file, store.canonicalize (Path.ofText root) = .ok file ∧
      store.visit file.parent (store.files.length + 1) [] [] file = .ok loaded := by
  rw [Source.loadFiles]
  simp only [run_bind, bind_eq_ok_iff, run_orFail_eq_ok]
  constructor
  · rintro ⟨file, hfile, directory, hdirectory, hvisit⟩
    -- The directory that imports may not leave is that of the first file, under the same path.
    obtain rfl := Except.ok.inj (hdirectory.symm.trans (canonicalize_parent hfile))
    exact ⟨file, hfile, hvisit⟩
  · rintro ⟨file, hfile, hvisit⟩
    exact ⟨file, hfile, file.parent, canonicalize_parent hfile, hvisit⟩

theorem loadFiles_eq_ok_iff_postOrder {root : String} {loaded : List LoadedFile} :
    (store.source.loadFiles root).run.run = .ok loaded ↔
      ∃ file order, store.canonicalize (Path.ofText root) = .ok file ∧
        store.PostOrder file.parent [file] order ∧ loaded = order.eraseDups.map store.loadedFile := by
  rw [loadFiles_eq_ok]
  constructor
  · rintro ⟨file, hfile, hvisit⟩
    obtain ⟨order, horder⟩ := exists_postOrder_of_visit hvisit
    rw [visit_of_postOrder (normalize_of_canonicalize hfile) horder (Nat.lt_succ_self _)] at hvisit
    cases hvisit
    exact ⟨file, order, hfile, horder, rfl⟩
  · rintro ⟨file, order, hfile, horder, rfl⟩
    exact ⟨file, hfile, visit_of_postOrder (normalize_of_canonicalize hfile) horder (Nat.lt_succ_self _)⟩

theorem load_eq_ok_iff_postOrder {root : String} {ds : List Declaration} :
    store.load root = .ok ds ↔ ∃ file order, store.canonicalize (Path.ofText root) = .ok file ∧
      store.PostOrder file.parent [file] order ∧ ds = order.eraseDups.flatMap store.resources := by
  rw [load, Source.run_load_eq_ok]
  constructor
  · rintro ⟨loaded, hloaded, rfl⟩
    obtain ⟨file, order, hfile, horder, rfl⟩ := loadFiles_eq_ok_iff_postOrder.mp hloaded
    exact ⟨file, order, hfile, horder, flatMap_loadedFile _⟩
  · rintro ⟨file, order, hfile, horder, rfl⟩
    exact ⟨_, loadFiles_eq_ok_iff_postOrder.mpr ⟨file, order, hfile, horder, rfl⟩, (flatMap_loadedFile _).symm⟩

/-- Declarations can be loaded if and only if the first file is there and can be loaded with all it reaches. Then they
    are the declarations of the files that it reaches, file after file in the order in which these are loaded. -/
theorem load_eq_ok_iff_loadOrder (store : TextStore) (root : String) :
    ((∃ ds, store.load root = .ok ds) ↔
      ∃ file, store.canonicalize (Path.ofText root) = .ok file ∧ store.Loadable file.parent file) ∧
    ∀ ds, store.load root = .ok ds ↔
      ∃ file files, store.canonicalize (Path.ofText root) = .ok file ∧ store.LoadOrder file.parent file files ∧
        ds = files.flatMap store.resources := by
  refine ⟨⟨?_, ?_⟩, fun ds => ⟨?_, ?_⟩⟩
  · rintro ⟨ds, h⟩
    obtain ⟨file, order, hfile, horder, -⟩ := load_eq_ok_iff_postOrder.mp h
    exact ⟨file, hfile, (loadable_iff_exists_postOrder (normalize_of_canonicalize hfile)).mpr ⟨order, horder⟩⟩
  · rintro ⟨file, hfile, hloadable⟩
    obtain ⟨order, horder⟩ := (loadable_iff_exists_postOrder (normalize_of_canonicalize hfile)).mp hloadable
    exact ⟨_, load_eq_ok_iff_postOrder.mpr ⟨file, order, hfile, horder, rfl⟩⟩
  · intro h
    obtain ⟨file, order, hfile, horder, rfl⟩ := load_eq_ok_iff_postOrder.mp h
    exact ⟨file, order.eraseDups, hfile, horder.loadOrder, rfl⟩
  · rintro ⟨file, _, hfile, ⟨⟨order, horder, rfl⟩, -, -, -⟩, rfl⟩
    exact load_eq_ok_iff_postOrder.mpr ⟨file, order, hfile, horder, rfl⟩

end TextStore

end Manifests
