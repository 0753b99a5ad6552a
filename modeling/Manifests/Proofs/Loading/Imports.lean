import Manifests.DeclarationFile
import Manifests.Proofs.Lists
import Manifests.Proofs.TextStore
import Mathlib.Data.Fintype.Card
import Mathlib.Data.Set.Finite.Basic
import Mathlib.Logic.Relation

/-! # The import relation of a store

A stored file imports others (`Imports`), and it can be loaded if all files that it reaches can be read, find their
imports and do not reach themselves (`Loadable`). Then the files that it reaches have a depth-first post-order
(`PostOrder`), and only then. -/

namespace Manifests.TextStore

/-- The declaration file at a path, where a text is stored there and is one. -/
def file? (store : TextStore) (path : Path) : Option DeclarationFile :=
  (store.read path).toOption.bind fun text => (DeclarationFile.read path.label text).toOption

/-- The declarations of the file at a path. -/
def resources (store : TextStore) (path : Path) : List Declaration :=
  ((store.file? path).map (·.resources)).getD []

/-- The path that an entry of the imports of a file means, which is a file or a directory. -/
def Means (store : TextStore) (path : Path) (reference : String) (imported : Path) : Prop :=
  store.canonicalize (resolve path.parent reference) = .ok imported

/-- A file imports what an entry of its imports means. -/
def Imports (store : TextStore) (path imported : Path) : Prop :=
  ∃ f, store.file? path = some f ∧ ∃ reference ∈ f.imports, store.Means path reference imported

/-- A file reaches itself, what it imports, and what that reaches. -/
def Reaches (store : TextStore) : Path → Path → Prop := Relation.ReflTransGen store.Imports

/-- The path that an entry of the imports of a file means is below a directory. -/
def Finds (store : TextStore) (directory path : Path) (reference : String) (imported : Path) : Prop :=
  store.Means path reference imported ∧ imported.startsWith directory = true

/-- A file can be loaded: what it reaches can be read, finds its imports in the directory and does not reach itself. -/
structure Loadable (store : TextStore) (directory file : Path) : Prop where
  read : ∀ path, store.Reaches file path → (store.file? path).isSome
  finds : ∀ path f, store.Reaches file path → store.file? path = some f →
    ∀ reference ∈ f.imports, ∃ imported, store.Finds directory path reference imported
  acyclic : ∀ path, store.Reaches file path → ¬Relation.TransGen store.Imports path path

/-- The depth-first post-order of what files reach: for each file what its imports reach, in the order in which it
    lists them, and then the file itself. A file that is reached again stands there again. -/
inductive PostOrder (store : TextStore) (directory : Path) : List Path → List Path → Prop where
  | nil : PostOrder store directory [] []
  | cons {path f imported paths below after} : store.file? path = some f →
      List.Forall₂ (store.Finds directory path) f.imports imported → PostOrder store directory imported below →
      PostOrder store directory paths after → PostOrder store directory (path :: paths) (below ++ path :: after)

variable {store : TextStore} {directory : Path}

/-! ### Paths of files -/

theorem normalize_of_canonicalize {path found : Path} (h : store.canonicalize path = .ok found) :
    found.normalize = found := by
  obtain ⟨rfl, -⟩ := canonicalize_eq_ok.mp h
  exact path.normalize_normalize

/-- The directory of a path that is there is there too, under the same path. -/
theorem canonicalize_parent {path found : Path} (h : store.canonicalize path = .ok found) :
    store.canonicalize found.parent = .ok found.parent := by
  have hparent := Path.normalize_parent (normalize_of_canonicalize h)
  obtain ⟨rfl, file, hfile, hstarts⟩ := canonicalize_eq_ok.mp h
  refine canonicalize_eq_ok.mpr ⟨hparent.symm, file, hfile, ?_⟩
  rw [hparent]
  exact Path.startsWith_parent hstarts

theorem Imports.normalize {path imported : Path} (h : store.Imports path imported) : imported.normalize = imported := by
  obtain ⟨_, _, _, _, hmeans⟩ := h
  exact normalize_of_canonicalize hmeans

/-- The file at a path in normal form is an entry of the store. -/
theorem mem_files_of_file? {path : Path} {f : DeclarationFile} (hpath : path.normalize = path)
    (h : store.file? path = some f) : path ∈ store.files.map (·.1) := by
  obtain ⟨text, htext, -⟩ := Option.bind_eq_some_iff.mp h
  rw [read, hpath] at htext
  cases hlookup : store.files.lookup path with
  | none => simp [hlookup, Except.toOption] at htext
  | some stored =>
    obtain ⟨before, after, hfiles, -⟩ := List.lookup_eq_some_iff.mp hlookup
    rw [hfiles]
    simp

/-! ### Post-orders -/

theorem imports_iff_mem {path q : Path} {f : DeclarationFile} {imported : List Path} (hf : store.file? path = some f)
    (hfinds : List.Forall₂ (store.Finds directory path) f.imports imported) :
    store.Imports path q ↔ q ∈ imported := by
  constructor
  · rintro ⟨f', hf', reference, href, hmeans⟩
    obtain rfl := Option.some.inj (hf.symm.trans hf')
    obtain ⟨found, hfound, hfinds⟩ := exists_mem_right_of_forall₂ hfinds href
    obtain rfl := Except.ok.inj (hmeans.symm.trans hfinds.1)
    exact hfound
  · intro hq
    obtain ⟨reference, href, hfound⟩ := exists_mem_left_of_forall₂ hfinds hq
    exact ⟨f, hf, reference, href, hfound.1⟩

namespace PostOrder

theorem append {paths order more rest : List Path} (h : store.PostOrder directory paths order)
    (hmore : store.PostOrder directory more rest) : store.PostOrder directory (paths ++ more) (order ++ rest) := by
  induction h with
  | nil => exact hmore
  | cons hf himports hbelow _ _ ih =>
    rw [List.append_assoc, List.cons_append, List.cons_append]
    exact .cons hf himports hbelow ih

theorem exists_of_forall {paths : List Path} (h : ∀ path ∈ paths, ∃ order, store.PostOrder directory [path] order) :
    ∃ order, store.PostOrder directory paths order := by
  induction paths with
  | nil => exact ⟨[], .nil⟩
  | cons path paths ih =>
    obtain ⟨order, horder⟩ := h path List.mem_cons_self
    obtain ⟨rest, hrest⟩ := ih fun path hpath => h path (List.mem_cons_of_mem _ hpath)
    exact ⟨order ++ rest, horder.append hrest⟩

theorem subset {paths order : List Path} (h : store.PostOrder directory paths order) : paths ⊆ order := by
  induction h with
  | nil => exact List.nil_subset _
  | cons _ _ _ _ _ ih =>
    intro path hpath
    rcases List.mem_cons.mp hpath with rfl | hpath
    · simp
    · simp [ih hpath]

/-- Each file in a post-order has one of its own, which is no longer. -/
theorem exists_of_mem {paths order : List Path} (h : store.PostOrder directory paths order) {path : Path}
    (hpath : path ∈ order) : ∃ own, store.PostOrder directory [path] own ∧ own.length ≤ order.length := by
  induction h with
  | nil => cases hpath
  | cons hf hfinds hbelow _ ihbelow ihafter =>
    rcases List.mem_append.mp hpath with hpath | hpath
    · obtain ⟨own, hown, hlength⟩ := ihbelow hpath
      exact ⟨own, hown, by rw [List.length_append]; omega⟩
    · rcases List.mem_cons.mp hpath with rfl | hpath
      · exact ⟨_, .cons hf hfinds hbelow .nil, by simp⟩
      · obtain ⟨own, hown, hlength⟩ := ihafter hpath
        exact ⟨own, hown, by rw [List.length_append, List.length_cons]; omega⟩

theorem mem_of_imports {paths order : List Path} (h : store.PostOrder directory paths order) {path imported : Path}
    (hpath : path ∈ order) (himports : store.Imports path imported) : imported ∈ order := by
  induction h with
  | nil => cases hpath
  | cons hf hfinds hbelow _ ihbelow ihafter =>
    rcases List.mem_append.mp hpath with hpath | hpath
    · exact List.mem_append_left _ (ihbelow hpath)
    · rcases List.mem_cons.mp hpath with rfl | hpath
      · exact List.mem_append_left _ (hbelow.subset ((imports_iff_mem hf hfinds).mp himports))
      · exact List.mem_append_right _ (List.mem_cons_of_mem _ (ihafter hpath))

theorem mem_of_reaches {paths order : List Path} (h : store.PostOrder directory paths order) {path reached : Path}
    (hpath : path ∈ order) (hreaches : store.Reaches path reached) : reached ∈ order := by
  induction hreaches with
  | refl => exact hpath
  | tail _ himports ih => exact h.mem_of_imports ih himports

theorem exists_reaches_of_mem {paths order : List Path} (h : store.PostOrder directory paths order) {path : Path}
    (hpath : path ∈ order) : ∃ start ∈ paths, store.Reaches start path := by
  induction h with
  | nil => cases hpath
  | cons hf hfinds _ _ ihbelow ihafter =>
    rcases List.mem_append.mp hpath with hpath | hpath
    · obtain ⟨imported, himported, hreaches⟩ := ihbelow hpath
      exact ⟨_, List.mem_cons_self, .head ((imports_iff_mem hf hfinds).mpr himported) hreaches⟩
    · rcases List.mem_cons.mp hpath with rfl | hpath
      · exact ⟨_, List.mem_cons_self, .refl⟩
      · obtain ⟨start, hstart, hreaches⟩ := ihafter hpath
        exact ⟨start, List.mem_cons_of_mem _ hstart, hreaches⟩

theorem mem_iff_reaches {path reached : Path} {order : List Path} (h : store.PostOrder directory [path] order) :
    reached ∈ order ↔ store.Reaches path reached := by
  refine ⟨fun hreached => ?_, h.mem_of_reaches (h.subset (List.mem_singleton.mpr rfl))⟩
  obtain ⟨start, hstart, hreaches⟩ := h.exists_reaches_of_mem hreached
  obtain rfl := List.mem_singleton.mp hstart
  exact hreaches

/-! ### No cycles -/

theorem exists_shorter {path imported : Path} {order : List Path} (h : store.PostOrder directory [path] order)
    (himports : store.Imports path imported) :
    ∃ own, store.PostOrder directory [imported] own ∧ own.length < order.length := by
  obtain _ | ⟨hf, hfinds, hbelow, -⟩ := h
  obtain ⟨own, hown, hlength⟩ := hbelow.exists_of_mem (hbelow.subset ((imports_iff_mem hf hfinds).mp himports))
  exact ⟨own, hown, by rw [List.length_append, List.length_cons]; omega⟩

theorem exists_shorter_of_transGen {path reached : Path} {order : List Path}
    (h : store.PostOrder directory [path] order) (hreached : Relation.TransGen store.Imports path reached) :
    ∃ own, store.PostOrder directory [reached] own ∧ own.length < order.length := by
  induction hreached with
  | single himports => exact h.exists_shorter himports
  | tail _ himports ih =>
    obtain ⟨own, hown, hlength⟩ := ih
    obtain ⟨shorter, hshorter, hlength'⟩ := hown.exists_shorter himports
    exact ⟨shorter, hshorter, hlength'.trans hlength⟩

/-- A file with a post-order does not reach itself: it would have ever shorter ones. -/
theorem acyclic {path : Path} {order : List Path} (h : store.PostOrder directory [path] order) :
    ¬Relation.TransGen store.Imports path path := by
  intro hcycle
  induction hlength : order.length using Nat.strong_induction_on generalizing order with
  | _ n ih =>
    obtain ⟨own, hown, hshorter⟩ := h.exists_shorter_of_transGen hcycle
    exact ih own.length (hlength ▸ hshorter) hown rfl

theorem loadable {file : Path} {order : List Path} (h : store.PostOrder directory [file] order) :
    store.Loadable directory file := by
  have hown : ∀ path, store.Reaches file path → ∃ own, store.PostOrder directory [path] own := by
    intro path hreaches
    obtain ⟨own, hown, -⟩ := h.exists_of_mem (h.mem_iff_reaches.mpr hreaches)
    exact ⟨own, hown⟩
  refine ⟨fun path hreaches => ?_, fun path f hreaches hf reference href => ?_, fun path hreaches => ?_⟩
  · obtain ⟨_, _ | ⟨hf, -, -, -⟩⟩ := hown path hreaches
    exact Option.isSome_of_eq_some hf
  · obtain ⟨_, _ | ⟨hf', hfinds, -, -⟩⟩ := hown path hreaches
    obtain rfl := Option.some.inj (hf.symm.trans hf')
    obtain ⟨imported, -, hfound⟩ := exists_mem_right_of_forall₂ hfinds href
    exact ⟨imported, hfound⟩
  · obtain ⟨own, hown⟩ := hown path hreaches
    exact hown.acyclic

end PostOrder

/-! ### Loadable files have a post-order -/

theorem finite_reached {file : Path} (hfile : file.normalize = file)
    (hread : ∀ path, store.Reaches file path → (store.file? path).isSome) :
    Finite {path // store.Reaches file path} := by
  refine Set.Finite.subset (List.finite_toSet (store.files.map (·.1))) fun path hreaches => ?_
  have hpath : path.normalize = path := by
    cases hreaches with
    | refl => exact hfile
    | tail _ himports => exact himports.normalize
  obtain ⟨f, hf⟩ := Option.isSome_iff_exists.mp (hread path hreaches)
  exact mem_files_of_file? hpath hf

/-- Of the files that a file reaches, one is deeper than another if that imports it, with files in between or not. -/
def Deeper (store : TextStore) (file : Path) (q p : {path // store.Reaches file path}) : Prop :=
  Relation.TransGen store.Imports p q

/-- The files that a loadable file reaches do not go ever deeper: they are finitely many, and none reaches itself. -/
theorem Loadable.wellFounded_deeper {file : Path} (hfile : file.normalize = file) (h : store.Loadable directory file) :
    WellFounded (store.Deeper file) := by
  have hfinite := finite_reached hfile h.read
  have htrans : IsTrans _ (store.Deeper file) := ⟨fun _ _ _ hab hbc => Relation.TransGen.trans hbc hab⟩
  have hirrefl : Std.Irrefl (store.Deeper file) := ⟨fun p => h.acyclic p p.2⟩
  exact Finite.wellFounded_of_trans_of_irrefl (store.Deeper file)

/-- A file that can be loaded has a post-order, as its imports have one. -/
theorem Loadable.exists_postOrder {file : Path} (hfile : file.normalize = file) (h : store.Loadable directory file) :
    ∃ order, store.PostOrder directory [file] order := by
  suffices hall : ∀ p : {path // store.Reaches file path}, ∃ order, store.PostOrder directory [p.1] order from
    hall ⟨file, .refl⟩
  intro p
  induction p using (h.wellFounded_deeper hfile).induction with
  | _ p ih =>
    obtain ⟨path, hreaches⟩ := p
    obtain ⟨f, hf⟩ := Option.isSome_iff_exists.mp (h.read path hreaches)
    obtain ⟨imported, hfinds⟩ := exists_forall₂ (h.finds path f hreaches hf)
    -- What the file imports is deeper.
    have hbelow : ∀ q ∈ imported, ∃ order, store.PostOrder directory [q] order := by
      intro q hq
      have himports : store.Imports path q := (imports_iff_mem hf hfinds).mpr hq
      exact ih ⟨q, hreaches.tail himports⟩ (.single himports)
    obtain ⟨below, hbelow⟩ := PostOrder.exists_of_forall hbelow
    exact ⟨below ++ [path], .cons hf hfinds hbelow .nil⟩

theorem loadable_iff_exists_postOrder {file : Path} (hfile : file.normalize = file) :
    store.Loadable directory file ↔ ∃ order, store.PostOrder directory [file] order :=
  ⟨fun h => h.exists_postOrder hfile, fun ⟨_, h⟩ => h.loadable⟩

end Manifests.TextStore
