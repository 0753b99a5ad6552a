import Manifests.Proofs.Loading.LoadOrder
import Manifests.Proofs.Loading.Reading
import Manifests.Proofs.Loading.Sandbox
import Manifests.Proofs.Place

/-! # The files of a tree as texts in memory

The texts of a tree are loaded as its files are, but for one difference: a tree stays at the root where a path takes a
step back from there, and texts in memory are not found under such a path. So where the files are loaded from an
absolute path, the texts give the same declarations if no path that is followed climbs above the root, and none else
(`load_texts`). -/

namespace Manifests

/-! ### What a visit adds -/

namespace Source
variable {source : Source Id} {directory : Path}

/-- The later files are the earlier ones and then others, which are files of the source. -/
def Adds (source : Source Id) (loaded after : List LoadedFile) : Prop :=
  ∃ added, after = loaded ++ added ∧ ∀ f ∈ added, (source.file? f.path).isSome

theorem Adds.refl (loaded : List LoadedFile) : source.Adds loaded loaded := ⟨[], by simp, by simp⟩

theorem Adds.trans {loaded after last : List LoadedFile} (h : source.Adds loaded after)
    (hrest : source.Adds after last) : source.Adds loaded last := by
  obtain ⟨first, rfl, hfirst⟩ := h
  obtain ⟨second, rfl, hsecond⟩ := hrest
  exact ⟨first ++ second, List.append_assoc _ _ _, List.forall_mem_append.mpr ⟨hfirst, hsecond⟩⟩

theorem Adds.mem {loaded after : List LoadedFile} {path : Path} (h : source.Adds loaded after)
    (hpath : path ∈ loaded.map (·.path)) : path ∈ after.map (·.path) := by
  obtain ⟨added, rfl, -⟩ := h
  rw [List.map_append]
  exact List.mem_append_left _ hpath

theorem foldlM_adds {visit : List LoadedFile → Path → Except LoadFailure (List LoadedFile)}
    (hvisit : ∀ {loaded after path}, visit loaded path = .ok after →
      source.Adds loaded after ∧ path ∈ after.map (·.path))
    {paths : List Path} {loaded after : List LoadedFile} (h : paths.foldlM visit loaded = .ok after) :
    source.Adds loaded after ∧ ∀ path ∈ paths, path ∈ after.map (·.path) :=
  foldlM_related (Q := fun loaded path => path ∈ loaded.map (·.path)) Adds.refl Adds.trans
    (fun hadds hpath => hadds.mem hpath) hvisit h

theorem visit_adds {fuel : Nat} {stack : List Path} {loaded after : List LoadedFile} {path : Path}
    (h : source.visit directory fuel stack loaded path = .ok after) :
    source.Adds loaded after ∧ path ∈ after.map (·.path) := by
  induction fuel generalizing stack loaded after path with
  | zero => cases h
  | succ fuel ih =>
    by_cases hmem : path ∈ loaded.map (·.path)
    · rw [visit_of_mem hmem] at h
      obtain rfl := Except.ok.inj h
      exact ⟨Adds.refl loaded, hmem⟩
    · obtain ⟨f, imported, below, hf, -, -, hbelow, rfl⟩ := (visit_eq_ok hmem).mp h
      obtain ⟨hadds, -⟩ := foldlM_adds ih hbelow
      have hown : source.Adds below (below ++ [⟨path, f.resources⟩]) := ⟨_, rfl, by simp [hf]⟩
      exact ⟨hadds.trans hown, by simp⟩

end Source

namespace FileTree

/-! ### Files and texts -/

/-- The files of the tree, as commands that run in the directory `here` read them. -/
def files (tree : FileTree) (here : Place) : Source Id := (tree.host here).source.inState tree

/-- The texts of the tree in memory, under the paths from the root to their files. -/
def texts (tree : FileTree) : TextStore :=
  tree.items.foldr (fun entry store =>
    match entry.2 with
    | .file (.text s) => store.insert (.ofPlace entry.1) s
    | _ => store) .empty

variable {tree : FileTree} {here : Place}

theorem run_load_files (root : String) :
    (((tree.host here).source.load root).run.run tree).1 = ((tree.files here).load root).run.run :=
  congrArg Prod.fst (Source.load_onlyReads (source_leaves tree tree here) root)

theorem run_loadFiles_files (root : String) :
    (((tree.host here).source.loadFiles root).run.run tree).1 = ((tree.files here).loadFiles root).run.run :=
  congrArg Prod.fst (Source.loadFiles_onlyReads (source_leaves tree tree here) root)

theorem exists_place_of_mem_texts {stored : Path × String} (h : stored ∈ tree.texts.files) :
    ∃ place, stored.1 = .ofPlace place := by
  obtain ⟨items⟩ := tree
  induction items with
  | nil => cases h
  | cons entry items ih =>
    obtain ⟨place, item⟩ := entry
    match item with
    | .file (.text s) =>
      rcases List.mem_cons.mp h with rfl | h
      · exact ⟨place, Path.normalize_ofPlace place⟩
      · exact ih h
    | .directory | .file (.bytes _) => exact ih h

theorem length_texts_le (tree : FileTree) : tree.texts.files.length ≤ tree.items.length := by
  obtain ⟨items⟩ := tree
  induction items with
  | nil => exact Nat.le_refl 0
  | cons entry items ih =>
    obtain ⟨place, item⟩ := entry
    match item with
    | .file (.text s) => exact Nat.succ_le_succ ih
    | .directory | .file (.bytes _) => exact Nat.le_succ_of_le ih

theorem lookup_texts {items : List (Place × Item)} {place : Place} {s : String}
    (h : items.lookup place = some (.file (.text s))) :
    (FileTree.mk items).texts.files.lookup (.ofPlace place) = some s := by
  induction items with
  | nil => cases h
  | cons entry items ih =>
    obtain ⟨q, item⟩ := entry
    rw [List.lookup_cons] at h
    by_cases hq : place = q
    · obtain rfl := hq
      rw [beq_self_eq_true] at h
      obtain rfl := Option.some.inj h
      show List.lookup _ ((Path.normalize _, s) :: _) = _
      rw [Path.normalize_ofPlace, List.lookup_cons, beq_self_eq_true]
    · have hplaces : (place == q) = false := beq_eq_false_iff_ne.mpr hq
      have hpaths : (Path.ofPlace place == Path.ofPlace q) = false :=
        beq_eq_false_iff_ne.mpr fun heq => hq (Path.ofPlace_injective heq)
      rw [hplaces] at h
      match item with
      | .file (.text t) =>
        show List.lookup _ ((Path.normalize _, t) :: _) = _
        rw [Path.normalize_ofPlace, List.lookup_cons, hpaths]
        exact ih h
      | .directory | .file (.bytes _) => exact ih h

theorem read_texts {place : Place} {s : String} (h : tree.item? place = some (.file (.text s))) :
    tree.texts.read (.ofPlace place) = .ok s := by
  have hitem : tree.items.lookup place = some (.file (.text s)) := by
    unfold item? at h
    split at h
    · cases h
    · exact h
  rw [TextStore.read, Path.normalize_ofPlace, lookup_texts hitem]

/-- What is read under a path is the text that stands at its place. -/
theorem item?_of_read {path : Path} {s : String} (h : tree.read here path = .ok s) :
    tree.item? (path.place here) = some (.file (.text s)) := by
  obtain ⟨q, hq, hread⟩ := bind_eq_ok_iff.mp h
  obtain rfl := place_of_locate hq
  split at hread
  · rename_i hitem
    rw [hitem, Except.ok.inj hread]
  · cases hread
  · cases hread
  · cases hread

theorem texts_file? {place : Place} {f : DeclarationFile} (h : (tree.files here).file? (.ofPlace place) = some f) :
    tree.texts.file? (.ofPlace place) = some f := by
  obtain ⟨s, hs, hf⟩ := Source.file?_eq_some.mp h
  have hitem := item?_of_read hs
  rw [Path.place_ofPlace] at hitem
  exact TextStore.file?_eq_some.mpr ⟨s, read_texts hitem, hf⟩

/-! ### Finding files -/

theorem canonicalize_eq_ofPlace {path found : Path} (h : tree.canonicalize here path = .ok found) :
    found = .ofPlace (path.place here) := by
  obtain ⟨place, hplace, h⟩ := bind_eq_ok_iff.mp h
  obtain rfl := place_of_locate hplace
  exact (Except.ok.inj h).symm

theorem texts_canonicalize_of_climbs {path found : Path} (habs : path.absolute = true) (h : path.ClimbsRoot) :
    tree.texts.canonicalize path ≠ .ok found := by
  rw [ne_eq, TextStore.canonicalize_eq_ok]
  rintro ⟨-, stored, hstored, hstarts⟩
  obtain ⟨place, hplace⟩ := exists_place_of_mem_texts hstored
  rw [Path.startsWith_eq_true_iff, hplace] at hstarts
  rcases hstarts with hempty | ⟨-, hstart⟩
  · have hrelative : path.absolute = false := congrArg Path.absolute hempty
    exact absurd habs (by simp [hrelative])
  · exact Path.parent_not_mem_ofPlace place (hstart.subset h.parent_mem)

/-- A file that is found under an absolute path is found in memory under the same canonical path, unless the path
    climbs above the root. -/
theorem texts_canonicalize {path found : Path} (habs : path.absolute = true)
    (h : tree.canonicalize here path = .ok found) (hfile : ((tree.files here).file? found).isSome) (found' : Path) :
    tree.texts.canonicalize path = .ok found' ↔ found' = found ∧ ¬path.ClimbsRoot := by
  obtain rfl := canonicalize_eq_ofPlace h
  by_cases hclimbs : path.ClimbsRoot
  · exact ⟨fun h => absurd h (texts_canonicalize_of_climbs habs hclimbs), fun h => absurd hclimbs h.2⟩
  · have hnormal := Path.normalize_of_absolute habs hclimbs here
    obtain ⟨f, hf⟩ := Option.isSome_iff_exists.mp hfile
    have hstored := TextStore.mem_files_of_file? (Path.normalize_ofPlace _) (texts_file? hf)
    obtain ⟨stored, hstored, hpath⟩ := List.mem_map.mp hstored
    rw [TextStore.canonicalize_eq_ok, hnormal, ← hpath]
    exact ⟨fun h => ⟨h.1, hclimbs⟩, fun h => ⟨h.1, stored, hstored, Path.startsWith_self _⟩⟩

/-- Some import of the file at a path climbs above the root. -/
def Climbs (tree : FileTree) (here : Place) (path : Path) : Prop :=
  ∃ f, (tree.files here).file? path = some f ∧
    ∃ reference ∈ f.imports, (path.parent.join (Path.ofText reference)).ClimbsRoot

theorem not_climbs_iff {path : Path} {f : DeclarationFile} (hf : (tree.files here).file? path = some f) :
    ¬tree.Climbs here path ↔
      ∀ reference ∈ f.imports, ¬(path.parent.join (Path.ofText reference)).ClimbsRoot := by
  constructor
  · intro h reference href hclimbs
    exact h ⟨f, hf, reference, href, hclimbs⟩
  · rintro h ⟨f', hf', reference, href, hclimbs⟩
    obtain rfl := Option.some.inj (hf.symm.trans hf')
    exact h reference href hclimbs

/-- The directory of a file is the place above it, as no file is the root. -/
theorem parent_of_file? {place : Place} (h : ((tree.files here).file? (.ofPlace place)).isSome) :
    (Path.ofPlace place).parent = .ofPlace place.dropLast := by
  obtain ⟨f, hf⟩ := Option.isSome_iff_exists.mp h
  obtain ⟨s, hs, -⟩ := Source.file?_eq_some.mp hf
  have hitem := item?_of_read hs
  rw [Path.place_ofPlace] at hitem
  have hplace : place ≠ [] := by
    rintro rfl
    cases hitem
  simp [Path.parent, Path.ofPlace, hplace]

theorem texts_finds {directory path imported : Path} {reference : String} (habs : path.parent.absolute = true)
    (h : (tree.files here).Finds directory path reference imported)
    (hfile : ((tree.files here).file? imported).isSome) (imported' : Path) :
    tree.texts.Finds directory path reference imported' ↔
      imported' = imported ∧ ¬(path.parent.join (Path.ofText reference)).ClimbsRoot := by
  have hmeans : tree.texts.Means path reference imported' ↔
      tree.texts.canonicalize (path.parent.join (Path.ofText reference)) = .ok imported' := by
    rw [TextStore.Means, TextStore.resolve, TextStore.canonicalize_eq_ok, TextStore.canonicalize_eq_ok,
      Path.normalize_normalize]
  rw [TextStore.Finds, hmeans, texts_canonicalize (Path.join_absolute habs _) h.1 hfile]
  constructor
  · rintro ⟨hfound, -⟩
    exact hfound
  · rintro ⟨rfl, hclimbs⟩
    exact ⟨⟨rfl, hclimbs⟩, h.2⟩

/-! ### Visiting files -/

/-- Where two visits of each path add the same files under a condition, visits of all paths do. -/
theorem foldlM_eq_ok_iff_adds {visit visit' : List LoadedFile → Path → Except LoadFailure (List LoadedFile)}
    {P : LoadedFile → Prop} {Good : List LoadedFile → Prop} {paths : List Path}
    (hvisit : ∀ loaded after, ∀ path ∈ paths, Good loaded → visit loaded path = .ok after → Good after ∧
      ∃ added, after = loaded ++ added ∧ ∀ after', visit' loaded path = .ok after' ↔ after' = after ∧ ∀ f ∈ added, P f)
    {loaded after : List LoadedFile} (hloaded : Good loaded) (h : paths.foldlM visit loaded = .ok after) :
    ∃ added, after = loaded ++ added ∧
      ∀ after', paths.foldlM visit' loaded = .ok after' ↔ after' = after ∧ ∀ f ∈ added, P f := by
  induction paths generalizing loaded with
  | nil =>
    obtain rfl := pure_eq_ok_iff.mp h
    refine ⟨[], (List.append_nil _).symm, fun after' => ?_⟩
    rw [List.foldlM_nil, pure_eq_ok_iff]
    simp [eq_comm]
  | cons path paths ih =>
    rw [List.foldlM_cons] at h
    obtain ⟨next, hnext, h⟩ := bind_eq_ok_iff.mp h
    obtain ⟨hgood, first, rfl, hfirst⟩ := hvisit loaded next path List.mem_cons_self hloaded hnext
    obtain ⟨rest, rfl, hrest⟩ := ih (fun loaded after q hq => hvisit loaded after q (List.mem_cons_of_mem _ hq)) hgood h
    refine ⟨first ++ rest, List.append_assoc _ _ _, fun after' => ?_⟩
    rw [List.foldlM_cons, bind_eq_ok_iff, List.forall_mem_append]
    constructor
    · rintro ⟨next, hnext, h⟩
      obtain ⟨rfl, hfirst⟩ := (hfirst next).mp hnext
      obtain ⟨rfl, hrest⟩ := (hrest after').mp h
      exact ⟨rfl, hfirst, hrest⟩
    · rintro ⟨rfl, hall, hall'⟩
      exact ⟨_, (hfirst _).mpr ⟨rfl, hall⟩, (hrest _).mpr ⟨rfl, hall'⟩⟩

/-- The files are files of the tree. -/
def AllRead (tree : FileTree) (here : Place) (loaded : List LoadedFile) : Prop :=
  ∀ f ∈ loaded, ((tree.files here).file? f.path).isSome

theorem AllRead.adds {loaded after : List LoadedFile} (h : tree.AllRead here loaded)
    (hadds : (tree.files here).Adds loaded after) : tree.AllRead here after := by
  obtain ⟨added, rfl, hadded⟩ := hadds
  exact List.forall_mem_append.mpr ⟨h, hadded⟩

theorem AllRead.isSome {loaded : List LoadedFile} {path : Path} (h : tree.AllRead here loaded)
    (hpath : path ∈ loaded.map (·.path)) : ((tree.files here).file? path).isSome := by
  obtain ⟨f, hf, rfl⟩ := List.mem_map.mp hpath
  exact h f hf

/-- Where a visit of a file adds files, the visit of its text adds the same ones if none of them has an import that
    climbs above the root, and fails otherwise. -/
theorem visit_texts {directory path : Path} {fuel : Nat} {stack : List Path} {loaded after : List LoadedFile}
    (hpath : ∃ place, path = .ofPlace place) (hloaded : tree.AllRead here loaded)
    (h : (tree.files here).visit directory fuel stack loaded path = .ok after) :
    ∃ added, after = loaded ++ added ∧ ∀ after', tree.texts.visit directory fuel stack loaded path = .ok after' ↔
      after' = after ∧ ∀ f ∈ added, ¬tree.Climbs here f.path := by
  induction fuel generalizing stack loaded after path with
  | zero => cases h
  | succ fuel ih =>
    by_cases hmem : path ∈ loaded.map (·.path)
    · rw [Source.visit_of_mem hmem] at h
      obtain rfl := Except.ok.inj h
      refine ⟨[], (List.append_nil _).symm, fun after' => ?_⟩
      rw [TextStore.visit_of_mem hmem]
      simp [eq_comm]
    · obtain ⟨f, imported, below, hf, hfinds, hcycle, hbelow, rfl⟩ := (Source.visit_eq_ok hmem).mp h
      obtain ⟨place, rfl⟩ := hpath
      have habs : (Path.ofPlace place).parent.absolute = true := by
        rw [parent_of_file? (Option.isSome_of_eq_some hf), Path.ofPlace]
      obtain ⟨hadds, himported⟩ := Source.foldlM_adds Source.visit_adds hbelow
      have hread := hloaded.adds hadds
      -- The imports are files of the tree, so they are found in memory if their paths do not climb.
      have htexts := forall₂_iff_eq (forall₂_mem_right hfinds) fun reference q hq =>
        texts_finds habs hq.2 (hread.isSome (himported q hq.1))
      have hplaces : ∀ q ∈ imported, ∃ place, q = .ofPlace place := by
        intro q hq
        obtain ⟨_, _, hfound⟩ := exists_mem_left_of_forall₂ hfinds hq
        exact ⟨_, canonicalize_eq_ofPlace hfound.1⟩
      obtain ⟨added, rfl, hfold⟩ := foldlM_eq_ok_iff_adds (fun loaded after q hq hloaded h =>
        ⟨hloaded.adds (Source.visit_adds h).1, ih (hplaces q hq) hloaded h⟩) hloaded hbelow
      refine ⟨added ++ [⟨.ofPlace place, f.resources⟩], List.append_assoc _ _ _, fun after' => ?_⟩
      rw [TextStore.visit_eq_ok hmem, List.forall_mem_append, List.forall_mem_singleton, not_climbs_iff hf]
      constructor
      · rintro ⟨f', imported', below', hf', hfinds', -, hbelow', rfl⟩
        obtain rfl := Option.some.inj ((texts_file? hf).symm.trans hf')
        obtain ⟨rfl, hstay⟩ := (htexts imported').mp hfinds'
        obtain ⟨rfl, hstays⟩ := (hfold below').mp hbelow'
        exact ⟨rfl, hstays, hstay⟩
      · rintro ⟨rfl, hstays, hstay⟩
        exact ⟨f, imported, loaded ++ added, texts_file? hf, (htexts imported).mpr ⟨rfl, hstay⟩, hcycle,
          (hfold _).mpr ⟨rfl, hstays⟩, rfl⟩

/-! ### Loading files -/

theorem loadFiles_files_eq_ok {root : String} {loaded : List LoadedFile} :
    ((tree.files here).loadFiles root).run.run = .ok loaded ↔ ∃ file directory,
      tree.canonicalize here (Path.ofText root) = .ok file ∧ tree.canonicalize here file.parent = .ok directory ∧
        (tree.files here).visit directory (tree.items.length + 1) [] [] file = .ok loaded := by
  rw [Source.loadFiles]
  simp only [run_bind, bind_eq_ok_iff, run_orFail_eq_ok]
  constructor
  · rintro ⟨file, hfile, directory, hdirectory, h⟩
    exact ⟨file, directory, hfile, hdirectory, h⟩
  · rintro ⟨file, directory, hfile, hdirectory, h⟩
    exact ⟨file, hfile, directory, hdirectory, h⟩

/-- With a file that has one import, which has none, the import is loaded before the file. -/
theorem loadFiles_files_of_one_import {root reference : String} {file imported directory : Path}
    {own others : List Declaration} (hroot : tree.canonicalize here (Path.ofText root) = .ok file)
    (hdirectory : tree.canonicalize here file.parent = .ok directory)
    (hfile : (tree.files here).file? file = some ⟨[reference], own⟩)
    (hfinds : (tree.files here).Finds directory file reference imported)
    (himported : (tree.files here).file? imported = some ⟨[], others⟩) (hne : file ≠ imported)
    (hitems : tree.items ≠ []) :
    ((tree.files here).loadFiles root).run.run = .ok [⟨imported, others⟩, ⟨file, own⟩] := by
  obtain ⟨fuel, hfuel⟩ := Nat.exists_eq_succ_of_ne_zero (List.length_pos_iff.mpr hitems).ne'
  have hinner : (tree.files here).visit directory (fuel + 1) [file] [] imported = .ok [⟨imported, others⟩] :=
    (Source.visit_eq_ok List.not_mem_nil).mpr ⟨_, [], [], himported, .nil, by simp, rfl, rfl⟩
  refine loadFiles_files_eq_ok.mpr ⟨file, directory, hroot, hdirectory, ?_⟩
  rw [hfuel]
  refine (Source.visit_eq_ok List.not_mem_nil).mpr ⟨_, [imported], _, hfile, .cons hfinds .nil, ?_,
    bind_eq_ok_iff.mpr ⟨_, hinner, rfl⟩, rfl⟩
  simpa using hne.symm

/-- Where files are loaded from an absolute path, their texts are loaded with the same result if neither this path nor
    an import of a file that is loaded climbs above the root, and not at all otherwise. -/
theorem loadFiles_texts {root : String} {loaded : List LoadedFile} (habs : (Path.ofText root).absolute = true)
    (h : ((tree.files here).loadFiles root).run.run = .ok loaded) (loaded' : List LoadedFile) :
    (tree.texts.source.loadFiles root).run.run = .ok loaded' ↔
      loaded' = loaded ∧ ¬(Path.ofText root).ClimbsRoot ∧ ∀ f ∈ loaded, ¬tree.Climbs here f.path := by
  obtain ⟨file, directory, hfile, hdirectory, hvisit⟩ := loadFiles_files_eq_ok.mp h
  have hpath := canonicalize_eq_ofPlace hfile
  have hnormal : file.normalize = file := by rw [hpath, Path.normalize_ofPlace]
  obtain ⟨hadds, hmem⟩ := Source.visit_adds hvisit
  have hread : tree.AllRead here loaded := AllRead.adds (fun _ hf => by cases hf) hadds
  have hisSome := hread.isSome hmem
  obtain rfl : directory = file.parent := by
    rw [canonicalize_eq_ofPlace hdirectory, hpath, parent_of_file? (hpath ▸ hisSome), Path.place_ofPlace]
  obtain ⟨added, hadded, htexts⟩ := visit_texts ⟨_, hpath⟩ (fun _ hf => by cases hf) hvisit
  rw [List.nil_append] at hadded
  obtain rfl := hadded
  rw [TextStore.loadFiles_eq_ok]
  have hcanonical := texts_canonicalize habs hfile hisSome
  have hshort := length_texts_le tree
  constructor
  · rintro ⟨file', hfile', hvisit'⟩
    obtain ⟨rfl, hstays⟩ := (hcanonical file').mp hfile'
    obtain ⟨rfl, hall⟩ := (htexts loaded').mp (TextStore.visit_of_fuel_le hnormal (by omega) (by omega) hvisit')
    exact ⟨rfl, hstays, hall⟩
  · rintro ⟨rfl, hstays, hall⟩
    refine ⟨file, (hcanonical file).mpr ⟨rfl, hstays⟩, ?_⟩
    exact TextStore.visit_of_fuel_le hnormal (by omega) (by omega) ((htexts _).mpr ⟨rfl, hall⟩)

/-- Neither the path that files are loaded from nor an import of one of them climbs above the root. -/
def StaysBelowRoot (tree : FileTree) (here : Place) (root : String) (loaded : List LoadedFile) : Prop :=
  ¬(Path.ofText root).ClimbsRoot ∧ ∀ f ∈ loaded, ¬tree.Climbs here f.path

/-- Where declarations are loaded from an absolute path of a tree, the texts of the tree in memory give the same ones,
    unless a path that was followed climbs above the root: then they cannot be loaded. -/
theorem load_texts (tree : FileTree) (here : Place) {root : String} {ds : List Declaration}
    (habs : (Path.ofText root).absolute = true)
    (h : (((tree.host here).source.load root).run.run tree).1 = .ok ds) :
    ∃ loaded, (((tree.host here).source.loadFiles root).run.run tree).1 = .ok loaded ∧
      ds = loaded.flatMap (·.resources) ∧
      (tree.StaysBelowRoot here root loaded → tree.texts.load root = .ok ds) ∧
      (¬tree.StaysBelowRoot here root loaded → ∃ failure, tree.texts.load root = .error failure) := by
  rw [run_load_files] at h
  obtain ⟨loaded, hloaded, rfl⟩ := Source.run_load_eq_ok.mp h
  have htexts := loadFiles_texts habs hloaded
  refine ⟨loaded, (run_loadFiles_files root).trans hloaded, rfl, fun hstays => ?_, fun hclimbs => ?_⟩
  · exact Source.run_load_eq_ok.mpr ⟨loaded, (htexts loaded).mpr ⟨rfl, hstays⟩, rfl⟩
  · cases hload : tree.texts.load root with
    | error failure => exact ⟨failure, rfl⟩
    | ok ds =>
      obtain ⟨loaded', hloaded', -⟩ := Source.run_load_eq_ok.mp hload
      exact absurd ((htexts loaded').mp hloaded').2 hclimbs

/-- A tree with a directory, where a file imports another one by way of the directory above. -/
def meshTree : FileTree :=
  ⟨[(["mesh"], .directory), (["mesh", "main.yaml"], .file (.text TextStore.detourText)),
    (["mesh", "leaked.yaml"], .file (.text TextStore.leakedText))]⟩

/-- Paths that go up and down again are followed in memory as in the tree. -/
theorem meshTree_load_texts :
    (Path.ofText "/mesh/./../mesh/main.yaml").absolute = true ∧
    (((meshTree.host []).source.load "/mesh/./../mesh/main.yaml").run.run meshTree).1 =
      .ok (TextStore.leaked "leaked.yaml" :: TextStore.detourServices "main.yaml") ∧
    meshTree.texts.load "/mesh/./../mesh/main.yaml" =
      .ok (TextStore.leaked "leaked.yaml" :: TextStore.detourServices "main.yaml") := by
  have habs : (Path.ofText "/mesh/./../mesh/main.yaml").absolute = true := by decide
  have hmain : (meshTree.files []).file? (.ofPlace ["mesh", "main.yaml"]) =
      some ⟨[TextStore.detour], TextStore.detourServices "main.yaml"⟩ :=
    Source.file?_eq_some.mpr ⟨_, rfl, TextStore.read_detourText _⟩
  have hleaked : (meshTree.files []).file? (.ofPlace ["mesh", "leaked.yaml"]) =
      some ⟨[], [TextStore.leaked "leaked.yaml"]⟩ :=
    Source.file?_eq_some.mpr ⟨_, rfl, TextStore.read_leakedText _⟩
  have hfinds : (meshTree.files []).Finds (.ofPlace ["mesh"]) (.ofPlace ["mesh", "main.yaml"]) TextStore.detour
      (.ofPlace ["mesh", "leaked.yaml"]) := ⟨rfl, rfl⟩
  have hfiles : ((meshTree.files []).loadFiles "/mesh/./../mesh/main.yaml").run.run =
      .ok [⟨.ofPlace ["mesh", "leaked.yaml"], [TextStore.leaked "leaked.yaml"]⟩,
        ⟨.ofPlace ["mesh", "main.yaml"], TextStore.detourServices "main.yaml"⟩] :=
    loadFiles_files_of_one_import rfl rfl hmain hfinds hleaked (by decide) (List.cons_ne_nil _ _)
  have hload : (((meshTree.host []).source.load "/mesh/./../mesh/main.yaml").run.run meshTree).1 =
      .ok (TextStore.leaked "leaked.yaml" :: TextStore.detourServices "main.yaml") := by
    rw [run_load_files]
    exact Source.run_load_eq_ok.mpr ⟨_, hfiles, rfl⟩
  refine ⟨habs, hload, ?_⟩
  obtain ⟨loaded, hloaded, -, htexts, -⟩ := load_texts meshTree [] habs hload
  rw [run_loadFiles_files, hfiles] at hloaded
  cases hloaded
  have hroot : (Path.ofText "/mesh/./../mesh/main.yaml").steps =
      [.name "mesh", .current, .parent, .name "mesh", .name "main.yaml"] := by decide
  have himport : ((Path.ofPlace ["mesh", "main.yaml"]).parent.join (Path.ofText TextStore.detour)).steps =
      [.name "mesh", .current, .parent, .name "mesh", .name "leaked.yaml"] := by decide
  refine htexts ⟨?_, List.forall_mem_cons.mpr ⟨?_, List.forall_mem_singleton.mpr ?_⟩⟩
  · simp [Path.ClimbsRoot, hroot, Path.climbsFrom_cons, Path.not_climbsFrom_nil, Step.follow]
  · exact (not_climbs_iff hleaked).mpr (by simp)
  · rw [not_climbs_iff hmain]
    simp [Path.ClimbsRoot, himport, Path.climbsFrom_cons, Path.not_climbsFrom_nil, Step.follow]

/-- A tree with a file that imports a service from far above the root. -/
def climbingTree : FileTree :=
  ⟨[(["main.yaml"], .file (.text TextStore.climbingText)),
    (["outside.yaml"], .file (.text TextStore.leakedText))]⟩

/-- The tree stays at the root and finds the service there. In memory it is not found. -/
theorem climbingTree_loads_differ :
    (((climbingTree.host []).source.load "/main.yaml").run.run climbingTree).1 =
      .ok [TextStore.leaked "outside.yaml"] ∧
    climbingTree.texts.load "/main.yaml" =
      .error ⟨"main.yaml", .unresolved TextStore.climb
        (.noStoredPath ⟨true, [.parent, .parent, .parent, .parent, .name "outside.yaml"]⟩)⟩ := by
  constructor
  · have hmain : (climbingTree.files []).file? (.ofPlace ["main.yaml"]) = some ⟨[TextStore.climb], []⟩ :=
      Source.file?_eq_some.mpr ⟨_, rfl, TextStore.read_climbingText _⟩
    have houtside : (climbingTree.files []).file? (.ofPlace ["outside.yaml"]) =
        some ⟨[], [TextStore.leaked "outside.yaml"]⟩ :=
      Source.file?_eq_some.mpr ⟨_, rfl, TextStore.read_leakedText _⟩
    have hfinds : (climbingTree.files []).Finds ⟨true, []⟩ (.ofPlace ["main.yaml"]) TextStore.climb
        (.ofPlace ["outside.yaml"]) := ⟨rfl, rfl⟩
    have hfiles : ((climbingTree.files []).loadFiles "/main.yaml").run.run =
        .ok [⟨.ofPlace ["outside.yaml"], [TextStore.leaked "outside.yaml"]⟩, ⟨.ofPlace ["main.yaml"], []⟩] :=
      loadFiles_files_of_one_import rfl rfl hmain hfinds houtside (by decide) (List.cons_ne_nil _ _)
    rw [run_load_files]
    exact Source.run_load_eq_ok.mpr ⟨_, hfiles, rfl⟩
  · have htext : (orFail (Path.ofPlace ["main.yaml"]).label .notRead
        (climbingTree.texts.source.read (.ofPlace ["main.yaml"]))).run.run = .ok TextStore.climbingText := rfl
    have hparsed := TextStore.read_climbingText (Path.ofPlace ["main.yaml"]).label
    have hvisit : climbingTree.texts.visit ⟨true, []⟩ 3 [] [] (.ofPlace ["main.yaml"]) =
        .error ⟨"main.yaml", .unresolved TextStore.climb
          (.noStoredPath ⟨true, [.parent, .parent, .parent, .parent, .name "outside.yaml"]⟩)⟩ := by
      rw [TextStore.visit, Source.loadFrom_succ, List.any_nil, if_neg Bool.false_ne_true, run_bind]
      refine bind_eq_error_iff.mpr (.inr ⟨_, htext, ?_⟩)
      rw [hparsed]
      rfl
    have hload : (climbingTree.texts.source.loadFiles "/main.yaml").run.run =
        climbingTree.texts.visit ⟨true, []⟩ 3 [] [] (.ofPlace ["main.yaml"]) := rfl
    rw [TextStore.load, Source.load, run_bind, hload, hvisit]
    rfl

end FileTree

end Manifests
