import Manifests.Proofs.Loading.Visits

/-! # Loading as a walk

Loading from texts in memory, moment by moment and without fuel: a walk goes to a file, reads and parses it, and then
follows its imports, while the files that these are imported by stay in progress. In each moment of a walk the files
in progress are different stored ones, and every file that was read is in progress, loaded, or just being read
(`Walk.Sound`). One moment keeps this (`Walk.Sound.next`), and so does a walk (`Walk.Sound.of_reaches`). -/

namespace Manifests

/-! ### Moments -/

/-- A file in progress: its imports that were not followed yet, and its declarations. -/
structure Walk.OpenFile where
  path : Path
  imports : List String
  resources : List Declaration

/-- What a walk is about to do. -/
inductive Walk.Task where
  /-- It goes to a file. -/
  | visit (path : Path)
  /-- It reads a file. -/
  | read (path : Path)
  /-- It parses the text of a file. -/
  | parse (path : Path) (text : String)
  /-- It goes on with the innermost file in progress. -/
  | resume

/-- A moment of a walk. The innermost file in progress comes first, and the paths that were read and parsed stand in
    the order in which that was done. -/
structure Walk where
  task : Walk.Task
  files : List Walk.OpenFile
  loaded : List LoadedFile
  reads : List Path
  parses : List Path

namespace Walk

/-- The file that a walk is at before that is in progress. -/
def Task.target? : Task → Option Path
  | .visit path | .read path | .parse path _ => some path
  | .resume => none

/-- The file that is being read or parsed. -/
def Task.reading : Task → List Path
  | .read path | .parse path _ => [path]
  | .visit _ | .resume => []

/-- The file that is being parsed. -/
def Task.parsing : Task → List Path
  | .parse path _ => [path]
  | .visit _ | .read _ | .resume => []

/-- The files in progress, the innermost first. -/
def paths (w : Walk) : List Path := w.files.map (·.path)

/-- The files in progress, the outermost first. -/
def stack (w : Walk) : List Path := w.paths.reverse

/-- The files in progress, and those that are loaded. -/
def held (w : Walk) : List Path := w.paths ++ w.loaded.map (·.path)

/-- How many visits have begun and not ended. -/
def depth (w : Walk) : Nat := w.files.length + w.task.target?.toList.length

/-- What comes after a moment: another one, or the end with what was loaded. -/
inductive Next where
  | moment (w : Walk)
  | ended (result : Except LoadFailure (List LoadedFile))

/-- A walk begins with a visit of the first file. -/
def start (file : Path) : Walk := ⟨.visit file, [], [], [], []⟩

section
variable (store : TextStore) (directory : Path)

/-- What comes after a moment of a walk below a directory. -/
def next (w : Walk) : Next :=
  match w.task with
  | .visit path =>
    if path ∈ w.loaded.map (·.path) then .moment { w with task := .resume }
    else .moment { w with task := .read path, reads := w.reads ++ [path] }
  | .read path =>
    match store.read path with
    | .ok text => .moment { w with task := .parse path text, parses := w.parses ++ [path] }
    | .error fault => .ended (.error ⟨path.label, .notRead fault⟩)
  | .parse path text =>
    match DeclarationFile.read path.label text with
    | .ok f => .moment { w with task := .resume, files := ⟨path, f.imports, f.resources⟩ :: w.files }
    | .error fault => .ended (.error ⟨path.label, .document fault⟩)
  | .resume =>
    match w.files with
    | [] => .ended (.ok w.loaded)
    | ⟨path, [], resources⟩ :: files => .moment { w with files, loaded := w.loaded ++ [⟨path, resources⟩] }
    | ⟨path, reference :: imports, resources⟩ :: files =>
      match (store.source.importPath directory path reference).run.run with
      | .error failure => .ended (.error failure)
      | .ok imported =>
        if imported ∈ w.stack then .ended (.error ⟨path.label, .cycle ((w.stack ++ [imported]).map Path.label)⟩)
        else .moment { w with task := .visit imported, files := ⟨path, imports, resources⟩ :: files }

/-- One moment comes right after another. -/
def Leads (w w' : Walk) : Prop := w.next store directory = .moment w'

/-- One moment comes some time after another. -/
def Reaches : Walk → Walk → Prop := Relation.ReflTransGen (Leads store directory)

end

/-! ### What holds in every moment -/

/-- The files that were read are those in progress, those that are loaded and the one that is being read, each of
    them once. The walk goes to no file that is in progress. -/
structure Sound (store : TextStore) (w : Walk) : Prop where
  distinct : (w.task.reading ++ w.held).Nodup
  reads : w.reads.Perm (w.task.reading ++ w.held)
  parses : w.parses.Perm (w.task.parsing ++ w.held)
  stored : ∀ path ∈ w.held, path ∈ store.files.map (·.1)
  normal : ∀ path ∈ w.task.target?, path.normalize = path
  fresh : ∀ path ∈ w.task.target?, path ∉ w.paths
  text : ∀ path text, w.task = .parse path text → store.read path = .ok text

section
variable {store : TextStore} {directory : Path} {w w' : Walk}

theorem sound_start {file : Path} (h : file.normalize = file) : (start file).Sound store where
  distinct := .nil
  reads := .nil
  parses := .nil
  stored := by simp [start, held, paths]
  normal := by simp [start, Task.target?, h]
  fresh := by simp [start, paths]
  text := by simp [start]

section
variable {path : Path} {files : List OpenFile} {loaded : List LoadedFile} {reads parses : List Path}

/-- A file that is neither in progress nor loaded is read for the first time. -/
theorem Sound.read (h : Sound store ⟨.visit path, files, loaded, reads, parses⟩)
    (hnew : path ∉ loaded.map (·.path)) : Sound store ⟨.read path, files, loaded, reads ++ [path], parses⟩ where
  distinct := by
    have hheld : path ∉ files.map (·.path) ++ loaded.map (·.path) := fun hmem =>
      (List.mem_append.mp hmem).elim (h.fresh path rfl) hnew
    exact List.nodup_cons.mpr ⟨hheld, h.distinct⟩
  reads := (List.perm_append_singleton path reads).trans (h.reads.cons path)
  parses := h.parses
  stored := h.stored
  normal := h.normal
  fresh := h.fresh
  text := by simp

theorem Sound.parse {text : String} (h : Sound store ⟨.read path, files, loaded, reads, parses⟩)
    (hread : store.read path = .ok text) :
    Sound store ⟨.parse path text, files, loaded, reads, parses ++ [path]⟩ where
  distinct := h.distinct
  reads := h.reads
  parses := (List.perm_append_singleton path parses).trans (h.parses.cons path)
  stored := h.stored
  normal := h.normal
  fresh := h.fresh
  text := by
    rintro _ _ ⟨⟩
    exact hread

/-- A file whose text was parsed comes into progress, and is a stored one. -/
theorem Sound.enter {text : String} {f : DeclarationFile}
    (h : Sound store ⟨.parse path text, files, loaded, reads, parses⟩)
    (hparse : DeclarationFile.read path.label text = .ok f) :
    Sound store ⟨.resume, ⟨path, f.imports, f.resources⟩ :: files, loaded, reads, parses⟩ where
  distinct := h.distinct
  reads := h.reads
  parses := h.parses
  stored := by
    have hfile : store.file? path = some f := TextStore.file?_eq_some.mpr ⟨text, h.text path text rfl, hparse⟩
    exact List.forall_mem_cons.mpr ⟨TextStore.mem_files_of_file? (h.normal path rfl) hfile, h.stored⟩
  normal := by simp [Task.target?]
  fresh := by simp [Task.target?]
  text := by simp

/-- The innermost file is finished: it is no longer in progress, but loaded. -/
theorem Sound.finish {resources : List Declaration}
    (h : Sound store ⟨.resume, ⟨path, [], resources⟩ :: files, loaded, reads, parses⟩) :
    Sound store ⟨.resume, files, loaded ++ [⟨path, resources⟩], reads, parses⟩ := by
  have hperm : (⟨.resume, ⟨path, [], resources⟩ :: files, loaded, reads, parses⟩ : Walk).held.Perm
      (⟨.resume, files, loaded ++ [⟨path, resources⟩], reads, parses⟩ : Walk).held := by
    simp only [held, paths, List.map_cons, List.map_append, List.map_nil, List.cons_append, ← List.append_assoc]
    exact (List.perm_append_singleton path _).symm
  exact ⟨hperm.nodup_iff.mp h.distinct, h.reads.trans hperm, h.parses.trans hperm,
    fun q hq => h.stored q (hperm.mem_iff.mpr hq), h.normal, by simp [Task.target?], h.text⟩

theorem Sound.follow {reference : String} {imports : List String} {resources : List Declaration} {imported : Path}
    (h : Sound store ⟨.resume, ⟨path, reference :: imports, resources⟩ :: files, loaded, reads, parses⟩)
    (himport : (store.source.importPath directory path reference).run.run = .ok imported)
    (hcycle : imported ∉ path :: files.map (·.path)) :
    Sound store ⟨.visit imported, ⟨path, imports, resources⟩ :: files, loaded, reads, parses⟩ where
  distinct := h.distinct
  reads := h.reads
  parses := h.parses
  stored := h.stored
  normal := by
    rintro _ ⟨⟩
    exact TextStore.normalize_of_canonicalize (Source.run_importPath_eq_ok.mp himport).1
  fresh := by
    rintro _ ⟨⟩
    exact hcycle
  text := by simp

end

/-- One moment keeps what holds in every moment. -/
theorem Sound.next (h : w.Sound store) (hnext : w.Leads store directory w') : w'.Sound store := by
  obtain ⟨task, files, loaded, reads, parses⟩ := w
  unfold Leads Walk.next at hnext
  cases task with
  | visit path =>
    simp only at hnext
    split at hnext
    · obtain rfl := Next.moment.inj hnext
      exact ⟨h.distinct, h.reads, h.parses, h.stored, by simp [Task.target?], by simp [Task.target?], by simp⟩
    · obtain rfl := Next.moment.inj hnext
      exact h.read ‹_›
  | read path =>
    simp only at hnext
    split at hnext
    · obtain rfl := Next.moment.inj hnext
      exact h.parse ‹_›
    · cases hnext
  | parse path text =>
    simp only at hnext
    split at hnext
    · obtain rfl := Next.moment.inj hnext
      exact h.enter ‹_›
    · cases hnext
  | resume =>
    simp only at hnext
    split at hnext
    · cases hnext
    · obtain rfl := Next.moment.inj hnext
      exact h.finish
    · split at hnext
      · cases hnext
      · rename_i imported himport
        split at hnext
        · cases hnext
        · obtain rfl := Next.moment.inj hnext
          exact h.follow himport fun hmem => ‹¬_› (List.mem_reverse.mpr hmem)

theorem Sound.of_reaches (h : w.Sound store) (hreaches : w.Reaches store directory w') : w'.Sound store := by
  induction hreaches with
  | refl => exact h
  | tail _ hnext ih => exact ih.next hnext

end

end Walk

end Manifests
