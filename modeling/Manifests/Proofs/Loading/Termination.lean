import Manifests.Proofs.Loading.LoadOrder
import Manifests.Proofs.Loading.Reading
import Manifests.Proofs.Loading.Walk

/-! # Loading ends

Loading from texts in memory does what the walk does: each part of the loading brings the walk on by what it gives
(`Walk.Gives`), by induction on the fuel, of which the invariant of the walk leaves enough. So the walk ends, with what
loading gives and after the reads that loading does (`TextStore.loadFiles_ends`). -/

namespace Manifests

namespace TextStore

/-- The store as a source that notes each path that is read. -/
def recording (store : TextStore) : Source (StateM (List Path)) where
  read path := do
    modify (· ++ [path])
    return store.read path
  resolve := resolve
  canonicalize path := return store.canonicalize path
  fileBound := store.files.length

/-- How many files the store has. -/
def fileCount (store : TextStore) : Nat := (store.files.map (·.1)).eraseDups.length

theorem fileCount_le (store : TextStore) : store.fileCount ≤ store.files.length := by
  have hsub : store.fileCount ≤ (store.files.map (·.1)).length :=
    (List.subperm_of_subset (nodup_eraseDups _) fun _ => List.mem_eraseDups.mp).length_le
  rwa [List.length_map] at hsub

variable (store : TextStore)

/-- Noting what is read makes no difference to what loading gives. -/
theorem run_recording (root : String) (reads : List Path) :
    ((store.recording.loadFiles root).run.run reads).1 = (store.source.loadFiles root).run.run := by
  have hanswers : store.recording.Answers (fun _ => True) store.source :=
    ⟨fun _ _ _ => ⟨rfl, trivial⟩, rfl, fun _ _ _ => ⟨rfl, trivial⟩, rfl⟩
  exact (Source.loadFiles_answers hanswers root reads trivial).1

/-- Finding an import reads nothing. -/
theorem run_importPath_recording (directory file : Path) (reference : String) (reads : List Path) :
    (store.recording.importPath directory file reference).run.run reads =
      ((store.source.importPath directory file reference).run.run, reads) := by
  have hanswers : Answers (· = reads) (store.recording.importPath directory file reference)
      (store.source.importPath directory file reference) := by
    refine Source.importPath_answers rfl ?_ directory file reference
    rintro path _ rfl
    exact ⟨rfl, rfl⟩
  exact Prod.ext_iff.mpr (hanswers reads rfl)

end TextStore

namespace Walk

/-! ### Bounds -/

section
variable {store : TextStore} {w : Walk}

theorem Sound.nodup_paths (h : w.Sound store) : w.paths.Nodup := h.distinct.of_append_right.of_append_left

theorem Sound.nodup_reads (h : w.Sound store) : w.reads.Nodup := h.reads.nodup_iff.mpr h.distinct

/-- What is parsed has been read. -/
theorem Sound.nodup_parses (h : w.Sound store) : w.parses.Nodup := by
  refine h.parses.nodup_iff.mpr ?_
  have hdistinct := h.distinct
  cases htask : w.task with
  | parse path text =>
    rw [htask] at hdistinct
    exact hdistinct
  | visit path => exact hdistinct.of_append_right
  | read path => exact hdistinct.of_append_right
  | resume => exact hdistinct.of_append_right

theorem Sound.length_files_le (h : w.Sound store) : w.files.length ≤ store.fileCount := by
  have hsub : w.paths ⊆ (store.files.map (·.1)).eraseDups := fun path hpath =>
    List.mem_eraseDups.mpr (h.stored path (List.mem_append_left _ hpath))
  calc w.files.length
    _ = w.paths.length := (List.length_map _).symm
    _ ≤ store.fileCount := (List.subperm_of_subset h.nodup_paths hsub).length_le

theorem Sound.depth_le (h : w.Sound store) : w.depth ≤ store.fileCount + 1 := by
  have htarget : w.task.target?.toList.length ≤ 1 := by
    cases w.task.target? <;> simp
  exact Nat.add_le_add h.length_files_le htarget

end

/-! ### What the walk gives -/

/-- From a moment on, the walk does a part of the loading: it goes on with the files in progress after what the part
    gives, or it ends with the failure. -/
inductive Gives (store : TextStore) (directory : Path) (w : Walk) (files : List OpenFile) :
    Except LoadFailure (List LoadedFile) × List Path → Prop where
  | ok {loaded : List LoadedFile} {reads parses : List Path} :
    w.Reaches store directory ⟨.resume, files, loaded, reads, parses⟩ →
    Gives store directory w files (.ok loaded, reads)
  | error {failure : LoadFailure} {last : Walk} : w.Reaches store directory last →
    last.next store directory = .ended (.error failure) → Gives store directory w files (.error failure, last.reads)

section
variable {store : TextStore} {directory : Path} {w w' : Walk} {files : List OpenFile} {loaded : List LoadedFile}
  {reads parses : List Path}

theorem Gives.of_reaches {outcome : Except LoadFailure (List LoadedFile) × List Path}
    (hreaches : w.Reaches store directory w') (h : w'.Gives store directory files outcome) :
    w.Gives store directory files outcome := by
  cases h with
  | ok hrest => exact .ok (hreaches.trans hrest)
  | error hrest hended => exact .error (hreaches.trans hrest) hended

/-- What is given after all files is what the walk ends with. -/
theorem Gives.exists_last {outcome : Except LoadFailure (List LoadedFile) × List Path}
    (h : w.Gives store directory [] outcome) :
    ∃ last, w.Reaches store directory last ∧ last.next store directory = .ended outcome.1 ∧
      last.reads = outcome.2 := by
  cases h with
  | ok hreaches => exact ⟨_, hreaches, rfl, rfl⟩
  | error hreaches hended => exact ⟨_, hreaches, hended, rfl⟩

/-- All moments lead to the last one, because what comes after each is determined. -/
theorem reaches_last {last : Walk} {result : Except LoadFailure (List LoadedFile)}
    (hended : last.next store directory = .ended result) (hlast : w.Reaches store directory last)
    (hreaches : w.Reaches store directory w') : w'.Reaches store directory last := by
  have hunique : Relator.RightUnique (Leads store directory) := fun _ _ _ h h' =>
    Next.moment.inj (Eq.trans (Eq.symm h) h')
  rcases hlast.total_of_right_unique hunique hreaches with h | h
  · rcases h.cases_head with rfl | ⟨_, hnext, -⟩
    · exact .refl
    · cases hended.symm.trans hnext
  · exact h

/-- One part of the loading and then another. -/
theorem Gives.bind {x : ExceptT LoadFailure (StateM (List Path)) (List LoadedFile)}
    {f : List LoadedFile → ExceptT LoadFailure (StateM (List Path)) (List LoadedFile)} {files' : List OpenFile}
    (h : w.Gives store directory files (x.run.run reads))
    (hnext : ∀ loaded reads parses, w.Reaches store directory ⟨.resume, files, loaded, reads, parses⟩ →
      Gives store directory ⟨.resume, files, loaded, reads, parses⟩ files' ((f loaded).run.run reads)) :
    w.Gives store directory files' ((x >>= f).run.run reads) := by
  generalize hrun : x.run.run reads = outcome at h
  cases h with
  | ok hreaches =>
    rw [run_bind_of_ok hrun]
    exact (hnext _ _ _ hreaches).of_reaches hreaches
  | error hreaches hended =>
    rw [run_bind_of_error hrun]
    exact .error hreaches hended

/-- A part of the loading that begins with what can fail. -/
theorem gives_orFail {ε α : Type} {file : String} {cause : ε → LoadCause} {x : StateM (List Path) (Except ε α)}
    {f : α → ExceptT LoadFailure (StateM (List Path)) (List LoadedFile)}
    (herror : ∀ fault reads', x.run reads = (.error fault, reads') →
      w.Gives store directory files (.error ⟨file, cause fault⟩, reads'))
    (hok : ∀ a reads', x.run reads = (.ok a, reads') → w.Gives store directory files ((f a).run.run reads')) :
    w.Gives store directory files ((orFail file cause x >>= f).run.run reads) := by
  rcases hrun : x.run reads with ⟨fault | a, reads'⟩
  · have hfails : (orFail file cause x).run.run reads = (.error ⟨file, cause fault⟩, reads') := by
      rw [run_orFail, hrun]
      rfl
    rw [run_bind_of_error hfails]
    exact herror fault reads' hrun
  · rw [run_bind_of_ok (run_orFail_of_ok hrun)]
    exact hok a reads' hrun

/-- The imports of the innermost file are followed in turn, where visits do what they should while the file is in
    progress. -/
theorem gives_imports {path : Path} {references : List String} {resources : List Declaration} {fuel : Nat}
    (hvisit : ∀ {imported references loaded reads parses},
      Sound store ⟨.visit imported, ⟨path, references, resources⟩ :: files, loaded, reads, parses⟩ →
      Gives store directory ⟨.visit imported, ⟨path, references, resources⟩ :: files, loaded, reads, parses⟩
        (⟨path, references, resources⟩ :: files)
        ((store.recording.loadFrom directory fuel (path :: files.map (·.path)).reverse loaded imported).run.run reads))
    (h : Sound store ⟨.resume, ⟨path, references, resources⟩ :: files, loaded, reads, parses⟩) :
    Gives store directory ⟨.resume, ⟨path, references, resources⟩ :: files, loaded, reads, parses⟩
      (⟨path, [], resources⟩ :: files)
      ((references.foldlM (store.recording.loadImport directory fuel (path :: files.map (·.path)).reverse path)
        loaded).run.run reads) := by
  induction references generalizing loaded reads parses with
  | nil => exact .ok .refl
  | cons reference references ih =>
    have hfirst : Gives store directory ⟨.resume, ⟨path, reference :: references, resources⟩ :: files, loaded, reads,
        parses⟩ (⟨path, references, resources⟩ :: files) ((store.recording.loadImport directory fuel
          (path :: files.map (·.path)).reverse path loaded reference).run.run reads) := by
      have hfound := store.run_importPath_recording directory path reference reads
      rw [Source.loadImport]
      cases himport : (store.source.importPath directory path reference).run.run with
      | error failure =>
        rw [himport] at hfound
        rw [run_bind_of_error hfound]
        refine .error .refl ?_
        simp only [Walk.next, himport]
      | ok imported =>
        rw [himport] at hfound
        rw [run_bind_of_ok hfound]
        by_cases hcycle : imported ∈ (path :: files.map (·.path)).reverse
        · rw [if_pos hcycle]
          refine .error .refl ?_
          simp only [Walk.next, himport]
          exact if_pos hcycle
        · rw [if_neg hcycle]
          have hleads : Leads store directory ⟨.resume, ⟨path, reference :: references, resources⟩ :: files, loaded,
              reads, parses⟩ ⟨.visit imported, ⟨path, references, resources⟩ :: files, loaded, reads, parses⟩ := by
            simp only [Leads, Walk.next, himport]
            exact if_neg hcycle
          exact (hvisit (h.next hleads)).of_reaches (.single hleads)
    rw [List.foldlM_cons]
    exact hfirst.bind fun _ _ _ hreaches => ih (h.of_reaches hreaches)

/-- A visit does what loading from a file does. -/
theorem gives_visit {path : Path} {fuel : Nat} (hfuel : store.files.length < files.length + fuel)
    (h : Sound store ⟨.visit path, files, loaded, reads, parses⟩) :
    Gives store directory ⟨.visit path, files, loaded, reads, parses⟩ files
      ((store.recording.loadFrom directory fuel (files.map (·.path)).reverse loaded path).run.run reads) := by
  induction fuel generalizing path files loaded reads parses with
  | zero =>
    -- The fuel is more than the files that can still come into progress.
    exact absurd (h.length_files_le.trans store.fileCount_le) (Nat.not_le.mpr hfuel)
  | succ fuel ih =>
    rw [Source.loadFrom_succ]
    by_cases hloaded : path ∈ loaded.map (·.path)
    · have hany : loaded.any (·.path = path) = true := by simpa using hloaded
      have hleads : Leads store directory ⟨.visit path, files, loaded, reads, parses⟩
          ⟨.resume, files, loaded, reads, parses⟩ := if_pos hloaded
      rw [if_pos hany]
      exact .ok (.single hleads)
    have hany : ¬loaded.any (·.path = path) = true := by simpa using hloaded
    have hvisits : Leads store directory ⟨.visit path, files, loaded, reads, parses⟩
        ⟨.read path, files, loaded, reads ++ [path], parses⟩ := if_neg hloaded
    rw [if_neg hany]
    refine Gives.of_reaches (.single hvisits) (gives_orFail ?_ ?_)
    · intro fault reads' hread
      obtain ⟨htext, rfl⟩ := Prod.mk.inj hread
      refine .error .refl ?_
      simp only [Walk.next, htext]
    intro text reads' hread
    obtain ⟨htext, rfl⟩ := Prod.mk.inj hread
    have hreads : Leads store directory ⟨.read path, files, loaded, reads ++ [path], parses⟩
        ⟨.parse path text, files, loaded, reads ++ [path], parses ++ [path]⟩ := by
      simp only [Leads, Walk.next, htext]
    refine Gives.of_reaches (.single hreads) (gives_orFail ?_ ?_)
    · intro fault reads' hparse
      obtain ⟨hfault, rfl⟩ := Prod.mk.inj hparse
      refine .error .refl ?_
      simp only [Walk.next, hfault]
    intro f reads' hparse
    obtain ⟨hfile, rfl⟩ := Prod.mk.inj hparse
    have hparses : Leads store directory ⟨.parse path text, files, loaded, reads ++ [path], parses ++ [path]⟩
        ⟨.resume, ⟨path, f.imports, f.resources⟩ :: files, loaded, reads ++ [path], parses ++ [path]⟩ := by
      simp only [Leads, Walk.next, hfile]
    have hsound := ((h.next hvisits).next hreads).next hparses
    have hdeeper : store.files.length < files.length + 1 + fuel := by omega
    rw [← List.reverse_cons]
    refine Gives.of_reaches (.single hparses) ((gives_imports (ih hdeeper) hsound).bind ?_)
    intro below reads parses _
    -- The file is finished, and goes from those in progress to those that are loaded.
    exact .ok (.single rfl)

end

end Walk

namespace TextStore

variable {store : TextStore}

/-- Loading from a file that is there does what a walk from it gives. -/
theorem gives_loadFiles {root : String} {file : Path} (h : store.canonicalize (Path.ofText root) = .ok file) :
    (Walk.start file).Gives store file.parent [] ((store.recording.loadFiles root).run.run []) := by
  have hfile : (store.recording.canonicalize (Path.ofText root)).run [] = (.ok file, []) := congrArg (·, []) h
  have hdirectory : (store.recording.canonicalize file.parent).run [] = (.ok file.parent, []) :=
    congrArg (·, []) (canonicalize_parent h)
  rw [Source.loadFiles, run_bind_of_ok (run_orFail_of_ok hfile), run_bind_of_ok (run_orFail_of_ok hdirectory)]
  exact Walk.gives_visit (by simp [recording]) (Walk.sound_start (normalize_of_canonicalize h))

/-- Loading always ends. If the first file is there, loading is a walk that comes to its end with what loading gives
    and with the reads that loading does, and all its moments lead there. In each of them the files in progress are
    different stored ones, so that the walk is at most one visit deeper than there are files, and no path has been read
    or parsed twice. -/
theorem loadFiles_ends (store : TextStore) (root : String) :
    (∃ fault, store.canonicalize (Path.ofText root) = .error fault ∧
      (store.source.loadFiles root).run.run = .error ⟨root, .notOpened fault⟩ ∧
      ((store.recording.loadFiles root).run.run []).2 = []) ∨
    ∃ file last, store.canonicalize (Path.ofText root) = .ok file ∧
      last.next store file.parent = .ended (store.source.loadFiles root).run.run ∧
      last.reads = ((store.recording.loadFiles root).run.run []).2 ∧
      (Walk.start file).Reaches store file.parent last ∧
      ∀ w, (Walk.start file).Reaches store file.parent w →
        w.Reaches store file.parent last ∧
        (w.paths.Nodup ∧ (∀ path ∈ w.paths, path ∈ store.files.map (·.1)) ∧ w.paths.length ≤ store.fileCount) ∧
        w.depth ≤ store.fileCount + 1 ∧ w.reads.Nodup ∧ w.parses.Nodup := by
  cases hfound : store.canonicalize (Path.ofText root) with
  | error fault =>
    have hfails : (orFail root .notOpened (store.recording.canonicalize (Path.ofText root))).run.run [] =
        (.error ⟨root, .notOpened fault⟩, []) := by
      rw [run_orFail]
      exact congrArg (fun found => (Except.mapError (fun fault => (⟨root, .notOpened fault⟩ : LoadFailure)) found, []))
        hfound
    have hrun : (store.recording.loadFiles root).run.run [] = (.error ⟨root, .notOpened fault⟩, []) :=
      run_bind_of_error hfails
    refine .inl ⟨fault, rfl, ?_, congrArg Prod.snd hrun⟩
    rw [← store.run_recording root [], hrun]
  | ok file =>
    have hstart : (Walk.start file).Sound store := Walk.sound_start (normalize_of_canonicalize hfound)
    obtain ⟨last, hlast, hended, hreads⟩ := (gives_loadFiles hfound).exists_last
    rw [store.run_recording root []] at hended
    refine .inr ⟨file, last, rfl, hended, hreads, hlast, fun w hreaches => ?_⟩
    have hsound := hstart.of_reaches hreaches
    have hpaths : w.paths.length ≤ store.fileCount := (List.length_map _).trans_le hsound.length_files_le
    exact ⟨Walk.reaches_last hended hlast hreaches,
      ⟨hsound.nodup_paths, fun path hpath => hsound.stored path (List.mem_append_left _ hpath), hpaths⟩,
      hsound.depth_le, hsound.nodup_reads, hsound.nodup_parses⟩

end TextStore

end Manifests
