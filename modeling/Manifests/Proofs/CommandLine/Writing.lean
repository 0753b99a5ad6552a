import Manifests.CommandLine.Run
import Manifests.Proofs.Host

/-! # Writing manifests

Manifests whose files have different names are written into a directory without touching each other: after a run
each that was written stands in its file, and the rest of the tree is as it was but for the directories that were
made. A run that fails has written those before the one that it fails at. -/

namespace Manifests.CommandLine

open FileTree

/-- The place of a manifest's file in the directory at a place. -/
def filePlace (place : Place) (m : Manifest) : Place := place ++ [m.fileName]

/-- The second tree has the files of the manifests in the directory at the place, and else the same. -/
structure Written (tree after : FileTree) (place : Place) (ms : List Manifest) : Prop where
  files : ∀ m ∈ ms, after.item? (filePlace place m) = some (.file (.text m.text))
  others : ∀ q, (∀ m ∈ ms, q ≠ filePlace place m) → after.item? q = tree.item? q

theorem Written.nil (tree : FileTree) (place : Place) : Written tree tree place [] :=
  ⟨by simp, fun _ _ => rfl⟩

theorem filePlace_ne_nil (place : Place) (m : Manifest) : filePlace place m ≠ [] := by
  simp [filePlace]

theorem filePlace_inj {place : Place} {m m' : Manifest} :
    filePlace place m = filePlace place m' ↔ m.fileName = m'.fileName := by
  simp [filePlace]

/-- A manifest that is written before others of other names is still there afterwards. -/
theorem Written.cons {tree after : FileTree} {place : Place} {m : Manifest} {ms : List Manifest}
    (hnames : ∀ m' ∈ ms, m.fileName ≠ m'.fileName)
    (h : Written (tree.put (filePlace place m) (.file (.text m.text))) after place ms) :
    Written tree after place (m :: ms) where
  files := by
    refine List.forall_mem_cons.mpr ⟨?_, h.files⟩
    rw [h.others _ fun m' hm' heq => hnames m' hm' (filePlace_inj.mp heq), item?_put tree (filePlace_ne_nil place m),
      if_pos rfl]
  others := by
    intro q hq
    obtain ⟨hne, hrest⟩ := List.forall_mem_cons.mp hq
    rw [h.others q hrest, item?_put tree (filePlace_ne_nil place m), if_neg hne]

section
variable {start tree : FileTree} {here : Place} {directory : String}

theorem writeEach_of_ok {m : Manifest} {ms : List Manifest} {after : FileTree}
    (h : tree.write here (Path.ofDirectoryText directory) m.fileName m.text = .ok after) :
    (writeEach (start.host here) directory (m :: ms)).run tree =
      (writeEach (start.host here) directory ms).run after := by
  have hrun : ((start.host here).write (Path.ofDirectoryText directory) m.fileName m.text).run tree =
      (.ok (), after) := change_of_ok h
  rw [writeEach, StateT.run_bind, hrun]
  rfl

theorem writeEach_of_error {m : Manifest} {ms : List Manifest} {fault : WriteFault}
    (h : tree.write here (Path.ofDirectoryText directory) m.fileName m.text = .error fault) :
    (writeEach (start.host here) directory (m :: ms)).run tree =
      (.error (.notWritten directory m.fileName fault), tree) := by
  have hrun : ((start.host here).write (Path.ofDirectoryText directory) m.fileName m.text).run tree =
      (.error fault, tree) := change_of_error h
  rw [writeEach, StateT.run_bind, hrun]
  rfl

theorem write_of_walk {m : Manifest} {place : Place}
    (hwalk : tree.walk here (Path.ofDirectoryText directory) = .ok place)
    (hfree : tree.item? (filePlace place m) ≠ some .directory) :
    tree.write here (Path.ofDirectoryText directory) m.fileName m.text =
      .ok (tree.put (filePlace place m) (.file (.text m.text))) := by
  unfold FileTree.write
  rw [hwalk]
  exact if_neg hfree

/-- Where no directory stands in the place of a file, all manifests are written. -/
theorem writeEach_eq_ok (start : FileTree) {place : Place} {ms : List Manifest}
    (hwalk : tree.walk here (Path.ofDirectoryText directory) = .ok place)
    (hfree : ∀ m ∈ ms, tree.item? (filePlace place m) ≠ some .directory) :
    ((writeEach (start.host here) directory ms).run tree).1 = .ok () := by
  induction ms generalizing tree with
  | nil => rfl
  | cons m ms ih =>
    obtain ⟨hown, hfree⟩ := List.forall_mem_cons.mp hfree
    rw [writeEach_of_ok (write_of_walk hwalk hown)]
    refine ih (walk_put (filePlace_ne_nil place m) hown hwalk) fun m' hm' => ?_
    rw [item?_put tree (filePlace_ne_nil place m)]
    split
    · simp
    · exact hfree m' hm'

/-- In a directory that is found, manifests are written up to the first that cannot be. -/
theorem writeEach_written (start : FileTree) {place : Place} {ms : List Manifest}
    (hwalk : tree.walk here (Path.ofDirectoryText directory) = .ok place) (hnames : (ms.map (·.fileName)).Nodup) :
    ∃ written, written <+: ms ∧ (((writeEach (start.host here) directory ms).run tree).1 = .ok () → written = ms) ∧
      ((writeEach (start.host here) directory ms).run tree).2.walk here (Path.ofDirectoryText directory) = .ok place ∧
      Written tree ((writeEach (start.host here) directory ms).run tree).2 place written := by
  induction ms generalizing tree with
  | nil => exact ⟨[], List.prefix_rfl, fun _ => rfl, hwalk, Written.nil tree place⟩
  | cons m ms ih =>
    obtain ⟨hne, hnames⟩ := List.nodup_cons.mp hnames
    -- A directory in the place of the file ends the run. Else the file is put, and the directory stays where it is.
    by_cases hdir : tree.item? (filePlace place m) = some .directory
    · have hwrite : tree.write here (Path.ofDirectoryText directory) m.fileName m.text =
          .error (.notPlaced .isDirectory) := by
        unfold FileTree.write
        rw [hwalk]
        exact if_pos hdir
      rw [writeEach_of_error hwrite]
      exact ⟨[], List.nil_prefix, (fun h => by cases h), hwalk, Written.nil tree place⟩
    · rw [writeEach_of_ok (write_of_walk hwalk hdir)]
      obtain ⟨written, hprefix, hall, hplace, hwritten⟩ := ih (walk_put (filePlace_ne_nil place m) hdir hwalk) hnames
      refine ⟨m :: written, List.cons_prefix_cons.mpr ⟨rfl, hprefix⟩, (fun h => by rw [hall h]), hplace, ?_⟩
      exact hwritten.cons fun m' hm' heq => hne (List.mem_map.mpr ⟨m', hprefix.subset hm', heq.symm⟩)

/-- Without the directory nothing is written. -/
theorem writeEach_of_walk_error (start : FileTree) {fault : AccessFault} (ms : List Manifest)
    (hwalk : tree.walk here (Path.ofDirectoryText directory) = .error fault) :
    ((writeEach (start.host here) directory ms).run tree).2 = tree ∧
      (((writeEach (start.host here) directory ms).run tree).1 = .ok () → ms = []) := by
  cases ms with
  | nil => exact ⟨rfl, fun _ => rfl⟩
  | cons m ms =>
    have hwrite : tree.write here (Path.ofDirectoryText directory) m.fileName m.text = .error (.notMade fault) := by
      unfold FileTree.write
      rw [hwalk]
    rw [writeEach_of_error hwrite]
    exact ⟨rfl, fun h => by cases h⟩

end

/-- What a run that writes manifests leaves behind: a first part of them stands in files of the directory, which is
    all of them if the run succeeds, and nothing else is different but that there are new directories. -/
structure WritesApart (here : Place) (directory : String) (tree : FileTree) (ms : List Manifest)
    (run : Except OutputFault Unit × FileTree) (place : Place) (written : List Manifest) : Prop where
  part : written <+: ms
  all : run.1 = .ok () → written = ms
  inside : written ≠ [] → run.2.walk here (Path.ofDirectoryText directory) = .ok place
  files : ∀ m ∈ written, run.2.item? (filePlace place m) = some (.file (.text m.text))
  others : ∀ q, (∀ m ∈ written, q ≠ filePlace place m) →
    run.2.item? q = tree.item? q ∨ (tree.item? q = none ∧ run.2.item? q = some .directory)

/-- Where nothing is written there are new directories at most. -/
theorem WritesApart.of_newDirectories {here : Place} {directory : String} {tree : FileTree} {ms : List Manifest}
    {run : Except OutputFault Unit × FileTree} {places : Place → Prop} (h : NewDirectories places tree run.2)
    (hall : run.1 = .ok () → ms = []) :
    WritesApart here directory tree ms run [] [] where
  part := List.nil_prefix
  all hok := (hall hok).symm
  inside hne := absurd rfl hne
  files := by simp
  others q _ := (h q).imp_right And.right

theorem writeManifests_writesApart (start tree : FileTree) (here : Place) (directory : String) {ms : List Manifest}
    (hnames : (ms.map (·.fileName)).Nodup) :
    ∃ place written, WritesApart here directory tree ms
      ((writeManifests (start.host here) directory ms).run tree) place written := by
  have hmade := ((start.host_overTree here).createDirectories (Path.ofDirectoryText directory) tree).made
  rw [writeManifests, StateT.run_bind]
  generalize ((start.host here).createDirectories (Path.ofDirectoryText directory)).run tree = made at hmade ⊢
  obtain ⟨fault | _, made⟩ := made
  · exact ⟨[], [], WritesApart.of_newDirectories hmade fun h => by cases h⟩
  · show ∃ place written, WritesApart here directory tree ms
      ((writeEach (start.host here) directory ms).run made) place written
    cases hwalk : made.walk here (Path.ofDirectoryText directory) with
    | error fault =>
      obtain ⟨hafter, hall⟩ := writeEach_of_walk_error start ms hwalk
      exact ⟨[], [], WritesApart.of_newDirectories (by rw [hafter]; exact hmade) hall⟩
    | ok place =>
      obtain ⟨written, hprefix, hall, hplace, hwritten⟩ := writeEach_written start hwalk hnames
      exact ⟨place, written, hprefix, hall, fun _ => hplace, hwritten.files,
        fun q hq => hwritten.others q hq ▸ (hmade q).imp_right And.right⟩

end Manifests.CommandLine
