import Manifests.Proofs.FileTree
import Manifests.Proofs.Loading.Reading

/-! # Hosts over a file tree

A host is over a tree if finding something out leaves the tree, and if what changes it does what the tree does or
nothing at all (`Host.OverTree`). On such a host, making a directory with those above it adds directories on the way
of its path only, and its path leads to it (`Host.OverTree.createDirectories`). -/

namespace Manifests

open FileTree

/-- Run in any tree, the action does what a change of the tree does, or gives a fault and leaves the tree. -/
def Performs {ε : Type} (action : StateM FileTree (Except ε Unit)) (f : FileTree → Except ε FileTree) : Prop :=
  ∀ tree, (∃ after, f tree = .ok after ∧ action.run tree = (.ok (), after)) ∨
    ∃ fault, action.run tree = (.error fault, tree)

/-- A host over a tree for commands that run in the directory `here`. -/
structure Host.OverTree (host : Host (StateM FileTree)) (here : Place) : Prop where
  source : ∀ tree, host.source.Leaves tree
  isFile : ∀ path tree, ((host.isFile path).run tree).2 = tree
  isDirectory : ∀ path tree, ∃ there, (host.isDirectory path).run tree = (there, tree) ∧
    (there = true → tree.isDirectory here path = true)
  createDirectory : ∀ path, Performs (host.createDirectory path) fun tree => tree.createDirectory here path
  write : ∀ directory name text,
    Performs (host.write directory name text) fun tree => tree.write here directory name text

/-- What comes after such an action runs in the changed tree, or else in the same one. -/
theorem Performs.run_bind {ε α : Type} {action : StateM FileTree (Except ε Unit)} {f : FileTree → Except ε FileTree}
    (h : Performs action f) (next : Except ε Unit → StateM FileTree α) (tree : FileTree) :
    (∃ after, f tree = .ok after ∧ (action >>= next).run tree = (next (.ok ())).run after) ∨
      ∃ fault, (action >>= next).run tree = (next (.error fault)).run tree := by
  rcases h tree with ⟨after, hf, hrun⟩ | ⟨fault, hrun⟩
  · exact Or.inl ⟨after, hf, run_bind_of_run hrun next⟩
  · exact Or.inr ⟨fault, run_bind_of_run hrun next⟩

/-! ### Trees -/

theorem change_performs {ε : Type} (f : FileTree → Except ε FileTree) : Performs (change f) f := by
  intro tree
  cases h : f tree with
  | ok after => exact Or.inl ⟨after, rfl, change_of_ok h⟩
  | error fault => exact Or.inr ⟨fault, change_of_error h⟩

theorem FileTree.host_overTree (start : FileTree) (here : Place) : (start.host here).OverTree here where
  source tree := source_leaves start tree here
  isFile _ _ := rfl
  isDirectory _ _ := ⟨_, rfl, id⟩
  createDirectory _ := change_performs _
  write _ _ _ := change_performs _

/-! ### Making directories -/

namespace Path

/-- A first part of the path leads to the place. -/
def LeadsThrough (here : Place) (p : Path) (q : Place) : Prop :=
  ∃ steps, steps <+: p.steps ∧ q = place here ⟨p.absolute, steps⟩

theorem leadsThrough_place (here : Place) (p : Path) : p.LeadsThrough here (p.place here) :=
  ⟨p.steps, List.prefix_rfl, rfl⟩

theorem foldl_follow_filter (start : Place) (steps : List Step) :
    (steps.filter (· ≠ .current)).foldl Step.follow start = steps.foldl Step.follow start := by
  induction steps generalizing start with
  | nil => rfl
  | cons s steps ih =>
    by_cases hs : s = .current
    · rw [List.filter_cons_of_neg (by simpa using hs), ih, hs]
      rfl
    · rw [List.filter_cons_of_pos (by simpa using hs), List.foldl_cons, ih, List.foldl_cons]

theorem above_absolute (p : Path) : p.above.absolute = p.absolute := by
  unfold above
  split
  · rename_i habs _
    exact habs.symm
  · rfl

/-- Up to steps that stay, the path above one is a first part of it. -/
theorem prefix_filter_above (p : Path) :
    p.above.steps.filter (· ≠ .current) <+: p.steps.filter (· ≠ .current) := by
  unfold above
  split
  · rename_i rest _ hsteps
    have hstart := (List.dropLast_prefix (Step.current :: rest.filter (· ≠ .current))).filter (· ≠ .current)
    rw [hsteps]
    simpa [List.filter_filter] using hstart
  · have hstart := (List.dropLast_prefix (p.steps.filter (· ≠ .current))).filter (· ≠ .current)
    simpa [List.filter_filter] using hstart

theorem leadsThrough_of_above {here : Place} {p : Path} {q : Place} (h : p.above.LeadsThrough here q) :
    p.LeadsThrough here q := by
  obtain ⟨steps, hstart, rfl⟩ := h
  obtain ⟨rest, hrest⟩ := (hstart.filter (· ≠ .current)).trans p.prefix_filter_above
  obtain ⟨first, last, hsteps, hfirst, -⟩ := List.filter_eq_append_iff.mp hrest.symm
  refine ⟨first, ⟨last, hsteps.symm⟩, ?_⟩
  rw [above_absolute, place, place, ← foldl_follow_filter, ← hfirst, foldl_follow_filter]

end Path

/-- What making a directory comes to: there are new directories at some of the places, and the path of one that was
    made leads to its place. -/
structure MakesDirectory (here : Place) (path : Path) (places : Place → Prop) (tree : FileTree)
    (run : Except AccessFault Unit × FileTree) : Prop where
  made : NewDirectories places tree run.2
  reached : run.1 = .ok () → run.2.walk here path = .ok (path.place here)

theorem walk_of_isDirectory {tree : FileTree} {here : Place} {path : Path} (h : tree.isDirectory here path = true) :
    tree.walk here path = .ok (path.place here) := by
  unfold isDirectory at h
  split at h
  · rename_i place hlocate
    unfold locate at hlocate
    split at hlocate
    · cases hlocate
    · split at hlocate
      · cases hlocate
      · rw [hlocate, place_of_walk hlocate]
  · cases h

namespace Host.OverTree
variable {host : Host (StateM FileTree)} {here : Place}

theorem ensureDirectory (h : host.OverTree here) (path : Path) (tree : FileTree) :
    MakesDirectory here path (· = path.place here) tree ((host.ensureDirectory path).run tree) := by
  unfold Host.ensureDirectory
  rcases (h.createDirectory path).run_bind _ tree with ⟨after, hcreated, hrun⟩ | ⟨fault, hrun⟩ <;> rw [hrun]
  · obtain ⟨hnew, hwalk⟩ := createDirectory_eq_ok hcreated
    exact ⟨hnew, fun _ => hwalk⟩
  · obtain ⟨there, hlook, hthere⟩ := h.isDirectory path tree
    rw [StateT.run_bind, hlook]
    cases there with
    | true => exact ⟨NewDirectories.refl _ tree, fun _ => walk_of_isDirectory (hthere rfl)⟩
    | false => exact ⟨NewDirectories.refl _ tree, fun h => by cases h⟩

/-- Whichever directories above it are made, new directories are on the way of the path. -/
theorem createFrom (h : host.OverTree here) (fuel : Nat) (path : Path) (tree : FileTree) :
    MakesDirectory here path (path.LeadsThrough here) tree ((host.createFrom fuel path).run tree) := by
  induction fuel generalizing path tree with
  | zero => exact ⟨NewDirectories.refl _ tree, fun h => by cases h⟩
  | succ fuel ih =>
    unfold Host.createFrom
    split
    · rename_i hempty
      refine ⟨NewDirectories.refl _ tree, fun _ => ?_⟩
      rw [hempty]
      rfl
    · have hown : ∀ q, q = path.place here → path.LeadsThrough here q := by
        rintro q rfl
        exact path.leadsThrough_place here
      have hfirst := h.ensureDirectory path tree
      rw [StateT.run_bind]
      generalize (host.ensureDirectory path).run tree = first at hfirst ⊢
      obtain ⟨fault | _, tried⟩ := first
      · have hmade := hfirst.made.mono hown
        show MakesDirectory here path _ tree ((if fault ≠ .noEntry then _ else _ : StateM FileTree _).run tried)
        split
        · exact ⟨hmade, fun h => by cases h⟩
        · -- Some directory above is missing, so those are made first.
          have habove := ih path.above tried
          rw [StateT.run_bind]
          generalize (host.createFrom fuel path.above).run tried = above at habove ⊢
          have hprepared := hmade.trans (habove.made.mono fun _ => Path.leadsThrough_of_above)
          obtain ⟨fault | _, prepared⟩ := above
          · exact ⟨hprepared, fun h => by cases h⟩
          · have hlast := h.ensureDirectory path prepared
            exact ⟨hprepared.trans (hlast.made.mono hown), hlast.reached⟩
      · exact ⟨hfirst.made.mono hown, hfirst.reached⟩

theorem createDirectories (h : host.OverTree here) (path : Path) (tree : FileTree) :
    MakesDirectory here path (path.LeadsThrough here) tree ((host.createDirectories path).run tree) :=
  h.createFrom _ path tree

end Host.OverTree

end Manifests
