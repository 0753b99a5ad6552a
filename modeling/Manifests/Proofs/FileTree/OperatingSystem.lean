import Manifests.FileTree.OperatingSystem
import Manifests.Proofs.Host
import Mathlib.Algebra.Order.BigOperators.Group.List
import Mathlib.Algebra.Order.Group.Nat

/-! # File trees under an operating system

Whatever an operating system refuses, a temporary file is gone whichever way the writing of a file ends
(`OperatingSystem.run_replace`). So a tree under a system is a host over the tree (`OperatingSystem.host_overTree`),
and it is the tree by itself under a system that refuses nothing (`OperatingSystem.host_obliging`). -/

namespace Manifests

open FileTree

/-! ### Temporary files -/

namespace FileTree
variable {tree : FileTree} {temporary : Place}

theorem filter_ne_of_item?_none (h : tree.item? temporary = none) :
    tree.items.filter (·.1 ≠ temporary) = tree.items := by
  rw [item?, if_neg (ne_nil_of_item?_none h), List.lookup_eq_none_iff] at h
  rw [List.filter_eq_self]
  intro entry hentry
  exact decide_eq_true (bne_iff_ne.mp (h entry hentry)).symm

theorem filter_ne_put (place : Place) (item : Item) :
    (tree.put place item).items.filter (·.1 ≠ place) = tree.items.filter (·.1 ≠ place) := by
  have hlast : [(place, item)].filter (·.1 ≠ place) = [] := by simp
  rw [put, List.filter_append, hlast, List.append_nil, List.filter_filter]
  simp only [Bool.and_self]

theorem put_put (place : Place) (item last : Item) : (tree.put place item).put place last = tree.put place last := by
  rw [put, filter_ne_put, put]

/-- A new file leaves nothing behind when it is removed. -/
theorem erase_put_of_item?_none (h : tree.item? temporary = none) (item : Item) :
    (tree.put temporary item).erase temporary = tree := by
  rw [erase, filter_ne_put, filter_ne_of_item?_none h]

/-- A new file that is moved takes the place of no directory, and then it stands there only. -/
theorem move_put (h : tree.item? temporary = none) (content : Content) (target : Place) :
    (tree.put temporary (.file content)).move temporary target =
      if tree.item? target = some .directory then .error .isDirectory else .ok (tree.put target (.file content)) := by
  have hput := item?_put tree (ne_nil_of_item?_none h) (.file content)
  have htarget : (tree.put temporary (.file content)).item? target = some .directory ↔
      tree.item? target = some .directory := by
    rw [hput]
    split
    · rename_i heq
      simp [heq, h]
    · rfl
  simp only [move, htarget, hput temporary, if_true, erase_put_of_item?_none h]

end FileTree

namespace OperatingSystem
variable (os : OperatingSystem)

theorem run_observe {α : Type} (attempt : Attempt) (f : FileTree → Except AccessFault α) (tree : FileTree) :
    (os.observe attempt f).run tree =
      (match os.refusal? tree attempt with
        | some fault => .error fault
        | none => f tree, tree) := by
  simp only [observe, StateT.run_bind, StateT.run_get, pure_bind]
  cases os.refusal? tree attempt <;> rfl

theorem run_look (path : Path) (f : FileTree → Bool) (tree : FileTree) :
    (os.look path f).run tree = ((os.refusal? tree (.look path)).isNone && f tree, tree) := rfl

theorem perform_performs (attempt : Attempt) (f : FileTree → Except AccessFault FileTree) :
    Performs (os.perform attempt f) f := by
  intro tree
  cases hrefusal : os.refusal? tree attempt with
  | some fault =>
    refine Or.inr ⟨fault, change_of_error ?_⟩
    rw [hrefusal]
  | none =>
    cases hf : f tree with
    | ok after =>
      refine Or.inl ⟨after, rfl, change_of_ok ?_⟩
      rw [hrefusal]
      exact hf
    | error fault =>
      refine Or.inr ⟨fault, change_of_error ?_⟩
      rw [hrefusal]
      exact hf

/-- A file is replaced, or the tree is as it was: the temporary file is gone either way. -/
theorem run_replace {tree : FileTree} {temporary : Place} (h : tree.item? temporary = none) (target : Place)
    (text : String) :
    (tree.item? target ≠ some .directory ∧
      (os.replace temporary target text).run tree = (.ok (), tree.put target (.file (.text text)))) ∨
    ∃ fault, (os.replace temporary target text).run tree = (.error fault, tree) := by
  unfold replace
  rcases (os.perform_performs _ _).run_bind _ tree with ⟨made, hmade, hrun⟩ | ⟨fault, hrun⟩ <;> rw [hrun]
  · obtain rfl := Except.ok.inj hmade
    rcases (os.perform_performs _ _).run_bind _ (tree.put temporary (.file (.text ""))) with
      ⟨filled, hfilled, hrun⟩ | ⟨fault, hrun⟩ <;> rw [hrun]
    · obtain rfl := Except.ok.inj hfilled
      rw [put_put]
      rcases (os.perform_performs _ _).run_bind _ (tree.put temporary (.file (.text text))) with
        ⟨moved, hmoved, hrun⟩ | ⟨fault, hrun⟩ <;> rw [hrun]
      · rw [move_put h] at hmoved
        split at hmoved
        · cases hmoved
        · rename_i htarget
          obtain rfl := Except.ok.inj hmoved
          exact Or.inl ⟨htarget, rfl⟩
      · refine Or.inr ⟨.notPlaced fault, congrArg (Prod.mk _) ?_⟩
        exact erase_put_of_item?_none h _
    · refine Or.inr ⟨.notPlaced fault, congrArg (Prod.mk _) ?_⟩
      exact erase_put_of_item?_none h _
  · exact Or.inr ⟨.notMade fault, rfl⟩

theorem write_performs (here : Place) (directory : Path) (name text : String) :
    Performs (os.write here directory name text) fun tree => tree.write here directory name text := by
  intro tree
  simp only [write, StateT.run_bind, StateT.run_get, pure_bind]
  cases hwalk : tree.walk here directory with
  | error fault => exact Or.inr ⟨.notMade fault, rfl⟩
  | ok place =>
    refine (os.run_replace (os.unused tree place) (place ++ [name]) text).imp_left fun ⟨htarget, hrun⟩ => ⟨_, ?_, hrun⟩
    rw [FileTree.write, hwalk]
    exact if_neg htarget

theorem host_overTree (start : FileTree) (here : Place) : (os.host start here).OverTree here where
  source tree := ⟨fun path => by rw [host, run_observe], fun path => by rw [host, run_observe]⟩
  isFile _ _ := rfl
  isDirectory path tree := ⟨_, os.run_look path _ tree, fun h => (Bool.and_eq_true_iff.mp h).2⟩
  createDirectory _ := os.perform_performs _ _
  write := os.write_performs here

/-! ### A system that refuses nothing -/

/-- A name that is longer than all names of a tree. -/
def longName (tree : FileTree) : String :=
  String.ofList ((tree.items.flatMap (·.1)).flatMap String.toList ++ ['x'])

theorem item?_longName (tree : FileTree) (place : Place) : tree.item? (place ++ [longName tree]) = none := by
  rw [item?, if_neg (by simp), List.lookup_eq_none_iff]
  intro entry hentry
  refine bne_iff_ne.mpr fun heq => ?_
  have hmem : longName tree ∈ tree.items.flatMap (·.1) :=
    List.mem_flatMap.mpr ⟨entry, hentry, heq ▸ List.mem_append_right _ (List.mem_singleton.mpr rfl)⟩
  have hle := List.le_sum_of_mem (List.mem_map_of_mem (f := fun name => name.toList.length) hmem)
  rw [← List.length_flatMap] at hle
  simp [longName] at hle

/-- A system that refuses nothing. -/
def obliging : OperatingSystem := ⟨fun tree _ => longName tree, item?_longName, fun _ _ => none⟩

theorem run_replace_obliging {tree : FileTree} {temporary : Place} (h : tree.item? temporary = none) (target : Place)
    (text : String) :
    (obliging.replace temporary target text).run tree =
      if tree.item? target = some .directory then (.error (.notPlaced .isDirectory), tree)
      else (.ok (), tree.put target (.file (.text text))) := by
  have hmoved := move_put h (.text text) target
  have hmade : (obliging.perform (.create temporary) fun tree => .ok (tree.put temporary (.file (.text "")))).run tree =
      (.ok (), tree.put temporary (.file (.text ""))) := rfl
  have hfilled : (obliging.perform (.fill temporary text) fun tree =>
        .ok (tree.put temporary (.file (.text text)))).run (tree.put temporary (.file (.text ""))) =
      (.ok (), (tree.put temporary (.file (.text ""))).put temporary (.file (.text text))) := rfl
  refine (run_bind_of_run hmade _).trans ((run_bind_of_run hfilled _).trans ?_)
  rw [put_put]
  by_cases hdirectory : tree.item? target = some .directory
  · rw [if_pos hdirectory] at hmoved ⊢
    refine (run_bind_of_run (change_of_error hmoved) _).trans ?_
    exact congrArg (Prod.mk _) (erase_put_of_item?_none h _)
  · rw [if_neg hdirectory] at hmoved ⊢
    exact run_bind_of_run (change_of_ok hmoved) _

/-- Under a system that refuses nothing, a tree is the host that it is by itself. -/
theorem host_obliging (start : FileTree) (here : Place) : obliging.host start here = start.host here := by
  have hwrite : obliging.write here =
      fun directory name text => change fun tree => tree.write here directory name text := by
    funext directory name text tree
    show (obliging.write here directory name text).run tree = (change _).run tree
    simp only [write, StateT.run_bind, StateT.run_get, pure_bind]
    cases hwalk : tree.walk here directory with
    | error fault =>
      have hfault : tree.write here directory name text = .error (.notMade fault) := by rw [FileTree.write, hwalk]
      rw [change_of_error hfault]
      rfl
    | ok place =>
      rw [run_replace_obliging (obliging.unused tree place)]
      split
      · rename_i hdirectory
        have hfault : tree.write here directory name text = .error (.notPlaced .isDirectory) := by
          rw [FileTree.write, hwalk]
          exact if_pos hdirectory
        rw [change_of_error hfault]
      · rename_i hdirectory
        have hwritten : tree.write here directory name text =
            .ok (tree.put (place ++ [name]) (.file (.text text))) := by
          rw [FileTree.write, hwalk]
          exact if_neg hdirectory
        rw [change_of_ok hwritten]
  rw [host, hwrite]
  rfl

end OperatingSystem

end Manifests
