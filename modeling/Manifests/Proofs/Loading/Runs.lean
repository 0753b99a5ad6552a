import Manifests.FileTree
import Manifests.Loading
import Manifests.Proofs.Except

/-! # Loading in a state

What a program that may fail gives when it runs in a state: from one state on (`run_bind_of_ok`), or from whatever
state it starts in (`Yields`). -/

namespace Manifests

section
variable {σ ε α β : Type}

/-! ### From one state -/

theorem run_bind_of_ok {x : ExceptT ε (StateM σ) α} {f : α → ExceptT ε (StateM σ) β} {s s' : σ} {a : α}
    (h : x.run.run s = (.ok a, s')) : (x >>= f).run.run s = (f a).run.run s' := by
  rw [ExceptT.run_bind, StateT.run_bind, h]
  rfl

theorem run_bind_of_error {x : ExceptT ε (StateM σ) α} {f : α → ExceptT ε (StateM σ) β} {s s' : σ} {e : ε}
    (h : x.run.run s = (.error e, s')) : (x >>= f).run.run s = (.error e, s') := by
  rw [ExceptT.run_bind, StateT.run_bind, h]
  rfl

theorem run_orFail (file : String) (cause : ε → LoadCause) (result : StateM σ (Except ε α)) (s : σ) :
    (orFail file cause result).run.run s =
      ((result.run s).1.mapError fun fault => ⟨file, cause fault⟩, (result.run s).2) := rfl

theorem run_orFail_of_ok {file : String} {cause : ε → LoadCause} {result : StateM σ (Except ε α)} {s s' : σ} {a : α}
    (h : result.run s = (.ok a, s')) : (orFail file cause result).run.run s = (.ok a, s') := by
  rw [run_orFail, h]
  rfl

/-! ### From any state -/

/-- Whatever state a program starts in, a value that it gives is like this. -/
def Yields (x : ExceptT ε (StateM σ) α) (P : α → Prop) : Prop := ∀ s a, (x.run.run s).1 = .ok a → P a

theorem yields_pure {a : α} {P : α → Prop} (h : P a) : Yields (pure a : ExceptT ε (StateM σ) α) P := by
  intro s a' ha
  cases ha
  exact h

theorem yields_throw {e : ε} {P : α → Prop} : Yields (throw e : ExceptT ε (StateM σ) α) P := by
  intro s a ha
  cases ha

theorem Yields.bind {x : ExceptT ε (StateM σ) α} {f : α → ExceptT ε (StateM σ) β} {P : α → Prop} {Q : β → Prop}
    (hx : Yields x P) (hf : ∀ a, P a → Yields (f a) Q) : Yields (x >>= f) Q := by
  intro s b hb
  rw [ExceptT.run_bind, StateT.run_bind] at hb
  rcases hrun : x.run.run s with ⟨failure | a, s'⟩
  · rw [hrun] at hb
    cases hb
  · rw [hrun] at hb
    exact hf a (hx s a (by rw [hrun])) s' b hb

theorem yields_foldlM {f : β → α → ExceptT ε (StateM σ) β} {P : β → Prop} (hf : ∀ b a, P b → Yields (f b a) P)
    {as : List α} {b : β} (hb : P b) : Yields (as.foldlM f b) P := by
  induction as generalizing b with
  | nil => exact yields_pure hb
  | cons a as ih =>
    rw [List.foldlM_cons]
    exact (hf b a hb).bind fun _ => ih

theorem yields_orFail {file : String} {cause : ε → LoadCause} {result : Except ε α} :
    Yields (orFail (m := StateM σ) file cause (pure result)) fun a => result = .ok a := by
  intro s a ha
  exact mapError_eq_ok_iff.mp ha

theorem yields_true (x : ExceptT ε (StateM σ) α) : Yields x fun _ => True := fun _ _ _ => trivial

end

/-! ### A file -/

/-- A file of a tree that imports nothing is loaded without changing the tree. -/
theorem FileTree.load_of_no_imports {start tree : FileTree} {here : Place} {root text : String} {file directory : Path}
    {ds : List Declaration} (hroot : tree.canonicalize here (Path.ofText root) = .ok file)
    (hdirectory : tree.canonicalize here file.parent = .ok directory) (hread : tree.read here file = .ok text)
    (hparsed : DeclarationFile.read file.label text = .ok ⟨[], ds⟩) :
    ((start.host here).source.load root).run.run tree = (.ok ds, tree) := by
  have hfound : ((start.host here).source.canonicalize (Path.ofText root)).run tree = (.ok file, tree) :=
    congrArg (·, tree) hroot
  have habove : ((start.host here).source.canonicalize file.parent).run tree = (.ok directory, tree) :=
    congrArg (·, tree) hdirectory
  have htext : ((start.host here).source.read file).run tree = (.ok text, tree) := congrArg (·, tree) hread
  have hfrom (fuel : Nat) : ((start.host here).source.loadFrom directory (fuel + 1) [] [] file).run.run tree =
      (.ok [⟨file, ds⟩], tree) := by
    rw [Source.loadFrom, List.any_nil, if_neg Bool.false_ne_true, run_bind_of_ok (run_orFail_of_ok htext), hparsed]
    rfl
  have hfiles : ((start.host here).source.loadFiles root).run.run tree = (.ok [⟨file, ds⟩], tree) := by
    rw [Source.loadFiles, run_bind_of_ok (run_orFail_of_ok hfound), run_bind_of_ok (run_orFail_of_ok habove), hfrom]
  rw [Source.load, run_bind_of_ok hfiles]
  show (Except.ok (List.flatMap (·.resources) [(⟨file, ds⟩ : LoadedFile)]), tree) = _
  rw [List.flatMap_singleton]

end Manifests
