import Manifests.Proofs.Loading.Runs

/-! # Loading only reads

Where reading and canonicalizing give in each of some states what they give with a source that never changes, and stay
in these states, loading does so too (`Source.load_answers`). So loading leaves a state that they leave
(`Source.load_onlyReads`). The files of a tree are such a source. -/

namespace Manifests

section
variable {σ ε α β : Type} {states : σ → Prop}

/-- From each of the states, the program gives what the other one gives, and it ends in one of them. -/
def Answers (states : σ → Prop) (x : ExceptT ε (StateM σ) α) (y : ExceptT ε Id α) : Prop :=
  ∀ s, states s → (x.run.run s).1 = y.run.run ∧ states (x.run.run s).2

theorem answers_pure (a : α) : Answers states (pure a : ExceptT ε (StateM σ) α) (pure a) := fun _ hs => ⟨rfl, hs⟩

theorem answers_throw (e : ε) : Answers states (throw e : ExceptT ε (StateM σ) α) (throw e) := fun _ hs => ⟨rfl, hs⟩

theorem Answers.bind {x : ExceptT ε (StateM σ) α} {y : ExceptT ε Id α} {f : α → ExceptT ε (StateM σ) β}
    {g : α → ExceptT ε Id β} (h : Answers states x y) (hnext : ∀ a, Answers states (f a) (g a)) :
    Answers states (x >>= f) (y >>= g) := by
  intro s hs
  obtain ⟨hgives, hends⟩ := h s hs
  rw [run_bind, ← hgives]
  rcases hrun : x.run.run s with ⟨failure | a, s'⟩
  · rw [hrun] at hends
    rw [run_bind_of_error hrun]
    exact ⟨rfl, hends⟩
  · rw [hrun] at hends
    rw [run_bind_of_ok hrun]
    exact hnext a s' hends

theorem answers_foldlM {f : β → α → ExceptT ε (StateM σ) β} {g : β → α → ExceptT ε Id β}
    (h : ∀ b a, Answers states (f b a) (g b a)) (as : List α) (b : β) :
    Answers states (as.foldlM f b) (as.foldlM g b) := by
  induction as generalizing b with
  | nil => exact answers_pure b
  | cons a as ih =>
    rw [List.foldlM_cons, List.foldlM_cons]
    exact (h b a).bind ih

theorem answers_orFail {file : String} {cause : ε → LoadCause} {x : StateM σ (Except ε α)} {y : Id (Except ε α)}
    (h : ∀ s, states s → (x.run s).1 = y.run ∧ states (x.run s).2) :
    Answers states (orFail file cause x) (orFail file cause y) := by
  intro s hs
  obtain ⟨hgives, hends⟩ := h s hs
  exact ⟨congrArg (Except.mapError fun fault => (⟨file, cause fault⟩ : LoadFailure)) hgives, hends⟩

end

namespace Source
variable {σ : Type} {states : σ → Prop} {source : Source (StateM σ)} {plain : Source Id} {s : σ}

/-- In each of the states, the source gives what the other one gives, and it stays in them. -/
structure Answers (states : σ → Prop) (source : Source (StateM σ)) (plain : Source Id) : Prop where
  read : ∀ path s, states s →
    ((source.read path).run s).1 = (plain.read path).run ∧ states ((source.read path).run s).2
  resolve : source.resolve = plain.resolve
  canonicalize : ∀ path s, states s →
    ((source.canonicalize path).run s).1 = (plain.canonicalize path).run ∧ states ((source.canonicalize path).run s).2
  fileBound : source.fileBound = plain.fileBound

theorem importPath_answers (hresolve : source.resolve = plain.resolve)
    (hcanonicalize : ∀ path s, states s → ((source.canonicalize path).run s).1 = (plain.canonicalize path).run ∧
      states ((source.canonicalize path).run s).2) (directory file : Path) (reference : String) :
    Manifests.Answers states (source.importPath directory file reference)
      (plain.importPath directory file reference) := by
  unfold importPath
  rw [hresolve]
  refine (answers_orFail (hcanonicalize _)).bind fun imported => ?_
  split
  · exact answers_pure _
  · exact answers_throw _

theorem loadFrom_answers (h : source.Answers states plain) (directory : Path) (fuel : Nat) (stack : List Path)
    (loaded : List LoadedFile) (file : Path) :
    Manifests.Answers states (source.loadFrom directory fuel stack loaded file)
      (plain.loadFrom directory fuel stack loaded file) := by
  induction fuel generalizing stack loaded file with
  | zero => exact answers_throw _
  | succ fuel ih =>
    unfold loadFrom
    split
    · exact answers_pure loaded
    · refine (answers_orFail (h.read file)).bind fun text => ?_
      refine (answers_orFail fun _ hs => ⟨rfl, hs⟩).bind fun parsed => ?_
      refine (answers_foldlM (fun loaded reference => ?_) _ _).bind fun below => answers_pure _
      refine (importPath_answers h.resolve h.canonicalize directory file reference).bind fun imported => ?_
      split
      · exact answers_throw _
      · exact ih _ _ _

theorem loadFiles_answers (h : source.Answers states plain) (root : String) :
    Manifests.Answers states (source.loadFiles root) (plain.loadFiles root) := by
  unfold loadFiles
  rw [h.fileBound]
  refine (answers_orFail (h.canonicalize _)).bind fun file => ?_
  refine (answers_orFail (h.canonicalize _)).bind fun directory => ?_
  exact loadFrom_answers h directory _ _ _ file

theorem load_answers (h : source.Answers states plain) (root : String) :
    Manifests.Answers states (source.load root) (plain.load root) :=
  (loadFiles_answers h root).bind fun _ => answers_pure _

/-! ### One state -/

/-- Reading and canonicalizing leave the state as it is. -/
structure Leaves (source : Source (StateM σ)) (s : σ) : Prop where
  read : ∀ path, ((source.read path).run s).2 = s
  canonicalize : ∀ path, ((source.canonicalize path).run s).2 = s

/-- The source as it is in a state. -/
def inState (source : Source (StateM σ)) (s : σ) : Source Id where
  read path := ((source.read path).run s).1
  resolve := source.resolve
  canonicalize path := ((source.canonicalize path).run s).1
  fileBound := source.fileBound

theorem Leaves.answers (h : source.Leaves s) : source.Answers (· = s) (source.inState s) where
  read path := by
    rintro _ rfl
    exact ⟨rfl, h.read path⟩
  resolve := rfl
  canonicalize path := by
    rintro _ rfl
    exact ⟨rfl, h.canonicalize path⟩
  fileBound := rfl

theorem loadFiles_onlyReads (h : source.Leaves s) (root : String) :
    (source.loadFiles root).run.run s = (((source.inState s).loadFiles root).run.run, s) :=
  Prod.ext_iff.mpr (loadFiles_answers h.answers root s rfl)

theorem load_onlyReads (h : source.Leaves s) (root : String) :
    (source.load root).run.run s = (((source.inState s).load root).run.run, s) :=
  Prod.ext_iff.mpr (load_answers h.answers root s rfl)

end Source

theorem FileTree.source_leaves (start tree : FileTree) (here : Place) : (start.host here).source.Leaves tree :=
  ⟨fun _ => rfl, fun _ => rfl⟩

end Manifests
