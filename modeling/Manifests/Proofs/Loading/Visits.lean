import Manifests.Loading
import Manifests.Proofs.Except
import Manifests.Proofs.Loading.Imports

/-! # Visiting files

What one visit of a file does (`Source.visit_eq_ok`), with a source that never changes: a file that is loaded already
adds nothing, and another one adds what its imports add and then itself. -/

namespace Manifests

/-- What steps give that each find something and then go on with it. -/
theorem foldlM_eq_ok_iff {ε α β γ : Type} {r : α → β → Prop} {p : β → Prop} {step : γ → α → Except ε γ}
    {next : γ → β → Except ε γ} (hstep : ∀ c a c', step c a = .ok c' ↔ ∃ b, r a b ∧ p b ∧ next c b = .ok c')
    {as : List α} {c c' : γ} :
    as.foldlM step c = .ok c' ↔
      ∃ bs, List.Forall₂ r as bs ∧ (∀ b ∈ bs, p b) ∧ bs.foldlM next c = .ok c' := by
  induction as generalizing c with
  | nil =>
    constructor
    · intro h
      exact ⟨[], .nil, by simp, h⟩
    · rintro ⟨_, ⟨⟩, -, h⟩
      exact h
  | cons a as ih =>
    rw [List.foldlM_cons, bind_eq_ok_iff]
    constructor
    · rintro ⟨d, hd, h⟩
      obtain ⟨b, hb, hp, hnext⟩ := (hstep c a d).mp hd
      obtain ⟨bs, hbs, hps, h⟩ := ih.mp h
      refine ⟨b :: bs, .cons hb hbs, List.forall_mem_cons.mpr ⟨hp, hps⟩, ?_⟩
      rw [List.foldlM_cons, bind_eq_ok_iff]
      exact ⟨d, hnext, h⟩
    · rintro ⟨_, _ | ⟨hb, hbs⟩, hps, h⟩
      rw [List.foldlM_cons, bind_eq_ok_iff] at h
      obtain ⟨d, hnext, h⟩ := h
      obtain ⟨hp, hps⟩ := List.forall_mem_cons.mp hps
      exact ⟨d, (hstep c a d).mpr ⟨_, hb, hp, hnext⟩, ih.mpr ⟨_, hbs, hps, h⟩⟩

theorem run_orFail_eq_ok {α ε : Type} {file : String} {cause : ε → LoadCause} {result : Id (Except ε α)} {a : α} :
    (orFail file cause result).run.run = .ok a ↔ result.run = .ok a :=
  mapError_eq_ok_iff

theorem toOption_eq_some {ε α : Type} {x : Except ε α} {a : α} : x.toOption = some a ↔ x = .ok a := by
  cases x <;> simp [Except.toOption]

namespace Source

/-! ### What a visit does -/

section
variable {m : Type → Type} [Monad m]

/-- Loads what an entry of the imports of a file means, while the file and those in the rest of the stack are in
    progress. -/
def loadImport (source : Source m) (directory : Path) (fuel : Nat) (stack : List Path) (path : Path)
    (loaded : List LoadedFile) (reference : String) : ExceptT LoadFailure m (List LoadedFile) := do
  let imported ← source.importPath directory path reference
  if imported ∈ stack then throw ⟨path.label, .cycle ((stack ++ [imported]).map Path.label)⟩
  source.loadFrom directory fuel stack loaded imported

theorem loadFrom_succ {source : Source m} {directory : Path} {fuel : Nat} {stack : List Path}
    {loaded : List LoadedFile} {path : Path} :
    source.loadFrom directory (fuel + 1) stack loaded path =
      if loaded.any (·.path = path) then return loaded
      else do
        let text ← orFail path.label .notRead (source.read path)
        let f ← orFail path.label .document (pure (DeclarationFile.read path.label text))
        let below ← f.imports.foldlM (source.loadImport directory fuel (stack ++ [path]) path) loaded
        return below ++ [⟨path, f.resources⟩] := by
  rw [loadFrom]
  rfl

end

/-! ### With a source that never changes -/

variable {source : Source Id}

/-- The declaration file at a path, where a text is there and is one. -/
def file? (source : Source Id) (path : Path) : Option DeclarationFile :=
  (source.read path).run.toOption.bind fun text => (DeclarationFile.read path.label text).toOption

/-- The path that an entry of the imports of a file means is there, below a directory. -/
def Finds (source : Source Id) (directory path : Path) (reference : String) (imported : Path) : Prop :=
  (source.canonicalize (source.resolve path.parent reference)).run = .ok imported ∧
    imported.startsWith directory = true

/-- Loads a file, after those that are loaded and while those in the stack are in progress. -/
def visit (source : Source Id) (directory : Path) (fuel : Nat) (stack : List Path) (loaded : List LoadedFile)
    (path : Path) : Except LoadFailure (List LoadedFile) :=
  (source.loadFrom directory fuel stack loaded path).run.run

section
variable {directory : Path} {fuel : Nat} {stack : List Path} {loaded after : List LoadedFile} {path : Path}

theorem run_importPath_eq_ok {reference : String} {imported : Path} :
    (source.importPath directory path reference).run.run = .ok imported ↔
      source.Finds directory path reference imported := by
  rw [importPath, run_bind, bind_eq_ok_iff]
  constructor
  · rintro ⟨found, hfound, h⟩
    split at h
    · rename_i hstarts
      cases h
      exact ⟨run_orFail_eq_ok.mp hfound, hstarts⟩
    · cases h
  · rintro ⟨hmeans, hstarts⟩
    refine ⟨imported, run_orFail_eq_ok.mpr hmeans, ?_⟩
    rw [if_pos hstarts]
    rfl

theorem file?_eq_some {f : DeclarationFile} :
    source.file? path = some f ↔
      ∃ text, (source.read path).run = .ok text ∧ DeclarationFile.read path.label text = .ok f := by
  simp only [file?, Option.bind_eq_some_iff, toOption_eq_some]

theorem run_loadImport_eq_ok {reference : String} :
    (source.loadImport directory fuel stack path loaded reference).run.run = .ok after ↔
      ∃ imported, source.Finds directory path reference imported ∧ imported ∉ stack ∧
        source.visit directory fuel stack loaded imported = .ok after := by
  rw [loadImport, run_bind, bind_eq_ok_iff]
  refine exists_congr fun imported => and_congr run_importPath_eq_ok ?_
  by_cases hcycle : imported ∈ stack
  · rw [if_pos hcycle]
    exact ⟨(fun h => by cases h), fun h => absurd hcycle h.1⟩
  · rw [if_neg hcycle]
    exact ⟨fun h => ⟨hcycle, h⟩, fun h => h.2⟩

/-- What the imports of a file add: each is found and visited in turn. -/
theorem foldlM_loadImport_eq_ok {references : List String} :
    (references.foldlM (source.loadImport directory fuel stack path) loaded).run.run = .ok after ↔
      ∃ imported, List.Forall₂ (source.Finds directory path) references imported ∧ (∀ q ∈ imported, q ∉ stack) ∧
        imported.foldlM (source.visit directory fuel stack) loaded = .ok after := by
  rw [run_foldlM]
  refine foldlM_eq_ok_iff ?_
  intro loaded reference after
  exact run_loadImport_eq_ok

theorem visit_of_mem (h : path ∈ loaded.map (·.path)) :
    source.visit directory (fuel + 1) stack loaded path = .ok loaded := by
  have hany : loaded.any (·.path = path) = true := by simpa using h
  rw [visit, loadFrom_succ, if_pos hany]
  rfl

/-- A visit of a file that is not loaded yet visits what its imports find, which are no files in progress. -/
theorem visit_eq_ok (h : path ∉ loaded.map (·.path)) :
    source.visit directory (fuel + 1) stack loaded path = .ok after ↔
      ∃ f imported below, source.file? path = some f ∧
        List.Forall₂ (source.Finds directory path) f.imports imported ∧ (∀ q ∈ imported, q ∉ stack ++ [path]) ∧
        imported.foldlM (source.visit directory fuel (stack ++ [path])) loaded = .ok below ∧
        after = below ++ [⟨path, f.resources⟩] := by
  have hany : ¬loaded.any (·.path = path) = true := by simpa using h
  rw [visit, loadFrom_succ, if_neg hany]
  simp only [run_bind, bind_eq_ok_iff, run_orFail_eq_ok, foldlM_loadImport_eq_ok]
  constructor
  · rintro ⟨text, htext, f, hf, below, ⟨imported, hfinds, hcycle, hbelow⟩, hafter⟩
    cases hafter
    exact ⟨f, imported, below, file?_eq_some.mpr ⟨text, htext, hf⟩, hfinds, hcycle, hbelow, rfl⟩
  · rintro ⟨f, imported, below, hf, hfinds, hcycle, hbelow, rfl⟩
    obtain ⟨text, htext, hf⟩ := file?_eq_some.mp hf
    exact ⟨text, htext, f, hf, below, ⟨imported, hfinds, hcycle, hbelow⟩, rfl⟩

theorem run_load_eq_ok {root : String} {ds : List Declaration} :
    (source.load root).run.run = .ok ds ↔
      ∃ loaded, (source.loadFiles root).run.run = .ok loaded ∧ ds = loaded.flatMap (·.resources) := by
  rw [load, run_bind, bind_eq_ok_iff]
  refine exists_congr fun loaded => and_congr_right' ⟨fun h => (Except.ok.inj h).symm, ?_⟩
  rintro rfl
  rfl

end

end Source

namespace TextStore

/-- Loads a file of the store, after those that are loaded and while those in the stack are in progress. -/
def visit (store : TextStore) (directory : Path) (fuel : Nat) (stack : List Path) (loaded : List LoadedFile)
    (path : Path) : Except LoadFailure (List LoadedFile) :=
  (store.source.loadFrom directory fuel stack loaded path).run.run

/-- The declarations of a stored file and of all it imports. -/
def load (store : TextStore) (root : String) : Except LoadFailure (List Declaration) :=
  (store.source.load root).run.run

variable {store : TextStore} {directory : Path} {fuel : Nat} {stack : List Path} {loaded after : List LoadedFile}
  {path : Path}

theorem file?_eq_some {f : DeclarationFile} :
    store.file? path = some f ↔
      ∃ text, store.read path = .ok text ∧ DeclarationFile.read path.label text = .ok f :=
  @Source.file?_eq_some store.source path f

theorem visit_of_mem (h : path ∈ loaded.map (·.path)) :
    store.visit directory (fuel + 1) stack loaded path = .ok loaded :=
  Source.visit_of_mem h

theorem visit_eq_ok (h : path ∉ loaded.map (·.path)) :
    store.visit directory (fuel + 1) stack loaded path = .ok after ↔
      ∃ f imported below, store.file? path = some f ∧
        List.Forall₂ (store.Finds directory path) f.imports imported ∧ (∀ q ∈ imported, q ∉ stack ++ [path]) ∧
        imported.foldlM (store.visit directory fuel (stack ++ [path])) loaded = .ok below ∧
        after = below ++ [⟨path, f.resources⟩] :=
  Source.visit_eq_ok h

end TextStore

end Manifests
