import Mathlib.Data.List.Induction
import Manifests.Proofs.Path.Text
import Manifests.Source.TextStore

/-! # Storing and finding texts

A text is found under every spelling of the path that it was stored under last, and texts under other paths stay. A
path is there if a stored file is at it or below it. So what is read and what is there can be told from the texts in
the order in which they are stored (`read_ofList_eq_ok`, `canonicalize_ofList_eq_ok`), and paths may be normalized
early or late (`ofList_pathLaws`). -/

namespace Manifests

namespace Path

@[simp] theorem startsWith_self (p : Path) : p.startsWith p = true := by
  simp [startsWith]

end Path

namespace TextStore

variable {store : TextStore} {path q : Path} {text : String}

theorem read_insert_of_eq (h : q.normalize = path.normalize) : (store.insert path text).read q = .ok text := by
  simp [read, insert, h]

theorem read_insert_of_ne (h : q.normalize ≠ path.normalize) : (store.insert path text).read q = store.read q := by
  have hbeq : (q.normalize == path.normalize) = false := beq_eq_false_iff_ne.mpr h
  simp only [read, insert, List.lookup_cons, hbeq]

theorem canonicalize_eq_ok {found : Path} :
    store.canonicalize path = .ok found ↔
      found = path.normalize ∧ ∃ file ∈ store.files, file.1.startsWith path.normalize = true := by
  unfold canonicalize
  split
  · rename_i hthere
    exact ⟨fun h => ⟨(Except.ok.inj h).symm, List.any_eq_true.mp hthere⟩, fun h => by rw [h.1]⟩
  · rename_i hthere
    exact ⟨(fun h => by cases h), fun h => absurd (List.any_eq_true.mpr h.2) hthere⟩

/-- The path of a stored text is there, and stays there when more texts are stored. -/
theorem canonicalize_insert (h : q.normalize = path.normalize) :
    (store.insert path text).canonicalize q = .ok path.normalize :=
  canonicalize_eq_ok.mpr ⟨h.symm, _, List.mem_cons_self, by rw [h]; exact Path.startsWith_self _⟩

theorem canonicalize_insert_of_ok {found : Path} (h : store.canonicalize q = .ok found) :
    (store.insert path text).canonicalize q = .ok found := by
  obtain ⟨hfound, file, hfile, hstarts⟩ := canonicalize_eq_ok.mp h
  exact canonicalize_eq_ok.mpr ⟨hfound, file, List.mem_cons_of_mem _ hfile, hstarts⟩

/-- Under the canonical path, the same is found. -/
theorem canonicalize_canonical {found : Path} (h : store.canonicalize path = .ok found) :
    store.canonicalize found = .ok found ∧ store.read found = store.read path := by
  obtain ⟨rfl, hthere⟩ := canonicalize_eq_ok.mp h
  constructor
  · exact canonicalize_eq_ok.mpr ⟨path.normalize_normalize.symm, by rwa [Path.normalize_normalize]⟩
  · simp only [read, Path.normalize_normalize]

/-! ### Resolving -/

theorem resolve_normalize (base : Path) (reference : String) :
    resolve base.normalize reference = resolve base reference :=
  Path.normalize_join_normalize base _

theorem normalize_join_eq_resolve (base : Path) (reference : String) :
    (base.normalize.join (Path.ofText reference).normalize).normalize = resolve base reference :=
  Path.normalize_join base _

theorem resolve_of_absolute (base : Path) {reference : String} (h : (Path.ofText reference).absolute = true) :
    resolve base reference = (Path.ofText reference).normalize := by
  rw [resolve, Path.join_of_absolute base h]

theorem isWritten_resolve {base : Path} (h : base.IsWritten) (reference : String) :
    (resolve base reference).IsWritten :=
  (h.join (Path.isWritten_ofText reference)).normalize

/-! ### Texts stored one after the other -/

variable {files : List (String × String)}

/-- The file has a path that is a spelling of `q`. -/
def StoredAt (q : Path) (file : String × String) : Prop := (Path.ofText file.1).normalize = q.normalize

/-- The text is the last one that is stored at a spelling of `q`. -/
def LastStored (files : List (String × String)) (q : Path) (text : String) : Prop :=
  ∃ before path after, files = before ++ (path, text) :: after ∧ StoredAt q (path, text) ∧
    ∀ file ∈ after, ¬StoredAt q file

theorem ofList_concat (files : List (String × String)) (file : String × String) :
    ofList (files ++ [file]) = (ofList files).insert (Path.ofText file.1) file.2 := by
  rw [ofList, List.foldl_append]
  rfl

theorem not_lastStored_nil : ¬LastStored [] q text := by
  rintro ⟨before, path, after, hfiles, -⟩
  simp at hfiles

/-- One more file that is stored at the path takes the place of all before it. -/
theorem lastStored_concat {file : String × String} :
    LastStored (files ++ [file]) q text ↔
      StoredAt q file ∧ file.2 = text ∨ ¬StoredAt q file ∧ LastStored files q text := by
  constructor
  · rintro ⟨before, path, after, hfiles, hstored, hafter⟩
    -- The new file is the one that counts, or it comes after that one.
    rcases List.eq_nil_or_concat' after with rfl | ⟨after, last, rfl⟩
    · obtain rfl := List.singleton_inj.mp (List.append_inj' hfiles rfl).2
      exact Or.inl ⟨hstored, rfl⟩
    · rw [← List.cons_append, ← List.append_assoc] at hfiles
      obtain ⟨rfl, heq⟩ := List.append_inj' hfiles rfl
      obtain rfl := List.singleton_inj.mp heq
      obtain ⟨hafter, hother⟩ := List.forall_mem_append.mp hafter
      exact Or.inr ⟨hother file List.mem_cons_self, before, path, after, rfl, hstored, hafter⟩
  · rintro (⟨hstored, rfl⟩ | ⟨hother, before, path, after, rfl, hstored, hafter⟩)
    · exact ⟨files, file.1, [], rfl, hstored, fun _ h => absurd h List.not_mem_nil⟩
    · refine ⟨before, path, after ++ [file], by simp, hstored, ?_⟩
      exact List.forall_mem_append.mpr ⟨hafter, List.forall_mem_singleton.mpr hother⟩

/-- What is read is the text that was stored last. -/
theorem read_ofList_eq_ok : (ofList files).read q = .ok text ↔ LastStored files q text := by
  induction files using List.reverseRecOn with
  | nil => exact ⟨(fun h => by cases h), fun h => absurd h not_lastStored_nil⟩
  | append_singleton files file ih =>
    rw [ofList_concat, lastStored_concat]
    by_cases h : StoredAt q file
    · rw [read_insert_of_eq h.symm, Except.ok.injEq]
      simp [h]
    · rw [read_insert_of_ne (Ne.symm h), ih]
      simp [h]

/-- The spellings of a path need not be alike. -/
example : (ofList [("mesh/app.yaml", "first"), ("mesh/./app.yaml", "second"), ("app.yaml", "third")]).read
    (Path.ofText "mesh/gateways/../app.yaml") = .ok "second" := by decide

theorem read_ofList_eq_error {fault : AccessFault} :
    (ofList files).read q = .error fault ↔ fault = .noStoredFile q.normalize ∧ ∀ file ∈ files, ¬StoredAt q file := by
  induction files using List.reverseRecOn with
  | nil => simp [read, ofList, empty, eq_comm]
  | append_singleton files file ih =>
    rw [ofList_concat, List.forall_mem_append, List.forall_mem_singleton]
    by_cases h : StoredAt q file
    · rw [read_insert_of_eq h.symm]
      simp [h]
    · rw [read_insert_of_ne (Ne.symm h), ih]
      simp [h]

theorem mem_files_ofList {entry : Path × String} :
    entry ∈ (ofList files).files ↔ ∃ file ∈ files, ((Path.ofText file.1).normalize, file.2) = entry := by
  induction files using List.reverseRecOn with
  | nil => simp [ofList, empty]
  | append_singleton files file ih =>
    rw [ofList_concat, insert, List.mem_cons, ih]
    simp [or_and_right, exists_or, eq_comm, or_comm]

/-- A path is there if its components are the first ones of a stored file's path. -/
theorem canonicalize_ofList_eq_ok {found : Path} :
    (ofList files).canonicalize q = .ok found ↔
      found = q.normalize ∧ ∃ file ∈ files, q.normalize.components <+: (Path.ofText file.1).normalize.components := by
  rw [canonicalize_eq_ok]
  simp only [mem_files_ofList, Path.startsWith_iff_components]
  constructor
  · rintro ⟨hfound, _, ⟨file, hfile, rfl⟩, hstarts⟩
    exact ⟨hfound, file, hfile, hstarts⟩
  · rintro ⟨hfound, file, hfile, hstarts⟩
    exact ⟨hfound, _, ⟨file, hfile, rfl⟩, hstarts⟩

/-! ### The laws of paths -/

/-- How paths act on a store, if the texts are stored in the order of `files`. -/
structure PathLaws (files : List (String × String)) : Prop where
  /-- The normal form is what a path is shortened to, if it is shortened as far as possible. -/
  normalize_eq_iff : ∀ p q : Path, p.normalize = q ↔ q.absolute = p.absolute ∧
    Relation.ReflTransGen Path.Shortens p.steps q.steps ∧ ∀ shorter, ¬Path.Shortens q.steps shorter
  normalize_normalize : ∀ p : Path, p.normalize.normalize = p.normalize
  /-- A normal form is read back from its text. -/
  ofText_text_normalize : ∀ text, Path.ofText (Path.ofText text).normalize.text = (Path.ofText text).normalize
  ofText_text_resolve : ∀ base reference,
    Path.ofText (resolve (Path.ofText base) reference).text = resolve (Path.ofText base) reference
  /-- A directory may be normalized before a text is resolved in it. -/
  resolve_normalize : ∀ base reference, resolve base.normalize reference = resolve base reference
  normalize_join : ∀ base reference,
    (base.normalize.join (Path.ofText reference).normalize).normalize = resolve base reference
  /-- What is absolute means the same in all directories. -/
  resolve_of_absolute : ∀ base reference, (Path.ofText reference).absolute = true →
    resolve base reference = (Path.ofText reference).normalize
  /-- What is there are the files and the directories above them. -/
  canonicalize_eq_ok : ∀ p found, (ofList files).canonicalize p = .ok found ↔ found = p.normalize ∧
    ∃ file ∈ files, p.normalize.components <+: (Path.ofText file.1).normalize.components
  /-- The same is found under the canonical path. -/
  canonicalize_canonical : ∀ p found, (ofList files).canonicalize p = .ok found →
    (ofList files).canonicalize found = .ok found ∧ (ofList files).read found = (ofList files).read p
  /-- The last text that is stored at a spelling of the path counts. -/
  read_eq_ok : ∀ q text, (ofList files).read q = .ok text ↔ LastStored files q text
  read_eq_error : ∀ q fault, (ofList files).read q = .error fault ↔
    fault = .noStoredFile q.normalize ∧ ∀ file ∈ files, ¬StoredAt q file

/-- Spellings of a path act alike on a store, and the texts in it are told apart by normal forms alone. -/
theorem ofList_pathLaws (files : List (String × String)) : PathLaws files where
  normalize_eq_iff _ _ := Path.normalize_eq_iff
  normalize_normalize := Path.normalize_normalize
  ofText_text_normalize text := Path.ofText_text (Path.isWritten_ofText text).normalize
  ofText_text_resolve base reference := Path.ofText_text (isWritten_resolve (Path.isWritten_ofText base) reference)
  resolve_normalize := resolve_normalize
  normalize_join := normalize_join_eq_resolve
  resolve_of_absolute base _ h := resolve_of_absolute base h
  canonicalize_eq_ok _ _ := canonicalize_ofList_eq_ok
  canonicalize_canonical _ _ := canonicalize_canonical
  read_eq_ok _ _ := read_ofList_eq_ok
  read_eq_error _ _ := read_ofList_eq_error

end TextStore

end Manifests
