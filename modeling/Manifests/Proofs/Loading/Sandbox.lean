import Manifests.Proofs.Loading.LoadOrder
import Manifests.Proofs.Place
import Manifests.Proofs.Yaml.Document

/-! # The directory of loaded files

Imports are refused if their path does not begin with that of the directory of the first file. Where this path is
absolute or has a name, what begins with it leads into the directory (`inDirectoryOf_of_startsWith`). Where it has
steps back only, or no step at all, paths that begin with it lead anywhere, and a file outside the directory can be
loaded (`loadFiles_climbingStore`). -/

namespace Manifests

/-! ### Paths into a directory -/

namespace Path

/-- A path leads into the directory of the file that another one leads to, from wherever they start. -/
def InDirectoryOf (p file : Path) : Prop := ∀ here, (file.place here).dropLast <+: p.place here

/-- The path of a file is absolute, or that of its directory has a name. -/
def Anchored (file : Path) : Prop := file.absolute = true ∨ ∃ s, Step.name s ∈ file.parent.steps

theorem IsNormal.names_of_append {steps rest : List Step} (h : IsNormal (steps ++ rest)) {s : String}
    (hs : Step.name s ∈ steps) : ∀ t ∈ rest, ∃ name, t = Step.name name := by
  intro t ht
  cases t with
  | name name => exact ⟨name, rfl⟩
  | current => exact absurd (List.mem_append_right _ ht) h.1
  | parent => cases (List.pairwise_append.mp h.2).2.2 _ hs _ ht rfl

theorem IsNormal.parents_of_no_name {steps : List Step} (h : IsNormal steps) (hno : ∀ s, Step.name s ∉ steps) :
    ∀ s ∈ steps, s = .parent := by
  intro s hs
  cases s with
  | parent => rfl
  | current => exact absurd hs h.1
  | name s => exact absurd hs (hno s)

theorem parent_of_steps_append {file : Path} {steps : List Step} {last : Step} (h : file.steps = steps ++ [last]) :
    file.parent = ⟨file.absolute, steps⟩ := by
  simp [parent, h]

theorem length_steps_le (file : Path) : file.steps.length ≤ file.parent.steps.length + 1 := by
  unfold parent
  split
  · rename_i hempty
    simp [List.isEmpty_iff.mp hempty]
  · rw [List.length_dropLast]
    omega

/-- What begins with the path of an anchored file's directory leads into that directory. -/
theorem inDirectoryOf_of_startsWith {p file : Path} (hp : IsNormal p.steps) (hfile : IsNormal file.steps)
    (hanchored : file.Anchored) (hstarts : p.startsWith file.parent = true) : p.InDirectoryOf file := by
  intro here
  rcases List.eq_nil_or_concat' file.steps with hnil | ⟨steps, last, hsteps⟩
  · -- Without steps the file is the root itself.
    have habs : file.absolute = true := by
      rcases hanchored with habs | ⟨s, hs⟩
      · exact habs
      · simp [parent, hnil, empty] at hs
    simp [place, hnil, habs]
  · rw [Anchored, parent_of_steps_append hsteps] at hanchored
    rw [parent_of_steps_append hsteps, startsWith_eq_true_iff] at hstarts
    rcases hstarts with hempty | ⟨habs, rest, hrest⟩
    · simp [empty] at hempty
      simp [hempty] at hanchored
    · rw [place_of_steps_append hrest.symm, place_of_steps_append hsteps, habs, List.foldl_cons, List.foldl_nil]
      rw [hsteps] at hfile
      rw [← hrest] at hp
      by_cases hname : ∃ s, Step.name s ∈ steps
      · obtain ⟨s, hs⟩ := hname
        obtain ⟨name, rfl⟩ := hfile.names_of_append hs last (List.mem_singleton.mpr rfl)
        rw [Step.follow, List.dropLast_concat]
        exact Step.prefix_follow_names (hp.names_of_append hs) _
      · -- An absolute path of steps back leads to the root, and all is below that.
        have habs : file.absolute = true := hanchored.resolve_right hname
        have hroot : place here ⟨file.absolute, steps⟩ = [] := by
          rw [← List.length_eq_zero_iff, place, if_pos habs, Step.length_follow_parents]
          · exact Nat.zero_sub _
          · exact IsNormal.parents_of_no_name (hfile.sublist (List.sublist_append_left _ _)) (not_exists.mp hname)
        rw [hroot]
        cases last <;> simp [Step.follow]

end Path

/-! ### Files that are loaded -/

namespace TextStore

variable {store : TextStore} {directory : Path}

/-- A file of a post-order is one of those it is for, or an import that was found below the directory. -/
theorem PostOrder.mem_or_startsWith {paths order : List Path} (h : store.PostOrder directory paths order) {path : Path}
    (hpath : path ∈ order) : path ∈ paths ∨ path.normalize = path ∧ path.startsWith directory = true := by
  induction h with
  | nil => cases hpath
  | cons hf hfinds _ _ ihbelow ihafter =>
    rcases List.mem_append.mp hpath with hpath | hpath
    · rcases ihbelow hpath with himported | hfound
      · obtain ⟨_, _, hmeans, hstarts⟩ := exists_mem_left_of_forall₂ hfinds himported
        exact Or.inr ⟨normalize_of_canonicalize hmeans, hstarts⟩
      · exact Or.inr hfound
    · rcases List.mem_cons.mp hpath with rfl | hpath
      · exact Or.inl List.mem_cons_self
      · exact (ihafter hpath).imp_left (List.mem_cons_of_mem _)

/-- The files that are loaded for an anchored one are in its directory. -/
theorem inDirectoryOf_of_loadFiles {root : String} {loaded : List LoadedFile}
    (hanchored : (Path.ofText root).normalize.Anchored) (h : (store.source.loadFiles root).run.run = .ok loaded)
    {f : LoadedFile} (hf : f ∈ loaded) : f.path.InDirectoryOf (Path.ofText root) := by
  obtain ⟨file, order, hfile, horder, rfl⟩ := loadFiles_eq_ok_iff_postOrder.mp h
  obtain ⟨path, hpath, rfl⟩ := List.mem_map.mp hf
  obtain ⟨rfl, -⟩ := canonicalize_eq_ok.mp hfile
  intro here
  rw [← Path.place_normalize here (Path.ofText root)]
  rcases horder.mem_or_startsWith (List.mem_eraseDups.mp hpath) with hpath | ⟨hnormal, hstarts⟩
  · obtain rfl := List.mem_singleton.mp hpath
    exact List.dropLast_prefix _
  · refine Path.inDirectoryOf_of_startsWith ?_ (Path.isNormal_normalize _) hanchored hstarts here
    rw [← hnormal]
    exact Path.isNormal_normalize path

/-- With a file that has one import, which has none, the import is loaded before the file. -/
theorem loadFiles_of_one_import {root reference : String} {file imported : Path} {own others : List Declaration}
    (hroot : store.canonicalize (Path.ofText root) = .ok file) (hfile : store.file? file = some ⟨[reference], own⟩)
    (hfinds : store.Finds file.parent file reference imported) (himported : store.file? imported = some ⟨[], others⟩)
    (hne : file ≠ imported) :
    (store.source.loadFiles root).run.run = .ok [⟨imported, others⟩, ⟨file, own⟩] := by
  have horder : store.PostOrder file.parent [file] [imported, file] :=
    .cons hfile (.cons hfinds .nil) (.cons himported .nil .nil .nil) .nil
  have honce : [imported, file].eraseDups = [imported, file] :=
    eraseDups_append_singleton fun hmem => hne (List.mem_singleton.mp hmem)
  refine loadFiles_eq_ok_iff_postOrder.mpr ⟨file, _, hroot, horder, ?_⟩
  rw [honce, List.map_cons, List.map_singleton, loadedFile_eq hfile, loadedFile_eq himported]

/-! ### A file above the directory -/

/-- An import that leads far above the directory it is seen from. -/
def climb : String := "../../../../outside.yaml"

/-- A declaration file with that import. -/
def climbingText : String := "imports: [../../../../outside.yaml]\n"

/-- A declaration file with one service. -/
def leakedText : String := "resources:\n- kind: Service\n  name: leaked\n"

/-- The service of that file, which is known under the name of the file. -/
def leaked (file : String) : Declaration := ⟨.service, none, [("name", .text "leaked")], ⟨file, 0⟩⟩

theorem read_climbingText (file : String) : DeclarationFile.read file climbingText = .ok ⟨[climb], []⟩ := by
  have hevents : (Yaml.Token.scan climbingText.toList >>= Yaml.Event.ofTokens >>= Yaml.Event.number []) =
      .ok [.mappingStart none none, .scalar none none "imports" true, .sequenceStart none none,
        .scalar none none climb true, .sequenceEnd, .mappingEnd] := rfl
  have himports : Yaml.Tree.ofPlain "imports" = .ok (.text "imports") := rfl
  have hclimb : Yaml.Tree.ofPlain climb = .ok (.text climb) := rfl
  have htree : Yaml.read climbingText = .ok (.mapping [(.text "imports", .sequence [.text climb])]) := by
    rw [Yaml.read_of_events hevents]
    simp [Yaml.Tree.ofEvents, Yaml.Tree.depthLimit, Yaml.Tree.readNode.child, Yaml.Tree.readNode, Yaml.Tree.readItems,
      Yaml.Tree.readEntries, Yaml.Tree.ofScalar, Yaml.Tree.ofUntagged, Yaml.Tree.withTag, bind, Except.bind,
      pure, Except.pure, himports, hclimb]
  rw [DeclarationFile.read, htree]
  rfl

theorem read_leakedText (file : String) : DeclarationFile.read file leakedText = .ok ⟨[], [leaked file]⟩ := by
  have hevents : (Yaml.Token.scan leakedText.toList >>= Yaml.Event.ofTokens >>= Yaml.Event.number []) =
      .ok [.mappingStart none none, .scalar none none "resources" true, .sequenceStart none none,
        .mappingStart none none, .scalar none none "kind" true, .scalar none none "Service" true,
        .scalar none none "name" true, .scalar none none "leaked" true, .mappingEnd, .sequenceEnd, .mappingEnd] := rfl
  have hresources : Yaml.Tree.ofPlain "resources" = .ok (.text "resources") := rfl
  have hkind : Yaml.Tree.ofPlain "kind" = .ok (.text "kind") := rfl
  have hservice : Yaml.Tree.ofPlain "Service" = .ok (.text "Service") := rfl
  have hname : Yaml.Tree.ofPlain "name" = .ok (.text "name") := rfl
  have hleaked : Yaml.Tree.ofPlain "leaked" = .ok (.text "leaked") := rfl
  have htree : Yaml.read leakedText = .ok (.mapping [(.text "resources",
      .sequence [.mapping [(.text "kind", .text "Service"), (.text "name", .text "leaked")]])]) := by
    rw [Yaml.read_of_events hevents]
    simp [Yaml.Tree.ofEvents, Yaml.Tree.depthLimit, Yaml.Tree.readNode.child, Yaml.Tree.readNode, Yaml.Tree.readItems,
      Yaml.Tree.readEntries, Yaml.Tree.same, Yaml.Tree.ofScalar, Yaml.Tree.ofUntagged, Yaml.Tree.withTag, bind,
      Except.bind, pure, Except.pure, hresources, hkind, hservice, hname, hleaked]
  rw [DeclarationFile.read, htree]
  rfl

/-- An import from the directory `mesh` by way of the directory above. -/
def detour : String := "./../mesh/leaked.yaml"

/-- A declaration file with that import, and with two services of its own. -/
def detourText : String :=
  "imports: [./../mesh/leaked.yaml]\nresources:\n- kind: Service\n  name: leaked\n- kind: Service\n"

/-- These services. The first one takes the name of the imported service, and the second one has no name. -/
def detourServices (file : String) : List Declaration := [leaked file, ⟨.service, none, [], ⟨file, 1⟩⟩]

theorem read_detourText (file : String) :
    DeclarationFile.read file detourText = .ok ⟨[detour], detourServices file⟩ := by
  have hevents : (Yaml.Token.scan detourText.toList >>= Yaml.Event.ofTokens >>= Yaml.Event.number []) =
      .ok [.mappingStart none none, .scalar none none "imports" true, .sequenceStart none none,
        .scalar none none detour true, .sequenceEnd, .scalar none none "resources" true, .sequenceStart none none,
        .mappingStart none none, .scalar none none "kind" true, .scalar none none "Service" true,
        .scalar none none "name" true, .scalar none none "leaked" true, .mappingEnd,
        .mappingStart none none, .scalar none none "kind" true, .scalar none none "Service" true, .mappingEnd,
        .sequenceEnd, .mappingEnd] := rfl
  have himports : Yaml.Tree.ofPlain "imports" = .ok (.text "imports") := rfl
  have hdetour : Yaml.Tree.ofPlain detour = .ok (.text detour) := rfl
  have hresources : Yaml.Tree.ofPlain "resources" = .ok (.text "resources") := rfl
  have hkind : Yaml.Tree.ofPlain "kind" = .ok (.text "kind") := rfl
  have hservice : Yaml.Tree.ofPlain "Service" = .ok (.text "Service") := rfl
  have hname : Yaml.Tree.ofPlain "name" = .ok (.text "name") := rfl
  have hleaked : Yaml.Tree.ofPlain "leaked" = .ok (.text "leaked") := rfl
  have htree : Yaml.read detourText = .ok (.mapping [(.text "imports", .sequence [.text detour]),
      (.text "resources", .sequence [.mapping [(.text "kind", .text "Service"), (.text "name", .text "leaked")],
        .mapping [(.text "kind", .text "Service")]])]) := by
    rw [Yaml.read_of_events hevents]
    simp [Yaml.Tree.ofEvents, Yaml.Tree.depthLimit, Yaml.Tree.readNode.child, Yaml.Tree.readNode, Yaml.Tree.readItems,
      Yaml.Tree.readEntries, Yaml.Tree.same, Yaml.Tree.ofScalar, Yaml.Tree.ofUntagged, Yaml.Tree.withTag, bind,
      Except.bind, pure, Except.pure, himports, hdetour, hresources, hkind, hservice, hname, hleaked]
  rw [DeclarationFile.read, htree]
  rfl

/-- A file that is not anchored has the path of a relative directory with steps back only. -/
theorem parent_of_not_anchored {file : Path} (hfile : file.normalize = file) (h : ¬file.Anchored) :
    file.parent.absolute = false ∧ ∀ s ∈ file.parent.steps, s = .parent := by
  obtain ⟨habs, hno⟩ := not_or.mp h
  have hnormal : Path.IsNormal file.parent.steps := by
    rw [← Path.normalize_parent hfile]
    exact Path.isNormal_normalize _
  refine ⟨?_, hnormal.parents_of_no_name (not_exists.mp hno)⟩
  unfold Path.parent
  split
  · rfl
  · exact Bool.eq_false_iff.mpr habs

theorem back_of_parents {steps : List Step} (h : ∀ s ∈ steps, s = .parent) :
    ∀ s ∈ steps ++ [.parent, .parent, .parent, .parent], s = Step.parent := by
  intro s hs
  rcases List.mem_append.mp hs with hs | hs
  · exact h s hs
  · simpa using hs

/-- Where that import leads from a directory with steps back only. -/
theorem resolve_climb {directory : Path} (habs : directory.absolute = false)
    (hparents : ∀ s ∈ directory.steps, s = .parent) :
    resolve directory climb =
      ⟨false, directory.steps ++ [.parent, .parent, .parent, .parent] ++ [.name "outside.yaml"]⟩ := by
  have hclimb : Path.ofText climb = ⟨false, [.parent, .parent, .parent, .parent, .name "outside.yaml"]⟩ := rfl
  have hback := back_of_parents hparents
  have hnormal : Path.IsNormal (directory.steps ++ [.parent, .parent, .parent, .parent]) := by
    refine ⟨fun hmem => ?_, List.pairwise_of_forall_mem_list fun s hs _ _ _ => hback s hs⟩
    cases hback _ hmem
  have hjoin : directory.join (Path.ofText climb) =
      ⟨false, directory.steps ++ [.parent, .parent, .parent, .parent] ++ [.name "outside.yaml"]⟩ := by
    simp [Path.join, hclimb, habs]
  rw [resolve, hjoin]
  exact Path.normalize_of_isNormal (hnormal.append_name _)

/-- A store with a file and a service that the file imports from far above. -/
def climbingStore (file : Path) : TextStore :=
  (empty.insert file climbingText).insert (resolve file.parent climb) leakedText

/-- With a file that is not anchored, the service that it imports from above its directory is loaded. -/
theorem loadFiles_climbingStore {root : String} (h : ¬(Path.ofText root).normalize.Anchored) :
    ((climbingStore (Path.ofText root).normalize).source.loadFiles root).run.run =
      .ok [⟨resolve (Path.ofText root).normalize.parent climb, [leaked "outside.yaml"]⟩,
        ⟨(Path.ofText root).normalize, []⟩] := by
  generalize hfile : (Path.ofText root).normalize = file at h ⊢
  have hnormal : file.normalize = file := by rw [← hfile, Path.normalize_normalize]
  obtain ⟨habs, hparents⟩ := parent_of_not_anchored hnormal h
  have hresolve := resolve_climb habs hparents
  have houtside : (resolve file.parent climb).normalize = resolve file.parent climb := Path.normalize_normalize _
  have hne : file ≠ resolve file.parent climb := by
    intro heq
    have hlength := congrArg (fun p : Path => p.steps.length) (heq.trans hresolve)
    have hshort := Path.length_steps_le file
    simp at hlength
    omega
  have hlabel : (resolve file.parent climb).label = "outside.yaml" := by
    rw [hresolve, Path.label, Path.fileName?, List.getLast?_append]
    rfl
  refine loadFiles_of_one_import ?_ (file?_eq_some.mpr ⟨climbingText, ?_, read_climbingText _⟩) ⟨?_, ?_⟩
    (file?_eq_some.mpr ⟨leakedText, ?_, hlabel ▸ read_leakedText _⟩) hne
  · have hthere : (empty.insert file climbingText).canonicalize (Path.ofText root) = .ok file := by
      rw [canonicalize_insert (hfile.trans hnormal.symm), hnormal]
    exact canonicalize_insert_of_ok hthere
  · rw [climbingStore, read_insert_of_ne (by rwa [hnormal, houtside]), read_insert_of_eq rfl]
  · rw [Means, climbingStore, canonicalize_insert rfl, houtside]
  · rw [hresolve]
    simp [Path.startsWith, habs]
  · rw [climbingStore, read_insert_of_eq rfl]

/-- That service is above the directory of the file, if enough is above this one. -/
theorem not_inDirectoryOf_climb {root : String} (h : ¬(Path.ofText root).normalize.Anchored) :
    ¬(resolve (Path.ofText root).normalize.parent climb).InDirectoryOf (Path.ofText root) := by
  intro hin
  obtain ⟨habs, hparents⟩ := parent_of_not_anchored (Path.normalize_normalize _) h
  have hrelative : ¬(Path.ofText root).normalize.absolute = true := fun habs => h (Or.inl habs)
  generalize hhere : List.replicate ((Path.ofText root).normalize.parent.steps.length + 4) "directory" = here
  have hlength : here.length = (Path.ofText root).normalize.parent.steps.length + 4 := by
    rw [← hhere, List.length_replicate]
  -- The import goes up past all of `here`, and the file by one directory less than its path has steps.
  have himport : ((resolve (Path.ofText root).normalize.parent climb).place here).length = 1 := by
    rw [resolve_climb habs hparents, Path.place, List.foldl_append, List.foldl_cons, List.foldl_nil, Step.follow,
      List.length_append, Step.length_follow_parents (back_of_parents hparents), if_neg Bool.false_ne_true, hlength]
    simp
  have hfile : here.length ≤ ((Path.ofText root).place here).length + (Path.ofText root).normalize.steps.length := by
    have hup := Step.length_le_length_follow (Path.ofText root).normalize.steps here
    rw [← Path.place_normalize, Path.place, if_neg hrelative]
    exact hup
  have hshort := Path.length_steps_le (Path.ofText root).normalize
  have hprefix := (hin here).length_le
  rw [himport, List.length_dropLast] at hprefix
  omega

/-- What a file imports stays in its directory if the file is anchored. With any other file, a service outside that
    directory can be loaded. -/
theorem loadFiles_inDirectory (root : String) :
    ((Path.ofText root).normalize.Anchored → ∀ (store : TextStore) (loaded : List LoadedFile),
      (store.source.loadFiles root).run.run = .ok loaded →
        ∀ f ∈ loaded, f.path.InDirectoryOf (Path.ofText root)) ∧
    (¬(Path.ofText root).normalize.Anchored → ∃ (store : TextStore) (loaded : List LoadedFile),
      (store.source.loadFiles root).run.run = .ok loaded ∧
        ∃ f ∈ loaded, f.resources ≠ [] ∧ ¬f.path.InDirectoryOf (Path.ofText root)) := by
  refine ⟨fun hanchored store loaded h f hf => inDirectoryOf_of_loadFiles hanchored h hf, fun h => ?_⟩
  exact ⟨_, _, loadFiles_climbingStore h, _, List.mem_cons_self, List.cons_ne_nil _ _, not_inDirectoryOf_climb h⟩

/-- A directory with a name may also be reached by steps back. -/
example : (Path.ofText "../mesh/./main.yaml").normalize.Anchored := Or.inr ⟨"mesh", by decide⟩

theorem not_anchored_bare : ¬(Path.ofText "root.yaml").normalize.Anchored := by
  rintro (habs | ⟨s, hs⟩)
  · exact absurd habs (by decide)
  · exact absurd hs List.not_mem_nil

/-- A file without a directory in its path loads a service from four directories above. -/
theorem bareFile_loads_outside :
    ((ofList [("root.yaml", climbingText), ("../../../../outside.yaml", leakedText)]).source.loadFiles
        "root.yaml").run.run =
      .ok [⟨Path.ofText "../../../../outside.yaml", [leaked "outside.yaml"]⟩, ⟨Path.ofText "root.yaml", []⟩] ∧
    ¬(Path.ofText "../../../../outside.yaml").InDirectoryOf (Path.ofText "root.yaml") := by
  have hroot : (Path.ofText "root.yaml").normalize = Path.ofText "root.yaml" := by decide
  have himport : resolve (Path.ofText "root.yaml").normalize.parent climb = Path.ofText "../../../../outside.yaml" := by
    decide
  have hstore : climbingStore (Path.ofText "root.yaml").normalize =
      ofList [("root.yaml", climbingText), ("../../../../outside.yaml", leakedText)] := by
    rw [climbingStore, himport, hroot]
    rfl
  have hloaded := loadFiles_climbingStore not_anchored_bare
  have houtside := not_inDirectoryOf_climb not_anchored_bare
  rw [himport] at houtside
  rw [himport, hstore, hroot] at hloaded
  exact ⟨hloaded, houtside⟩

end TextStore

end Manifests
