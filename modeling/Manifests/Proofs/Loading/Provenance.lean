import Manifests.Proofs.Composition.Stages
import Manifests.Proofs.Integer
import Manifests.Proofs.Loading.Sandbox
import Manifests.Proofs.Loading.Shape
import Mathlib.Data.List.Pairwise

/-! # Where declarations come from

The provenance of a declaration has its position in its file, and of the file what diagnostics call it, which is not
all of its path. So it tells a file apart from others with declarations if no other is called the same
(`PlacedInFiles.nodup_iff`), and with it the labels of declarations that are called by their place. -/

namespace Manifests

/-! ### One file -/

/-- The declarations of a file stand at its positions, from the first to the last. -/
theorem DeclarationFile.read_provenances {file text : String} {f : DeclarationFile} (h : read file text = .ok f) :
    f.resources.map (·.provenance) = (List.range f.resources.length).map (⟨file, ·⟩) := by
  obtain ⟨tree, htree, h⟩ := read_eq_ok h
  have hdeclares := (ofTree_holds (Yaml.read_keysApart htree) h).2.resources
  have hplaces : f.resources.map (·.provenance) =
      (tree.under "resources").items.zipIdx.map fun resource => ⟨file, resource.2⟩ := by
    rw [← List.forall₂_eq_eq_eq, List.forall₂_map_left_iff, List.forall₂_map_right_iff]
    exact hdeclares.flip.imp fun _ _ hdeclares => hdeclares.provenance
  rw [hplaces, ← hdeclares.length_eq, List.length_zipIdx, List.range_eq_range', ← List.zipIdx_map_snd, List.map_map]
  rfl

/-! ### Labels -/

namespace Declaration

/-- The declaration has neither a name nor an identifier, so that diagnostics call it by its place. -/
def Unnamed (d : Declaration) : Prop := d.name? = none ∧ d.id = none

theorem label_of_unnamed {d : Declaration} (h : d.Unnamed) :
    d.label.toList = d.provenance.file.toList ++ '#' :: (Number.decimal d.provenance.index).toList := by
  rw [label, h.1, h.2]
  simp

/-- Such a label tells the provenance: the position has no sharp in it. -/
theorem label_eq_iff_of_unnamed {d d' : Declaration} (h : d.Unnamed) (h' : d'.Unnamed) :
    d.label = d'.label ↔ d.provenance = d'.provenance := by
  have hsharp (i : Int) : '#' ∉ (Number.decimal i).toList := fun hmem =>
    absurd (Number.isMark_of_mem_decimal hmem) (by decide)
  constructor
  · intro hlabel
    have hchars := congrArg String.toList hlabel
    rw [label_of_unnamed h, label_of_unnamed h'] at hchars
    obtain ⟨hfile, hindex⟩ := eq_of_append_cons_eq (hsharp _) (hsharp _) hchars
    have hindex := Number.decimal_injective (String.toList_inj.mp hindex)
    exact (Provenance.mk.injEq ..).mpr ⟨String.toList_inj.mp hfile, Int.ofNat_inj.mp hindex⟩
  · intro hprovenance
    rw [← String.toList_inj, label_of_unnamed h, label_of_unnamed h', hprovenance]

end Declaration

/-! ### All files -/

/-- Of the loaded files that have declarations, different ones have different labels. -/
def LabelsApart (loaded : List LoadedFile) : Prop :=
  ∀ f ∈ loaded, ∀ f' ∈ loaded, f.resources ≠ [] → f'.resources ≠ [] → f.path.label = f'.path.label → f.path = f'.path

/-- The declarations of each file stand at its positions, under the label of the file. -/
def PlacedInFiles (loaded : List LoadedFile) : Prop :=
  ∀ f ∈ loaded, f.resources.map (·.provenance) = (List.range f.resources.length).map (⟨f.path.label, ·⟩)

theorem PlacedInFiles.mem_iff {loaded : List LoadedFile} (h : PlacedInFiles loaded) {f : LoadedFile} (hf : f ∈ loaded)
    {p : Provenance} : p ∈ f.resources.map (·.provenance) ↔ p.file = f.path.label ∧ p.index < f.resources.length := by
  rw [h f hf, List.mem_map]
  constructor
  · rintro ⟨index, hindex, rfl⟩
    exact ⟨rfl, List.mem_range.mp hindex⟩
  · rintro ⟨hfile, hindex⟩
    exact ⟨p.index, List.mem_range.mpr hindex, hfile ▸ rfl⟩

theorem PlacedInFiles.nodup_iff {loaded : List LoadedFile} (h : PlacedInFiles loaded)
    (hpaths : (loaded.map (·.path)).Nodup) :
    ((loaded.flatMap (·.resources)).map (·.provenance)).Nodup ↔ LabelsApart loaded := by
  rw [List.map_flatMap, List.nodup_flatMap]
  constructor
  · -- Two files with one label both have a declaration at the first position.
    rintro ⟨-, hdisjoint⟩ f hf f' hf' hown hown' hlabel
    by_contra hne
    have hsymm : Std.Symm (Function.onFun List.Disjoint fun f : LoadedFile => f.resources.map (·.provenance)) :=
      ⟨fun _ _ hd => hd.symm⟩
    have hapart := hdisjoint.forall hf hf' fun heq => hne (congrArg LoadedFile.path heq)
    have hfirst : ⟨f.path.label, 0⟩ ∈ f.resources.map (·.provenance) :=
      (h.mem_iff hf).mpr ⟨rfl, List.length_pos_iff.mpr hown⟩
    exact hapart hfirst ((h.mem_iff hf').mpr ⟨hlabel, List.length_pos_iff.mpr hown'⟩)
  · intro hapart
    refine ⟨fun f hf => ?_, (List.pairwise_map.mp hpaths).imp_of_mem fun hf hf' hne p hp hp' => ?_⟩
    · rw [h f hf]
      exact List.nodup_range.map fun _ _ heq => congrArg Provenance.index heq
    · obtain ⟨hfile, hindex⟩ := (h.mem_iff hf).mp hp
      obtain ⟨hfile', hindex'⟩ := (h.mem_iff hf').mp hp'
      exact hne (hapart _ hf _ hf' (List.length_pos_iff.mp (Nat.zero_lt_of_lt hindex))
        (List.length_pos_iff.mp (Nat.zero_lt_of_lt hindex')) (hfile.symm.trans hfile'))

namespace TextStore
variable {store : TextStore} {root : String}

theorem nodup_paths_of_loadFiles {loaded : List LoadedFile} (h : (store.source.loadFiles root).run.run = .ok loaded) :
    (loaded.map (·.path)).Nodup := by
  obtain ⟨file, order, -, -, rfl⟩ := loadFiles_eq_ok_iff_postOrder.mp h
  have hpaths : (order.eraseDups.map store.loadedFile).map (·.path) = order.eraseDups := by
    rw [List.map_map]
    exact List.map_id _
  rw [hpaths]
  exact nodup_eraseDups order

theorem placedInFiles_of_loadFiles {loaded : List LoadedFile} (h : (store.source.loadFiles root).run.run = .ok loaded) :
    PlacedInFiles loaded := by
  obtain ⟨file, order, -, horder, rfl⟩ := loadFiles_eq_ok_iff_postOrder.mp h
  refine List.forall_mem_map.mpr fun path hpath => ?_
  obtain ⟨_, _ | ⟨hf, -, -, -⟩, -⟩ := horder.exists_of_mem (List.mem_eraseDups.mp hpath)
  obtain ⟨text, -, hread⟩ := file?_eq_some.mp hf
  rw [loadedFile_eq hf]
  exact DeclarationFile.read_provenances hread

/-! ### Two files of one name -/

/-- A declaration file with a service that has no name. -/
def namelessText : String := "resources:\n- kind: Service\n"

/-- A declaration file that imports two files of one name. -/
def twinsText : String := "imports: [a/app.yaml, b/app.yaml]\n"

/-- The service in the first of these files, which is known under the name of the file. -/
def nameless (file : String) : Declaration := ⟨.service, none, [], ⟨file, 0⟩⟩

theorem read_namelessText (file : String) : DeclarationFile.read file namelessText = .ok ⟨[], [nameless file]⟩ := by
  have hevents : (Yaml.Token.scan namelessText.toList >>= Yaml.Event.ofTokens >>= Yaml.Event.number []) =
      .ok [.mappingStart none none, .scalar none none "resources" true, .sequenceStart none none,
        .mappingStart none none, .scalar none none "kind" true, .scalar none none "Service" true, .mappingEnd,
        .sequenceEnd, .mappingEnd] := rfl
  have hresources : Yaml.Tree.ofPlain "resources" = .ok (.text "resources") := rfl
  have hkind : Yaml.Tree.ofPlain "kind" = .ok (.text "kind") := rfl
  have hservice : Yaml.Tree.ofPlain "Service" = .ok (.text "Service") := rfl
  have htree : Yaml.read namelessText = .ok (.mapping [(.text "resources",
      .sequence [.mapping [(.text "kind", .text "Service")]])]) := by
    rw [Yaml.read_of_events hevents]
    simp [Yaml.Tree.ofEvents, Yaml.Tree.depthLimit, Yaml.Tree.readNode.child, Yaml.Tree.readNode, Yaml.Tree.readItems,
      Yaml.Tree.readEntries, Yaml.Tree.ofScalar, Yaml.Tree.ofUntagged, Yaml.Tree.withTag, bind, Except.bind, pure,
      Except.pure, hresources, hkind, hservice]
  rw [DeclarationFile.read, htree]
  rfl

theorem read_twinsText (file : String) :
    DeclarationFile.read file twinsText = .ok ⟨["a/app.yaml", "b/app.yaml"], []⟩ := by
  have hevents : (Yaml.Token.scan twinsText.toList >>= Yaml.Event.ofTokens >>= Yaml.Event.number []) =
      .ok [.mappingStart none none, .scalar none none "imports" true, .sequenceStart none none,
        .scalar none none "a/app.yaml" true, .scalar none none "b/app.yaml" true, .sequenceEnd, .mappingEnd] := rfl
  have himports : Yaml.Tree.ofPlain "imports" = .ok (.text "imports") := rfl
  have hfirst : Yaml.Tree.ofPlain "a/app.yaml" = .ok (.text "a/app.yaml") := rfl
  have hsecond : Yaml.Tree.ofPlain "b/app.yaml" = .ok (.text "b/app.yaml") := rfl
  have htree : Yaml.read twinsText =
      .ok (.mapping [(.text "imports", .sequence [.text "a/app.yaml", .text "b/app.yaml"])]) := by
    rw [Yaml.read_of_events hevents]
    simp [Yaml.Tree.ofEvents, Yaml.Tree.depthLimit, Yaml.Tree.readNode.child, Yaml.Tree.readNode, Yaml.Tree.readItems,
      Yaml.Tree.readEntries, Yaml.Tree.ofScalar, Yaml.Tree.ofUntagged, Yaml.Tree.withTag, bind, Except.bind, pure,
      Except.pure, himports, hfirst, hsecond]
  rw [DeclarationFile.read, htree]
  rfl

/-- A store with two files of one name in different directories. -/
def twinStore : TextStore :=
  ofList [("main.yaml", twinsText), ("a/app.yaml", namelessText), ("b/app.yaml", namelessText)]

/-! ### All declarations -/

/-- The declarations that are loaded stand in different files, each at a position of its own. What diagnostics call
    two of these files may be the same: the places that diagnostics tell are different exactly if no two files with
    declarations are called the same. So it is with declarations that are called by their place, and with the file of
    the first declaration that a duplicate is reported with. -/
theorem load_provenances {ds : List Declaration} (h : store.load root = .ok ds) :
    ∃ loaded, (store.source.loadFiles root).run.run = .ok loaded ∧ ds = loaded.flatMap (·.resources) ∧
      (loaded.map (·.path)).Nodup ∧ PlacedInFiles loaded ∧
      ((ds.map (·.provenance)).Nodup ↔ LabelsApart loaded) ∧
      (∀ d ∈ ds, ∀ d' ∈ ds, d.Unnamed → d'.Unnamed → (d.label = d'.label ↔ d.provenance = d'.provenance)) ∧
      ∀ options kind id file, .duplicateIdentifier kind id file ∈ failuresOf (compose options ds) →
        ∃ f ∈ loaded, f.path.label = file ∧
          ∃ d ∈ f.resources, d.kind = kind ∧ ∃ record, d.extract = .ok record ∧ record.id = id := by
  obtain ⟨loaded, hloaded, rfl⟩ := Source.run_load_eq_ok.mp h
  have hplaced := placedInFiles_of_loadFiles hloaded
  have hpaths := nodup_paths_of_loadFiles hloaded
  refine ⟨loaded, hloaded, rfl, hpaths, hplaced, hplaced.nodup_iff hpaths,
    fun d _ d' _ hd hd' => Declaration.label_eq_iff_of_unnamed hd hd', ?_⟩
  intro options kind id file hduplicate
  obtain ⟨d, hd, rfl, hkind, hrecord⟩ := exists_first_of_duplicate hduplicate
  obtain ⟨f, hf, hown⟩ := List.mem_flatMap.mp hd
  have hplace := (hplaced.mem_iff hf).mp (List.mem_map_of_mem hown)
  exact ⟨f, hf, hplace.1.symm, d, hown, hkind, hrecord⟩

/-- A store with a file that imports another one by way of the directory above, where both have services. -/
def meshStore : TextStore := ofList [("mesh/main.yaml", detourText), ("mesh/leaked.yaml", leakedText)]

/-- Two files that are called differently have their declarations at places of their own, and the file of a duplicate
    is the one that is loaded first. -/
theorem meshStore_provenances :
    ∃ loaded, (meshStore.source.loadFiles "mesh/main.yaml").run.run = .ok loaded ∧
      loaded.flatMap (·.resources) = leaked "leaked.yaml" :: detourServices "main.yaml" ∧ LabelsApart loaded ∧
      ∃ f ∈ loaded, f.path.label = "leaked.yaml" ∧
        ∃ d ∈ f.resources, ∃ record, d.extract = .ok record ∧ record.id = "leaked" := by
  have hfiles : (meshStore.source.loadFiles "mesh/main.yaml").run.run =
      .ok [⟨Path.ofText "mesh/leaked.yaml", [leaked "leaked.yaml"]⟩,
        ⟨Path.ofText "mesh/main.yaml", detourServices "main.yaml"⟩] := by
    have hmain : meshStore.file? (Path.ofText "mesh/main.yaml") = some ⟨[detour], detourServices "main.yaml"⟩ :=
      file?_eq_some.mpr ⟨_, rfl, read_detourText _⟩
    exact loadFiles_of_one_import rfl hmain ⟨rfl, rfl⟩ (file?_eq_some.mpr ⟨_, rfl, read_leakedText _⟩) (by decide)
  have hduplicate : .duplicateIdentifier .service "leaked" "leaked.yaml" ∈
      failuresOf (compose ⟨.keepGoing, none⟩ (leaked "leaked.yaml" :: detourServices "main.yaml")) := by decide
  obtain ⟨loaded, hloaded, hds, -, -, hiff, -, hfirst⟩ :=
    load_provenances (Source.run_load_eq_ok.mpr ⟨_, hfiles, rfl⟩)
  obtain ⟨f, hf, hlabel, d, hd, -, hrecord⟩ := hfirst _ _ _ _ hduplicate
  exact ⟨loaded, hloaded, hds.symm, hiff.mp (by decide), f, hf, hlabel, d, hd, hrecord⟩

/-- The services of both files are loaded, with one place and so with one label. -/
theorem twinStore_shares_place :
    (twinStore.source.loadFiles "main.yaml").run.run =
      .ok [⟨Path.ofText "a/app.yaml", [nameless "app.yaml"]⟩, ⟨Path.ofText "b/app.yaml", [nameless "app.yaml"]⟩,
        ⟨Path.ofText "main.yaml", []⟩] ∧
    twinStore.load "main.yaml" = .ok [nameless "app.yaml", nameless "app.yaml"] ∧
    (nameless "app.yaml").Unnamed ∧ (nameless "app.yaml").label = "app.yaml#0" := by
  have hmain : twinStore.file? (Path.ofText "main.yaml") = some ⟨["a/app.yaml", "b/app.yaml"], []⟩ :=
    file?_eq_some.mpr ⟨_, rfl, read_twinsText _⟩
  have hfirst : twinStore.file? (Path.ofText "a/app.yaml") = some ⟨[], [nameless "app.yaml"]⟩ :=
    file?_eq_some.mpr ⟨_, rfl, read_namelessText _⟩
  have hsecond : twinStore.file? (Path.ofText "b/app.yaml") = some ⟨[], [nameless "app.yaml"]⟩ :=
    file?_eq_some.mpr ⟨_, rfl, read_namelessText _⟩
  have horder : twinStore.PostOrder (Path.ofText "main.yaml").parent [Path.ofText "main.yaml"]
      [Path.ofText "a/app.yaml", Path.ofText "b/app.yaml", Path.ofText "main.yaml"] :=
    .cons hmain (.cons ⟨rfl, rfl⟩ (.cons ⟨rfl, rfl⟩ .nil)) (.cons hfirst .nil .nil (.cons hsecond .nil .nil .nil)) .nil
  have hfiles : (twinStore.source.loadFiles "main.yaml").run.run =
      .ok [⟨Path.ofText "a/app.yaml", [nameless "app.yaml"]⟩, ⟨Path.ofText "b/app.yaml", [nameless "app.yaml"]⟩,
        ⟨Path.ofText "main.yaml", []⟩] := by
    refine loadFiles_eq_ok_iff_postOrder.mpr ⟨_, _, rfl, horder, ?_⟩
    rw [← loadedFile_eq hmain, ← loadedFile_eq hfirst, ← loadedFile_eq hsecond]
    rfl
  exact ⟨hfiles, Source.run_load_eq_ok.mpr ⟨_, hfiles, rfl⟩, ⟨rfl, rfl⟩, by decide⟩

end TextStore

end Manifests
