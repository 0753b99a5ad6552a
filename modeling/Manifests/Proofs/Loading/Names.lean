import Manifests.Proofs.Loading.Runs
import Manifests.Proofs.Loading.Shape

/-! # The names of loaded declarations

A declaration that is loaded has at most one entry `name`, whatever the file is (`load_namedOnce`). Of the keys of a
document only the text `name` is read as that key, since no number and no truth value is written like it, and no
mapping of a document has a key twice. -/

namespace Manifests

/-- A declaration has at most one entry `name`. -/
def Declaration.NamedOnce (d : Declaration) : Prop := (d.entries.map (·.1)).count "name" ≤ 1

/-- A mapping without repeated keys has at most one entry `name`. -/
theorem Value.count_name_le_one {entries : List (Yaml.Tree × Yaml.Tree)} {es : List Entry}
    (hapart : entries.Pairwise fun a b => b.1.same a.1 = false) (h : List.Forall₂ IsOfEntry entries es) :
    (es.map (·.1)).count "name" ≤ 1 := by
  induction h with
  | nil => exact Nat.zero_le 1
  | @cons entry e entries es hentry hrest ih =>
    obtain ⟨hfirst, hapart⟩ := List.pairwise_cons.mp hapart
    rw [List.map_cons, List.count_cons]
    by_cases hname : e.1 = "name"
    · -- After an entry `name` there is none, for its key would be the same.
      have hword : IsWord "name" := by decide
      have hfound := (isOfEntry_iff.mp hentry).1.eq_text (hname ▸ hword)
      have hnone : (es.map (·.1)).count "name" = 0 := by
        rw [List.count_eq_zero, List.mem_map]
        rintro ⟨e', he', hname'⟩
        obtain ⟨entry', hmem', hentry'⟩ := exists_mem_left_of_forall₂ hrest he'
        have hsame := hfirst entry' hmem'
        rw [hfound, (isOfEntry_iff.mp hentry').1.eq_text (hname' ▸ hword), Yaml.Tree.same, hname, hname'] at hsame
        cases hsame
      simp [hnone, hname]
    · simpa [hname] using ih hapart

/-- The declaration of a resource has at most one entry `name`, as the resource has. -/
theorem Yaml.Tree.Declares.namedOnce {file : String} {index : Nat} {resource : Yaml.Tree} {d : Declaration}
    (h : resource.Declares file index d) (hapart : resource.KeysApart) : d.NamedOnce :=
  Value.count_name_le_one (hapart.entries.filter _) h.entries

/-- The declarations of a file have at most one entry `name` each. -/
theorem DeclarationFile.read_namedOnce {file text : String} {f : DeclarationFile} (h : read file text = .ok f) :
    ∀ d ∈ f.resources, d.NamedOnce := by
  intro d hd
  obtain ⟨tree, htree, h⟩ := read_eq_ok h
  have hapart := Yaml.read_keysApart htree
  obtain ⟨resource, hresource, hdeclares⟩ := exists_mem_left_of_forall₂ (ofTree_holds hapart h).2.resources hd
  exact hdeclares.namedOnce (hapart.items_under _ _ (List.fst_mem_of_mem_zipIdx hresource))

/-! ### Loading -/

/-- The declarations of each file have at most one entry `name` each. -/
def NamesOnce (loaded : List LoadedFile) : Prop := ∀ f ∈ loaded, ∀ d ∈ f.resources, d.NamedOnce

namespace Source

variable {σ : Type} (source : Source (StateM σ)) (directory : Path)

theorem loadFrom_namesOnce (fuel : Nat) (stack : List Path) {loaded : List LoadedFile} (file : Path)
    (h : NamesOnce loaded) : Yields (source.loadFrom directory fuel stack loaded file) NamesOnce := by
  induction fuel generalizing stack loaded file with
  | zero => exact yields_throw
  | succ fuel ih =>
    unfold loadFrom
    split
    · exact yields_pure h
    · refine (yields_true _).bind fun text _ => yields_orFail.bind fun f hf => ?_
      refine (yields_foldlM (P := NamesOnce) (fun loaded reference hloaded => ?_) h).bind fun below hbelow => ?_
      · refine (yields_true _).bind fun imported _ => ?_
        split
        · exact yields_throw
        · exact ih _ _ hloaded
      · refine yields_pure fun g hg => (List.mem_append.mp hg).elim (hbelow g) fun hg => ?_
        rw [List.mem_singleton.mp hg]
        exact DeclarationFile.read_namedOnce hf

/-- The declarations of a file and of all it imports have at most one entry `name` each. -/
theorem load_namedOnce (root : String) : Yields (source.load root) fun ds => ∀ d ∈ ds, d.NamedOnce := by
  have hfiles : Yields (source.loadFiles root) NamesOnce :=
    (yields_true _).bind fun file _ => (yields_true _).bind fun directory _ =>
      source.loadFrom_namesOnce directory _ _ _ fun _ hf => by cases hf
  refine hfiles.bind fun loaded hloaded => yields_pure fun d hd => ?_
  obtain ⟨f, hf, hd⟩ := List.mem_flatMap.mp hd
  exact hloaded f hf d hd

end Source

end Manifests
