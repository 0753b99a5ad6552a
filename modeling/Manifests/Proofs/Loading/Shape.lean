import Manifests.Proofs.Loading.Values
import Manifests.Proofs.Yaml.Document

/-! # The shape of declaration files

A document is a declaration file if it is null or a mapping of imports and resources, no node has a tag and every key
is a scalar. What the file holds is then read off the document (`DeclarationFile.ofTree_accepts`). -/

namespace Manifests

namespace Yaml.Tree

/-! ### Parts of a document -/

/-- The node is this text. -/
def isText (word : String) : Tree → Bool
  | .text s => s = word
  | _ => false

def entries : Tree → List (Tree × Tree)
  | .mapping entries => entries
  | _ => []

def items : Tree → List Tree
  | .sequence items => items
  | _ => []

/-- The node under a key, which is null if the key is missing. -/
def under (key : String) (tree : Tree) : Tree := ((tree.entries.find? (·.1.isText key)).map (·.2)).getD .null

@[simp] theorem isText_text {word s : String} : (text s).isText word = decide (s = word) := rfl

theorem under_cons {key : String} {e : Tree × Tree} {entries : List (Tree × Tree)} :
    (mapping (e :: entries)).under key = if e.1.isText key then e.2 else (mapping entries).under key := by
  cases hkey : e.1.isText key <;> simp [under, Tree.entries, hkey]

theorem isText_iff {word : String} {tree : Tree} : tree.isText word = true ↔ tree = .text word := by
  cases tree <;> simp [isText]

/-- The text of a key is a word exactly if the key is that text. -/
theorem HasText.isText_eq_decide {tree : Tree} {s word : String} (h : tree.HasText s) (hword : Value.IsWord word) :
    tree.isText word = decide (s = word) := by
  rw [Bool.eq_iff_iff, isText_iff, decide_eq_true_iff]
  constructor
  · rintro rfl
    exact (hasText_text_iff.mp h).symm
  · rintro rfl
    exact h.eq_text hword

theorem under_cases (key : String) (tree : Tree) :
    tree.under key = .null ∨ ∃ e ∈ tree.entries, e.1 = .text key ∧ tree.under key = e.2 := by
  unfold under
  cases hfind : tree.entries.find? (·.1.isText key) with
  | none => exact .inl rfl
  | some e => exact .inr ⟨e, List.mem_of_find?_eq_some hfind, isText_iff.mp (by simpa using List.find?_some hfind), rfl⟩

/-- What values and items inherit holds of the items under a key. -/
theorem forall_mem_items_under {P : Tree → Prop} (hvalues : ∀ {entries}, P (.mapping entries) → ∀ e ∈ entries, P e.2)
    (hitems : ∀ {items}, P (.sequence items) → ∀ item ∈ items, P item) {tree : Tree} (h : P tree) (key : String) :
    ∀ item ∈ (tree.under key).items, P item := by
  rcases under_cases key tree with hnull | ⟨e, he, -, hunder⟩
  · rw [hnull]
    exact fun _ hitem => by cases hitem
  · cases tree with
    | mapping =>
      have hvalue := hvalues h e he
      rw [← hunder] at hvalue
      cases hnode : under key _ with
      | sequence => exact hitems (hnode ▸ hvalue)
      | null | bool | int | float | text | mapping | tagged => exact fun _ hitem => by cases hitem
    | null | bool | int | float | text | sequence | tagged => cases he

theorem KeysApart.entries {tree : Tree} (h : tree.KeysApart) :
    tree.entries.Pairwise fun a b => b.1.same a.1 = false := by
  cases h with
  | mapping hkeys => exact hkeys
  | _ => exact .nil

theorem KeysApart.items_under {tree : Tree} (h : tree.KeysApart) (key : String) :
    ∀ item ∈ (tree.under key).items, item.KeysApart :=
  forall_mem_items_under (fun h => (keysApart_mapping_iff.mp h).2) keysApart_sequence_iff.mp h key

/-! ### Declaration files -/

/-- Null or a list of texts. -/
def IsImports (tree : Tree) : Prop := tree = .null ∨ ∃ names : List String, tree = .sequence (names.map .text)

/-- A mapping with the name of a kind under `kind`, and with a scalar under `id` if it has that key. -/
def IsResource (tree : Tree) : Prop :=
  ∃ entries, tree = .mapping entries ∧ (∃ kind : Kind, (.text "kind", .text kind.name) ∈ entries) ∧
    ∀ id, (.text "id", id) ∈ entries → id.IsScalar

/-- Null or a list of resources. -/
def IsResources (tree : Tree) : Prop := tree = .null ∨ ∃ items, tree = .sequence items ∧ ∀ item ∈ items, item.IsResource

/-- Null, or a mapping with no keys but `imports` and `resources`. -/
inductive IsDocument : Tree → Prop
  | null : IsDocument .null
  | mapping {entries : List (Tree × Tree)} :
      (∀ e ∈ entries, e.1 = .text "imports" ∧ e.2.IsImports ∨ e.1 = .text "resources" ∧ e.2.IsResources) →
      IsDocument (.mapping entries)

/-- The declaration of a resource: its kind, the text of its identifier, and its other entries in their order, each with
    the text of its key and its value. -/
structure Declares (file : String) (index : Nat) (resource : Tree) (d : Declaration) : Prop where
  kind : (.text "kind", .text d.kind.name) ∈ resource.entries
  id : ∀ s, d.id = some s ↔ ∃ tree, (.text "id", tree) ∈ resource.entries ∧ tree.HasText s
  entries : List.Forall₂ Value.IsOfEntry
    (resource.entries.filter fun e => !(e.1.isText "kind" || e.1.isText "id")) d.entries
  provenance : d.provenance = ⟨file, index⟩

/-- What the file of a document holds: its imports, and a declaration for each resource, in their order. -/
structure Holds (file : String) (tree : Tree) (f : DeclarationFile) : Prop where
  imports : (tree.under "imports").items = f.imports.map .text
  resources : List.Forall₂ (fun resource d => resource.1.Declares file resource.2 d)
    (tree.under "resources").items.zipIdx f.resources

end Yaml.Tree

namespace DeclarationFile
open Yaml.Tree

/-! ### Imports -/

theorem readImport_eq_ok {item : Yaml.Tree} {v : Value} {name : String} (hv : Value.IsOfTree item v)
    (h : readImport v = .ok name) : item = .text name := by
  cases hv with
  | text s => rw [Except.ok.inj h]
  | null | bool | int | large | float | sequence | mapping => cases h

theorem readImports_eq_ok {tree : Yaml.Tree} {v : Value} {names : List String} (hv : Value.IsOfTree tree v)
    (h : readImports v = .ok names) : tree.IsImports ∧ tree.items = names.map .text := by
  cases hv with
  | null =>
    cases h
    exact ⟨.inl rfl, rfl⟩
  | @sequence items vs hitems =>
    have hrel := forall₂_comp hitems (mapM_eq_ok_iff.mp h)
    have htexts : List.Forall₂ (· = ·) items (names.map .text) :=
      List.forall₂_map_right_iff.mpr (hrel.imp fun _ _ ⟨_, hof, hread⟩ => readImport_eq_ok hof hread)
    obtain rfl := List.forall₂_eq_eq_eq ▸ htexts
    exact ⟨.inr ⟨names, rfl⟩, rfl⟩
  | bool | int | large | float | text | mapping => cases h

theorem isOk_readImports {tree : Yaml.Tree} (h : tree.IsImports) :
    ∃ v names, Value.IsOfTree tree v ∧ readImports v = .ok names := by
  rcases h with rfl | ⟨names, rfl⟩
  · exact ⟨.null, [], .null, rfl⟩
  · have hitems : List.Forall₂ Value.IsOfTree (names.map .text) (names.map .text) :=
      List.forall₂_map_left_iff.mpr (List.forall₂_map_right_iff.mpr (List.forall₂_same.mpr fun name _ => .text name))
    refine ⟨_, names, .sequence hitems, ?_⟩
    exact mapM_eq_ok_iff.mpr (List.forall₂_map_left_iff.mpr (List.forall₂_same.mpr fun name _ => rfl))

/-! ### Resources -/

theorem ofName?_eq_some_iff {name : String} {kind : Kind} : Kind.ofName? name = some kind ↔ kind.name = name := by
  constructor
  · intro h
    simpa using List.find?_some h
  · rintro rfl
    exact Kind.ofName?_name kind

theorem readKind_eq_ok_iff {index : Nat} {v : Value} {kind : Kind} :
    readKind index v = .ok kind ↔ v = .text kind.name := by
  cases v with
  | text name =>
    rw [Value.text.injEq, eq_comm (a := name), ← ofName?_eq_some_iff, readKind]
    cases Kind.ofName? name <;> simp
  | null | bool | int | float | map | list => simp [readKind]

theorem readIdentifier_eq_ok_iff {index : Nat} {v : Value} {s : String} :
    readIdentifier index v = .ok s ↔ v.scalarText? = some s := by
  unfold readIdentifier
  cases v.scalarText? <;> simp

/-- The first entry of a resource is its kind, its identifier or another entry. -/
theorem readHead_cons_iff {index : Nat} {e : Entry} {entries others : List Entry} {kind kind' : Option Kind}
    {id id' : Option String} :
    readHead index (e :: entries) kind id = .ok (kind', id', others) ↔
      (e.1 = "kind" ∧ ∃ k : Kind, e.2 = .text k.name ∧ readHead index entries (some k) id = .ok (kind', id', others)) ∨
      (e.1 = "id" ∧ ∃ s, e.2.scalarText? = some s ∧ readHead index entries kind (some s) = .ok (kind', id', others)) ∨
      (e.1 ≠ "kind" ∧ e.1 ≠ "id" ∧ ∃ rest, readHead index entries kind id = .ok (kind', id', rest) ∧
        others = e :: rest) := by
  obtain ⟨key, value⟩ := e
  by_cases hkind : key = "kind"
  · simp [readHead, hkind, bind_eq_ok_iff, readKind_eq_ok_iff]
  · by_cases hid : key = "id"
    · simp [readHead, hid, bind_eq_ok_iff, readIdentifier_eq_ok_iff]
    · rcases hrest : readHead index entries kind id with fault | ⟨k, s, rest⟩ <;>
        simp [readHead, hkind, hid, hrest, eq_comm, and_assoc]

/-- What the head of a resource is read as: the last kind and the last identifier, or those before, and the entries
    with other keys. -/
structure IsHead (entries : List Entry) (kind : Option Kind) (id : Option String) (kind' : Option Kind)
    (id' : Option String) (others : List Entry) : Prop where
  kind : (kind' = kind ∧ ∀ v, ("kind", v) ∉ entries) ∨
    ∃ k : Kind, ("kind", .text k.name) ∈ entries ∧ kind' = some k
  id : (id' = id ∧ ∀ v, ("id", v) ∉ entries) ∨
    ∃ v s, ("id", v) ∈ entries ∧ v.scalarText? = some s ∧ id' = some s
  others : others = entries.filter fun e => !(decide (e.1 = "kind") || decide (e.1 = "id"))

theorem readHead_isHead {index : Nat} {entries : List Entry} {kind kind' : Option Kind} {id id' : Option String}
    {others : List Entry} (h : readHead index entries kind id = .ok (kind', id', others)) :
    IsHead entries kind id kind' id' others := by
  induction entries generalizing kind id others with
  | nil =>
    cases h
    exact ⟨.inl ⟨rfl, by simp⟩, .inl ⟨rfl, by simp⟩, rfl⟩
  | cons e entries ih =>
    obtain ⟨key, value⟩ := e
    rcases readHead_cons_iff.mp h with ⟨rfl, k, rfl, hrest⟩ | ⟨rfl, s, hvalue, hrest⟩ | ⟨hkind, hid, rest, hrest, rfl⟩
    · obtain ⟨hkinds, hids, hothers⟩ := ih hrest
      refine ⟨.inr ?_, by simpa using hids, by simpa using hothers⟩
      rcases hkinds with ⟨rfl, -⟩ | ⟨k', hk', rfl⟩
      · exact ⟨k, List.mem_cons_self, rfl⟩
      · exact ⟨k', List.mem_cons_of_mem _ hk', rfl⟩
    · obtain ⟨hkinds, hids, hothers⟩ := ih hrest
      refine ⟨by simpa using hkinds, .inr ?_, by simpa using hothers⟩
      rcases hids with ⟨rfl, -⟩ | ⟨v, s', hv, hs', rfl⟩
      · exact ⟨value, s, List.mem_cons_self, hvalue, rfl⟩
      · exact ⟨v, s', List.mem_cons_of_mem _ hv, hs', rfl⟩
    · obtain ⟨hkinds, hids, rfl⟩ := ih hrest
      dsimp only at hkind hid
      exact ⟨by simpa [Ne.symm hkind] using hkinds, by simpa [Ne.symm hid] using hids, by simp [hkind, hid]⟩

theorem isOk_readHead (index : Nat) {entries : List Entry} (kind : Option Kind) (id : Option String)
    (hkinds : ∀ v, ("kind", v) ∈ entries → ∃ k : Kind, v = .text k.name)
    (hids : ∀ v, ("id", v) ∈ entries → ∃ s, v.scalarText? = some s) :
    ∃ kind' id' others, readHead index entries kind id = .ok (kind', id', others) := by
  induction entries generalizing kind id with
  | nil => exact ⟨kind, id, [], rfl⟩
  | cons e entries ih =>
    obtain ⟨key, value⟩ := e
    have hrest (kind id) := ih kind id (fun v hv => hkinds v (List.mem_cons_of_mem _ hv))
      fun v hv => hids v (List.mem_cons_of_mem _ hv)
    by_cases hkind : key = "kind"
    · obtain ⟨k, hk⟩ := hkinds value (by simp [hkind])
      obtain ⟨kind', id', others, h⟩ := hrest (some k) id
      exact ⟨kind', id', others, readHead_cons_iff.mpr (.inl ⟨hkind, k, hk, h⟩)⟩
    · by_cases hid : key = "id"
      · obtain ⟨s, hs⟩ := hids value (by simp [hid])
        obtain ⟨kind', id', others, h⟩ := hrest kind (some s)
        exact ⟨kind', id', others, readHead_cons_iff.mpr (.inr (.inl ⟨hid, s, hs, h⟩))⟩
      · obtain ⟨kind', id', others, h⟩ := hrest kind id
        exact ⟨kind', id', (key, value) :: others,
          readHead_cons_iff.mpr (.inr (.inr ⟨hkind, hid, others, h, rfl⟩))⟩

/-- Under a text stands one node. -/
theorem under_unique {entries : List (Yaml.Tree × Yaml.Tree)}
    (hapart : entries.Pairwise fun a b => b.1.same a.1 = false) {word : String} {tree tree' : Yaml.Tree}
    (h : (.text word, tree) ∈ entries) (h' : (.text word, tree') ∈ entries) : tree = tree' := by
  induction hapart with
  | nil => cases h
  | @cons e entries hfirst _ ih =>
    have hsame : (Yaml.Tree.text word).same (.text word) = true := by simp [Yaml.Tree.same]
    rcases List.mem_cons.mp h with heq | h
    · rcases List.mem_cons.mp h' with heq' | h'
      · exact (Prod.mk.inj (heq.trans heq'.symm)).2
      · rw [← heq] at hfirst
        exact absurd hsame (by simp [hfirst _ h'])
    · rcases List.mem_cons.mp h' with heq' | h'
      · rw [← heq'] at hfirst
        exact absurd hsame (by simp [hfirst _ h])
      · exact ih h h'

/-- Under a word stands the value of the one node under it. -/
theorem isOfTree_of_mem_entries {entries : List (Yaml.Tree × Yaml.Tree)} {es : List Entry}
    (hapart : entries.Pairwise fun a b => b.1.same a.1 = false) (hes : List.Forall₂ Value.IsOfEntry entries es)
    {word : String} (hword : Value.IsWord word) {tree : Yaml.Tree} {v : Value} (htree : (.text word, tree) ∈ entries)
    (hv : (word, v) ∈ es) : Value.IsOfTree tree v := by
  obtain ⟨tree', htree', hof⟩ := (Value.mem_entries_iff hword hes).mp hv
  rwa [under_unique hapart htree htree']

section
variable {entries : List (Yaml.Tree × Yaml.Tree)} {es others : List Entry} {kind : Option Kind} {id : Option String}

/-- A node under the identifier's key has a text, which is the identifier. -/
theorem IsHead.text_of_id (hhead : IsHead es none none kind id others)
    (hapart : entries.Pairwise fun a b => b.1.same a.1 = false) (hes : List.Forall₂ Value.IsOfEntry entries es)
    {tree : Yaml.Tree} (htree : (.text "id", tree) ∈ entries) : ∃ s, tree.HasText s ∧ id = some s := by
  have hword : Value.IsWord "id" := by decide
  rcases hhead.id with ⟨-, hnone⟩ | ⟨v, s, hv, hs, hid⟩
  · obtain ⟨_, -, hentry⟩ := exists_mem_right_of_forall₂ hes htree
    exact absurd ((Value.mem_entries_iff hword hes).mpr ⟨tree, htree, (Value.isOfEntry_iff.mp hentry).2⟩) (hnone _)
  · exact ⟨s, ⟨v, isOfTree_of_mem_entries hapart hes hword htree hv, hs⟩, hid⟩

theorem IsHead.id_eq_some_iff (hhead : IsHead es none none kind id others)
    (hapart : entries.Pairwise fun a b => b.1.same a.1 = false) (hes : List.Forall₂ Value.IsOfEntry entries es)
    {s : String} : id = some s ↔ ∃ tree, (.text "id", tree) ∈ entries ∧ tree.HasText s := by
  constructor
  · rintro rfl
    rcases hhead.id with ⟨hnone, -⟩ | ⟨v, s', hv, hs, hs'⟩
    · cases hnone
    · cases hs'
      obtain ⟨tree, htree, hof⟩ := (Value.mem_entries_iff (by decide) hes).mp hv
      exact ⟨tree, htree, v, hof, hs⟩
  · rintro ⟨tree, htree, hs⟩
    obtain ⟨s', hs', rfl⟩ := hhead.text_of_id hapart hes htree
    rw [hs.unique hs']

end

/-- A resource is read as its declaration. -/
theorem readResource_declares {file : String} {index : Nat} {tree : Yaml.Tree} {v : Value} {d : Declaration}
    (hapart : tree.KeysApart) (hv : Value.IsOfTree tree v) (h : readResource file index v = .ok d) :
    tree.IsResource ∧ tree.Declares file index d := by
  have hkindWord : Value.IsWord "kind" := by decide
  have hidWord : Value.IsWord "id" := by decide
  cases hv with
  | @mapping entries es hes =>
    obtain ⟨hkeys, -⟩ := keysApart_mapping_iff.mp hapart
    obtain ⟨⟨kind, id, others⟩, hread, h⟩ := bind_eq_ok_iff.mp h
    have hhead := readHead_isHead hread
    obtain ⟨hnone, -⟩ | ⟨kind, hkind, rfl⟩ := hhead.kind
    · rw [hnone] at h
      cases h
    · obtain rfl := pure_eq_ok_iff.mp h
      have hkindEntry : (.text "kind", .text kind.name) ∈ entries := by
        obtain ⟨tree, htree, hof⟩ := (Value.mem_entries_iff hkindWord hes).mp hkind
        cases hof
        exact htree
      have hscalar (id) (hid : (.text "id", id) ∈ entries) : id.IsScalar := by
        obtain ⟨s, hs, -⟩ := hhead.text_of_id hkeys hes hid
        exact hs.isScalar
      refine ⟨⟨entries, rfl, ⟨kind, hkindEntry⟩, hscalar⟩, hkindEntry, fun s => hhead.id_eq_some_iff hkeys hes, ?_, rfl⟩
      rw [hhead.others]
      -- An entry is kept by its key exactly if it is kept by the text of its key.
      refine List.rel_filter (fun entry e hentry => ?_) hes
      have hkey := (Value.isOfEntry_iff.mp hentry).1
      simp only [hkey.isText_eq_decide hkindWord, hkey.isText_eq_decide hidWord]
  | null | bool | int | large | float | text | sequence => cases h

theorem isOk_readResource (file : String) (index : Nat) {tree : Yaml.Tree} {v : Value} (hapart : tree.KeysApart)
    (hresource : tree.IsResource) (hv : Value.IsOfTree tree v) : ∃ d, readResource file index v = .ok d := by
  have hkindWord : Value.IsWord "kind" := by decide
  have hidWord : Value.IsWord "id" := by decide
  obtain ⟨entries, rfl, ⟨kind, hkind⟩, hid⟩ := hresource
  cases hv with
  | @mapping _ es hes =>
    obtain ⟨hkeys, -⟩ := keysApart_mapping_iff.mp hapart
    have hkinds (v : Value) (hv : ("kind", v) ∈ es) : ∃ k : Kind, v = .text k.name :=
      ⟨kind, (isOfTree_of_mem_entries hkeys hes hkindWord hkind hv).unique (.text _)⟩
    have hids (v : Value) (hv : ("id", v) ∈ es) : ∃ s, v.scalarText? = some s := by
      obtain ⟨tree, htree, hof⟩ := (Value.mem_entries_iff hidWord hes).mp hv
      obtain ⟨s, w, hw, hs⟩ := (hid tree htree).hasText
      obtain rfl := hof.unique hw
      exact ⟨s, hs⟩
    obtain ⟨kind', id', others, hread⟩ := isOk_readHead index none none hkinds hids
    rcases (readHead_isHead hread).kind with ⟨-, hnone⟩ | ⟨k, -, rfl⟩
    · exact absurd ((Value.mem_entries_iff hkindWord hes).mpr ⟨_, hkind, .text _⟩) (hnone _)
    · exact ⟨_, bind_eq_ok_iff.mpr ⟨_, hread, rfl⟩⟩

/-! ### Lists of resources -/

theorem readResourcesFrom_declares {file : String} {index : Nat} {items : List Yaml.Tree} {vs : List Value}
    {ds : List Declaration} (hapart : ∀ item ∈ items, item.KeysApart) (hvs : List.Forall₂ Value.IsOfTree items vs)
    (h : readResourcesFrom file index vs = .ok ds) :
    (∀ item ∈ items, item.IsResource) ∧
      List.Forall₂ (fun resource d => resource.1.Declares file resource.2 d) (items.zipIdx index) ds := by
  induction hvs generalizing index ds with
  | nil =>
    cases h
    exact ⟨by simp, .nil⟩
  | cons hv _ ih =>
    obtain ⟨hfirst, hapart⟩ := List.forall_mem_cons.mp hapart
    obtain ⟨d, hd, h⟩ := bind_eq_ok_iff.mp h
    obtain ⟨rest, hrest, h⟩ := bind_eq_ok_iff.mp h
    obtain rfl := pure_eq_ok_iff.mp h
    obtain ⟨hresource, hdeclares⟩ := readResource_declares hfirst hv hd
    obtain ⟨hresources, hrel⟩ := ih hapart hrest
    exact ⟨List.forall_mem_cons.mpr ⟨hresource, hresources⟩, .cons hdeclares hrel⟩

theorem isOk_readResourcesFrom (file : String) (index : Nat) {items : List Yaml.Tree} {vs : List Value}
    (hapart : ∀ item ∈ items, item.KeysApart) (hresources : ∀ item ∈ items, item.IsResource)
    (hvs : List.Forall₂ Value.IsOfTree items vs) : ∃ ds, readResourcesFrom file index vs = .ok ds := by
  induction hvs generalizing index with
  | nil => exact ⟨[], rfl⟩
  | cons hv _ ih =>
    obtain ⟨hfirst, hapart⟩ := List.forall_mem_cons.mp hapart
    obtain ⟨hresource, hresources⟩ := List.forall_mem_cons.mp hresources
    obtain ⟨d, hd⟩ := isOk_readResource file index hfirst hresource hv
    obtain ⟨ds, hds⟩ := ih (index + 1) hapart hresources
    exact ⟨d :: ds, bind_eq_ok_iff.mpr ⟨d, hd, bind_eq_ok_iff.mpr ⟨ds, hds, rfl⟩⟩⟩

theorem readResources_declares {file : String} {tree : Yaml.Tree} {v : Value} {ds : List Declaration}
    (hapart : tree.KeysApart) (hv : Value.IsOfTree tree v) (h : readResources file v = .ok ds) :
    tree.IsResources ∧
      List.Forall₂ (fun resource d => resource.1.Declares file resource.2 d) tree.items.zipIdx ds := by
  cases hv with
  | null =>
    cases h
    exact ⟨.inl rfl, .nil⟩
  | @sequence items vs hitems =>
    obtain ⟨hresources, hrel⟩ := readResourcesFrom_declares (keysApart_sequence_iff.mp hapart) hitems h
    exact ⟨.inr ⟨items, rfl, hresources⟩, hrel⟩
  | bool | int | large | float | text | mapping => cases h

theorem isOk_readResources (file : String) {tree : Yaml.Tree} {v : Value} (hapart : tree.KeysApart)
    (hresources : tree.IsResources) (hv : Value.IsOfTree tree v) : ∃ ds, readResources file v = .ok ds := by
  rcases hresources with rfl | ⟨items, rfl, hresources⟩
  · cases hv
    exact ⟨[], rfl⟩
  · cases hv with
    | sequence hitems => exact isOk_readResourcesFrom file 0 (keysApart_sequence_iff.mp hapart) hresources hitems

/-! ### Documents -/

/-- What stands under a key, item by item, whatever entry it is in. -/
theorem flatMap_under {α : Type} {entries : List (Yaml.Tree × Yaml.Tree)}
    (hapart : entries.Pairwise fun a b => b.1.same a.1 = false) (key : String) {g : Yaml.Tree → List α}
    (hnull : g .null = []) :
    entries.flatMap (fun e => if e.1.isText key then g e.2 else []) = g ((Yaml.Tree.mapping entries).under key) := by
  induction hapart with
  | nil => exact hnull.symm
  | @cons e entries hfirst _ ih =>
    rw [List.flatMap_cons, ih, under_cons]
    split
    · rename_i hkey
      have hnone : (Yaml.Tree.mapping entries).under key = .null := by
        unfold under
        rw [List.find?_eq_none.mpr fun e' he' hkey' => ?_]
        · rfl
        · have hsame := hfirst e' he'
          rw [isText_iff.mp hkey, isText_iff.mp hkey', Yaml.Tree.same] at hsame
          simp at hsame
      rw [hnone, hnull, List.append_nil]
    · rfl

/-- The first entry of a document is a list of imports or a list of resources. -/
theorem readTop_cons_eq_ok {file : String} {e : Yaml.Tree × Yaml.Tree} {entries : List (Yaml.Tree × Yaml.Tree)}
    {f f' : DeclarationFile} (h : readTop file (e :: entries) f = .ok f') :
    ∃ v, Value.IsOfTree e.2 v ∧
      ((e.1 = .text "imports" ∧ ∃ names, readImports v = .ok names ∧
          readTop file entries { f with imports := f.imports ++ names } = .ok f') ∨
        (e.1 = .text "resources" ∧ ∃ ds, readResources file v = .ok ds ∧
          readTop file entries { f with resources := f.resources ++ ds } = .ok f')) := by
  obtain ⟨tree, value⟩ := e
  obtain ⟨key, hkey, h⟩ := bind_eq_ok_iff.mp h
  obtain ⟨s, hs, h⟩ := bind_eq_ok_iff.mp h
  have htext : tree.HasText s := ⟨key, Value.ofTree_eq_ok_iff.mp hkey, Value.keyText_eq_ok_iff.mp hs⟩
  split at h
  · obtain rfl := ‹s = "imports"›
    obtain ⟨v, hv, h⟩ := bind_eq_ok_iff.mp h
    obtain ⟨names, hnames, h⟩ := bind_eq_ok_iff.mp h
    exact ⟨v, Value.ofTree_eq_ok_iff.mp hv, .inl ⟨htext.eq_text (by decide), names, hnames, h⟩⟩
  · split at h
    · obtain rfl := ‹s = "resources"›
      obtain ⟨v, hv, h⟩ := bind_eq_ok_iff.mp h
      obtain ⟨ds, hds, h⟩ := bind_eq_ok_iff.mp h
      exact ⟨v, Value.ofTree_eq_ok_iff.mp hv, .inr ⟨htext.eq_text (by decide), ds, hds, h⟩⟩
    · cases h

theorem readTop_holds {file : String} {entries : List (Yaml.Tree × Yaml.Tree)} {f f' : DeclarationFile}
    (hapart : ∀ e ∈ entries, e.2.KeysApart) (h : readTop file entries f = .ok f') :
    (∀ e ∈ entries, e.2.Plain ∧
      (e.1 = .text "imports" ∧ e.2.IsImports ∨ e.1 = .text "resources" ∧ e.2.IsResources)) ∧
    ∃ names ds, f' = ⟨f.imports ++ names, f.resources ++ ds⟩ ∧
      entries.flatMap (fun e => if e.1.isText "imports" then e.2.items else []) = names.map .text ∧
      List.Forall₂ (fun resource d => resource.1.Declares file resource.2 d)
        (entries.flatMap fun e => if e.1.isText "resources" then e.2.items.zipIdx else []) ds := by
  induction entries generalizing f with
  | nil =>
    cases h
    exact ⟨by simp, [], [], by simp, rfl, .nil⟩
  | cons e entries ih =>
    obtain ⟨tree, value⟩ := e
    obtain ⟨hfirst, hothersApart⟩ := List.forall_mem_cons.mp hapart
    obtain ⟨v, hv, ⟨rfl, names, hnames, h⟩ | ⟨rfl, ds, hds, h⟩⟩ := readTop_cons_eq_ok h
    · obtain ⟨hshape, others, ds, rfl, hothers, hrel⟩ := ih hothersApart h
      obtain ⟨himports, hitems⟩ := readImports_eq_ok hv hnames
      refine ⟨List.forall_mem_cons.mpr ⟨⟨plain_of_isOfTree hv, .inl ⟨rfl, himports⟩⟩, hshape⟩,
        names ++ others, ds, by simp, ?_, ?_⟩
      · simp [hitems, hothers]
      · simpa using hrel
    · obtain ⟨hshape, names, others, rfl, hnames, hrel⟩ := ih hothersApart h
      obtain ⟨hresources, hdeclares⟩ := readResources_declares hfirst hv hds
      refine ⟨List.forall_mem_cons.mpr ⟨⟨plain_of_isOfTree hv, .inr ⟨rfl, hresources⟩⟩, hshape⟩,
        names, ds ++ others, by simp, ?_, ?_⟩
      · simpa using hnames
      · simpa using List.rel_append hdeclares hrel

theorem isOk_readTop {file : String} {entries : List (Yaml.Tree × Yaml.Tree)} {f : DeclarationFile}
    (hapart : ∀ e ∈ entries, e.2.KeysApart) (hplain : ∀ e ∈ entries, e.2.Plain)
    (h : ∀ e ∈ entries, e.1 = .text "imports" ∧ e.2.IsImports ∨ e.1 = .text "resources" ∧ e.2.IsResources) :
    ∃ f', readTop file entries f = .ok f' := by
  induction entries generalizing f with
  | nil => exact ⟨f, rfl⟩
  | cons e entries ih =>
    obtain ⟨tree, value⟩ := e
    obtain ⟨hfirst, hothersApart⟩ := List.forall_mem_cons.mp hapart
    obtain ⟨hvalue, hothersPlain⟩ := List.forall_mem_cons.mp hplain
    obtain ⟨hshape, hothers⟩ := List.forall_mem_cons.mp h
    rcases hshape with ⟨rfl, himports⟩ | ⟨rfl, hresources⟩
    · obtain ⟨v, names, hv, hnames⟩ := isOk_readImports himports
      obtain ⟨f', hf'⟩ := ih (f := { f with imports := f.imports ++ names }) hothersApart hothersPlain hothers
      exact ⟨f', bind_eq_ok_iff.mpr ⟨_, rfl, bind_eq_ok_iff.mpr ⟨_, rfl, bind_eq_ok_iff.mpr
        ⟨v, Value.ofTree_eq_ok_iff.mpr hv, bind_eq_ok_iff.mpr ⟨names, hnames, hf'⟩⟩⟩⟩⟩
    · obtain ⟨v, hv⟩ := exists_isOfTree_iff.mpr hvalue
      obtain ⟨ds, hds⟩ := isOk_readResources file hfirst hresources hv
      obtain ⟨f', hf'⟩ := ih (f := { f with resources := f.resources ++ ds }) hothersApart hothersPlain hothers
      exact ⟨f', bind_eq_ok_iff.mpr ⟨_, rfl, bind_eq_ok_iff.mpr ⟨_, rfl, bind_eq_ok_iff.mpr
        ⟨v, Value.ofTree_eq_ok_iff.mpr hv, bind_eq_ok_iff.mpr ⟨ds, hds, hf'⟩⟩⟩⟩⟩

theorem ofTree_eq_ok {file : String} {tree : Yaml.Tree} {f : DeclarationFile} (h : ofTree file tree = .ok f) :
    (tree = .null ∧ f = ⟨[], []⟩) ∨ ∃ entries, tree = .mapping entries ∧ readTop file entries ⟨[], []⟩ = .ok f := by
  cases tree with
  | null =>
    cases h
    exact .inl ⟨rfl, rfl⟩
  | mapping entries => exact .inr ⟨entries, rfl, h⟩
  | bool | int | float | text | sequence | tagged =>
    obtain ⟨value, -, h⟩ := bind_eq_ok_iff.mp h
    cases h

theorem ofTree_holds {file : String} {tree : Yaml.Tree} {f : DeclarationFile} (hapart : tree.KeysApart)
    (h : ofTree file tree = .ok f) : (tree.IsDocument ∧ tree.Plain) ∧ tree.Holds file f := by
  rcases ofTree_eq_ok h with ⟨rfl, rfl⟩ | ⟨entries, rfl, h⟩
  · exact ⟨⟨.null, .null⟩, rfl, .nil⟩
  · cases hapart with
    | mapping hkeys hvalues =>
      obtain ⟨hshape, names, ds, rfl, himports, hresources⟩ := readTop_holds hvalues h
      rw [flatMap_under hkeys "imports" rfl] at himports
      rw [flatMap_under hkeys "resources" (g := fun tree => tree.items.zipIdx) rfl] at hresources
      refine ⟨⟨.mapping fun e he => (hshape e he).2, .mapping (fun e he => ?_) fun e he => (hshape e he).1⟩,
        by simpa using himports, by simpa using hresources⟩
      rcases (hshape e he).2 with ⟨hkey, -⟩ | ⟨hkey, -⟩ <;> rw [hkey] <;> exact .text _

/-- A document is a declaration file exactly if it has the shape of one and is plain, and the file holds what the
    document says. -/
theorem ofTree_accepts {file : String} {tree : Yaml.Tree} (hapart : tree.KeysApart) :
    ((∃ f, ofTree file tree = .ok f) ↔ tree.IsDocument ∧ tree.Plain) ∧
      ∀ f, ofTree file tree = .ok f → tree.Holds file f := by
  refine ⟨⟨fun ⟨f, h⟩ => (ofTree_holds hapart h).1, fun ⟨hdocument, hplain⟩ => ?_⟩, fun f h =>
    (ofTree_holds hapart h).2⟩
  cases hdocument with
  | null => exact ⟨_, rfl⟩
  | mapping hshape =>
    cases hapart with
    | mapping _ hvalues =>
      cases hplain with
      | mapping _ hplain => exact isOk_readTop hvalues hplain hshape
      | scalar h => cases h

/-- A file with an import, and with a service whose identifier is a number. -/
theorem numbered_accepts :
    let service : Yaml.Tree := .mapping [(.text "id", .int 7), (.text "kind", .text "Service"), (.bool true, .null)]
    let document : Yaml.Tree :=
      .mapping [(.text "imports", .sequence [.text "base.yaml"]), (.text "resources", .sequence [service])]
    document.KeysApart ∧ document.IsDocument ∧ document.Plain ∧
      document.Holds "app.yaml" ⟨["base.yaml"], [⟨.service, some "7", [("true", .null)], ⟨"app.yaml", 0⟩⟩]⟩ := by
  intro service document
  have hapart : document.KeysApart := by
    simp [document, service, keysApart_mapping_iff, keysApart_sequence_iff, Yaml.Tree.same, KeysApart.text,
      KeysApart.int, KeysApart.null]
  obtain ⟨haccepts, hholds⟩ := @ofTree_accepts "app.yaml" document hapart
  obtain ⟨hdocument, hplain⟩ := haccepts.mp ⟨_, rfl⟩
  exact ⟨hapart, hdocument, hplain, hholds _ rfl⟩

theorem read_eq_ok {file text : String} {f : DeclarationFile} (h : read file text = .ok f) :
    ∃ tree, Yaml.read text = .ok tree ∧ ofTree file tree = .ok f := by
  unfold read at h
  split at h
  · exact ⟨_, ‹_›, h⟩
  · cases h

/-- A text is a declaration file exactly if it is a document that has the shape of one and is plain. -/
theorem isOk_read_iff {file text : String} :
    (∃ f, read file text = .ok f) ↔ ∃ tree, Yaml.read text = .ok tree ∧ tree.IsDocument ∧ tree.Plain := by
  unfold read
  cases htree : Yaml.read text with
  | error fault => simp
  | ok tree => simpa using (ofTree_accepts (Yaml.read_keysApart htree)).1

end DeclarationFile

end Manifests
