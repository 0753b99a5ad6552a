import Manifests.Proofs.Extraction.KeyOrder
import Manifests.Proofs.Loading.Integers
import Manifests.Proofs.Loading.Shape

/-! # The keys of loaded declarations

A document has no mapping with the same key twice, but a declaration has the texts of keys only. Keys of one type keep
apart, since they are written differently, and keys of different types do not: a declaration repeats a key exactly
where a mapping of its resource has two keys of different types that are written alike
(`DeclarationFile.ofTree_keysDistinct_iff`). -/

namespace Manifests

theorem Binary64.same_self (x : Binary64) : x.same x = true := by
  unfold same
  split <;> simp

namespace Yaml

namespace Tree

/-- Every double is as rounding gives it, at any depth. -/
inductive Canonical : Tree → Prop
  | null : Canonical .null
  | bool (b : Bool) : Canonical (.bool b)
  | int (i : Int) : Canonical (.int i)
  | float {x : Binary64} : x.Canonical → Canonical (.float x)
  | text (s : String) : Canonical (.text s)
  | sequence {items : List Tree} : (∀ item ∈ items, item.Canonical) → Canonical (.sequence items)
  | mapping {entries : List (Tree × Tree)} : (∀ e ∈ entries, e.1.Canonical) → (∀ e ∈ entries, e.2.Canonical) →
      Canonical (.mapping entries)
  | tagged (tag : String) {content : Tree} : content.Canonical → Canonical (.tagged tag content)

/-- Two scalars of one type. A whole number has the type of integers if it is a signed 64-bit number. -/
inductive SameType : Tree → Tree → Prop
  | bool (b b' : Bool) : SameType (.bool b) (.bool b')
  | int {i i' : Int} {n n' : Int64} : Number.toInt64? i = some n → Number.toInt64? i' = some n' →
      SameType (.int i) (.int i')
  | float (x x' : Binary64) : SameType (.float x) (.float x')
  | text (s s' : String) : SameType (.text s) (.text s')

/-- Two keys of different types are written alike. -/
def Confused (key key' : Tree) : Prop := ¬key.SameType key' ∧ ∃ s, key.HasText s ∧ key'.HasText s

/-- No mapping has two keys of different types that are written alike, at any depth. -/
inductive KeysClear : Tree → Prop
  | null : KeysClear .null
  | scalar {tree : Tree} : tree.IsScalar → KeysClear tree
  | sequence {items : List Tree} : (∀ item ∈ items, item.KeysClear) → KeysClear (.sequence items)
  | mapping {entries : List (Tree × Tree)} : entries.Pairwise (fun a b => ¬a.1.Confused b.1) →
      (∀ e ∈ entries, e.2.KeysClear) → KeysClear (.mapping entries)

theorem canonical_sequence_iff {items : List Tree} : (sequence items).Canonical ↔ ∀ item ∈ items, item.Canonical := by
  refine ⟨fun h => ?_, .sequence⟩
  cases h with
  | sequence hitems => exact hitems

theorem canonical_mapping_iff {entries : List (Tree × Tree)} : (mapping entries).Canonical ↔
    (∀ e ∈ entries, e.1.Canonical) ∧ ∀ e ∈ entries, e.2.Canonical := by
  refine ⟨fun h => ?_, fun h => .mapping h.1 h.2⟩
  cases h with
  | mapping hkeys hvalues => exact ⟨hkeys, hvalues⟩

theorem Canonical.items_under {tree : Tree} (h : tree.Canonical) (key : String) :
    ∀ item ∈ (tree.under key).items, item.Canonical :=
  forall_mem_items_under (fun h => (canonical_mapping_iff.mp h).2) canonical_sequence_iff.mp h key

theorem keysClear_sequence_iff {items : List Tree} : (sequence items).KeysClear ↔ ∀ item ∈ items, item.KeysClear := by
  refine ⟨fun h => ?_, .sequence⟩
  cases h with
  | sequence hitems => exact hitems
  | scalar h => cases h

theorem keysClear_mapping_iff {entries : List (Tree × Tree)} : (mapping entries).KeysClear ↔
    entries.Pairwise (fun a b => ¬a.1.Confused b.1) ∧ ∀ e ∈ entries, e.2.KeysClear := by
  refine ⟨fun h => ?_, fun h => .mapping h.1 h.2⟩
  cases h with
  | mapping hkeys hvalues => exact ⟨hkeys, hvalues⟩
  | scalar h => cases h

/-! ### Keys of one type -/

theorem same_self_of_hasText {key : Tree} {s : String} (h : key.HasText s) : key.same key = true := by
  cases h.isScalar with
  | bool | int | text => simp [same]
  | float x => rw [same, x.same_self]

/-- Keys of one type that are written alike are the same. -/
theorem eq_of_sameType {key key' : Tree} {s : String} (hcanonical : key.Canonical) (hcanonical' : key'.Canonical)
    (htype : key.SameType key') (h : key.HasText s) (h' : key'.HasText s) : key = key' := by
  cases htype with
  | bool b b' =>
    obtain ⟨_, ⟨⟩, hs⟩ := h
    obtain ⟨_, ⟨⟩, hs'⟩ := h'
    have htext := hs.trans hs'.symm
    cases b <;> cases b'
    · rfl
    · exact absurd htext (by decide)
    · exact absurd htext (by decide)
    · rfl
  | @int i i' n n' hn hn' =>
    obtain ⟨v, hv, hs⟩ := h
    obtain ⟨v', hv', hs'⟩ := h'
    have hi := Number.toInt64?_eq_some_iff.mp hn
    have hi' := Number.toInt64?_eq_some_iff.mp hn'
    obtain rfl := hv.unique (.int hi)
    obtain rfl := hv'.unique (.int hi')
    have hdigits := Number.decimal_injective (Option.some.inj (hs.trans hs'.symm))
    rw [← hi, ← hi', hdigits]
  | float x x' =>
    obtain ⟨_, ⟨⟩, hs⟩ := h
    obtain ⟨_, ⟨⟩, hs'⟩ := h'
    cases hcanonical with
    | float hx =>
      cases hcanonical' with
      | float hx' => rw [Binary64.text_injective hx hx' (Option.some.inj (hs.trans hs'.symm))]
  | text t t' => rw [hasText_text_iff.mp h, hasText_text_iff.mp h']

theorem readFloat?_canonical {cs : List Char} {x : Binary64} (h : readFloat? cs = some x) : x.Canonical := by
  unfold readFloat? at h
  dsimp only at h
  split at h
  · cases h
    trivial
  · split at h
    · cases h
      trivial
    · split at h
      · cases h
        trivial
      · obtain ⟨y, hy, h⟩ := Option.bind_eq_some_iff.mp h
        split at h
        · cases h
          exact Binary64.read?_canonical hy
        · cases h

end Tree

/-- The doubles of a document that is read are canonical. -/
theorem read_canonical {text : String} {tree : Tree} (h : Yaml.read text = .ok tree) : tree.Canonical :=
  read_inherited ⟨.null, .bool, .int, fun h => .float (Tree.readFloat?_canonical h), .text, .sequence,
    fun _ hentries => .mapping (fun e he => (hentries e he).1) fun e he => (hentries e he).2, .tagged⟩ h

end Yaml

namespace Value
open Yaml.Tree

/-! ### Mappings -/

theorem confused_iff {key key' : Yaml.Tree} {s s' : String} (hcanonical : key.Canonical)
    (hcanonical' : key'.Canonical) (hapart : key'.same key = false) (h : key.HasText s) (h' : key'.HasText s') :
    ¬key.Confused key' ↔ s ≠ s' := by
  constructor
  · rintro hclear rfl
    refine hclear ⟨fun htype => ?_, s, h, h'⟩
    obtain rfl := eq_of_sameType hcanonical hcanonical' htype h h'
    exact absurd (same_self_of_hasText h) (by simp [hapart])
  · rintro hne ⟨-, t, ht, ht'⟩
    exact hne ((h.unique ht).trans (ht'.unique h'))

/-- A mapping that is read repeats a key where two of its keys are confused. -/
theorem nodup_entries_iff {entries : List (Yaml.Tree × Yaml.Tree)} {es : List Entry}
    (hapart : entries.Pairwise fun a b => b.1.same a.1 = false) (hcanonical : ∀ e ∈ entries, e.1.Canonical)
    (h : List.Forall₂ IsOfEntry entries es) :
    (es.map (·.1)).Nodup ↔ entries.Pairwise fun a b => ¬a.1.Confused b.1 := by
  have hpairs := hapart.imp_of_mem fun {a b} ha hb hsame =>
    And.intro hsame (And.intro (hcanonical a ha) (hcanonical b hb))
  rw [List.Nodup, List.pairwise_map]
  refine (pairwise_iff_of_forall₂ h hpairs fun hentry hentry' ⟨hsame, ha, ha'⟩ => ?_).symm
  exact confused_iff ha ha' hsame (isOfEntry_iff.mp hentry).1 (isOfEntry_iff.mp hentry').1

theorem keysDistinct_iff {tree : Yaml.Tree} (hapart : tree.KeysApart) (hcanonical : tree.Canonical) {v : Value}
    (h : IsOfTree tree v) : v.KeysDistinct ↔ tree.KeysClear := by
  induction hapart generalizing v with
  | null =>
    cases h
    exact iff_of_true .null .null
  | bool b =>
    cases h
    exact iff_of_true (.bool b) (.scalar (.bool b))
  | int i =>
    refine iff_of_true ?_ (.scalar (.int i))
    cases h with
    | int => exact .int _
    | large => exact .float _
  | float x =>
    cases h
    exact iff_of_true (.float x) (.scalar (.float x))
  | text s =>
    cases h
    exact iff_of_true (.text s) (.scalar (.text s))
  | sequence _ ih =>
    cases h with
    | sequence hvs =>
      rw [keysDistinct_list_iff, keysClear_sequence_iff]
      exact (forall_iff_of_forall₂ hvs fun item hitem v hv =>
        (ih item hitem (canonical_sequence_iff.mp hcanonical item hitem) hv).symm).symm
  | mapping hkeys _ ih =>
    obtain ⟨hkeysCanonical, hvaluesCanonical⟩ := canonical_mapping_iff.mp hcanonical
    cases h with
    | mapping hes =>
      rw [keysDistinct_map_iff, keysClear_mapping_iff, nodup_entries_iff hkeys hkeysCanonical hes]
      refine and_congr_right fun _ => (forall_iff_of_forall₂ hes fun e he entry hentry => ?_).symm
      exact (ih e he (hvaluesCanonical e he) (isOfEntry_iff.mp hentry).2).symm
  | tagged => cases h

end Value

namespace DeclarationFile
open Yaml.Tree

/-- A word is confused with no other key. -/
theorem not_confused_of_isText {key key' : Yaml.Tree} {word : String} (hword : Value.IsWord word)
    (h : key = .text word ∨ key' = .text word) : ¬key.Confused key' := by
  rintro ⟨htype, s, hs, hs'⟩
  rcases h with rfl | rfl
  · obtain rfl := hasText_text_iff.mp hs
    rw [hs'.eq_text hword] at htype
    exact htype (.text _ _)
  · obtain rfl := hasText_text_iff.mp hs'
    rw [hs.eq_text hword] at htype
    exact htype (.text _ _)

/-- The kind and the identifier of a resource are confused with no other key, and scalars have no keys. -/
theorem keysClear_fields_iff {entries : List (Yaml.Tree × Yaml.Tree)}
    (hscalars : ∀ e ∈ entries, e.1 = .text "kind" ∨ e.1 = .text "id" → e.2.IsScalar) :
    (Yaml.Tree.mapping (entries.filter fun e => !(e.1.isText "kind" || e.1.isText "id"))).KeysClear ↔
      (Yaml.Tree.mapping entries).KeysClear := by
  have hdropped (e : Yaml.Tree × Yaml.Tree) :
      (!(e.1.isText "kind" || e.1.isText "id")) = false ↔ e.1 = .text "kind" ∨ e.1 = .text "id" := by
    rw [Bool.not_eq_false', Bool.or_eq_true, isText_iff, isText_iff]
  rw [keysClear_mapping_iff, keysClear_mapping_iff]
  constructor
  · rintro ⟨hkeys, hvalues⟩
    refine ⟨pairwise_of_filter hkeys fun a _ b _ hword => ?_, fun e he => ?_⟩
    · rw [hdropped, hdropped] at hword
      rcases hword with (h | h) | (h | h)
      · exact not_confused_of_isText (by decide) (.inl h)
      · exact not_confused_of_isText (by decide) (.inl h)
      · exact not_confused_of_isText (by decide) (.inr h)
      · exact not_confused_of_isText (by decide) (.inr h)
    · by_cases hkeep : (!(e.1.isText "kind" || e.1.isText "id")) = true
      · exact hvalues e (List.mem_filter.mpr ⟨he, hkeep⟩)
      · exact .scalar (hscalars e he ((hdropped e).mp (by simpa using hkeep)))
  · rintro ⟨hkeys, hvalues⟩
    exact ⟨hkeys.sublist List.filter_sublist, fun e he => hvalues e (List.mem_of_mem_filter he)⟩

/-- The declaration of a resource repeats a key where two keys of the resource are confused. -/
theorem keysDistinct_of_declares {file : String} {index : Nat} {resource : Yaml.Tree} {d : Declaration}
    (hapart : resource.KeysApart) (hcanonical : resource.Canonical) (hresource : resource.IsResource)
    (h : resource.Declares file index d) : resource.KeysClear ↔ d.KeysDistinct := by
  obtain ⟨entries, rfl, ⟨kind, hkind⟩, hid⟩ := hresource
  obtain ⟨hkeys, hvalues⟩ := keysApart_mapping_iff.mp hapart
  obtain ⟨hkeysCanonical, hvaluesCanonical⟩ := canonical_mapping_iff.mp hcanonical
  have hscalars (e : Yaml.Tree × Yaml.Tree) (he : e ∈ entries) (hword : e.1 = .text "kind" ∨ e.1 = .text "id") :
      e.2.IsScalar := by
    obtain ⟨key, value⟩ := e
    rcases hword with rfl | rfl
    · rw [under_unique hkeys he hkind]
      exact .text _
    · exact hid value he
  let fields := entries.filter fun e => !(e.1.isText "kind" || e.1.isText "id")
  have hfieldsApart : (Yaml.Tree.mapping fields).KeysApart :=
    .mapping (hkeys.sublist List.filter_sublist) fun e he => hvalues e (List.mem_of_mem_filter he)
  have hfieldsCanonical : (Yaml.Tree.mapping fields).Canonical :=
    .mapping (fun e he => hkeysCanonical e (List.mem_of_mem_filter he)) fun e he =>
      hvaluesCanonical e (List.mem_of_mem_filter he)
  rw [← keysClear_fields_iff hscalars]
  exact (Value.keysDistinct_iff hfieldsApart hfieldsCanonical (.mapping h.entries)).symm

/-! ### Declaration files -/

theorem isResource_of_isDocument {tree : Yaml.Tree} (h : tree.IsDocument) :
    ∀ resource ∈ (tree.under "resources").items, resource.IsResource := by
  rcases under_cases "resources" tree with hnull | ⟨e, he, hkey, hunder⟩
  · rw [hnull]
    exact fun _ hitem => by cases hitem
  · cases h with
    | null => cases he
    | mapping hshape =>
      rw [hunder]
      rcases hshape e he with ⟨himports, -⟩ | ⟨-, hnull | ⟨items, hitems, hresources⟩⟩
      · exact absurd (hkey.symm.trans himports) (by simp)
      · rw [hnull]
        exact fun _ hitem => by cases hitem
      · rw [hitems]
        exact hresources

/-- The declarations of a file keep all keys apart exactly if no mapping of its resources has two keys of different
    types that are written alike. -/
theorem ofTree_keysDistinct_iff {file : String} {tree : Yaml.Tree} {f : DeclarationFile} (hapart : tree.KeysApart)
    (hcanonical : tree.Canonical) (h : ofTree file tree = .ok f) :
    (∀ d ∈ f.resources, d.KeysDistinct) ↔ ∀ resource ∈ (tree.under "resources").items, resource.KeysClear := by
  obtain ⟨⟨hdocument, -⟩, hholds⟩ := ofTree_holds hapart h
  have hitems : ∀ {P : Yaml.Tree → Prop}, (∀ item ∈ (tree.under "resources").items, P item) ↔
      ∀ p ∈ (tree.under "resources").items.zipIdx, P p.1 := fun {P} => by
    have hzip := List.forall_mem_map (f := Prod.fst) (l := (tree.under "resources").items.zipIdx) (P := P)
    rwa [List.zipIdx_map_fst] at hzip
  rw [hitems]
  refine (forall_iff_of_forall₂ hholds.resources fun p hp d hd => ?_).symm
  have hmem := List.fst_mem_of_mem_zipIdx hp
  exact keysDistinct_of_declares (hapart.items_under _ _ hmem) (hcanonical.items_under _ _ hmem)
    (isResource_of_isDocument hdocument _ hmem) hd

/-- The declarations of a text keep all keys apart exactly if its document does not confuse keys. -/
theorem read_keysDistinct_iff {file text : String} {f : DeclarationFile} (h : read file text = .ok f) :
    ∃ tree, Yaml.read text = .ok tree ∧
      ((∀ d ∈ f.resources, d.KeysDistinct) ↔ ∀ resource ∈ (tree.under "resources").items, resource.KeysClear) := by
  obtain ⟨tree, htree, h⟩ := read_eq_ok h
  exact ⟨tree, htree, ofTree_keysDistinct_iff (Yaml.read_keysApart htree) (Yaml.read_canonical htree) h⟩

/-! ### Labels -/

/-- A file with a service that has two labels, under these keys. -/
def labelled (key key' : Yaml.Tree) : Yaml.Tree :=
  .mapping [(.text "resources", .sequence [.mapping [(.text "kind", .text "Service"), (.text "name", .text "a"),
    (.text "labels", .mapping [(key, .text "x"), (key', .text "y")]),
    (.text "ports", .sequence [.mapping [(.text "port", .int 80)]])]])]

theorem labelled_keysApart {key key' : Yaml.Tree} (h : key'.same key = false) : (labelled key key').KeysApart := by
  simp [labelled, keysApart_mapping_iff, keysApart_sequence_iff, Yaml.Tree.same, KeysApart.text, KeysApart.int, h]

/-- Labels under two whole numbers keep apart. -/
theorem numberedLabels_keysDistinct :
    ∃ f, ofTree "app.yaml" (labelled (.int 1) (.int 2)) = .ok f ∧ ∀ d ∈ f.resources, d.KeysDistinct := by
  have hcanonical : (labelled (.int 1) (.int 2)).Canonical := by
    simp [labelled, canonical_mapping_iff, canonical_sequence_iff, Canonical.text, Canonical.int]
  refine ⟨_, rfl, (ofTree_keysDistinct_iff (labelled_keysApart (by decide)) hcanonical rfl).mpr ?_⟩
  have hnumbers : ¬Yaml.Tree.Confused (.int 1) (.int 2) := fun h => h.1 (.int rfl rfl)
  have htexts (s s' : String) : ¬Yaml.Tree.Confused (.text s) (.text s') := fun h => h.1 (.text s s')
  have hscalar (s : String) : (Yaml.Tree.text s).KeysClear := .scalar (.text s)
  have hport : (Yaml.Tree.int 80).KeysClear := .scalar (.int 80)
  simp [labelled, under, Yaml.Tree.entries, items, keysClear_mapping_iff, keysClear_sequence_iff, hnumbers, htexts,
    hscalar, hport]

/-- The number one and the text are two keys of a document and one key of a declaration, whose labels have the last
    value only. -/
theorem mixedLabels_repeated :
    (labelled (.int 1) (.text "1")).KeysApart ∧
      ∃ d, ofTree "app.yaml" (labelled (.int 1) (.text "1")) = .ok ⟨[], [d]⟩ ∧ ¬d.KeysDistinct ∧
        d.get? "labels" = some (.map [("1", .text "x"), ("1", .text "y")]) ∧
        ∃ record, d.extract = .ok record ∧ record.labels.entries = [("1", "y")] := by
  refine ⟨labelled_keysApart rfl, _, rfl, fun h => ?_, rfl, _, rfl, rfl⟩
  have hlabels := (Value.keysDistinct_map_iff.mp h).2 ("labels", _) (List.mem_cons_of_mem _ List.mem_cons_self)
  exact absurd (Value.keysDistinct_map_iff.mp hlabels).1 (by decide)

end DeclarationFile

end Manifests
