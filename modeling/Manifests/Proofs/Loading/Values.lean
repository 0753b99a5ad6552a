import Manifests.DeclarationFile
import Manifests.Proofs.Except
import Manifests.Proofs.Integer
import Manifests.Proofs.Lists
import Manifests.Proofs.NumberTexts

/-! # What nodes are read as

The values of the nodes of a document as a relation, node by node and entry by entry (`Value.IsOfTree`), which is what
reading a node gives (`Value.ofTree_eq_ok_iff`). A key counts by its text, and of all keys only a text has the text of a
word (`Yaml.Tree.HasText.eq_text`), so that under a word stands what stands under that text. A document has a value if
no node has a tag and every key has a text (`Yaml.Tree.exists_isOfTree_iff`). -/

namespace Manifests

namespace Value

mutual

/-- What nodes are read as. A whole number that is no signed 64-bit number is rounded to a double. -/
inductive IsOfTree : Yaml.Tree → Value → Prop
  | null : IsOfTree .null .null
  | bool (b : Bool) : IsOfTree (.bool b) (.bool b)
  | int {i : Int} {n : Int64} : n.toInt = i → IsOfTree (.int i) (.int n)
  | large {i : Int} : i < -2 ^ 63 ∨ 2 ^ 63 ≤ i → IsOfTree (.int i) (.float (Binary64.ofInt i))
  | float (x : Binary64) : IsOfTree (.float x) (.float x)
  | text (s : String) : IsOfTree (.text s) (.text s)
  | sequence {items : List Yaml.Tree} {vs : List Value} : List.Forall₂ IsOfTree items vs →
      IsOfTree (.sequence items) (.list vs)
  | mapping {entries : List (Yaml.Tree × Yaml.Tree)} {es : List Entry} : List.Forall₂ IsOfEntry entries es →
      IsOfTree (.mapping entries) (.map es)

/-- What entries are read as: the text of the key, and the value. -/
inductive IsOfEntry : Yaml.Tree × Yaml.Tree → Entry → Prop
  | intro {key tree : Yaml.Tree} {k v : Value} {s : String} : IsOfTree key k → k.scalarText? = some s →
      IsOfTree tree v → IsOfEntry (key, tree) (s, v)

end

/-! ### Reading -/

theorem keyText_eq_ok_iff {key : Value} {s : String} : keyText key = .ok s ↔ key.scalarText? = some s := by
  unfold keyText
  cases key.scalarText? <;> simp

theorem ofInt_eq_iff {i : Int} {v : Value} : ofInt i = v ↔ IsOfTree (.int i) v := by
  unfold ofInt
  constructor
  · rintro rfl
    split
    · exact .int (Number.toInt64?_eq_some_iff.mp ‹_›)
    · exact .large (Number.toInt64?_eq_none_iff.mp ‹_›)
  · intro h
    cases h with
    | int h => rw [Number.toInt64?_eq_some_iff.mpr h]
    | large h => rw [Number.toInt64?_eq_none_iff.mpr h]

mutual

theorem ofTree_eq_ok_iff {tree : Yaml.Tree} {v : Value} : ofTree tree = .ok v ↔ IsOfTree tree v := by
  cases tree with
  | null | bool | float | text =>
    constructor
    · intro h
      cases h
      constructor
    · intro h
      cases h
      rfl
  | int i => rw [ofTree, Except.ok.injEq, ofInt_eq_iff]
  | sequence items =>
    rw [ofTree, bind_eq_ok_iff]
    constructor
    · rintro ⟨vs, hvs, h⟩
      cases h
      exact .sequence (ofItems_eq_ok_iff.mp hvs)
    · rintro ⟨⟩
      exact ⟨_, ofItems_eq_ok_iff.mpr ‹_›, rfl⟩
  | mapping entries =>
    rw [ofTree, bind_eq_ok_iff]
    constructor
    · rintro ⟨es, hes, h⟩
      cases h
      exact .mapping (ofEntries_eq_ok_iff.mp hes)
    · rintro ⟨⟩
      exact ⟨_, ofEntries_eq_ok_iff.mpr ‹_›, rfl⟩
  | tagged => exact iff_of_false (fun h => by cases h) fun h => by cases h

theorem ofItems_eq_ok_iff {items : List Yaml.Tree} {vs : List Value} :
    ofItems items = .ok vs ↔ List.Forall₂ IsOfTree items vs := by
  cases items with
  | nil => rw [List.forall₂_nil_left_iff, ofItems, Except.ok.injEq, eq_comm]
  | cons item items =>
    rw [ofItems, bind_eq_ok_iff, List.forall₂_cons_left_iff]
    constructor
    · rintro ⟨v, hv, h⟩
      obtain ⟨others, hothers, h⟩ := bind_eq_ok_iff.mp h
      cases h
      exact ⟨v, others, ofTree_eq_ok_iff.mp hv, ofItems_eq_ok_iff.mp hothers, rfl⟩
    · rintro ⟨v, others, hv, hothers, rfl⟩
      exact ⟨v, ofTree_eq_ok_iff.mpr hv, bind_eq_ok_iff.mpr ⟨others, ofItems_eq_ok_iff.mpr hothers, rfl⟩⟩

theorem ofEntries_eq_ok_iff {entries : List (Yaml.Tree × Yaml.Tree)} {es : List Entry} :
    ofEntries entries = .ok es ↔ List.Forall₂ IsOfEntry entries es := by
  cases entries with
  | nil => rw [List.forall₂_nil_left_iff, ofEntries, Except.ok.injEq, eq_comm]
  | cons entry entries =>
    rw [ofEntries, bind_eq_ok_iff, List.forall₂_cons_left_iff]
    constructor
    · rintro ⟨k, hk, h⟩
      obtain ⟨s, hs, h⟩ := bind_eq_ok_iff.mp h
      obtain ⟨v, hv, h⟩ := bind_eq_ok_iff.mp h
      obtain ⟨others, hothers, h⟩ := bind_eq_ok_iff.mp h
      cases h
      exact ⟨_, others, .intro (ofTree_eq_ok_iff.mp hk) (keyText_eq_ok_iff.mp hs) (ofTree_eq_ok_iff.mp hv),
        ofEntries_eq_ok_iff.mp hothers, rfl⟩
    · rintro ⟨_, others, ⟨hk, hs, hv⟩, hothers, rfl⟩
      exact ⟨_, ofTree_eq_ok_iff.mpr hk, bind_eq_ok_iff.mpr ⟨_, keyText_eq_ok_iff.mpr hs,
        bind_eq_ok_iff.mpr ⟨_, ofTree_eq_ok_iff.mpr hv,
          bind_eq_ok_iff.mpr ⟨others, ofEntries_eq_ok_iff.mpr hothers, rfl⟩⟩⟩⟩

end

/-- A node is read as one value. -/
theorem IsOfTree.unique {tree : Yaml.Tree} {v v' : Value} (h : IsOfTree tree v) (h' : IsOfTree tree v') : v = v' :=
  Except.ok.inj ((ofTree_eq_ok_iff.mpr h).symm.trans (ofTree_eq_ok_iff.mpr h'))

end Value

/-! ### Keys -/

namespace Yaml.Tree

/-- A key has this text. -/
def HasText (tree : Tree) (s : String) : Prop := ∃ v, Value.IsOfTree tree v ∧ v.scalarText? = some s

@[simp] theorem hasText_text_iff {s s' : String} : (text s).HasText s' ↔ s = s' := by
  constructor
  · rintro ⟨v, ⟨⟩, hs⟩
    exact Option.some.inj hs
  · rintro rfl
    exact ⟨_, .text s, rfl⟩

theorem HasText.unique {tree : Tree} {s s' : String} (h : tree.HasText s) (h' : tree.HasText s') : s = s' := by
  obtain ⟨v, hv, hs⟩ := h
  obtain ⟨v', hv', hs'⟩ := h'
  obtain rfl := hv.unique hv'
  exact Option.some.inj (hs.symm.trans hs')

/-- The one key that is read as a word is the text. -/
theorem HasText.eq_text {tree : Tree} {word : String} (hword : Value.IsWord word) (h : tree.HasText word) :
    tree = .text word := by
  obtain ⟨key, hkey, htext⟩ := h
  rw [Value.eq_text_of_scalarText? hword htext] at hkey
  cases hkey
  rfl

end Yaml.Tree

namespace Value

theorem isOfEntry_iff {entry : Yaml.Tree × Yaml.Tree} {e : Entry} :
    IsOfEntry entry e ↔ entry.1.HasText e.1 ∧ IsOfTree entry.2 e.2 := by
  constructor
  · rintro ⟨hkey, hs, hv⟩
    exact ⟨⟨_, hkey, hs⟩, hv⟩
  · rintro ⟨⟨k, hkey, hs⟩, hv⟩
    exact .intro hkey hs hv

/-- Under a word stands what stands under it as a text. -/
theorem mem_entries_iff {word : String} (hword : IsWord word) {entries : List (Yaml.Tree × Yaml.Tree)}
    {es : List Entry} (h : List.Forall₂ IsOfEntry entries es) {v : Value} :
    (word, v) ∈ es ↔ ∃ tree, (.text word, tree) ∈ entries ∧ IsOfTree tree v := by
  constructor
  · intro hmem
    obtain ⟨⟨key, tree⟩, hentry, hof⟩ := exists_mem_left_of_forall₂ h hmem
    obtain ⟨hkey, hv⟩ := isOfEntry_iff.mp hof
    rw [← hkey.eq_text hword]
    exact ⟨tree, hentry, hv⟩
  · rintro ⟨tree, hentry, hv⟩
    obtain ⟨⟨s, v'⟩, hmem, hof⟩ := exists_mem_right_of_forall₂ h hentry
    obtain ⟨hkey, hv'⟩ := isOfEntry_iff.mp hof
    obtain rfl := Yaml.Tree.hasText_text_iff.mp hkey
    obtain rfl := hv.unique hv'
    exact hmem

end Value

/-! ### Plain documents -/

namespace Yaml.Tree
open Value (IsOfTree IsOfEntry)

/-- A node that has a text. -/
inductive IsScalar : Tree → Prop
  | bool (b : Bool) : IsScalar (.bool b)
  | int (i : Int) : IsScalar (.int i)
  | float (x : Binary64) : IsScalar (.float x)
  | text (s : String) : IsScalar (.text s)

/-- No node has a tag and each key is a scalar, at any depth. -/
inductive Plain : Tree → Prop
  | null : Plain .null
  | scalar {tree : Tree} : tree.IsScalar → Plain tree
  | sequence {items : List Tree} : (∀ item ∈ items, item.Plain) → Plain (.sequence items)
  | mapping {entries : List (Tree × Tree)} : (∀ e ∈ entries, e.1.IsScalar) → (∀ e ∈ entries, e.2.Plain) →
      Plain (.mapping entries)

theorem HasText.isScalar {tree : Tree} {s : String} (h : tree.HasText s) : tree.IsScalar := by
  obtain ⟨v, hv, htext⟩ := h
  cases hv with
  | bool b => exact .bool b
  | @int i => exact .int i
  | @large i => exact .int i
  | float x => exact .float x
  | text s => exact .text s
  | null | sequence | mapping => cases htext

/-- A scalar has a text. -/
theorem IsScalar.hasText {tree : Tree} (h : tree.IsScalar) : ∃ s, tree.HasText s := by
  cases h with
  | bool b => exact ⟨_, _, .bool b, rfl⟩
  | int i =>
    cases hint : Number.toInt64? i with
    | some n => exact ⟨_, _, .int (Number.toInt64?_eq_some_iff.mp hint), rfl⟩
    | none => exact ⟨_, _, .large (Number.toInt64?_eq_none_iff.mp hint), rfl⟩
  | float x => exact ⟨_, _, .float x, rfl⟩
  | text s => exact ⟨_, _, .text s, rfl⟩

mutual

theorem plain_of_isOfTree {tree : Tree} {v : Value} (h : IsOfTree tree v) : tree.Plain := by
  cases tree with
  | null => exact .null
  | bool b => exact .scalar (.bool b)
  | int i => exact .scalar (.int i)
  | float x => exact .scalar (.float x)
  | text s => exact .scalar (.text s)
  | sequence items =>
    cases h with
    | sequence hitems => exact .sequence (plain_of_forall₂_isOfTree hitems)
  | mapping entries =>
    cases h with
    | mapping hentries =>
      refine .mapping (fun e he => ?_) (plain_of_forall₂_isOfEntry hentries)
      obtain ⟨_, -, hentry⟩ := exists_mem_right_of_forall₂ hentries he
      exact (Value.isOfEntry_iff.mp hentry).1.isScalar
  | tagged => cases h

theorem plain_of_forall₂_isOfTree {items : List Tree} {vs : List Value} (h : List.Forall₂ IsOfTree items vs) :
    ∀ item ∈ items, item.Plain := by
  cases items with
  | nil => exact fun _ hitem => by cases hitem
  | cons item items =>
    obtain ⟨v, vs, hv, hvs, -⟩ := List.forall₂_cons_left_iff.mp h
    exact List.forall_mem_cons.mpr ⟨plain_of_isOfTree hv, plain_of_forall₂_isOfTree hvs⟩

theorem plain_of_forall₂_isOfEntry {entries : List (Tree × Tree)} {es : List Entry}
    (h : List.Forall₂ IsOfEntry entries es) : ∀ e ∈ entries, e.2.Plain := by
  cases entries with
  | nil => exact fun _ he => by cases he
  | cons entry entries =>
    obtain ⟨key, value⟩ := entry
    obtain ⟨e, es, he, hes, -⟩ := List.forall₂_cons_left_iff.mp h
    exact List.forall_mem_cons.mpr
      ⟨plain_of_isOfTree (Value.isOfEntry_iff.mp he).2, plain_of_forall₂_isOfEntry hes⟩

end

/-- A document has a value exactly if it is plain. -/
theorem exists_isOfTree_iff {tree : Tree} : (∃ v, IsOfTree tree v) ↔ tree.Plain := by
  refine ⟨fun ⟨_, h⟩ => plain_of_isOfTree h, fun h => ?_⟩
  induction h with
  | null => exact ⟨_, .null⟩
  | scalar h =>
    obtain ⟨s, v, hv, -⟩ := h.hasText
    exact ⟨v, hv⟩
  | sequence _ ih =>
    obtain ⟨vs, hvs⟩ := exists_forall₂ ih
    exact ⟨_, .sequence hvs⟩
  | @mapping entries hkeys _ ih =>
    have hentries : ∀ e ∈ entries, ∃ entry, IsOfEntry e entry := by
      intro e he
      obtain ⟨s, hs⟩ := (hkeys e he).hasText
      obtain ⟨v, hv⟩ := ih e he
      exact ⟨(s, v), Value.isOfEntry_iff.mpr ⟨hs, hv⟩⟩
    obtain ⟨es, hes⟩ := exists_forall₂ hentries
    exact ⟨_, .mapping hes⟩

end Yaml.Tree

end Manifests
