import Manifests.Proofs.Except
import Manifests.Yaml.Document

/-! # Documents

What scalars have and what goes from nodes to what is made of them, every document that is read has
(`read_inherited`). Each mapping is read with the keys before an entry at hand, and what an alias stands for is
read in the same way again. So a document has no mapping with the same key twice, at any depth (`read_keysApart`). -/

namespace Manifests.Yaml

theorem read_of_events {text : String} {events : List (Event Nat)}
    (h : (Token.scan text.toList >>= Event.ofTokens >>= Event.number []) = .ok events) :
    read text = Tree.ofEvents events := by
  have hread : read text =
      (Token.scan text.toList >>= Event.ofTokens >>= Event.number []) >>= Tree.ofEvents := by
    simp only [read, bind_assoc]
  rw [hread, h]
  rfl

namespace Tree

/-! ### Keys -/

/-- No mapping has the same key twice, at any depth. -/
inductive KeysApart : Tree → Prop
  | null : KeysApart .null
  | bool (b : Bool) : KeysApart (.bool b)
  | int (i : Int) : KeysApart (.int i)
  | float (x : Binary64) : KeysApart (.float x)
  | text (s : String) : KeysApart (.text s)
  | sequence {items : List Tree} : (∀ item ∈ items, KeysApart item) → KeysApart (.sequence items)
  | mapping {entries : List (Tree × Tree)} : entries.Pairwise (fun a b => b.1.same a.1 = false) →
      (∀ e ∈ entries, KeysApart e.2) → KeysApart (.mapping entries)
  | tagged (tag : String) {content : Tree} : KeysApart content → KeysApart (.tagged tag content)

theorem keysApart_sequence_iff {items : List Tree} : (sequence items).KeysApart ↔ ∀ item ∈ items, item.KeysApart := by
  refine ⟨fun h => ?_, .sequence⟩
  cases h with
  | sequence hitems => exact hitems

theorem keysApart_mapping_iff {entries : List (Tree × Tree)} : (mapping entries).KeysApart ↔
    entries.Pairwise (fun a b => b.1.same a.1 = false) ∧ ∀ e ∈ entries, e.2.KeysApart := by
  refine ⟨fun h => ?_, fun h => .mapping h.1 h.2⟩
  cases h with
  | mapping hkeys hvalues => exact ⟨hkeys, hvalues⟩

/-! ### What a reader gives -/

/-- A property of nodes that scalars have as they are read, and that goes from nodes to what is made of them. -/
structure Inherited (P : Tree → Prop) : Prop where
  null : P .null
  bool : ∀ b, P (.bool b)
  int : ∀ i, P (.int i)
  float : ∀ {cs x}, readFloat? cs = some x → P (.float x)
  text : ∀ s, P (.text s)
  sequence : ∀ {items}, (∀ item ∈ items, P item) → P (.sequence items)
  mapping : ∀ {entries}, entries.Pairwise (fun a b => b.1.same a.1 = false) → (∀ e ∈ entries, P e.1 ∧ P e.2) →
    P (.mapping entries)
  tagged : ∀ tag {content}, P content → P (.tagged tag content)

section
variable {P : Tree → Prop} (hP : Inherited P)
include hP

/-! ### Scalars -/

theorem Inherited.ofPlain {text : String} {tree : Tree} (h : ofPlain text = .ok tree) : P tree := by
  unfold Tree.ofPlain at h
  split at h
  · cases h
    exact hP.null
  · split at h
    · cases h
      exact hP.bool _
    · split at h
      · cases h
        exact hP.int _
      · cases h
      · split at h
        · cases h
          exact hP.text _
        · split at h <;> cases h
          · exact hP.float ‹_›
          · exact hP.text _

theorem Inherited.ofUntagged {text : String} {plain : Bool} {tree : Tree} (h : ofUntagged text plain = .ok tree) :
    P tree := by
  cases plain with
  | true => exact hP.ofPlain h
  | false =>
    cases h
    exact hP.text _

theorem Inherited.ofCore {tag text : String} {tree : Tree} (h : ofCore tag text = .ok tree) : P tree := by
  unfold Tree.ofCore at h
  split at h
  · cases hbool : readBool? text with
    | none =>
      rw [hbool] at h
      cases h
    | some b =>
      rw [hbool] at h
      cases h
      exact hP.bool _
  · split at h
    · split at h <;> cases h
      exact hP.int _
    · split at h
      · cases hfloat : readFloat? text.toList with
        | none =>
          rw [hfloat] at h
          cases h
        | some x =>
          rw [hfloat] at h
          cases h
          exact hP.float hfloat
      · split at h
        · by_cases hnull : isNullWord text = true
          · rw [if_pos hnull] at h
            cases h
            exact hP.null
          · rw [if_neg hnull] at h
            cases h
        · cases h
          exact hP.text _

theorem Inherited.ofScalar {tag : Option String} {text : String} {plain : Bool} {tree : Tree}
    (h : ofScalar tag text plain = .ok tree) : P tree := by
  unfold Tree.ofScalar at h
  split at h
  · exact hP.ofUntagged h
  · split at h
    · obtain ⟨content, hcontent, h⟩ := bind_eq_ok_iff.mp h
      obtain rfl := pure_eq_ok_iff.mp h
      exact hP.tagged _ (hP.ofUntagged hcontent)
    · exact hP.ofCore h

theorem Inherited.withTag {tag : Option String} {content : Tree} (h : P content) : P (withTag tag content) := by
  unfold Tree.withTag
  split
  · exact hP.tagged _ h
  · exact h

end

/-! ### Nodes -/

/-- What a reader gives is like this. -/
def Reader.Gives {α : Type} (read : Reader α) (P : α → Prop) : Prop :=
  ∀ events aliases a rest, read events aliases = .ok (a, rest) → P a

section
variable {P : Tree → Prop} {node : Reader Tree}

theorem readItems_gives (hnode : Reader.Gives node P) (fuel : Nat) :
    Reader.Gives (readItems node fuel) fun items => ∀ item ∈ items, P item := by
  induction fuel with
  | zero => exact fun _ _ _ _ h => by cases h
  | succ fuel ih =>
    intro events aliases items rest h
    unfold readItems at h
    split at h
    · rename_i heq
      cases heq
    · cases h
      exact fun _ hitem => by cases hitem
    · rename_i heq _
      cases heq
      obtain ⟨⟨first, events', aliases'⟩, hfirst, h⟩ := bind_eq_ok_iff.mp h
      obtain ⟨⟨others, rest'⟩, hothers, h⟩ := bind_eq_ok_iff.mp h
      cases h
      exact List.forall_mem_cons.mpr ⟨hnode _ _ _ _ hfirst, ih _ _ _ _ hothers⟩

/-- The keys differ from each other and from those before. -/
theorem readEntries_gives (hnode : Reader.Gives node P) (fuel : Nat) (keys : List Tree) :
    Reader.Gives (readEntries node fuel keys) fun entries =>
      entries.Pairwise (fun a b => b.1.same a.1 = false) ∧ (∀ e ∈ entries, ∀ k ∈ keys, e.1.same k = false) ∧
        ∀ e ∈ entries, P e.1 ∧ P e.2 := by
  induction fuel generalizing keys with
  | zero => exact fun _ _ _ _ h => by cases h
  | succ fuel ih =>
    intro events aliases entries rest h
    unfold readEntries at h
    split at h
    · rename_i heq
      cases heq
    · cases h
      exact ⟨.nil, by simp, by simp⟩
    · rename_i heq _
      cases heq
      obtain ⟨⟨key, events', aliases'⟩, hkey, h⟩ := bind_eq_ok_iff.mp h
      dsimp only at h
      split at h
      · cases h
      · rename_i hnew
        obtain ⟨⟨value, events'', aliases''⟩, hvalue, h⟩ := bind_eq_ok_iff.mp h
        obtain ⟨⟨others, rest'⟩, hothers, h⟩ := bind_eq_ok_iff.mp h
        cases h
        obtain ⟨hapart, hkeys, hvalues⟩ := ih _ _ _ _ _ hothers
        refine ⟨List.pairwise_cons.mpr ⟨fun e he => hkeys e he key List.mem_cons_self, hapart⟩, ?_,
          List.forall_mem_cons.mpr ⟨⟨hnode _ _ _ _ hkey, hnode _ _ _ _ hvalue⟩, hvalues⟩⟩
        refine List.forall_mem_cons.mpr ⟨fun k hk => ?_, fun e he k hk => hkeys e he k (List.mem_cons_of_mem _ hk)⟩
        simpa using List.any_eq_false.mp (Bool.eq_false_iff.mpr hnew) k hk

/-- What an alias stands for is read like any other node. -/
theorem child_gives {document : List (Event Nat)} {depth : Nat} (hnode : Reader.Gives (readNode document depth) P) :
    Reader.Gives (readNode.child document depth) P := by
  intro events aliases tree rest h
  unfold readNode.child at h
  split at h
  · split at h
    · obtain ⟨⟨found, rest'⟩, hfound, h⟩ := bind_eq_ok_iff.mp h
      cases h
      exact hnode _ _ _ _ hfound
    · cases h
    · cases h
  · exact hnode _ _ _ _ h

end

/-- A node is a scalar, a sequence or a mapping, and the last two only where collections may still nest. -/
theorem readNode_eq_ok {document events : List (Event Nat)} {depth aliases : Nat} {tree : Tree}
    {rest : List (Event Nat) × Nat} (h : readNode document depth events aliases = .ok (tree, rest)) :
    (∃ tag text plain, ofScalar tag text plain = .ok tree) ∨
    ∃ below tag, depth = below + 1 ∧ ((∃ items fuel events rest, tree = withTag tag (.sequence items) ∧
        readItems (readNode.child document below) fuel events aliases = .ok (items, rest)) ∨
      ∃ entries fuel events rest, tree = withTag tag (.mapping entries) ∧
        readEntries (readNode.child document below) fuel [] events aliases = .ok (entries, rest)) := by
  unfold readNode at h
  split at h
  · obtain ⟨scalar, hscalar, h⟩ := bind_eq_ok_iff.mp h
    cases h
    exact .inl ⟨_, _, _, hscalar⟩
  · obtain ⟨⟨items, events', aliases'⟩, hitems, h⟩ := bind_eq_ok_iff.mp h
    cases h
    exact .inr ⟨_, _, rfl, .inl ⟨items, _, _, _, rfl, hitems⟩⟩
  · obtain ⟨⟨entries, events', aliases'⟩, hentries, h⟩ := bind_eq_ok_iff.mp h
    cases h
    exact .inr ⟨_, _, rfl, .inr ⟨entries, _, _, _, rfl, hentries⟩⟩
  · cases h
  · cases h
  · cases h

theorem readNode_gives {P : Tree → Prop} (hP : Inherited P) (document : List (Event Nat)) (depth : Nat) :
    Reader.Gives (readNode document depth) P := by
  induction depth with
  | zero =>
    intro events aliases tree rest h
    rcases readNode_eq_ok h with ⟨tag, text, plain, hscalar⟩ | ⟨below, tag, hdepth, -⟩
    · exact hP.ofScalar hscalar
    · cases hdepth
  | succ depth ih =>
    intro events aliases tree rest h
    rcases readNode_eq_ok h with ⟨tag, text, plain, hscalar⟩ | ⟨below, tag, hdepth, hnode⟩
    · exact hP.ofScalar hscalar
    · obtain rfl := Nat.succ.inj hdepth
      rcases hnode with ⟨items, fuel, _, _, rfl, hitems⟩ | ⟨entries, fuel, _, _, rfl, hentries⟩
      · exact hP.withTag (hP.sequence (readItems_gives (child_gives ih) fuel _ _ _ _ hitems))
      · obtain ⟨hapart, -, hvalues⟩ := readEntries_gives (child_gives ih) fuel [] _ _ _ _ hentries
        exact hP.withTag (hP.mapping hapart hvalues)

end Tree

/-- A document that is read has what its nodes inherit. -/
theorem read_inherited {P : Tree → Prop} (hP : Tree.Inherited P) {text : String} {tree : Tree}
    (h : Yaml.read text = .ok tree) : P tree := by
  obtain ⟨tokens, -, h⟩ := bind_eq_ok_iff.mp h
  obtain ⟨events, -, h⟩ := bind_eq_ok_iff.mp h
  obtain ⟨numbered, -, h⟩ := bind_eq_ok_iff.mp h
  unfold Tree.ofEvents at h
  split at h
  · cases h
    exact hP.null
  · obtain ⟨⟨found, rest⟩, hfound, h⟩ := bind_eq_ok_iff.mp h
    obtain rfl := pure_eq_ok_iff.mp h
    exact Tree.child_gives (Tree.readNode_gives hP _ _) _ _ _ _ hfound

/-- A document that is read has no mapping with the same key twice. -/
theorem read_keysApart {text : String} {tree : Tree} (h : Yaml.read text = .ok tree) : tree.KeysApart :=
  read_inherited ⟨.null, .bool, .int, fun _ => .float _, .text, .sequence,
    fun hapart hentries => .mapping hapart fun e he => (hentries e he).2, .tagged⟩ h

end Manifests.Yaml
