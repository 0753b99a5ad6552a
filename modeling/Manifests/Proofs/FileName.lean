import Manifests.Kind
import Manifests.Proofs.Name
import Manifests.Proofs.Path.Text

/-! # File names of manifests

The word of a kind has no dash, so a file name tells the kind and the name apart at its first dash, whatever dashes
the name has. A name with plain characters gives a file name that is one step of a path. -/

namespace Manifests

namespace Kind

theorem fileName_toList (kind : Kind) (name : String) :
    (kind.fileName name).toList = kind.fileWord.toList ++ '-' :: (name.toList ++ ".yaml".toList) := by
  simp [fileName]

/-- What stands before the first dash of a file name is the word of the kind. -/
theorem takeWhile_fileName (kind : Kind) (name : String) :
    (kind.fileName name).toList.takeWhile (· ≠ '-') = kind.fileWord.toList := by
  have hword : ∀ c ∈ kind.fileWord.toList, decide (c ≠ '-') = true :=
    List.all_eq_true.mp (by cases kind <;> decide)
  rw [fileName_toList, List.takeWhile_append_of_pos hword]
  simp

theorem fileWord_injective {kind kind' : Kind} (h : kind.fileWord = kind'.fileWord) : kind = kind' := by
  cases kind <;> cases kind' <;> first | rfl | exact absurd h (by decide)

/-- No two resources that differ in their kind or their name share a file. -/
theorem fileName_injective {kind kind' : Kind} {name name' : String} (h : kind.fileName name = kind'.fileName name') :
    kind = kind' ∧ name = name' := by
  have hword : kind.fileWord.toList = kind'.fileWord.toList := by
    rw [← takeWhile_fileName kind name, h, takeWhile_fileName]
  have hlist := congrArg String.toList h
  rw [fileName_toList, fileName_toList, hword] at hlist
  have hrest := (List.cons.inj (List.append_cancel_left hlist)).2
  exact ⟨fileWord_injective (String.toList_inj.mp hword), String.toList_inj.mp (List.append_cancel_right hrest)⟩

theorem isPlain_of_mem_fileName {kind : Kind} {name : String} (h : ∀ c ∈ name.toList, Name.isPlain c = true) :
    ∀ c ∈ (kind.fileName name).toList, Name.isPlain c = true := by
  have hword : ∀ c ∈ kind.fileWord.toList, Name.isPlain c = true := List.all_eq_true.mp (by cases kind <;> decide)
  have hending : ∀ c ∈ ".yaml".toList, Name.isPlain c = true := List.all_eq_true.mp (by decide)
  intro c hc
  rw [fileName_toList] at hc
  rcases List.mem_append.mp hc with hc | hc
  · exact hword c hc
  · rcases List.mem_cons.mp hc with rfl | hc
    · decide
    · rcases List.mem_append.mp hc with hc | hc
      · exact h c hc
      · exact hending c hc

theorem two_lt_length_fileName (kind : Kind) (name : String) : 2 < (kind.fileName name).toList.length := by
  have hword : 2 < kind.fileWord.toList.length := by cases kind <;> decide
  rw [fileName_toList, List.length_append]
  omega

end Kind

/-- The file name is one plain step of a path: a word and a name between a dash and the ending. -/
structure Kind.PlainlyNamed (kind : Kind) (name : String) : Prop where
  named : name ≠ ""
  plain : ∀ c ∈ (kind.fileName name).toList, Name.isPlain c = true
  noSlash : '/' ∉ (kind.fileName name).toList
  notCurrent : kind.fileName name ≠ "."
  notParent : kind.fileName name ≠ ".."
  step : Path.ofText (kind.fileName name) = ⟨false, [.name (kind.fileName name)]⟩

theorem Kind.plainlyNamed {kind : Kind} {name : String} (hnamed : name ≠ "")
    (hplain : ∀ c ∈ name.toList, Name.isPlain c = true) : kind.PlainlyNamed name := by
  have hlength := two_lt_length_fileName kind name
  have hne : ∀ s : String, s.toList.length ≤ 2 → kind.fileName name ≠ s := by
    intro s hs heq
    rw [heq] at hlength
    omega
  have hslash : '/' ∉ (kind.fileName name).toList := fun hmem =>
    absurd (isPlain_of_mem_fileName hplain '/' hmem) (by decide)
  exact ⟨hnamed, isPlain_of_mem_fileName hplain, hslash, hne "." (by decide), hne ".." (by decide),
    Path.ofText_of_slash_notMem hslash (hne "" (by decide)) (hne "." (by decide)) (hne ".." (by decide))⟩

end Manifests
