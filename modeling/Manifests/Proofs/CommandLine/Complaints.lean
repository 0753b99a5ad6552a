import Manifests.CommandLine.Run
import Manifests.FileTree
import Manifests.Proofs.Json
import Manifests.Proofs.Lists

/-! # Complaints in JSON

A complaint about a run is put into JSON by hand, with its quotes escaped and nothing else. So it can be read exactly
if its message has no backslash and no control character (`Voice.complain_reads_iff`), while diagnostics of resources
can always be read (`Voice.report_reads`). -/

namespace Manifests.CommandLine

open JsonText

/-! ### Quotes -/

/-- Characters with a backslash in front of each quote. -/
def quotesEscaped (cs : List Char) : List Char := cs.flatMap fun c => if c = '"' then ['\\', '"'] else [c]

theorem quotesEscaped_cons (c : Char) (cs : List Char) :
    quotesEscaped (c :: cs) = (if c = '"' then ['\\', '"'] else [c]) ++ quotesEscaped cs := List.flatMap_cons ..

theorem eq_of_quotesEscaped_eq_cons {cs tail after : List Char} (h : quotesEscaped cs ++ '"' :: tail = '"' :: after) :
    after = tail := by
  cases cs with
  | nil => exact (List.cons.inj h).2.symm
  | cons c cs =>
    rw [quotesEscaped_cons] at h
    split at h
    · exact absurd (List.cons.inj h).1 (by decide)
    · exact absurd (List.cons.inj h).1 ‹_›

/-- All quotes but the one that ends the text have a backslash in front of them. -/
theorem escaped_or_last {cs tail before after : List Char} {c : Char} (htail : '"' ∉ tail)
    (h : quotesEscaped cs ++ '"' :: tail = before ++ c :: '"' :: after) : c = '\\' ∨ after = tail := by
  induction cs generalizing before with
  | nil =>
    cases before with
    | nil => exact absurd ((List.cons.inj h).2 ▸ List.mem_cons_self) htail
    | cons y before =>
      have hquote : '"' ∈ before ++ c :: '"' :: after := by simp
      exact absurd ((List.cons.inj h).2 ▸ hquote) htail
  | cons x cs ih =>
    rw [quotesEscaped_cons] at h
    split at h
    · match before with
      | [] => exact .inl (List.cons.inj h).1.symm
      | [y] => exact .inr (eq_of_quotesEscaped_eq_cons (List.cons.inj (List.cons.inj h).2).2)
      | y :: y' :: before => exact ih (List.cons.inj (List.cons.inj h).2).2
    · cases before with
      | nil => exact .inr (eq_of_quotesEscaped_eq_cons (List.cons.inj h).2)
      | cons y before => exact ih (List.cons.inj h).2

/-- A text in quotes takes at least as many characters as it means with its quotes escaped. -/
theorem length_quotesEscaped_le {cs s rest : List Char} (h : Quoted cs s rest) :
    (quotesEscaped s).length + 1 + rest.length ≤ cs.length := by
  induction h with
  | close => simp [quotesEscaped, Nat.add_comm]
  | plain hc _ ih =>
    rw [quotesEscaped_cons, if_neg hc.2.1]
    simp only [List.length_append, List.length_cons, List.length_nil]
    omega
  | @escape e c _ _ _ he _ ih =>
    have hpos := he.length_pos
    have hshort : (if c = '"' then ['\\', '"'] else [c]).length ≤ 2 := by split <;> simp
    rw [quotesEscaped_cons]
    simp only [List.length_append, List.length_cons] at ih ⊢
    omega

/-- The characters that stand for themselves if only quotes are escaped. -/
def IsClean (c : Char) : Prop := c ≠ '\\' ∧ 0x20 ≤ c.toNat

theorem quoted_quotesEscaped {cs tail : List Char} (h : ∀ c ∈ cs, IsClean c) :
    Quoted (quotesEscaped cs ++ '"' :: tail) cs tail := by
  induction cs with
  | nil => exact .close
  | cons c cs ih =>
    obtain ⟨⟨hbackslash, hcontrol⟩, hcs⟩ := List.forall_mem_cons.mp h
    rw [quotesEscaped_cons]
    split
    · rename_i hquote
      subst hquote
      have hescape : Escape ['"'] '"' := .short (by decide)
      show Quoted ('\\' :: (['"'] ++ (quotesEscaped cs ++ '"' :: tail))) _ _
      exact .escape hescape (ih hcs)
    · exact .plain ⟨hcontrol, ‹_›, hbackslash⟩ (ih hcs)

/-- Where a text is read behind an escape and stands there with its quotes escaped, the escape is no longer than what
    is in front of that. -/
theorem length_escape_le {e front text cs tail : List Char} (h : Quoted text cs tail)
    (htext : front ++ (quotesEscaped cs ++ '"' :: tail) = e ++ text) : e.length ≤ front.length := by
  have hread := length_quotesEscaped_le h
  have hlength := congrArg List.length htext
  simp only [List.length_append, List.length_cons] at hlength
  omega

/-- Where a text with its quotes escaped means itself, its characters stand for themselves. -/
theorem isClean_of_quoted {cs tail : List Char} (h : Quoted (quotesEscaped cs ++ '"' :: tail) cs tail) :
    ∀ c ∈ cs, IsClean c := by
  induction cs with
  | nil => simp
  | cons c cs ih =>
    rw [quotesEscaped_cons] at h
    split at h
    · rename_i hquote
      subst hquote
      generalize htext : ['\\', '"'] ++ quotesEscaped cs ++ '"' :: tail = text at h
      cases h with
      | plain hplain => exact absurd (List.cons.inj htext).1.symm hplain.2.2
      | @escape e _ text _ _ hescape hrest =>
        have htext : ['"'] ++ (quotesEscaped cs ++ '"' :: tail) = e ++ text := (List.cons.inj htext).2
        obtain ⟨x, rfl⟩ := List.length_eq_one_iff.mp ((length_escape_le hrest htext).antisymm hescape.length_pos)
        obtain ⟨-, rfl⟩ := List.cons.inj htext
        exact List.forall_mem_cons.mpr ⟨⟨by decide, by decide⟩, ih hrest⟩
    · generalize htext : [c] ++ quotesEscaped cs ++ '"' :: tail = text at h
      cases h with
      | plain hplain hrest =>
        obtain ⟨-, rfl⟩ := List.cons.inj htext
        exact List.forall_mem_cons.mpr ⟨⟨hplain.2.2, hplain.1⟩, ih hrest⟩
      | @escape e _ text _ _ hescape hrest =>
        -- The backslash is the character itself, so that nothing is in front of the rest for an escape to take.
        have htext : [] ++ (quotesEscaped cs ++ '"' :: tail) = e ++ text := (List.cons.inj htext).2
        exact absurd (length_escape_le hrest htext) (Nat.not_le.mpr hescape.length_pos)

/-! ### Complaints -/

/-- A run whose settings cannot be read ends with the complaint about them. -/
theorem run_of_settingsFault {host : Host (StateM FileTree)} {tree after : FileTree} {arguments : List String}
    {i : Invocation} {fault : SettingsFault} (hread : Invocation.read arguments = .ok i)
    (hsettings : (readSettings host i.config).run tree = (.error fault, after)) :
    (run host arguments).run tree = (⟨1, "", i.voice.complain fault.message⟩, after) := by
  simp only [run, hread]
  rw [StateT.run_bind, hsettings]
  rfl

namespace Voice

theorem complain_toList (message : String) :
    (complain ⟨.json, false⟩ message).toList =
      '\x7b' :: '"' :: ("error".toList ++ '"' :: ':' :: ' ' :: '"' ::
        (quotesEscaped message.toList ++ '"' :: ['\x7d', '\n'])) := by
  simp [complain, line, quotesEscaped]

/-- What stands behind the brace can be read as a member in one way only: a text with the key `error`. -/
theorem member_of_complaint {cs after : List Char} {m : String × Option String}
    (h : Member ('"' :: ("error".toList ++ '"' :: ':' :: ' ' :: '"' :: cs)) m after) :
    ∃ s : String, m = ("error", some s) ∧ Quoted cs s.toList after := by
  cases h with
  | intro hkey hquoted hcolon hvalue hread =>
    obtain ⟨-, rfl⟩ := List.cons.inj (hkey.eq_of_not_blank (by decide))
    obtain ⟨hk, rfl⟩ := hquoted.eq_of_plain (by simp [IsPlain])
    obtain ⟨-, rfl⟩ := List.cons.inj (hcolon.eq_of_not_blank (by decide))
    obtain rfl := String.toList_inj.mp hk
    cases hvalue with
    | none => exact absurd hread not_value_blank
    | blank _ hvalue =>
      obtain rfl := hvalue.eq_of_not_blank (by decide)
      obtain ⟨s, rfl, hquoted⟩ := hread.exists_text
      exact ⟨s, rfl, hquoted⟩

/-- No member follows in a text with its quotes escaped. -/
theorem not_member_of_complaint {cs tail before after next rest : List Char} {m : String × Option String}
    (htail : '"' ∉ tail) (h : quotesEscaped cs ++ '"' :: tail = before ++ '"' :: after)
    (hcomma : Blanks after (',' :: next)) : ¬Member next m rest := by
  intro hmember
  cases hmember with
  | @intro _ key _ _ _ _ _ _ hkey hquoted =>
    obtain ⟨blanks, rfl, -⟩ := hcomma.exists_eq
    obtain ⟨blanks', rfl, hblanks⟩ := hkey.exists_eq
    -- In front of the quote of the key stands a comma or a blank, so it is the quote that ends the text.
    obtain ⟨front, c, hfront⟩ : ∃ front c, ',' :: blanks' = front ++ [c] :=
      ⟨_, _, (List.dropLast_append_getLast (List.cons_ne_nil _ _)).symm⟩
    have hc : c = ',' ∨ c ∈ blanks' := List.mem_cons.mp (hfront ▸ List.mem_append_right _ List.mem_cons_self)
    have hcomma : ',' :: (blanks' ++ '"' :: key) = front ++ c :: '"' :: key := by
      rw [← List.cons_append, hfront, List.append_assoc, List.singleton_append]
    have hplace : quotesEscaped cs ++ '"' :: tail = (before ++ '"' :: blanks ++ front) ++ c :: '"' :: key := by
      rw [h, hcomma]
      simp
    obtain ⟨inner, rfl⟩ := hquoted.exists_eq
    rcases escaped_or_last htail hplace with rfl | rfl
    · exact hc.elim (by decide) fun hc => absurd (hblanks _ hc) (by decide)
    · exact htail (by simp)

/-- A complaint that can be read has a message of characters that stand for themselves. -/
theorem isClean_of_complaint {message : String} {members : List (String × Option String)}
    (h : IsObject (complain ⟨.json, false⟩ message).toList members) (hmem : ("error", some message) ∈ members) :
    ∀ c ∈ message.toList, IsClean c := by
  rw [complain_toList] at h
  have htail : '"' ∉ ['\x7d', '\n'] := by decide
  obtain ⟨object, rest, hfront, hobject, hback⟩ := h
  obtain rfl := hfront.eq_of_not_blank (by decide)
  cases hobject with
  | empty hbrace => cases hbrace.eq_of_not_blank (by decide)
  | members hmembers =>
    cases hmembers with
    | last hmember hbrace =>
      obtain ⟨s, rfl, hquoted⟩ := member_of_complaint hmember
      obtain ⟨before, htext⟩ := hquoted.exists_eq
      -- Nothing but a brace and blanks follows, so the text in quotes is the whole message.
      have hrest : '"' ∉ '\x7d' :: rest := by simpa using hback.notMem (by decide) List.not_mem_nil
      have hafter := hbrace.notMem (by decide) hrest
      obtain ⟨-, rfl⟩ := eq_of_append_cons_eq htail hafter htext
      cases List.mem_singleton.mp hmem
      exact isClean_of_quoted hquoted
    | more hmember hcomma hnext =>
      obtain ⟨s, rfl, hquoted⟩ := member_of_complaint hmember
      obtain ⟨before, htext⟩ := hquoted.exists_eq
      cases hnext with
      | last hmember' | more hmember' => exact absurd hmember' (not_member_of_complaint htail htext hcomma)

/-- A complaint in JSON is an object that has its message under `error` exactly if the message has no backslash and no
    control character. -/
theorem complain_reads_iff (message : String) :
    (∃ members, IsObject (complain ⟨.json, false⟩ message).toList members ∧ ("error", some message) ∈ members) ↔
      ∀ c ∈ message.toList, c ≠ '\\' ∧ 0x20 ≤ c.toNat := by
  constructor
  · rintro ⟨members, hobject, hmem⟩
    exact isClean_of_complaint hobject hmem
  · intro hclean
    have hkey (cs : List Char) : Quoted ("error".toList ++ '"' :: cs) "error".toList cs :=
      Json.quoted_flatMap_escape "error".toList cs
    have hmember : Member ('"' :: ("error".toList ++ '"' :: ':' :: ' ' :: '"' ::
        (quotesEscaped message.toList ++ '"' :: ['\x7d', '\n']))) ("error", some message) ['\x7d', '\n'] :=
      .intro .none (hkey _) .none (.blank (by decide) .none) (.text (quoted_quotesEscaped hclean))
    rw [complain_toList]
    exact ⟨[("error", some message)], ⟨_, _, .none, .members (.last hmember .none), .blank (by decide) .none⟩,
      List.mem_cons_self⟩

/-- A file of settings with a backslash in its name is not there, and the complaint about it cannot be read. -/
theorem backslash_complaint_unread :
    ((run (FileTree.host ⟨[]⟩ []) ["--output", "json", "--config", "a\\b.toml", "check", "decl.yaml"]).run
        (⟨[]⟩ : FileTree)).1 =
      ⟨1, "", "\x7b\"error\": \"could not read 'a\\b.toml': No such file or directory (os error 2)\"\x7d\n"⟩ ∧
    ¬∃ members, IsObject
        "\x7b\"error\": \"could not read 'a\\b.toml': No such file or directory (os error 2)\"\x7d\n".toList members ∧
      ("error", some "could not read 'a\\b.toml': No such file or directory (os error 2)") ∈ members := by
  have htext : complain ⟨.json, false⟩ "could not read 'a\\b.toml': No such file or directory (os error 2)" =
      "\x7b\"error\": \"could not read 'a\\b.toml': No such file or directory (os error 2)\"\x7d\n" := by decide +kernel
  have hbackslash : '\\' ∈ "could not read 'a\\b.toml': No such file or directory (os error 2)".toList := by simp
  rw [← htext]
  constructor
  · have hread : Invocation.read ["--output", "json", "--config", "a\\b.toml", "check", "decl.yaml"] =
        .ok ⟨.json, false, some "a\\b.toml", .check, "decl.yaml"⟩ := rfl
    have hsettings : (readSettings (FileTree.host ⟨[]⟩ []) (some "a\\b.toml")).run (⟨[]⟩ : FileTree) =
        (.error (.notRead "a\\b.toml" .noEntry), ⟨[]⟩) := rfl
    have hmessage : (SettingsFault.notRead "a\\b.toml" .noEntry).message =
        "could not read 'a\\b.toml': No such file or directory (os error 2)" := by decide +kernel
    rw [run_of_settingsFault hread hsettings, hmessage]
    rfl
  · rintro ⟨members, hobject, hmem⟩
    exact (isClean_of_complaint hobject hmem _ hbackslash).1 rfl

/-- A diagnostic in JSON is an object that has its code under `error` and its message under `message`. -/
theorem report_reads (quiet : Bool) (d : Diagnostic) :
    ∃ members, IsObject (report ⟨.json, quiet⟩ d).toList members ∧ ("error", some d.code) ∈ members ∧
      ("message", some d.message) ∈ members := by
  have hblank : Blanks ['\n'] [] := .blank (by decide) .none
  have hline : (report ⟨.json, quiet⟩ d).toList = (d.json.write 0).toList ++ ['\n'] := by
    simp [report, line, Json.pretty]
  rw [hline]
  exact ⟨_, ⟨_, _, .none, Json.object_write (fun e _ => Json.isRead e.2) 0 ['\n'], hblank⟩, by simp [Json.text?],
    by simp [Json.text?]⟩

end Voice

end Manifests.CommandLine
