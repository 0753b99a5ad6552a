import Manifests.Json
import Manifests.Proofs.Number.Shortest

/-! # The grammar of JSON

Texts that are JSON, read from the front: each relation takes some characters off a text, and leaves the rest. Of a
value only what matters to a reader of texts is told: a text in quotes means a text, and an object has members. What
trees are written as is read like this (`Json.isRead`). -/

namespace Manifests

/-! ### The grammar -/

namespace JsonText

/-- Blanks may stand here. -/
inductive Blanks : List Char → List Char → Prop where
  | none {rest : List Char} : Blanks rest rest
  | blank {c : Char} {cs rest : List Char} : c ∈ [' ', '\t', '\n', '\r'] → Blanks cs rest → Blanks (c :: cs) rest

/-- Four hexadecimal digits. -/
def IsUnit (digits : List Char) (n : Nat) : Prop := digits.length = 4 ∧ Number.readNat? 16 digits = some n

/-- What stands for a character after a backslash: one character, or the number of the character, which may be too
    large for one unit and take a pair. -/
inductive Escape : List Char → Char → Prop where
  | short {e c : Char} :
    (e, c) ∈
      [('"', '"'), ('\\', '\\'), ('/', '/'), ('b', '\x08'), ('f', '\x0C'), ('n', '\n'), ('r', '\r'), ('t', '\t')] →
    Escape [e] c
  | unit {digits : List Char} {c : Char} : IsUnit digits c.toNat → Escape ('u' :: digits) c
  | pair {high low : List Char} {n m : Nat} {c : Char} : IsUnit high (0xD800 + n) → IsUnit low (0xDC00 + m) →
    n < 0x400 → m < 0x400 → c.toNat = 0x10000 + n * 0x400 + m → Escape ('u' :: high ++ '\\' :: 'u' :: low) c

/-- A character that stands for itself in a text. -/
def IsPlain (c : Char) : Prop := 0x20 ≤ c.toNat ∧ c ≠ '"' ∧ c ≠ '\\'

/-- What follows the first quote of a text: the characters that it means, and the other quote. -/
inductive Quoted : List Char → List Char → List Char → Prop where
  | close {rest : List Char} : Quoted ('"' :: rest) [] rest
  | plain {c : Char} {cs s rest : List Char} : IsPlain c → Quoted cs s rest → Quoted (c :: cs) (c :: s) rest
  | escape {e : List Char} {c : Char} {cs s rest : List Char} : Escape e c → Quoted cs s rest →
    Quoted ('\\' :: (e ++ cs)) (c :: s) rest

/-- Decimal digits, at least one. -/
inductive Digits : List Char → List Char → Prop where
  | last {c : Char} {rest : List Char} : Number.isDigit c = true → Digits (c :: rest) rest
  | more {c : Char} {cs rest : List Char} : Number.isDigit c = true → Digits cs rest → Digits (c :: cs) rest

/-- A whole number, which begins with a zero only if it is zero. -/
inductive Whole : List Char → List Char → Prop where
  | zero {rest : List Char} : Whole ('0' :: rest) rest
  | digits {c : Char} {cs rest : List Char} : c ≠ '0' → Digits (c :: cs) rest → Whole (c :: cs) rest

inductive Fraction : List Char → List Char → Prop where
  | none {rest : List Char} : Fraction rest rest
  | digits {cs rest : List Char} : Digits cs rest → Fraction ('.' :: cs) rest

inductive Exponent : List Char → List Char → Prop where
  | none {rest : List Char} : Exponent rest rest
  | digits {e : Char} {sign cs rest : List Char} : e ∈ ['e', 'E'] → sign ∈ [[], ['+'], ['-']] → Digits cs rest →
    Exponent (e :: (sign ++ cs)) rest

inductive Numeral : List Char → List Char → Prop where
  | intro {sign whole fraction exponent rest : List Char} : sign ∈ [[], ['-']] → Whole whole fraction →
    Fraction fraction exponent → Exponent exponent rest → Numeral (sign ++ whole) rest

mutual

/-- A value. If it is a text, that is given. -/
inductive Value : List Char → Option String → List Char → Prop where
  | null {rest : List Char} : Value ('n' :: 'u' :: 'l' :: 'l' :: rest) none rest
  | true {rest : List Char} : Value ('t' :: 'r' :: 'u' :: 'e' :: rest) none rest
  | false {rest : List Char} : Value ('f' :: 'a' :: 'l' :: 's' :: 'e' :: rest) none rest
  | number {cs rest : List Char} : Numeral cs rest → Value cs none rest
  | text {cs rest : List Char} {s : String} : Quoted cs s.toList rest → Value ('"' :: cs) (some s) rest
  | emptyList {cs rest : List Char} : Blanks cs (']' :: rest) → Value ('[' :: cs) none rest
  | list {cs rest : List Char} : Items cs rest → Value ('[' :: cs) none rest
  | object {cs rest : List Char} {members : List (String × Option String)} : Object cs members rest →
    Value cs none rest

/-- The items of a list that is not empty, and its bracket. -/
inductive Items : List Char → List Char → Prop where
  | last {cs item after rest : List Char} {v : Option String} : Blanks cs item → Value item v after →
    Blanks after (']' :: rest) → Items cs rest
  | more {cs item after next rest : List Char} {v : Option String} : Blanks cs item → Value item v after →
    Blanks after (',' :: next) → Items next rest → Items cs rest

/-- An object with its members. -/
inductive Object : List Char → List (String × Option String) → List Char → Prop where
  | empty {cs rest : List Char} : Blanks cs ('\x7d' :: rest) → Object ('\x7b' :: cs) [] rest
  | members {cs rest : List Char} {members : List (String × Option String)} : Members cs members rest →
    Object ('\x7b' :: cs) members rest

/-- The members of an object that is not empty, and its brace. -/
inductive Members : List Char → List (String × Option String) → List Char → Prop where
  | last {cs after rest : List Char} {m : String × Option String} : Member cs m after →
    Blanks after ('\x7d' :: rest) → Members cs [m] rest
  | more {cs after next rest : List Char} {m : String × Option String} {members : List (String × Option String)} :
    Member cs m after → Blanks after (',' :: next) → Members next members rest → Members cs (m :: members) rest

/-- A member: a text, a colon and a value. -/
inductive Member : List Char → String × Option String → List Char → Prop where
  | intro {cs key after value rest : List Char} {colon : List Char} {k : String} {v : Option String} :
    Blanks cs ('"' :: key) → Quoted key k.toList after → Blanks after (':' :: colon) → Blanks colon value →
    Value value v rest → Member cs (k, v) rest

end

/-- A whole text is an object with these members. -/
def IsObject (cs : List Char) (members : List (String × Option String)) : Prop :=
  ∃ object rest, Blanks cs object ∧ Object object members rest ∧ Blanks rest []

end JsonText

/-! ### Taking texts apart -/

namespace JsonText

theorem Blanks.exists_eq {cs rest : List Char} (h : Blanks cs rest) :
    ∃ blanks, cs = blanks ++ rest ∧ ∀ c ∈ blanks, c ∈ [' ', '\t', '\n', '\r'] := by
  induction h with
  | none => exact ⟨[], rfl, by simp⟩
  | @blank c _ _ hc _ ih =>
    obtain ⟨blanks, rfl, hblanks⟩ := ih
    exact ⟨c :: blanks, rfl, List.forall_mem_cons.mpr ⟨hc, hblanks⟩⟩

/-- No blanks stand in front of another character. -/
theorem Blanks.eq_of_not_blank {c : Char} {cs rest : List Char} (hc : c ∉ [' ', '\t', '\n', '\r'])
    (h : Blanks (c :: cs) rest) : rest = c :: cs := by
  cases h with
  | none => rfl
  | blank hblank => exact absurd hblank hc

theorem Blanks.notMem {c : Char} {cs rest : List Char} (hc : c ∉ [' ', '\t', '\n', '\r']) (h : Blanks cs rest)
    (hrest : c ∉ rest) : c ∉ cs := by
  obtain ⟨blanks, rfl, hblanks⟩ := h.exists_eq
  exact fun hmem => (List.mem_append.mp hmem).elim (fun hmem => hc (hblanks c hmem)) hrest

/-- A text ends with a quote. -/
theorem Quoted.exists_eq {cs s rest : List Char} (h : Quoted cs s rest) : ∃ before, cs = before ++ '"' :: rest := by
  induction h with
  | close => exact ⟨[], rfl⟩
  | @plain c _ _ _ _ _ ih =>
    obtain ⟨before, rfl⟩ := ih
    exact ⟨c :: before, rfl⟩
  | @escape e _ _ _ _ _ _ ih =>
    obtain ⟨before, rfl⟩ := ih
    exact ⟨'\\' :: (e ++ before), by simp⟩

theorem Escape.length_pos {e : List Char} {c : Char} (h : Escape e c) : 0 < e.length := by
  cases h <;> simp

/-- Plain characters mean themselves, up to the quote after them. -/
theorem Quoted.eq_of_plain {word cs s rest : List Char} (hword : ∀ c ∈ word, IsPlain c)
    (h : Quoted (word ++ '"' :: cs) s rest) : s = word ∧ rest = cs := by
  induction word generalizing s with
  | nil =>
    generalize htext : [] ++ '"' :: cs = text at h
    cases h with
    | close => exact ⟨rfl, (List.cons.inj htext).2.symm⟩
    | plain hc => exact absurd (List.cons.inj htext).1.symm hc.2.1
    | escape => exact absurd (List.cons.inj htext).1 (by decide)
  | cons c word ih =>
    obtain ⟨hc, hword⟩ := List.forall_mem_cons.mp hword
    generalize htext : c :: word ++ '"' :: cs = text at h
    cases h with
    | close => exact absurd (List.cons.inj htext).1 hc.2.1
    | plain _ hrest =>
      obtain ⟨rfl, rfl⟩ := List.cons.inj htext
      obtain ⟨rfl, hafter⟩ := ih hword hrest
      exact ⟨rfl, hafter⟩
    | escape => exact absurd (List.cons.inj htext).1 hc.2.2

theorem Numeral.head {c : Char} {cs rest : List Char} (h : Numeral (c :: cs) rest) :
    c = '-' ∨ Number.isDigit c = true := by
  generalize htext : c :: cs = text at h
  cases h with
  | @intro sign whole _ _ _ hsign hwhole =>
    rcases List.mem_cons.mp hsign with rfl | hsign
    · rw [List.nil_append] at htext
      subst htext
      cases hwhole with
      | zero => exact .inr rfl
      | digits _ hdigits => cases hdigits <;> exact .inr ‹_›
    · obtain rfl := List.mem_singleton.mp hsign
      exact .inl (List.cons.inj htext).1

/-- A value that begins with a quote is a text. -/
theorem Value.exists_text {cs rest : List Char} {v : Option String} (h : Value ('"' :: cs) v rest) :
    ∃ s : String, v = some s ∧ Quoted cs s.toList rest := by
  cases h with
  | text hquoted => exact ⟨_, rfl, hquoted⟩
  | number hnumeral => exact absurd hnumeral.head (by decide)
  | object hobject => cases hobject

/-- No value begins with a blank. -/
theorem not_value_blank {cs rest : List Char} {v : Option String} : ¬Value (' ' :: cs) v rest := by
  intro h
  cases h with
  | number hnumeral => exact absurd hnumeral.head (by decide)
  | object hobject => cases hobject

end JsonText

/-! ### What trees are written as -/

namespace Json
open JsonText

/-- The text that a tree is, if it is one. -/
def text? : Json → Option String
  | .text s => some s
  | _ => none

theorem isUnit_control {n : Nat} (h : n < 0x20) : IsUnit ['0', '0', hexDigit (n / 16), hexDigit (n % 16)] n := by
  have hall : ∀ n < 0x20, Number.readNat? 16 ['0', '0', hexDigit (n / 16), hexDigit (n % 16)] = some n := by decide
  exact ⟨rfl, hall n h⟩

theorem quoted_escape {c : Char} {cs s rest : List Char} (h : Quoted cs s rest) :
    Quoted (escape c ++ cs) (c :: s) rest := by
  have hshort {e : Char} (he : Escape [e] c) : Quoted (['\\', e] ++ cs) (c :: s) rest := .escape he h
  unfold escape
  split
  · exact hshort (.short (by decide))
  · exact hshort (.short (by decide))
  · exact hshort (.short (by decide))
  · exact hshort (.short (by decide))
  · exact hshort (.short (by decide))
  · exact hshort (.short (by decide))
  · exact hshort (.short (by decide))
  · rename_i hquote hbackslash _ _ _ _ _
    split
    · rename_i hcontrol
      exact .escape (.unit (isUnit_control hcontrol)) h
    · rename_i hplain
      exact .plain ⟨Nat.not_lt.mp hplain, hquote, hbackslash⟩ h

/-- A text in quotes means the text. -/
theorem quoted_flatMap_escape (s rest : List Char) : Quoted (s.flatMap escape ++ '"' :: rest) s rest := by
  induction s with
  | nil => exact .close
  | cons c s ih =>
    rw [List.flatMap_cons, List.append_assoc]
    exact quoted_escape ih

theorem value_quote (s : String) (rest : List Char) : Value ((quote s).toList ++ rest) (some s) rest := by
  have hquote : (quote s).toList ++ rest = '"' :: (s.toList.flatMap escape ++ '"' :: rest) := by
    simp [quote]
  rw [hquote]
  exact .text (quoted_flatMap_escape s.toList rest)

theorem blanks_newLine (level : Nat) (rest : List Char) : Blanks ((newLine level).toList ++ rest) rest := by
  have hspaces (n : Nat) : Blanks (List.replicate n ' ' ++ rest) rest := by
    induction n with
    | zero => exact .none
    | succ n ih => exact .blank (by decide) ih
  rw [newLine, String.toList_ofList]
  exact .blank (by decide) (hspaces _)

theorem digits_append {cs : List Char} (hdigits : ∀ c ∈ cs, Number.isDigit c = true) (hne : cs ≠ [])
    (rest : List Char) : Digits (cs ++ rest) rest := by
  induction cs with
  | nil => exact absurd rfl hne
  | cons c cs ih =>
    obtain ⟨hc, hcs⟩ := List.forall_mem_cons.mp hdigits
    by_cases hnil : cs = []
    · subst hnil
      exact .last hc
    · exact .more hc (ih hcs hnil)

/-- The digits of a number begin with a zero only if the number is zero. -/
theorem whole_decimalDigits (n : Nat) (rest : List Char) : Whole (Number.decimalDigits n ++ rest) rest := by
  rcases Nat.eq_zero_or_pos n with rfl | hn
  · exact .zero
  have hdecimal := Number.isDecimal_decimalDigits n
  have hvalue := Number.decimalValue_decimalDigits n
  have hlength := Number.pow_le_of_pos hn
  cases hcs : Number.decimalDigits n with
  | nil => exact absurd hcs hdecimal.nonempty
  | cons c cs =>
    rw [hcs] at hdecimal hvalue hlength
    refine .digits ?_ (digits_append hdecimal.digits hdecimal.nonempty rest)
    rintro rfl
    have hlt : Number.decimalValueFrom 0 cs < (0 + 1) * 10 ^ cs.length :=
      Number.decimalValueFrom_lt (List.forall_mem_cons.mp hdecimal.digits).2 0
    change Number.decimalValueFrom 0 cs = n at hvalue
    rw [hvalue, Nat.zero_add, Nat.one_mul] at hlt
    exact absurd hlength (Nat.not_le.mpr hlt)

theorem numeral_decimal (n : Int) (rest : List Char) : Numeral ((Number.decimal n).toList ++ rest) rest := by
  cases n with
  | ofNat n =>
    rw [Number.decimal, String.toList_ofList, ← List.nil_append (Number.decimalDigits n ++ rest)]
    exact .intro (by decide) (whole_decimalDigits n rest) .none .none
  | negSucc n =>
    rw [Number.decimal, String.toList_ofList, List.cons_append, ← List.singleton_append]
    exact .intro (by decide) (whole_decimalDigits (n + 1) rest) .none .none

/-- The tree is read as a value wherever it is written. -/
def IsRead (tree : Json) : Prop :=
  ∀ (level : Nat) (rest : List Char), Value ((write level tree).toList ++ rest) tree.text? rest

theorem items_writeItems {level below : Nat} {item : Json} {items : List Json} (h : ∀ i ∈ item :: items, i.IsRead)
    (rest : List Char) :
    Items ((writeItems level (item :: items)).toList ++ ((newLine below).toList ++ ']' :: rest)) rest := by
  induction items generalizing item with
  | nil =>
    rw [writeItems, String.toList_append, List.append_assoc]
    exact .last (blanks_newLine level _) (h item List.mem_cons_self level _) (blanks_newLine below _)
  | cons next items ih =>
    obtain ⟨hitem, hitems⟩ := List.forall_mem_cons.mp h
    have hwrite : (writeItems level (item :: next :: items)).toList = (newLine level).toList ++
        ((write level item).toList ++ ',' :: (writeItems level (next :: items)).toList) := by
      simp [writeItems]
    rw [hwrite, List.append_assoc, List.append_assoc]
    exact .more (blanks_newLine level _) (hitem level _) .none (ih hitems)

theorem member_write {level : Nat} {key : String} {value : Json} (h : value.IsRead) (rest : List Char) :
    Member ((newLine level).toList ++ ((quote key).toList ++ ':' :: ' ' :: ((write level value).toList ++ rest)))
      (key, value.text?) rest := by
  have hquote (rest : List Char) : (quote key).toList ++ rest = '"' :: (key.toList.flatMap escape ++ '"' :: rest) := by
    simp [quote]
  rw [hquote]
  exact .intro (blanks_newLine level _) (quoted_flatMap_escape key.toList _) .none (.blank (by decide) .none)
    (h level rest)

theorem members_writeEntries {level below : Nat} {entry : String × Json} {entries : List (String × Json)}
    (h : ∀ e ∈ entry :: entries, e.2.IsRead) (rest : List Char) :
    Members ((writeEntries level (entry :: entries)).toList ++ ((newLine below).toList ++ '\x7d' :: rest))
      ((entry :: entries).map fun e => (e.1, e.2.text?)) rest := by
  induction entries generalizing entry with
  | nil =>
    have hwrite (after : List Char) : (writeEntries level [entry]).toList ++ after = (newLine level).toList ++
        ((quote entry.1).toList ++ ':' :: ' ' :: ((write level entry.2).toList ++ after)) := by
      simp [writeEntries]
    rw [hwrite]
    exact .last (member_write (h entry List.mem_cons_self) _) (blanks_newLine below _)
  | cons next entries ih =>
    obtain ⟨hentry, hentries⟩ := List.forall_mem_cons.mp h
    have hwrite (after : List Char) : (writeEntries level (entry :: next :: entries)).toList ++ after =
        (newLine level).toList ++ ((quote entry.1).toList ++ ':' :: ' ' :: ((write level entry.2).toList ++
          ',' :: ((writeEntries level (next :: entries)).toList ++ after))) := by
      simp [writeEntries]
    rw [hwrite]
    exact .more (member_write hentry _) .none (ih hentries)

/-- An object is read with its entries. -/
theorem object_write {entries : List (String × Json)} (h : ∀ e ∈ entries, e.2.IsRead) (level : Nat)
    (rest : List Char) :
    Object ((write level (.object entries)).toList ++ rest) (entries.map fun e => (e.1, e.2.text?)) rest := by
  cases entries with
  | nil =>
    rw [write]
    exact .empty .none
  | cons entry entries =>
    have hwrite : (write level (.object (entry :: entries))).toList ++ rest = '\x7b' ::
        ((writeEntries (level + 1) (entry :: entries)).toList ++ ((newLine level).toList ++ '\x7d' :: rest)) := by
      simp [write]
    rw [hwrite]
    exact .members (members_writeEntries h rest)

/-- What a tree is written as is read as a value, and as the text that the tree is. -/
theorem isRead (tree : Json) : tree.IsRead := by
  intro level rest
  match tree with
  | .null =>
    rw [write]
    exact .null
  | .bool true =>
    rw [write]
    exact .true
  | .bool false =>
    rw [write]
    exact .false
  | .number n =>
    rw [write]
    exact .number (numeral_decimal n rest)
  | .text s =>
    rw [write]
    exact value_quote s rest
  | .list [] =>
    rw [write]
    exact .emptyList .none
  | .list (item :: items) =>
    have hwrite : (write level (.list (item :: items))).toList ++ rest =
        '[' :: ((writeItems (level + 1) (item :: items)).toList ++ ((newLine level).toList ++ ']' :: rest)) := by
      simp [write]
    rw [hwrite]
    exact .list (items_writeItems (fun i hi => isRead i) rest)
  | .object entries =>
    refine .object (object_write (fun e he => ?_) level rest)
    have hsize : sizeOf e.2 < 1 + sizeOf entries := by
      have hmem := List.sizeOf_lt_of_mem he
      obtain ⟨key, value⟩ := e
      rw [Prod.mk.sizeOf_spec] at hmem
      show sizeOf value < 1 + sizeOf entries
      omega
    exact isRead e.2
termination_by sizeOf tree

end Json

end Manifests
