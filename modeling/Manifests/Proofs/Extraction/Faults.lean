import Manifests.Extraction.Defect
import Manifests.Proofs.Extraction.Fields
import Manifests.Proofs.Extraction.Grammar
import Manifests.Spec.BuildConfig
import Manifests.Spec.Gateway

/-! # Faults of a value

What is wrong with a value as one of a grammar, and where. A path leads from a value to one of its parts, and to what
the grammar asks of that part (`Grammar.Leads`). A fault is an entry that a record has no field for, a part that is
none of its grammar for what it is itself, or a needed field that is not there (`Grammar.HasFault`). A value with a
fault is none of the grammar (`HasFault.not_conforms`). -/

namespace Manifests.Grammar

open Extraction (Fault present)

/-! ### Paths into a value -/

/-- The path leads from a value of the one grammar to a part of it, of which the other grammar is asked. A null value is
    a part only where it does not count as an absent one. -/
inductive Leads : Grammar → Value → FieldPath → Grammar → Value → Prop
  | here {g : Grammar} {v : Value} : Leads g v [] g v
  | key {g inner g' : Grammar} {key : String} {entries : List Entry} {v v' : Value} {path : FieldPath} :
      g.field? key = some inner → (key, v) ∈ entries → (v = .null → ¬ g.TakesNull) → Leads inner v path g' v' →
      Leads g (.map entries) (.key key :: path) g' v'
  | index {item g' : Grammar} {i : Nat} {items : List Value} {v v' : Value} {path : FieldPath} :
      items[i]? = some v → Leads item v path g' v' → Leads (.list item) (.list items) (.index i :: path) g' v'
  /-- A mapping is no integer, so it is a value of the other grammar. -/
  | other {other g' : Grammar} {entries : List Entry} {v' : Value} {path : FieldPath} :
      Leads other (.map entries) path g' v' → Leads (.orInteger other) (.map entries) path g' v'

theorem conforms_of_field? {g inner : Grammar} {key : String} {entries : List Entry} {v : Value}
    (hinner : g.field? key = some inner) (hentry : (key, v) ∈ entries) (hnull : v = .null → ¬ g.TakesNull)
    (h : g.Conforms (.map entries)) : inner.Conforms v := by
  cases h with
  | table hnulls hvalues =>
    obtain rfl := Option.some.inj hinner
    exact hvalues _ hentry fun hv => hnull hv (hnulls _ hentry hv)
  | @choice keys _ chosen _ hchosen htext =>
    obtain ⟨-, rfl⟩ := field?_choice_eq_some hinner
    have hpresent : (key, v) ∈ entries.filter (!·.2.isNull) := by
      refine List.mem_filter.mpr ⟨hentry, ?_⟩
      rw [Bool.not_eq_true', Bool.eq_false_iff, ne_eq, Value.isNull_iff]
      exact fun hv => hnull hv trivial
    rw [hchosen, List.mem_singleton] at hpresent
    rwa [← hpresent] at htext
  | record _ hvalues _ => exact hvalues _ hentry (fun hv => hnull hv trivial) inner hinner
  | word | number | other => cases hinner

/-- A part that is none of its grammar makes the whole none of its own. -/
theorem Leads.not_conforms {g g' : Grammar} {v v' : Value} {path : FieldPath} (h : Leads g v path g' v')
    (hpart : ¬ g'.Conforms v') : ¬ g.Conforms v := by
  induction h with
  | here => exact hpart
  | key hinner hentry hnull _ ih => exact fun hv => ih hpart (conforms_of_field? hinner hentry hnull hv)
  | index hitem _ ih =>
    intro hv
    cases hv with
    | list hitems => exact ih hpart (hitems _ (List.mem_of_getElem? hitem))
  | other _ ih =>
    intro hv
    cases hv with
    | number hnumber => cases hnumber
    | other hother => exact ih hpart hother

/-! ### Parts that do not fit -/

/-- The values of the grammar are mappings. -/
def IsMapping : Grammar → Prop
  | .table .. | .choice _ | .record .. => True
  | _ => False

/-- A value is none of the grammar for what it is itself, whatever its parts are: it has another shape, or its text is
    no integer or none of the words, or it has no condition or several. -/
inductive Unfit : Grammar → Value → Fault → Prop
  | text {v : Value} : v.scalarText? = none → Unfit .text v (.expected .scalar v.shape)
  | integer {v : Value} : v.shape ≠ .integer → v.shape ≠ .string → Unfit .integer v (.expected .integer v.shape)
  | integerText {s : String} : (∀ inner, Text.Pads s.toList inner → ¬ Number.IsInt64 inner) →
      Unfit .integer (.text s) (.notInteger s)
  | truth {v : Value} : v.shape ≠ .bool → Unfit .truth v (.expected .bool v.shape)
  | noWord {words : List String} {v : Value} : v.scalarText? = none →
      Unfit (.word words) v (.expected .scalar v.shape)
  | tlsMode {v : Value} {name : String} : v.scalarText? = some name → name ∉ TlsMode.all.map TlsMode.name →
      Unfit (.word (TlsMode.all.map TlsMode.name)) v (.unknownTlsMode name)
  | strategy {v : Value} {name : String} : v.scalarText? = some name →
      name ∉ [StrategyType.docker, .source].map StrategyType.name →
      Unfit (.word ([StrategyType.docker, .source].map StrategyType.name)) v (.unknownStrategy name)
  | list {item : Grammar} {v : Value} : v.shape ≠ .list → Unfit (.list item) v (.expected .list v.shape)
  | mapping {g : Grammar} {v : Value} : g.IsMapping → v.shape ≠ .mapping → Unfit g v (.expected .mapping v.shape)
  | choice {keys : List String} {entries : List Entry} : (present entries).length ≠ 1 →
      Unfit (.choice keys) (.map entries) .notOneCondition
  /-- What is no mapping has to be an integer. -/
  | number {other : Grammar} {v : Value} {fault : Fault} : other.IsMapping → v.shape ≠ .mapping →
      Unfit .integer v fault → Unfit (.orInteger other) v fault

theorem shape_of_isMapping {g : Grammar} {v : Value} (hg : g.IsMapping) (h : g.Conforms v) : v.shape = .mapping := by
  cases h with
  | table | choice | record => rfl
  | bool | int | float | text | integer | integerText | truth | word | list | number | other => exact hg.elim

theorem Unfit.not_conforms {g : Grammar} {v : Value} {fault : Fault} (h : g.Unfit v fault) : ¬ g.Conforms v := by
  induction h with
  | text hnone =>
    intro hv
    rw [conforms_text_iff, hnone] at hv
    cases hv
  | integer hinteger htext =>
    intro hv
    cases hv with
    | integer => exact hinteger rfl
    | integerText => exact htext rfl
  | integerText hread =>
    intro hv
    cases hv with
    | integerText hpads hinner => exact hread _ hpads hinner
  | truth hshape =>
    intro hv
    cases hv with
    | truth => exact hshape rfl
  | noWord hnone =>
    intro hv
    cases hv with
    | word htext _ => exact nomatch hnone.symm.trans htext
  | tlsMode hname hwords | strategy hname hwords =>
    intro hv
    cases hv with
    | word htext hmem =>
      obtain rfl := Option.some.inj (hname.symm.trans htext)
      exact hwords hmem
  | list hshape =>
    intro hv
    cases hv with
    | list => exact hshape rfl
  | mapping hg hshape => exact fun hv => hshape (shape_of_isMapping hg hv)
  | choice hone =>
    intro hv
    cases hv with
    | choice _ hchosen _ => exact hone (congrArg List.length hchosen)
  | number hother hshape _ ih =>
    intro hv
    cases hv with
    | number hnumber => exact ih hnumber
    | other hvalue => exact hshape (shape_of_isMapping hother hvalue)

/-! ### Faults -/

/-- A value has a fault where the path leads, as a value of the grammar. -/
inductive HasFault (g : Grammar) (v : Value) : FieldPath → Fault → Prop
  /-- An entry stands there whose key is none of the mapping's own. -/
  | unrecognized {g' : Grammar} {place : FieldPath} {key : String} {entries : List Entry} {value : Value} :
      g.Leads v place g' (.map entries) → g'.IsMapping → g'.field? key = none → (key, value) ∈ entries →
      HasFault g v (place ++ [.key key]) .unrecognized
  /-- A value stands there that does not fit. -/
  | unfit {g' : Grammar} {place : FieldPath} {value : Value} {fault : Fault} : g.Leads v place g' value →
      g'.Unfit value fault → HasFault g v place fault
  /-- A record lacks what it needs there. -/
  | missing {fields : List (String × Grammar)} {needed : List (List String)} {place : FieldPath}
      {entries : List Entry} {keys : List String} : g.Leads v place (.record fields needed) (.map entries) →
      keys ∈ needed → ¬ Provides entries keys → HasFault g v (place ++ keys.map .key) .missing

theorem HasFault.not_conforms {g : Grammar} {v : Value} {path : FieldPath} {fault : Fault}
    (h : g.HasFault v path fault) : ¬ g.Conforms v := by
  cases h with
  | unrecognized hleads hmapping hkey hentry =>
    refine hleads.not_conforms fun hv => ?_
    cases hv with
    | table => cases hkey
    | choice hkeys _ _ => simp [field?, hkeys _ hentry] at hkey
    | record hkeys _ _ =>
      rw [field?, ← Option.not_isSome_iff_eq_none, lookup_isSome_iff_mem] at hkey
      exact hkey (hkeys _ hentry)
    | word | number | other => exact hmapping.elim
  | unfit hleads hunfit => exact hleads.not_conforms hunfit.not_conforms
  | missing hleads hneeded hprovides =>
    refine hleads.not_conforms fun hv => ?_
    cases hv with
    | record _ _ hall => exact hprovides (hall _ hneeded)

/-! ### Faults of the parts -/

section
variable {g inner : Grammar} {v : Value} {path : FieldPath} {fault : Fault}

theorem hasFault_of_unfit (h : g.Unfit v fault) : g.HasFault v [] fault := .unfit .here h

/-- A fault of a part is one of the whole, if each path on from the part is one from the whole. -/
theorem HasFault.of_part (step : FieldPath) {w : Value}
    (hleads : ∀ {place g' value}, inner.Leads w place g' value → g.Leads v (step ++ place) g' value)
    (h : inner.HasFault w path fault) : g.HasFault v (step ++ path) fault := by
  cases h with
  | unrecognized hplace hmapping hkey hentry =>
    rw [← List.append_assoc]
    exact .unrecognized (hleads hplace) hmapping hkey hentry
  | unfit hplace hunfit => exact .unfit (hleads hplace) hunfit
  | missing hplace hneeded hprovides =>
    rw [← List.append_assoc]
    exact .missing (hleads hplace) hneeded hprovides

theorem HasFault.key {key : String} {entries : List Entry} (hinner : g.field? key = some inner)
    (hentry : (key, v) ∈ entries) (hnull : v = .null → ¬ g.TakesNull) (h : inner.HasFault v path fault) :
    g.HasFault (.map entries) (.key key :: path) fault :=
  h.of_part [.key key] (.key hinner hentry hnull)

theorem HasFault.index {i : Nat} {items : List Value} (hitem : items[i]? = some v) (h : g.HasFault v path fault) :
    (Grammar.list g).HasFault (.list items) (.index i :: path) fault :=
  h.of_part [.index i] (.index hitem)

theorem HasFault.orInteger {entries : List Entry} (h : g.HasFault (.map entries) path fault) :
    (Grammar.orInteger g).HasFault (.map entries) path fault :=
  h.of_part [] .other

/-- A fault of an integer is one of its own. -/
theorem HasFault.number (h : Grammar.integer.HasFault v path fault) (hg : g.IsMapping) (hshape : v.shape ≠ .mapping) :
    (Grammar.orInteger g).HasFault v path fault := by
  cases h with
  | unfit hleads hunfit =>
    cases hleads with
    | here => exact hasFault_of_unfit (.number hg hshape hunfit)
    | key hinner => cases hinner
  | unrecognized hleads hmapping =>
    cases hleads with
    | here => exact hmapping.elim
    | key hinner => cases hinner
  | missing hleads =>
    cases hleads with
    | key hinner => cases hinner

end

end Manifests.Grammar
