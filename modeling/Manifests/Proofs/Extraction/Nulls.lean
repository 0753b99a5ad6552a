import Manifests.Failure
import Manifests.Proofs.Extraction.Acceptance
import Mathlib.Data.List.Nodup
import Mathlib.Logic.Relation

/-! # Null values are absent ones

A null value can be left out of a declaration, at any depth, without changing what is read or why it is not. The
conditions on headers are the exception: a header takes no null value, and the declaration is refused. -/

namespace Manifests

open Extraction

/-! ### Metadata and fields of a kind -/

/-- Of the entries with some of the keys, which another record has as well, the same null value is left out or none. -/
theorem Grammar.omits_filter {gs gs' : List (String × Grammar)} {keep : Entry → Bool} {entries entries' : List Entry}
    (hkeep : ∀ key v v', keep (key, v) = keep (key, v'))
    (hlookup : ∀ e, keep e = true → gs.lookup e.1 = gs'.lookup e.1)
    (h : (Grammar.record gs []).Omits TakesNull (.map entries) (.map entries')) :
    entries'.filter keep = entries.filter keep ∨
      (Grammar.record gs' []).Omits TakesNull (.map (entries.filter keep)) (.map (entries'.filter keep)) := by
  cases h with
  | @entry _ key before after _ hkey =>
    cases hthis : keep (key, .null) with
    | true =>
      right
      simp only [List.filter_append, List.filter_cons, hthis, if_true]
      exact .entry trivial (by rwa [field?, ← hlookup _ hthis])
    | false =>
      left
      simp only [List.filter_append, List.filter_cons, hthis, Bool.false_eq_true, if_false]
  | @inside _ inner key v v' before after hinner hv =>
    cases hthis : keep (key, v) with
    | true =>
      right
      simp only [List.filter_append, List.filter_cons, hkeep key v' v, hthis, if_true]
      exact .inside (by rwa [field?, ← hlookup _ hthis]) hv
    | false =>
      left
      simp only [List.filter_append, List.filter_cons, hkeep key v' v, hthis, Bool.false_eq_true, if_false]

namespace Extraction

variable {kind : Kind} {entries entries' : List Entry}

theorem readMetadata_omits (h : kind.grammar.Omits Grammar.TakesNull (.map entries) (.map entries')) :
    readMetadata entries' = readMetadata entries := by
  have hlookup (e : Entry) (hmeta : isMetadata e = true) :
      (Grammar.metadata ++ kind.fields).lookup e.1 = Grammar.metadata.lookup e.1 := by
    rw [Grammar.lookup_append_of_own isMetadata_iff, if_pos hmeta]
  unfold readMetadata
  rcases Grammar.omits_filter (fun _ _ _ => rfl) hlookup h with heq | homits
  · rw [heq]
  · exact readFields_omits metadataFields_follow homits _

/-- What is left out of the fields of a kind does not show in what is read. -/
theorem readSpec_omits_fields
    (h : (Grammar.record kind.fields []).Omits Grammar.TakesNull (.map entries) (.map entries')) :
    readSpec kind entries' = readSpec kind entries := by
  cases kind with
  | gateway => exact congrArg (Except.map _) (readFields_omits gatewayFields_follow h _)
  | virtualService => exact congrArg (Except.map _) (readFields_omits virtualServiceFields_follow h _)
  | service => exact congrArg (Except.map _) (readFields_omits serviceFields_follow h _)
  | deployment => exact congrArg (Except.map _) (readFields_omits deploymentFields_follow h _)
  | route => exact congrArg (Except.map _) (readFields_omits routeFields_follow h _)
  | buildConfig => exact congrArg (Except.map _) (readFields_omits buildConfigFields_follow h _)

theorem readSpec_omits (h : kind.grammar.Omits Grammar.TakesNull (.map entries) (.map entries')) :
    readSpec kind (entries'.filter fun e => !isMetadata e) = readSpec kind (entries.filter fun e => !isMetadata e) := by
  have hlookup (e : Entry) (hother : (!isMetadata e) = true) :
      (Grammar.metadata ++ kind.fields).lookup e.1 = kind.fields.lookup e.1 := by
    rw [Bool.not_eq_true'] at hother
    rw [Grammar.lookup_append_of_own isMetadata_iff, hother, if_neg Bool.false_ne_true]
  rcases Grammar.omits_filter (fun _ _ _ => rfl) hlookup h with heq | homits
  · rw [heq]
  · exact readSpec_omits_fields homits

end Extraction

/-! ### Labels -/

section
variable {P : Grammar → Prop} {gs : List (String × Grammar)} {needed : List (List String)}
  {entries entries' : List Entry}

theorem Grammar.Omits.keys_sublist (h : (Grammar.record gs needed).Omits P (.map entries) (.map entries')) :
    (entries'.map (·.1)).Sublist (entries.map (·.1)) := by
  cases h with
  | entry | inside => simp

/-- If no key is repeated, leaving a null value out leaves the text under each key. -/
theorem Grammar.Omits.lookup_text (h : (Grammar.record gs needed).Omits P (.map entries) (.map entries'))
    (hkeys : (entries.map (·.1)).Nodup) (key : String) :
    (entries'.lookup key).bind Value.scalarText? = (entries.lookup key).bind Value.scalarText? := by
  cases h with
  | @entry _ own before after _ _ =>
    by_cases hown : own = key
    · subst hown
      -- Without another entry of the key there is no text before and none afterwards.
      rw [List.map_append, List.map_cons, List.nodup_middle, List.nodup_cons, ← List.map_append] at hkeys
      have hnone : (before ++ after).lookup own = none := by
        rw [← Option.not_isSome_iff_eq_none, lookup_isSome_iff_mem]
        exact hkeys.1
      have hbefore : before.lookup own = none := by
        rw [List.lookup_append, Option.or_eq_none_iff] at hnone
        exact hnone.1
      rw [hnone, List.lookup_append, List.lookup_cons_self, hbefore]
      rfl
    · simp [List.lookup_append, List.lookup_cons, beq_false_of_ne (Ne.symm hown)]
  | @inside _ inner own v v' before after _ hv =>
    by_cases hown : own = key
    · subst hown
      rw [List.lookup_append, List.lookup_append, List.lookup_cons_self, List.lookup_cons_self]
      cases before.lookup own with
      | some w => rfl
      | none => exact hv.scalarText?_eq_none.2.trans hv.scalarText?_eq_none.1.symm
    · simp [List.lookup_append, List.lookup_cons, beq_false_of_ne (Ne.symm hown)]

end

/-! ### Declarations -/

/-- What a run makes of a declaration first: its record, or the failure that says why there is none. -/
def Declaration.reading (d : Declaration) : Except Failure Record := d.extract.mapError (.defect d.kind d.label)

/-- Whatever kind a declaration is read as, null values in it count as absent ones. -/
theorem Declaration.extractAs_omits {kind : Kind} {d d' : Declaration} (h : d.Omits Grammar.TakesNull kind d') :
    d'.extractAs kind = d.extractAs kind := by
  obtain ⟨entries, homits, rfl⟩ := h
  unfold extractAs
  rw [readMetadata_omits homits, readSpec_omits homits]
  rfl

theorem Declaration.label_omits {P : Grammar → Prop} {kind : Kind} {d d' : Declaration} (h : d.Omits P kind d')
    (hkeys : (d.entries.map (·.1)).Nodup) : d'.label = d.label := by
  obtain ⟨entries, homits, rfl⟩ := h
  have hname := homits.lookup_text hkeys "name"
  simp only [label, name?, get?, hname]

/-- Leaving null values out, one after the other, keeps the kind, what is read, and that no key is repeated. -/
theorem Declaration.reading_omits {kind : Kind} {d d' : Declaration}
    (h : Relation.ReflTransGen (Declaration.Omits Grammar.TakesNull kind) d d') (hkind : d.kind = kind)
    (hkeys : (d.entries.map (·.1)).Nodup) :
    d'.reading = d.reading ∧ d'.kind = kind ∧ (d'.entries.map (·.1)).Nodup := by
  induction h with
  | refl => exact ⟨rfl, hkind, hkeys⟩
  | @tail d₁ d₂ _ hstep ih =>
    obtain ⟨hreading, rfl, hkeys₁⟩ := ih
    have hsame := extractAs_omits hstep
    have hlabel := label_omits hstep hkeys₁
    obtain ⟨entries, homits, rfl⟩ := hstep
    refine ⟨?_, rfl, hkeys₁.sublist homits.keys_sublist⟩
    rw [← hreading, reading, reading, hlabel, extract, extract, hsame]

/-! ### Headers -/

/-- A value with a null value where the grammar takes none is not one of the grammar. -/
theorem Grammar.Omits.not_conforms {g : Grammar} {v v' : Value} (h : g.Omits (fun g => ¬ g.TakesNull) v v') :
    ¬ g.Conforms v := by
  induction h with
  | @entry g key before after htakes hkey =>
    intro hv
    cases hv with
    | @table value nulls _ hnulls _ =>
      exact htakes (hnulls (key, .null) (by simp) rfl)
    | word | choice | record | number | other => exact htakes trivial
  | @inside g inner key v v' before after hinner hv ih =>
    intro hconforms
    have hmem : (key, v) ∈ before ++ (key, v) :: after := by simp
    cases hconforms with
    | table _ hvalues =>
      obtain rfl := Option.some.inj hinner
      exact ih (hvalues (key, v) hmem hv.ne_null.1)
    | choice =>
      obtain ⟨-, rfl⟩ := field?_choice_eq_some hinner
      exact absurd hv (not_omits_of_isScalar trivial)
    | word | number | other => cases hinner
    | record _ hvalues _ => exact ih (hvalues (key, v) hmem hv.ne_null.1 inner hinner)
  | @item g v v' before after _ ih =>
    intro hconforms
    cases hconforms with
    | list hitems => exact ih (hitems v (by simp))
  | @other other v v' hv ih =>
    intro hconforms
    cases hconforms with
    | number hnumber =>
      -- An integer has no parts to leave anything out of.
      have hnone := hv.scalarText?_eq_none.1
      cases hnumber <;> cases hnone
    | other hother => exact ih hother

theorem Declaration.reading_eq_error_of_omits {d d' : Declaration}
    (h : d.Omits (fun g => ¬ g.TakesNull) d.kind d') :
    ∃ defect, d.reading = .error (.defect d.kind d.label defect) := by
  obtain ⟨entries, homits, -⟩ := h
  cases hd : d.extract with
  | error defect => exact ⟨defect, by rw [reading, hd]; rfl⟩
  | ok record => exact absurd ((extractAs_isOk_iff d d.kind).mp ⟨record, hd⟩).entries homits.not_conforms

/-- Null values count as absent ones: leaving them out of a declaration, at any depth, gives the same record or the same
    failure. Only headers take none. A declaration with a null header is refused, whether or not it would be read
    without it. -/
theorem Declaration.reading_nulls {d : Declaration} (hkeys : (d.entries.map (·.1)).Nodup) :
    (∀ d', Relation.ReflTransGen (Declaration.Omits Grammar.TakesNull d.kind) d d' → d'.reading = d.reading) ∧
      ∀ d', d.Omits (fun g => ¬ g.TakesNull) d.kind d' →
        ∃ defect, d.reading = .error (.defect d.kind d.label defect) :=
  ⟨fun _ h => (reading_omits h rfl hkeys).1, fun _ h => reading_eq_error_of_omits h⟩

/-- A service with a namespace and with a port's target that are null or absent. -/
def sparseService (namespaceName targetPort : List Entry) : Declaration :=
  let ports : Entry := ("ports", .list [.map ([("port", .int 80)] ++ targetPort)])
  ⟨.service, none, [("name", .text "a")] ++ namespaceName ++ [ports], ⟨"app.yaml", 0⟩⟩

theorem sparseService_nulls :
    ∃ record, (sparseService [] []).reading = .ok record ∧
      (sparseService [("namespace", .null)] [("targetPort", .null)]).reading = .ok record := by
  have hspace : (sparseService [("namespace", .null)] [("targetPort", .null)]).Omits Grammar.TakesNull .service
      (sparseService [] [("targetPort", .null)]) :=
    ⟨_, @Grammar.Omits.entry _ _ "namespace" [("name", .text "a")] _ trivial rfl, rfl⟩
  have hport : (sparseService [] [("targetPort", .null)]).Omits Grammar.TakesNull .service (sparseService [] []) :=
    ⟨_, @Grammar.Omits.inside _ _ _ "ports" _ _ [("name", .text "a")] [] rfl (@Grammar.Omits.item _ _ _ _ [] []
      (@Grammar.Omits.entry _ _ "targetPort" [("port", .int 80)] [] trivial rfl)), rfl⟩
  have hkeys : ((sparseService [("namespace", .null)] [("targetPort", .null)]).entries.map (·.1)).Nodup := by decide
  have hsame := (Declaration.reading_nulls hkeys).1 _ (.tail (.single hspace) hport)
  exact ⟨_, rfl, hsame.symm⟩

/-- A virtual service whose one route is for requests with such headers. -/
def withHeaders (headers : List Entry) : Declaration :=
  ⟨.virtualService, some "front",
    [("http", .list [.map
      [("match", .list [.map [("headers", .map headers)]]),
       ("route", .list [.map [("destination", .map [("host", .text "a")])]])]])],
    ⟨"app.yaml", 0⟩⟩

/-- A null header is a null value that cannot be left out. -/
theorem withHeaders_null :
    ((withHeaders [("x", .null)]).entries.map (·.1)).Nodup ∧
      (withHeaders [("x", .null)]).Omits (fun _ => True) .virtualService (withHeaders []) ∧
      ∃ failure record, (withHeaders [("x", .null)]).reading = .error failure ∧
        (withHeaders []).reading = .ok record := by
  refine ⟨by decide, ⟨_, ?_, rfl⟩, _, _, rfl, rfl⟩
  refine @Grammar.Omits.inside _ _ _ "http" _ _ [] [] rfl (@Grammar.Omits.item _ _ _ _ [] [] ?_)
  refine @Grammar.Omits.inside _ _ _ "match" _ _ [] _ rfl (@Grammar.Omits.item _ _ _ _ [] [] ?_)
  exact @Grammar.Omits.inside _ _ _ "headers" _ _ [] [] rfl (@Grammar.Omits.entry _ _ "x" [] [] trivial rfl)

end Manifests
