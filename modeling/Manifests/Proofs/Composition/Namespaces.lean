import Manifests.Proofs.Composition.Origins
import Manifests.Proofs.Extraction.Metadata
import Manifests.Proofs.Rendering.Slots

/-! # The default namespace

The default namespace is looked at in one place only: it is rendered where a declaration has no namespace. What is
resolved and which rules are checked do not depend on it (`finish_eq_settle`). So two runs that differ in the default
namespace meet endings with the same fates, report the same and halt alike (`foldlM_add_alike`), and their manifests
differ in nothing but their namespaces. -/

namespace Manifests

open Extraction Rendering

/-! ### Values that differ in one place -/

/-- Two values are the same but for what stands under the keys. There, either may also have nothing. -/
inductive Value.SameBut : List String → Value → Value → Prop
  | here {key : String} {before after : List Entry} (old new : Option Value) :
      (∀ e ∈ before ++ after, e.1 ≠ key) →
      SameBut [key] (.map (before ++ (old.map (key, ·)).toList ++ after))
        (.map (before ++ (new.map (key, ·)).toList ++ after))
  | inside {key : String} {keys : List String} {before after : List Entry} {v v' : Value} :
      SameBut keys v v' → (∀ e ∈ before ++ after, e.1 ≠ key) →
      SameBut (key :: keys) (.map (before ++ (key, v) :: after)) (.map (before ++ (key, v') :: after))

theorem Rendering.optionalText_eq_toList (key : String) (text : Option String) :
    optionalText key text = ((text.map Value.text).map (key, ·)).toList := by
  cases text <;> rfl

theorem Rendering.mapping_of_ne_nil {key : String} {entries : List Entry} (h : entries ≠ []) :
    mapping key entries = [(key, .map entries)] :=
  if_neg (by simpa using h)

theorem Rendering.key_of_mem_mapping {key : String} {entries : List Entry} {e : Entry} (h : e ∈ mapping key entries) :
    e.1 = key := by
  unfold mapping at h
  split at h
  · cases h
  · rw [List.mem_singleton.mp h]

/-- The trees of two records that differ in the namespace only. -/
theorem Record.render_sameBut (r : Record) (ns ns' : Option String) :
    (Record.render { r with namespaceName := ns }).SameBut ["metadata", "namespace"]
      (Record.render { r with namespaceName := ns' }) := by
  have hmetadata (ns : Option String) : Record.renderMetadata { r with namespaceName := ns } =
      textEntry "name" r.name ++ ((ns.map Value.text).map ("namespace", ·)).toList ++
        (textMap "labels" r.labels ++ textMap "annotations" r.annotations) := by
    rw [renderMetadata, optionalText_eq_toList, List.append_assoc _ (textMap "labels" r.labels)]
  have hentries (ns : Option String) : Record.render { r with namespaceName := ns } =
      .map ((textEntry "apiVersion" r.kind.apiVersion ++ textEntry "kind" r.kind.name) ++
        ("metadata", .map (Record.renderMetadata { r with namespaceName := ns })) :: mapping "spec" r.spec.render) := by
    rw [render, renderEntries, mapping_of_ne_nil (renderMetadata_ne_nil _)]
    simp only [List.append_assoc, List.singleton_append]
    rfl
  rw [hentries ns, hentries ns', hmetadata ns, hmetadata ns']
  refine .inside (.here _ _ ?_) ?_
  · have hlabels : ∀ e ∈ textMap "labels" r.labels, e.1 = "labels" := fun _ => key_of_mem_mapping
    have hannotations : ∀ e ∈ textMap "annotations" r.annotations, e.1 = "annotations" := fun _ => key_of_mem_mapping
    simp only [textEntry, List.cons_append, List.nil_append, List.forall_mem_cons, List.forall_mem_append]
    exact ⟨by decide, fun e he => by simp [hlabels e he], fun e he => by simp [hannotations e he]⟩
  · have hspec : ∀ e ∈ mapping "spec" r.spec.render, e.1 = "spec" := fun _ => key_of_mem_mapping
    simp only [textEntry, List.cons_append, List.nil_append, List.forall_mem_cons]
    exact ⟨by decide, by decide, fun e he => by simp [hspec e he]⟩

/-! ### Finishing -/

/-- The specification of a record, resolved and checked. -/
def settle (services : ServiceNames) (record : Record) : Except Failure Spec :=
  match record.spec.withDefaults.resolve services with
  | .error reference => .error (.unresolvedReference record.kind record.name reference)
  | .ok spec =>
    match Record.violations { record with spec } with
    | [] => .ok spec
    | violation :: _ => .error (.violation record.kind record.subject violation)

/-- The manifest of a record with the given specification. -/
def Record.manifest (record : Record) (defaultNamespace : Option String) (spec : Spec) : Manifest :=
  ⟨spec.kind, record.name, Record.renderEntries { record.withDefaults defaultNamespace with spec }⟩

/-- The default namespace has no part in what finishing a record checks. -/
theorem finish_eq_settle (services : ServiceNames) (defaultNamespace : Option String) (record : Record) :
    finish services defaultNamespace record = (settle services record).map (record.manifest defaultNamespace) := by
  rw [finish_eq, settle]
  cases record.spec.withDefaults.resolve services with
  | error reference => rfl
  | ok spec =>
    have hviolations : Record.violations { record.withDefaults defaultNamespace with spec } =
        Record.violations { record with spec } := rfl
    simp only [hviolations]
    cases Record.violations { record with spec } <;> rfl

/-! ### Runs -/

/-- Two endings have the same fate: the same resource fails alike, or is composed. -/
def Ending.SameFate (e e' : Ending) : Prop := e.resource = e'.resource ∧ e.failure? = e'.failure?

/-- Two runs end alike: they halt alike, or report the same failures and progress. -/
inductive EndAlike : Except Halt Report → Except Halt Report → Prop
  | halted (halt : Halt) : EndAlike (.error halt) (.error halt)
  | reported {r r' : Report} : r.failures = r'.failures → r.progress = r'.progress → EndAlike (.ok r) (.ok r')

section
variable {policy : FailurePolicy} {total : Nat}

theorem Report.add_alike {r r' : Report} {e e' : Ending} (he : e.SameFate e') (hfailures : r.failures = r'.failures)
    (hprogress : r.progress = r'.progress) : EndAlike (r.add policy total e) (r'.add policy total e') := by
  obtain ⟨resource, x⟩ := e
  obtain ⟨resource', x'⟩ := e'
  obtain ⟨rfl, hfate⟩ : resource = resource' ∧ _ := he
  have hnext (ok : Bool) : r.progressWith total resource ok = r'.progressWith total resource ok := by
    rw [progressWith, progressWith, hprogress]
  cases x with
  | ok m =>
    cases x' with
    | ok m' => exact .reported hfailures (hnext true)
    | error failure' => cases hfate
  | error failure =>
    cases x' with
    | ok m' => cases hfate
    | error failure' =>
      obtain rfl := Option.some.inj hfate
      rw [add_error, add_error]
      cases policy with
      | failFast =>
        simp only [fail, hnext]
        exact .halted _
      | keepGoing => exact .reported (by rw [hfailures]) (hnext false)

/-- Runs that meet endings with the same fates end alike. -/
theorem Report.foldlM_add_alike {es es' : List Ending} (h : List.Forall₂ Ending.SameFate es es') {r r' : Report}
    (hfailures : r.failures = r'.failures) (hprogress : r.progress = r'.progress) :
    EndAlike (es.foldlM (Report.add policy total) r) (es'.foldlM (Report.add policy total) r') := by
  induction h generalizing r r' with
  | nil => exact .reported hfailures hprogress
  | cons he _ ih =>
    rw [List.foldlM_cons, List.foldlM_cons]
    have hstep : EndAlike (r.add policy total _) (r'.add policy total _) := Report.add_alike he hfailures hprogress
    generalize r.add policy total _ = x at hstep ⊢
    generalize r'.add policy total _ = x' at hstep ⊢
    cases hstep with
    | halted halt => exact .halted halt
    | reported hfailures hprogress => exact ih hfailures hprogress

end

theorem endings_sameFate (ns ns' : Option String) (ds : List Declaration) :
    List.Forall₂ Ending.SameFate (endings ns ds) (endings ns' ds) := by
  refine List.rel_append (List.forall₂_same.mpr fun e _ => ⟨rfl, rfl⟩) ?_
  rw [List.forall₂_map_left_iff, List.forall₂_map_right_iff, List.forall₂_same]
  refine fun record _ => ⟨rfl, ?_⟩
  rw [finishing, finishing, finish_eq_settle, finish_eq_settle]
  cases settle (registryAfter {} ds).serviceNames record <;> rfl

theorem compose_alike (policy : FailurePolicy) (ns ns' : Option String) (ds : List Declaration) :
    EndAlike (compose ⟨policy, ns⟩ ds) (compose ⟨policy, ns'⟩ ds) := by
  rw [compose_eq_foldlM, compose_eq_foldlM]
  exact Report.foldlM_add_alike (endings_sameFate ns ns' ds) rfl rfl

/-! ### Manifests -/

/-- Two manifests of a declaration, composed with the default namespaces `ns` and `ns'`. -/
structure DifferInNamespace (ns ns' : Option String) (e e' : Declaration × Manifest) : Prop where
  declaration : e.1 = e'.1
  kind : e.2.kind = e'.2.kind
  name : e.2.name = e'.2.name
  fileName : e.2.fileName = e'.2.fileName
  /-- The trees are the same but for the namespace. -/
  tree : e.2.tree.SameBut ["metadata", "namespace"] e'.2.tree
  /-- A declared namespace is kept, and then the trees are the same. -/
  declared : ∀ value, declared? "namespace" e.1.entries = some value → ∃ text, value.scalarText? = some text ∧
    e.2.tree.at? ["metadata", "namespace"] = some (.text text) ∧ e.2.tree = e'.2.tree
  /-- Without one, each tree shows the default namespace of its run, if there is one. -/
  undeclared : declared? "namespace" e.1.entries = none →
    e.2.tree.at? ["metadata", "namespace"] = ns.map .text ∧ e'.2.tree.at? ["metadata", "namespace"] = ns'.map .text

theorem Declaration.differInNamespace {d : Declaration} {record : Record} (hextract : d.extract = .ok record)
    (ns ns' : Option String) (spec : Spec) :
    DifferInNamespace ns ns' (d, record.manifest ns spec) (d, record.manifest ns' spec) := by
  have hdeclared := Declaration.extract_namespaceName hextract
  have hshown (ns : Option String) :
      (Record.render { record.withDefaults ns with spec }).at? ["metadata", "namespace"] =
        (record.namespaceName <|> ns).map .text :=
    Record.namespaceName_render { record.withDefaults ns with spec }
  refine ⟨rfl, rfl, rfl, rfl, Record.render_sameBut { record.withDefaults none with spec } _ _, ?_, ?_⟩
  · intro value hvalue
    rw [hvalue] at hdeclared
    obtain ⟨text, htext, hscalar⟩ := option_rel_some_left_iff.mp hdeclared
    have hkept (ns : Option String) : (record.namespaceName <|> ns) = some text := by
      rw [htext]
      rfl
    refine ⟨text, hscalar, by rw [← Option.map_some, ← hkept ns]; exact hshown ns, ?_⟩
    show Record.render { record.withDefaults ns with spec } = Record.render { record.withDefaults ns' with spec }
    rw [Record.withDefaults, Record.withDefaults, hkept ns, hkept ns']
  · intro hnone
    rw [hnone] at hdeclared
    have hmissing (ns : Option String) : (record.namespaceName <|> ns) = ns := by
      generalize record.namespaceName = declared at hdeclared
      cases hdeclared
      rfl
    have hns := hshown ns
    have hns' := hshown ns'
    rw [hmissing] at hns hns'
    exact ⟨hns, hns'⟩

theorem origins_differInNamespace (ns ns' : Option String) (ds : List Declaration) :
    List.Forall₂ (DifferInNamespace ns ns') (origins ns ds) (origins ns' ds) := by
  have hsame : List.Forall₂ (fun e e' => e ∈ accepted (enrollments {} ds) ∧ e = e')
      (accepted (enrollments {} ds)) (accepted (enrollments {} ds)) :=
    List.forall₂_same.mpr fun e he => ⟨he, rfl⟩
  refine List.rel_filterMap ?_ hsame
  rintro e _ ⟨he, rfl⟩
  have hextract := (Registry.holds_empty.registryAfter ds).extract e he
  have hfinish (ns : Option String) := finish_eq_settle (registryAfter {} ds).serviceNames ns e.2
  cases hspec : settle (registryAfter {} ds).serviceNames e.2 with
  | error failure =>
    simp only [finishing, hfinish, hspec]
    exact .none
  | ok spec =>
    simp only [finishing, hfinish, hspec]
    exact .some (Declaration.differInNamespace hextract ns ns' spec)

/-- Two runs that differ in the default namespace end alike. Either both halt, with the same failure and progress, or
    both report the same failures and the same progress, and manifests of the same declarations, which differ in their
    namespaces only: each declared namespace is kept, and in place of one that is not declared the default stands. -/
theorem compose_defaultNamespace (policy : FailurePolicy) (ns ns' : Option String) (ds : List Declaration) :
    (∃ halt, compose ⟨policy, ns⟩ ds = .error halt ∧ compose ⟨policy, ns'⟩ ds = .error halt) ∨
      ∃ r r' origins origins', compose ⟨policy, ns⟩ ds = .ok r ∧ compose ⟨policy, ns'⟩ ds = .ok r' ∧
        r.failures = r'.failures ∧ r.progress = r'.progress ∧ r.Origins ds origins ∧ r'.Origins ds origins' ∧
          List.Forall₂ (DifferInNamespace ns ns') origins origins' := by
  have halike := compose_alike policy ns ns' ds
  generalize hx : compose ⟨policy, ns⟩ ds = x at halike
  generalize hx' : compose ⟨policy, ns'⟩ ds = x' at halike
  cases halike with
  | halted halt => exact .inl ⟨halt, rfl, rfl⟩
  | reported hfailures hprogress =>
    exact .inr ⟨_, _, _, _, rfl, rfl, hfailures, hprogress, compose_origins hx, compose_origins hx',
      origins_differInNamespace ns ns' ds⟩

end Manifests
