import Manifests.Composition

/-! # A run as a sequence of endings

The work on a resource ends with a manifest or with a failure. Which endings a run meets, and in which order, does
not depend on the failure policy: first the declarations that are not enrolled, then the records that are, each in
the order of the declarations. A run adds these endings to its report one after the other (`compose_eq_foldlM`), and
the policy only decides whether it stops at a failure. -/

namespace Manifests

/-- How the work on a resource ends: what the resource is called then, and its manifest or failure. -/
structure Ending where
  resource : String
  result : Except Failure Manifest

namespace Ending

/-- The manifest of an ending that has one. -/
def manifest? (e : Ending) : Option Manifest := e.result.toOption

/-- The failure of an ending that has one. -/
def failure? (e : Ending) : Option Failure :=
  match e.result with
  | .ok _ => none
  | .error failure => some failure

@[simp] theorem manifest?_ok (resource : String) (m : Manifest) : manifest? ⟨resource, .ok m⟩ = some m := rfl

@[simp] theorem manifest?_error (resource : String) (f : Failure) : manifest? ⟨resource, .error f⟩ = none := rfl

@[simp] theorem failure?_ok (resource : String) (m : Manifest) : failure? ⟨resource, .ok m⟩ = none := rfl

@[simp] theorem failure?_error (resource : String) (f : Failure) : failure? ⟨resource, .error f⟩ = some f := rfl

end Ending

namespace Report

/-- An ending is added to the report, or it ends the run. -/
def add (policy : FailurePolicy) (total : Nat) (r : Report) (e : Ending) : Except Halt Report :=
  match e.result with
  | .ok manifest => .ok (r.succeed total e.resource manifest)
  | .error failure => r.fail policy total e.resource failure

@[simp] theorem add_ok {policy : FailurePolicy} {total : Nat} {r : Report} {resource : String} {m : Manifest} :
    r.add policy total ⟨resource, .ok m⟩ = .ok (r.succeed total resource m) := rfl

@[simp] theorem add_error {policy : FailurePolicy} {total : Nat} {r : Report} {resource : String} {f : Failure} :
    r.add policy total ⟨resource, .error f⟩ = r.fail policy total resource f := rfl

end Report

/-! ### Enrolling -/

namespace Registry

/-- The registry after a declaration was enrolled or not. One that was not leaves no trace. -/
def enter (registry : Registry) (enrolled : Except Failure Record) : Registry :=
  match enrolled with
  | .ok record => registry.register record.id record
  | .error _ => registry

end Registry

/-- What enrolling gives for each declaration, one after the other. -/
def enrollments : Registry → List Declaration → List (Declaration × Except Failure Record)
  | _, [] => []
  | registry, d :: ds => (d, enroll registry d) :: enrollments (registry.enter (enroll registry d)) ds

/-- The registry after declarations were enrolled one after the other. -/
def registryAfter (registry : Registry) (ds : List Declaration) : Registry :=
  ds.foldl (fun registry d => registry.enter (enroll registry d)) registry

/-- The records that were enrolled. -/
def enrolledRecords (es : List (Declaration × Except Failure Record)) : List Record := es.filterMap (·.2.toOption)

/-- The endings of the declarations that were not enrolled. -/
def rejections (es : List (Declaration × Except Failure Record)) : List Ending :=
  es.filterMap fun e =>
    match e.2 with
    | .ok _ => none
    | .error failure => some ⟨e.1.label, .error failure⟩

/-- Enrolling adds the rejections to the report, and gives the records and their registry. -/
theorem enrollAll_eq (policy : FailurePolicy) (total : Nat) (ds : List Declaration) (registry : Registry)
    (r : Report) :
    enrollAll policy total ds registry r =
      (rejections (enrollments registry ds)).foldlM (Report.add policy total) r >>= fun r =>
        pure (enrolledRecords (enrollments registry ds), registryAfter registry ds, r) := by
  induction ds generalizing registry r with
  | nil => rfl
  | cons d ds ih =>
    cases hd : enroll registry d with
    | ok record =>
      simp only [enrollAll, hd, ih, enrollments, rejections, enrolledRecords, registryAfter, Registry.enter,
        List.filterMap_cons, List.foldl_cons, Except.toOption, bind_assoc, pure_bind]
    | error failure =>
      simp only [enrollAll, hd, ih, enrollments, rejections, enrolledRecords, registryAfter, Registry.enter,
        List.filterMap_cons, List.foldl_cons, List.foldlM_cons, Except.toOption, Report.add_error, bind_assoc]

/-! ### Finishing -/

/-- How the work on an enrolled record ends. -/
def finishing (services : ServiceNames) (defaultNamespace : Option String) (record : Record) : Ending :=
  ⟨record.name, finish services defaultNamespace record⟩

/-- Finishing adds the endings of the records to the report. -/
theorem finishAll_eq (policy : FailurePolicy) (total : Nat) (services : ServiceNames)
    (defaultNamespace : Option String) (records : List Record) (r : Report) :
    finishAll policy total services defaultNamespace records r =
      (records.map (finishing services defaultNamespace)).foldlM (Report.add policy total) r := by
  induction records generalizing r with
  | nil => rfl
  | cons record records ih =>
    cases hf : finish services defaultNamespace record with
    | ok manifest => simp only [finishAll, hf, ih, List.map_cons, List.foldlM_cons, finishing, Report.add_ok]; rfl
    | error failure => simp only [finishAll, hf, ih, List.map_cons, List.foldlM_cons, finishing, Report.add_error]

/-! ### Runs -/

/-- The endings of a run in the order in which they come about. -/
def endings (defaultNamespace : Option String) (ds : List Declaration) : List Ending :=
  rejections (enrollments {} ds) ++
    (enrolledRecords (enrollments {} ds)).map (finishing (registryAfter {} ds).serviceNames defaultNamespace)

/-- A run adds its endings to the report, whatever its policy is. -/
theorem compose_eq_foldlM (options : Options) (ds : List Declaration) :
    compose options ds =
      (endings options.defaultNamespace ds).foldlM (Report.add options.failurePolicy ds.length) .empty := by
  simp only [compose, enrollAll_eq, finishAll_eq, endings, List.foldlM_append, bind_assoc, pure_bind]

end Manifests
