import Manifests.Proofs.Composition.Enrolling
import Manifests.Proofs.Lists

/-! # Runs that keep books

What came before, a run reads off its registry and its report: the file and the identifier of an earlier declaration
off the registered record, and how many resources are done off the progress. It could keep books of these instead, with
a number that goes up by one for each resource. The books agree with the registry after each declaration, since no
record is registered in place of another (`Books.Agrees.enter`), and the number with the progress, so that a run with
books is the same run (`Books.compose_eq`). -/

namespace Manifests

/-- Books of the declarations that were enrolled. -/
structure Books where
  /-- The file of the declaration of a kind with an identifier. -/
  files : List ((Kind × String) × String)
  /-- The identifier of the record of a kind with a name. -/
  ids : List ((Kind × String) × String)

namespace Books

def empty : Books := ⟨[], []⟩

/-- The record of a declaration whose identifier and name the books do not have for its kind. -/
def enroll (books : Books) (d : Declaration) : Except Failure Record := do
  let record ← d.extract.mapError (.defect d.kind d.label)
  match books.files.lookup (d.kind, record.id), books.ids.lookup (d.kind, record.name) with
  | some file, _ => throw (.duplicateIdentifier d.kind record.id file)
  | none, some id => throw (.nameCollision d.kind record.id record.name id)
  | none, none => return record

/-- Enters a declaration and its record. -/
def enter (books : Books) (d : Declaration) (record : Record) : Books where
  files := ((d.kind, record.id), d.provenance.file) :: books.files
  ids := ((d.kind, record.name), record.id) :: books.ids

/-- The books have what the registered records tell. -/
structure Agrees (books : Books) (registry : Registry) : Prop where
  file : ∀ kind id, books.files.lookup (kind, id) = (registry.lookup? kind id).map (·.provenance.file)
  id : ∀ kind name, books.ids.lookup (kind, name) = (registry.named? kind name).map (·.id)

theorem agrees_empty : empty.Agrees {} := ⟨fun _ _ => rfl, fun _ _ => rfl⟩

section
variable {books : Books} {registry : Registry} {d : Declaration}

theorem Agrees.enroll_eq (h : books.Agrees registry) (d : Declaration) :
    books.enroll d = Manifests.enroll registry d := by
  unfold enroll Manifests.enroll
  refine congrArg _ (funext fun record => ?_)
  rw [h.file, h.id]
  cases registry.lookup? d.kind record.id <;> cases registry.named? d.kind record.name <;> rfl

theorem Agrees.enter {record : Record} (h : books.Agrees registry) (hd : Manifests.enroll registry d = .ok record) :
    (books.enter d record).Agrees (registry.register record.id record) := by
  obtain ⟨hextract, hid, hname⟩ := enroll_eq_ok hd
  rw [← Declaration.extract_kind hextract] at hid hname
  constructor
  · intro kind id
    rw [Registry.lookup?_register hid, Books.enter, lookup_cons_eq_ite, h.file, apply_ite (Option.map _),
      Option.map_some, Declaration.extract_kind hextract, Declaration.extract_provenance hextract]
    simp only [Prod.mk.injEq]
  · intro kind name
    rw [Registry.named?_register hid hname, Books.enter, lookup_cons_eq_ite, h.id, apply_ite (Option.map _),
      Option.map_some, Declaration.extract_kind hextract]
    simp only [Prod.mk.injEq]

end

/-! ### Runs -/

/-- A resource failed, the `processed`th one. -/
def fail (policy : FailurePolicy) (r : Report) (processed total : Nat) (resource : String) (failure : Failure) :
    Except Halt Report :=
  let progress := r.progress ++ [⟨processed, total, resource, false⟩]
  match policy with
  | .failFast => .error ⟨failure, progress⟩
  | .keepGoing => .ok { r with failures := r.failures ++ [failure], progress }

/-- Enrolls declarations one after the other, after `processed` resources are done. -/
def enrollAll (policy : FailurePolicy) (total : Nat) :
    List Declaration → Books → Registry → Nat → Report → Except Halt (List Record × Registry × Nat × Report)
  | [], _, registry, processed, report => .ok ([], registry, processed, report)
  | d :: ds, books, registry, processed, report =>
    match books.enroll d with
    | .ok record => do
      let (records, registry, processed, report) ←
        enrollAll policy total ds (books.enter d record) (registry.register record.id record) processed report
      return (record :: records, registry, processed, report)
    | .error failure => do
      let report ← fail policy report (processed + 1) total d.label failure
      enrollAll policy total ds books registry (processed + 1) report

/-- Finishes records one after the other, after `processed` resources are done. -/
def finishAll (policy : FailurePolicy) (total : Nat) (services : ServiceNames) (defaultNamespace : Option String) :
    List Record → Nat → Report → Except Halt Report
  | [], _, report => .ok report
  | r :: rs, processed, report =>
    match finish services defaultNamespace r with
    | .ok manifest =>
      finishAll policy total services defaultNamespace rs (processed + 1)
        { report with
          manifests := report.manifests ++ [manifest]
          progress := report.progress ++ [⟨processed + 1, total, r.name, true⟩] }
    | .error failure => do
      let report ← fail policy report (processed + 1) total r.name failure
      finishAll policy total services defaultNamespace rs (processed + 1) report

def compose (options : Options) (declarations : List Declaration) : Except Halt Report := do
  let total := declarations.length
  let (records, registry, processed, report) ←
    enrollAll options.failurePolicy total declarations empty {} 0 .empty
  finishAll options.failurePolicy total registry.serviceNames options.defaultNamespace records processed report

section
variable {policy : FailurePolicy} {total : Nat} {report report' : Report} {resource : String} {failure : Failure}

theorem fail_eq : fail policy report (report.progress.length + 1) total resource failure =
    report.fail policy total resource failure := rfl

/-- A failure that does not end the run is one more resource. -/
theorem length_progress_of_fail (h : report.fail policy total resource failure = .ok report') :
    report'.progress.length = report.progress.length + 1 := by
  cases policy with
  | failFast => cases h
  | keepGoing =>
    cases h
    simp [Report.progressWith]

/-- Enrolling with books that agree with the registry, and with the number of resources that are done, is enrolling. -/
theorem enrollAll_eq {books : Books} {registry : Registry} {processed : Nat} (h : books.Agrees registry)
    (hcount : processed = report.progress.length) (ds : List Declaration) :
    enrollAll policy total ds books registry processed report =
      (Manifests.enrollAll policy total ds registry report).map fun (records, registry, report) =>
        (records, registry, report.progress.length, report) := by
  subst hcount
  induction ds generalizing books registry report with
  | nil => rfl
  | cons d ds ih =>
    rw [enrollAll, Manifests.enrollAll, h.enroll_eq]
    cases hd : Manifests.enroll registry d with
    | ok record =>
      simp only [ih (h.enter hd)]
      cases Manifests.enrollAll policy total ds (registry.register record.id record) report <;> rfl
    | error failure =>
      simp only [fail_eq]
      cases hfail : report.fail policy total d.label failure with
      | error halt => rfl
      | ok report' =>
        rw [← length_progress_of_fail hfail]
        exact ih h

theorem finishAll_eq {processed : Nat} (hcount : processed = report.progress.length) (services : ServiceNames)
    (defaultNamespace : Option String) (records : List Record) :
    finishAll policy total services defaultNamespace records processed report =
      Manifests.finishAll policy total services defaultNamespace records report := by
  induction records generalizing processed report with
  | nil => rfl
  | cons r rs ih =>
    subst hcount
    rw [finishAll, Manifests.finishAll]
    cases finish services defaultNamespace r with
    | ok manifest =>
      have hlength : report.progress.length + 1 = (report.succeed total r.name manifest).progress.length := by
        simp [Report.succeed, Report.progressWith]
      exact ih hlength
    | error failure =>
      simp only [fail_eq]
      cases hfail : report.fail policy total r.name failure with
      | error halt => rfl
      | ok report' => exact ih (length_progress_of_fail hfail).symm

end

/-- A run with books is the same run. -/
theorem compose_eq (options : Options) (ds : List Declaration) : compose options ds = Manifests.compose options ds := by
  have hcount : 0 = Report.empty.progress.length := rfl
  unfold compose Manifests.compose
  simp only [enrollAll_eq agrees_empty hcount]
  cases Manifests.enrollAll options.failurePolicy ds.length ds {} .empty with
  | error halt => rfl
  | ok enrolled => exact finishAll_eq rfl _ _ _

end Books

end Manifests
