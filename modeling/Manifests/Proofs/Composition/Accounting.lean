import Manifests.Proofs.Composition.Enrolling
import Manifests.Proofs.Composition.Finishing
import Manifests.Proofs.Composition.Policy
import Mathlib.Data.List.Forall2

/-! # Accounting for every declaration

A run that goes on after failures accounts for each declaration once. Each declaration has a fate: it is rejected
while reading or enrolling, or its record is enrolled and then finished or not. The report is read off the fates
(`Report.Accounts`): manifests in the order of the declarations, the failures of the rejected ones before those of
the enrolled ones, and one step of progress for each. -/

namespace Manifests

/-- What becomes of a declaration: whether it is enrolled, and how the work on it ends. -/
structure Fate where
  enrolled : Bool
  ending : Ending

/-- A fate is that of a declaration in a run with the given services. -/
inductive Fate.Of (services : ServiceNames) (defaultNamespace : Option String) (d : Declaration) : Fate → Prop
  /-- It cannot be read, or its identifier or name is taken. -/
  | rejected {registry failure} : enroll registry d = .error failure →
      failure.stage = .extract ∨ failure.stage = .register →
      Of services defaultNamespace d ⟨false, d.label, .error failure⟩
  /-- Its record is enrolled, but a reference cannot be resolved or a rule is broken. -/
  | failed {record failure} : d.extract = .ok record → finish services defaultNamespace record = .error failure →
      failure.stage = .resolve ∨ failure.stage = .validate →
      Of services defaultNamespace d ⟨true, record.name, .error failure⟩
  /-- Its record is enrolled and has a manifest. -/
  | composed {record manifest} : d.extract = .ok record →
      finish services defaultNamespace record = .ok manifest →
      Of services defaultNamespace d ⟨true, record.name, .ok manifest⟩

/-- The fates of the declarations that are rejected come about first, then those of the others. -/
def inTurn (fates : List Fate) : List Fate := fates.filter (!·.enrolled) ++ fates.filter (·.enrolled)

/-- A report accounts for fates: manifests in the order of the fates, failures and progress in turn. -/
structure Report.Accounts (r : Report) (fates : List Fate) : Prop where
  manifests : r.manifests = fates.filterMap (·.ending.manifest?)
  failures : r.failures = (inTurn fates).filterMap (·.ending.failure?)
  progress : r.progress = (inTurn fates).mapIdx fun k x => x.ending.progress (k + 1) fates.length

/-! ### The fates of a run -/

/-- The fate of a declaration for what enrolling it gave. -/
def fate (services : ServiceNames) (defaultNamespace : Option String) (e : Declaration × Except Failure Record) :
    Fate :=
  match e.2 with
  | .ok record => ⟨true, finishing services defaultNamespace record⟩
  | .error failure => ⟨false, e.1.label, .error failure⟩

theorem Fate.of_fate (services : ServiceNames) (defaultNamespace : Option String) (registry : Registry)
    (d : Declaration) :
    Fate.Of services defaultNamespace d (fate services defaultNamespace (d, enroll registry d)) := by
  cases hd : enroll registry d with
  | error failure => exact .rejected hd (enroll_error_stage hd)
  | ok record =>
    cases hf : finish services defaultNamespace record with
    | error failure =>
      simp only [fate, finishing, hf]
      exact .failed ((enroll_eq_ok hd).1) hf (finish_error_stage hf)
    | ok manifest =>
      simp only [fate, finishing, hf]
      exact .composed ((enroll_eq_ok hd).1) hf

theorem forall₂_fates (services : ServiceNames) (defaultNamespace : Option String) (registry : Registry)
    (ds : List Declaration) :
    List.Forall₂ (Fate.Of services defaultNamespace) ds
      ((enrollments registry ds).map (fate services defaultNamespace)) := by
  induction ds generalizing registry with
  | nil => exact .nil
  | cons d ds ih => exact .cons (Fate.of_fate services defaultNamespace registry d) (ih _)

section
variable (services : ServiceNames) (defaultNamespace : Option String) (es : List (Declaration × Except Failure Record))

theorem map_ending_filter_rejected :
    ((es.map (fate services defaultNamespace)).filter (!·.enrolled)).map (·.ending) = rejections es := by
  induction es with
  | nil => rfl
  | cons e es ih =>
    obtain ⟨d, failure | record⟩ := e <;> simp [fate, rejections] <;> exact ih

theorem map_ending_filter_enrolled :
    ((es.map (fate services defaultNamespace)).filter (·.enrolled)).map (·.ending) =
      (enrolledRecords es).map (finishing services defaultNamespace) := by
  induction es with
  | nil => rfl
  | cons e es ih =>
    obtain ⟨d, failure | record⟩ := e <;> simp [fate, enrolledRecords, Except.toOption] <;> exact ih

theorem map_ending_inTurn :
    (inTurn (es.map (fate services defaultNamespace))).map (·.ending) =
      rejections es ++ (enrolledRecords es).map (finishing services defaultNamespace) := by
  rw [inTurn, List.map_append, map_ending_filter_rejected, map_ending_filter_enrolled]

end

theorem manifest?_eq_none_of_rejected {services : ServiceNames} {defaultNamespace : Option String}
    {e : Declaration × Except Failure Record} (h : (fate services defaultNamespace e).enrolled = false) :
    (fate services defaultNamespace e).ending.manifest? = none := by
  obtain ⟨d, failure | record⟩ := e
  · rfl
  · cases h

/-- Only enrolled records have manifests, so these come about in the order of the declarations. -/
theorem filterMap_manifest?_inTurn {fates : List Fate}
    (h : ∀ x ∈ fates, x.enrolled = false → x.ending.manifest? = none) :
    (inTurn fates).filterMap (·.ending.manifest?) = fates.filterMap (·.ending.manifest?) := by
  have hrejected : (fates.filter (!·.enrolled)).filterMap (·.ending.manifest?) = [] := by
    rw [List.filterMap_eq_nil_iff]
    intro x hx
    obtain ⟨hmem, hnot⟩ := List.mem_filter.mp hx
    exact h x hmem (by simpa using hnot)
  have henrolled : (fates.filter (·.enrolled)).filterMap (·.ending.manifest?) =
      fates.filterMap (·.ending.manifest?) := by
    rw [List.filterMap_filter]
    refine List.filterMap_congr fun x hx => ?_
    cases hx' : x.enrolled
    · exact (h x hx hx').symm
    · rfl
  rw [inTurn, List.filterMap_append, hrejected, henrolled, List.nil_append]

theorem mem_inTurn {fates : List Fate} {x : Fate} (h : x ∈ inTurn fates) : x ∈ fates :=
  (List.mem_append.mp h).elim (fun h => (List.mem_filter.mp h).1) fun h => (List.mem_filter.mp h).1

theorem length_inTurn (fates : List Fate) : (inTurn fates).length = fates.length := by
  induction fates with
  | nil => rfl
  | cons x fates ih =>
    cases hx : x.enrolled <;> simp [inTurn, hx] at ih ⊢ <;> omega

/-! ### Counts -/

/-- Each ending has a manifest or a failure, and not both. -/
theorem length_manifests_add_failures (es : List Ending) :
    (es.filterMap Ending.manifest?).length + (es.filterMap Ending.failure?).length = es.length := by
  induction es with
  | nil => rfl
  | cons e es ih =>
    obtain ⟨resource, failure | manifest⟩ := e <;> simp [List.filterMap_cons] <;> omega

theorem length_filter_ok_progress (total n : Nat) (es : List Ending) :
    ((es.mapIdx fun k => Ending.progress (n + k + 1) total).filter (·.ok)).length =
      (es.filterMap Ending.manifest?).length := by
  -- The later steps of progress are counted from the next number on.
  induction es generalizing n with
  | nil => rfl
  | cons e es ih =>
    have hnext : (fun k => Ending.progress (n + (k + 1) + 1) total) =
        fun k => Ending.progress (n + 1 + k + 1) total := by
      funext k
      rw [Nat.add_right_comm n 1 k, Nat.add_assoc n k 1]
    rw [List.mapIdx_cons, hnext, List.filter_cons, Ending.progress_ok]
    obtain ⟨resource, failure | manifest⟩ := e <;> simp [List.filterMap_cons, ih]

/-! ### Runs that go on after failures -/

/-- The fates of declarations that are composed. -/
def fates (defaultNamespace : Option String) (ds : List Declaration) : List Fate :=
  (enrollments {} ds).map (fate (registryAfter {} ds).serviceNames defaultNamespace)

theorem length_fates (defaultNamespace : Option String) (ds : List Declaration) :
    (fates defaultNamespace ds).length = ds.length :=
  (forall₂_fates _ _ _ ds).length_eq.symm

theorem endings_eq (defaultNamespace : Option String) (ds : List Declaration) :
    endings defaultNamespace ds = (inTurn (fates defaultNamespace ds)).map (·.ending) :=
  (map_ending_inTurn _ _ _).symm

theorem length_endings (defaultNamespace : Option String) (ds : List Declaration) :
    (endings defaultNamespace ds).length = ds.length := by
  rw [endings_eq, List.length_map, length_inTurn, length_fates]

theorem addAll_accounts (defaultNamespace : Option String) (ds : List Declaration) :
    (Report.addAll ds.length .empty (endings defaultNamespace ds)).Accounts (fates defaultNamespace ds) where
  manifests := by
    have hrejected : ∀ x ∈ fates defaultNamespace ds, x.enrolled = false → x.ending.manifest? = none := by
      intro x hx
      obtain ⟨e, -, rfl⟩ := List.mem_map.mp hx
      exact manifest?_eq_none_of_rejected
    rw [← filterMap_manifest?_inTurn hrejected, endings_eq]
    simp [Report.addAll, Report.empty, List.filterMap_map]
  failures := by
    rw [endings_eq]
    simp [Report.addAll, Report.empty, List.filterMap_map]
  progress := by
    rw [endings_eq, length_fates]
    apply List.ext_getElem <;> simp [Report.addAll, Report.empty]

theorem CommandLine.runCheck_json_stdout {defaultNamespace : Option String} {ds : List Declaration} {r : Report}
    {policy : FailurePolicy} {quiet : Bool} (h : compose ⟨.keepGoing, defaultNamespace⟩ ds = .ok r) :
    (runCheck ⟨.json, quiet⟩ ⟨policy, defaultNamespace⟩ ds).stdout = line (verdictJson r).pretty := by
  simp only [runCheck, h, checked]

/-- A run that goes on after failures gives a report that accounts for every declaration once: its fate is one
    manifest or one failure, and one step of progress. The steps are counted from 1 to the number of declarations,
    and as many of them are ok as there are manifests. So a check reports as many resources as there are
    declarations. -/
theorem keepGoing_accounts_for_all (defaultNamespace : Option String) (ds : List Declaration) :
    (∃ r fates, compose ⟨.keepGoing, defaultNamespace⟩ ds = .ok r ∧
      List.Forall₂ (Fate.Of (registryAfter {} ds).serviceNames defaultNamespace) ds fates ∧ r.Accounts fates ∧
      r.manifests.length + r.failures.length = ds.length ∧
      r.progress.map (fun p => (p.processed, p.total)) = (List.range ds.length).map (fun k => (k + 1, ds.length)) ∧
      (r.progress.filter (·.ok)).length = r.manifests.length) ∧
    ∀ policy quiet, ∃ errors valid,
      (CommandLine.runCheck ⟨.json, quiet⟩ ⟨policy, defaultNamespace⟩ ds).stdout =
        CommandLine.line
          (Json.object [("errors", errors), ("resources", .number ds.length), ("valid", valid)]).pretty := by
  have hcount : (Report.addAll ds.length .empty (endings defaultNamespace ds)).manifests.length +
      (Report.addAll ds.length .empty (endings defaultNamespace ds)).failures.length = ds.length := by
    simpa [Report.addAll, Report.empty, length_endings] using
      length_manifests_add_failures (endings defaultNamespace ds)
  refine ⟨⟨_, fates defaultNamespace ds, compose_keepGoing defaultNamespace ds, forall₂_fates _ _ _ ds,
    addAll_accounts defaultNamespace ds, hcount, ?_, ?_⟩, fun policy quiet => ?_⟩
  · apply List.ext_getElem <;> simp [Report.addAll, Report.empty, Ending.progress, length_endings]
  · simpa [Report.addAll, Report.empty] using length_filter_ok_progress ds.length 0 (endings defaultNamespace ds)
  · rw [CommandLine.runCheck_json_stdout (compose_keepGoing defaultNamespace ds), CommandLine.verdictJson]
    exact ⟨_, _, by rw [← Int.natCast_add, hcount]⟩

end Manifests
