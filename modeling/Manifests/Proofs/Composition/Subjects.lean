import Manifests.Proofs.Composition.Accounting
import Manifests.Proofs.Composition.Registration

/-! # What resources are called

Each stage calls a resource in its own way: by the label of its declaration, by the identifier of its record, by its
name, or by its name and else its identifier. So a run leaves a resource without a name for a stage exactly if what
that stage takes is empty (`Fate.Names`). -/

namespace Manifests

namespace Failure

/-- What a failure calls its resource. -/
def subject : Failure → String
  | .defect _ resource _ | .unresolvedReference _ resource _ | .violation _ resource _ => resource
  | .duplicateIdentifier _ id _ | .nameCollision _ id _ _ => id

theorem resource?_diagnostic (f : Failure) : f.diagnostic.resource? = some f.subject := by
  cases f with
  | defect kind resource defect =>
    obtain ⟨path, fault⟩ := defect
    cases fault <;> rfl
  | duplicateIdentifier | nameCollision | unresolvedReference | violation => rfl

/-- A failure of a record has no name for its resource where what its stage takes is empty: the identifier, the name,
    or both. -/
inductive LeavesNameless : Failure → Record → Prop
  | registering {f : Failure} {record : Record} : f.stage = .register → record.id = "" → LeavesNameless f record
  | resolving {f : Failure} {record : Record} : f.stage = .resolve → record.name = "" → LeavesNameless f record
  | validating {f : Failure} {record : Record} : f.stage = .validate → record.name = "" → record.id = "" →
      LeavesNameless f record

end Failure

/-! ### One declaration -/

/-- Progress calls the declaration by its label if it is rejected and else by the name of its record. A failure has a
    name for it but for what its stage takes from its record. -/
structure Fate.Names (d : Declaration) (fate : Fate) : Prop where
  progress : fate.ending.resource = "" ↔ fate.enrolled = true ∧ ∃ record, d.extract = .ok record ∧ record.name = ""
  failure : ∀ f, fate.ending.failure? = some f → ∃ subject, f.diagnostic.resource? = some subject ∧
    (subject = "" ↔ ∃ record, d.extract = .ok record ∧ f.LeavesNameless record)

theorem enroll_subject {registry : Registry} {d : Declaration} {f : Failure} (hlabel : d.label ≠ "")
    (h : enroll registry d = .error f) :
    f.subject = "" ↔ ∃ record, d.extract = .ok record ∧ f.LeavesNameless record := by
  cases hextract : d.extract with
  | error defect =>
    rw [enroll_of_unreadable hextract] at h
    cases h
    exact iff_of_false hlabel fun ⟨_, hread, _⟩ => by cases hread
  | ok record =>
    rw [enroll_of_extract hextract] at h
    have htaken : f.subject = record.id ∧ f.stage = .register := by
      split at h <;> cases h <;> exact ⟨rfl, rfl⟩
    rw [htaken.1]
    constructor
    · intro hid
      exact ⟨record, rfl, .registering htaken.2 hid⟩
    · rintro ⟨_, ⟨⟩, hnameless⟩
      cases hnameless with
      | registering _ hid => exact hid
      | resolving hstage | validating hstage => cases htaken.2.symm.trans hstage

theorem finish_subject {services : ServiceNames} {defaultNamespace : Option String} {record : Record} {f : Failure}
    (h : finish services defaultNamespace record = .error f) : f.subject = "" ↔ f.LeavesNameless record := by
  rw [finish_eq] at h
  split at h
  · cases h
    constructor
    · exact .resolving rfl
    · rintro (⟨hstage, -⟩ | ⟨-, hname⟩ | ⟨hstage, -, -⟩)
      · cases hstage
      · exact hname
      · cases hstage
  · dsimp only at h
    split at h
    · cases h
    · cases h
      -- A record without a name is called by its identifier when its rules are checked.
      have hsubject : (if record.name = "" then record.id else record.name) = "" ↔
          record.name = "" ∧ record.id = "" := by
        split
        · exact (and_iff_right ‹_›).symm
        · exact iff_of_false ‹_› fun hempty => ‹¬_› hempty.1
      refine hsubject.trans ⟨fun hempty => .validating rfl hempty.1 hempty.2, ?_⟩
      rintro (⟨hstage, -⟩ | ⟨hstage, -⟩ | ⟨-, hname, hid⟩)
      · cases hstage
      · cases hstage
      · exact ⟨hname, hid⟩

theorem Fate.Of.names {services : ServiceNames} {defaultNamespace : Option String} {d : Declaration} {fate : Fate}
    (hlabel : d.label ≠ "") (h : Fate.Of services defaultNamespace d fate) : fate.Names d := by
  have hrecord {record : Record} (hextract : d.extract = .ok record) (P : Record → Prop) :
      P record ↔ ∃ record', d.extract = .ok record' ∧ P record' := by
    rw [hextract]
    exact ⟨fun hP => ⟨record, rfl, hP⟩, fun ⟨_, heq, hP⟩ => Except.ok.inj heq ▸ hP⟩
  cases h with
  | rejected henroll =>
    refine ⟨iff_of_false hlabel fun h => Bool.false_ne_true h.1, ?_⟩
    rintro _ ⟨⟩
    exact ⟨_, Failure.resource?_diagnostic _, enroll_subject hlabel henroll⟩
  | failed hextract hfinish =>
    refine ⟨(hrecord hextract (·.name = "")).trans (and_iff_right rfl).symm, ?_⟩
    rintro _ ⟨⟩
    exact ⟨_, Failure.resource?_diagnostic _, (finish_subject hfinish).trans (hrecord hextract _)⟩
  | composed hextract =>
    exact ⟨(hrecord hextract (·.name = "")).trans (and_iff_right rfl).symm, fun _ h => by cases h⟩

/-! ### All declarations -/

/-- Each step of progress and each failure that a run tells has a name for its resource. -/
structure NamesAll (outcome : Except Halt Report) : Prop where
  progress : ∀ p ∈ progressOf outcome, p.resource ≠ ""
  failures : ∀ f ∈ failuresOf outcome, ∃ subject, f.diagnostic.resource? = some subject ∧ subject ≠ ""

/-- A report that accounts for fates has names for all, if each fate is that of a declaration whose record has an
    identifier and a name. -/
theorem Report.Accounts.namesAll {r : Report} {fates : List Fate} {ds : List Declaration} (h : r.Accounts fates)
    (hnames : List.Forall₂ (fun d fate => fate.Names d) ds fates)
    (hrecords : ∀ d ∈ ds, ∀ record, d.extract = .ok record → record.id ≠ "" ∧ record.name ≠ "") :
    NamesAll (.ok r) where
  progress p hp := by
    simp only [progressOf, h.progress, List.mem_mapIdx] at hp
    obtain ⟨k, hk, rfl⟩ := hp
    obtain ⟨d, hd, hnamed⟩ := exists_mem_left_of_forall₂ hnames (mem_inTurn (List.getElem_mem hk))
    intro hempty
    obtain ⟨-, record, hextract, hname⟩ := hnamed.progress.mp hempty
    exact (hrecords d hd record hextract).2 hname
  failures f hf := by
    simp only [failuresOf, h.failures, List.mem_filterMap] at hf
    obtain ⟨fate, hfate, hf⟩ := hf
    obtain ⟨d, hd, hnamed⟩ := exists_mem_left_of_forall₂ hnames (mem_inTurn hfate)
    obtain ⟨subject, hsubject, hempty⟩ := hnamed.failure f hf
    refine ⟨subject, hsubject, fun hnone => ?_⟩
    obtain ⟨record, hextract, hnameless⟩ := hempty.mp hnone
    obtain ⟨hid, hname⟩ := hrecords d hd record hextract
    cases hnameless with
    | registering _ hnone => exact hid hnone
    | resolving _ hnone | validating _ hnone => exact hname hnone

/-- A run accounts for declarations with labels, and has a name for each but for what its stages take from the record
    of the declaration. So it has names for all if no record has an empty identifier or an empty name. -/
theorem compose_subjects {ds : List Declaration} (hlabels : ∀ d ∈ ds, d.label ≠ "")
    (defaultNamespace : Option String) :
    (∃ r fates, compose ⟨.keepGoing, defaultNamespace⟩ ds = .ok r ∧
      CutAtFailure r (compose ⟨.failFast, defaultNamespace⟩ ds) ∧ r.Accounts fates ∧
      List.Forall₂ (fun d fate => fate.Names d) ds fates) ∧
    ((∀ d ∈ ds, ∀ record, d.extract = .ok record → record.id ≠ "" ∧ record.name ≠ "") →
      ∀ policy, NamesAll (compose ⟨policy, defaultNamespace⟩ ds)) := by
  have hnames : List.Forall₂ (fun d fate => fate.Names d) ds (fates defaultNamespace ds) :=
    (forall₂_mem_right (forall₂_fates _ _ _ ds).flip).flip.imp fun d _ h => h.2.names (hlabels d h.1)
  have haccounts := addAll_accounts defaultNamespace ds
  refine ⟨⟨_, _, compose_keepGoing defaultNamespace ds, compose_failFast defaultNamespace ds, haccounts, hnames⟩,
    fun hrecords policy => ?_⟩
  -- A run under either policy tells nothing but what the report of one that goes on has.
  obtain ⟨r, hrun, hfailures, hprogress⟩ := exists_keepGoing ⟨policy, defaultNamespace⟩ ds
  obtain rfl := Except.ok.inj ((compose_keepGoing defaultNamespace ds).symm.trans hrun)
  have hall := haccounts.namesAll hnames hrecords
  exact ⟨fun p hp => hall.progress p (hprogress.subset hp), fun f hf => hall.failures f (hfailures hf)⟩

/-- A virtual service that routes to a service which nobody declares. -/
def toGhost (name : String) : Declaration :=
  ⟨.virtualService, none,
    [("name", .text name),
     ("http", .list [.map [("route", .list [.map [("destination", .map [("serviceName", .text "ghost")])]])]])],
    ⟨"app.yaml", 0⟩⟩

/-- With a name in it the virtual service is called by that name when its reference is not found. -/
theorem toGhost_front_namesAll :
    (∀ d ∈ [toGhost "front"], d.label ≠ "") ∧ ∀ policy, NamesAll (compose ⟨policy, none⟩ [toGhost "front"]) := by
  have hlabels : ∀ d ∈ [toGhost "front"], d.label ≠ "" := List.forall_mem_singleton.mpr (by decide)
  refine ⟨hlabels, (compose_subjects hlabels none).2 (List.forall_mem_singleton.mpr ?_)⟩
  intro record hrecord
  cases hrecord
  exact ⟨by decide, by decide⟩

/-- A name of dashes is the label of the virtual service, and nothing of it is left in the name that its failure and
    its progress are told with. -/
theorem toGhost_dashes_nameless :
    (toGhost "---").label = "---" ∧
    compose ⟨.keepGoing, none⟩ [toGhost "---"] =
      .ok ⟨[], [.unresolvedReference .virtualService "" "ghost"], [⟨1, 1, "", false⟩]⟩ ∧
    ¬NamesAll (compose ⟨.keepGoing, none⟩ [toGhost "---"]) := by
  have hrun : compose ⟨.keepGoing, none⟩ [toGhost "---"] =
      .ok ⟨[], [.unresolvedReference .virtualService "" "ghost"], [⟨1, 1, "", false⟩]⟩ := rfl
  refine ⟨rfl, hrun, fun hnames => ?_⟩
  rw [hrun] at hnames
  exact hnames.progress _ List.mem_cons_self rfl

end Manifests
