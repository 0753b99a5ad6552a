import Manifests.CommandLine.Run
import Manifests.FileTree
import Manifests.Proofs.Composition.Endings

/-! # The two policies

A run that goes on after failures reports all of its endings (`foldlM_keepGoing`). A run that stops at the first
failure does the same up to there: without a failure it gives the same report (`foldlM_failFast_of_success`), and
else its failure and its progress are those of the other run cut after the first failure
(`foldlM_failFast_of_failure`). A check goes on after failures, and accepts what a run that stops would compose. -/

namespace Manifests

/-- The progress that an ending makes as the `processed`th of `total` resources. -/
def Ending.progress (processed total : Nat) (e : Ending) : Progress :=
  ⟨processed, total, e.resource, e.result.toOption.isSome⟩

theorem Ending.progress_ok {processed total : Nat} {e : Ending} :
    (e.progress processed total).ok = e.failure?.isNone := by
  obtain ⟨resource, f | m⟩ := e <;> rfl

namespace Report

/-- A report with the endings of a run that goes on after failures. -/
def addAll (total : Nat) (r : Report) (es : List Ending) : Report where
  manifests := r.manifests ++ es.filterMap Ending.manifest?
  failures := r.failures ++ es.filterMap Ending.failure?
  progress := r.progress ++ es.mapIdx fun k => Ending.progress (r.progress.length + k + 1) total

variable {total : Nat} {r : Report} {es : List Ending}

@[simp] theorem addAll_nil : r.addAll total [] = r := by
  simp [addAll]

theorem addAll_append (es es' : List Ending) : r.addAll total (es ++ es') = (r.addAll total es).addAll total es' := by
  simp [addAll, List.mapIdx_append, Nat.add_assoc, Nat.add_comm]

theorem addAll_cons (e : Ending) (es : List Ending) :
    r.addAll total (e :: es) = (r.addAll total [e]).addAll total es :=
  addAll_append [e] es

theorem add_keepGoing (e : Ending) : r.add .keepGoing total e = .ok (r.addAll total [e]) := by
  obtain ⟨resource, f | m⟩ := e <;>
    simp [fail, succeed, progressWith, addAll, Ending.progress, Except.toOption]

theorem foldlM_keepGoing : es.foldlM (Report.add .keepGoing total) r = .ok (r.addAll total es) := by
  induction es generalizing r with
  | nil => rw [addAll_nil]; rfl
  | cons e es ih =>
    rw [List.foldlM_cons, add_keepGoing, addAll_cons e es]
    exact ih

theorem add_failFast_of_success {e : Ending} (h : e.failure? = none) :
    r.add .failFast total e = r.add .keepGoing total e := by
  obtain ⟨resource, f | m⟩ := e
  · simp at h
  · rfl

theorem add_failFast_of_failure {e : Ending} {f : Failure} (h : e.failure? = some f) :
    r.add .failFast total e = .error ⟨f, (r.addAll total [e]).progress⟩ := by
  obtain ⟨resource, f' | m⟩ := e
  · obtain rfl : f' = f := by simpa using h
    simp [fail, progressWith, addAll, Ending.progress, Except.toOption]
  · simp at h

theorem foldlM_failFast_of_success (h : ∀ e ∈ es, e.failure? = none) :
    es.foldlM (Report.add .failFast total) r = .ok (r.addAll total es) := by
  induction es generalizing r with
  | nil => rw [addAll_nil]; rfl
  | cons e es ih =>
    rw [List.foldlM_cons, add_failFast_of_success (h e List.mem_cons_self), add_keepGoing, addAll_cons e es]
    exact ih fun x hx => h x (List.mem_cons_of_mem _ hx)

/-- The first failure ends a run, with the progress up to it. -/
theorem foldlM_failFast_of_failure {e : Ending} {after : List Ending} {f : Failure}
    (h : ∀ x ∈ es, x.failure? = none) (he : e.failure? = some f) :
    (es ++ e :: after).foldlM (Report.add .failFast total) r =
      .error ⟨f, (r.addAll total (es ++ [e])).progress⟩ := by
  rw [List.foldlM_append, foldlM_failFast_of_success h, addAll_append]
  show (e :: after).foldlM (Report.add .failFast total) (r.addAll total es) = _
  rw [List.foldlM_cons, add_failFast_of_failure he]
  rfl

end Report

/-- Either no ending is a failure, or there is a first that is. -/
theorem failureless_or_first_failure (es : List Ending) :
    (∀ e ∈ es, e.failure? = none) ∨
      ∃ before e after f, es = before ++ e :: after ∧ (∀ x ∈ before, x.failure? = none) ∧ e.failure? = some f := by
  induction es with
  | nil => exact Or.inl fun _ he => by cases he
  | cons e es ih =>
    cases he : e.failure? with
    | some f => exact Or.inr ⟨[], e, es, f, rfl, (fun _ hx => by cases hx), he⟩
    | none =>
      rcases ih with hall | ⟨before, e', after, f, rfl, hbefore, he'⟩
      · exact Or.inl (List.forall_mem_cons.mpr ⟨he, hall⟩)
      · exact Or.inr ⟨e :: before, e', after, f, rfl, List.forall_mem_cons.mpr ⟨he, hbefore⟩, he'⟩

/-! ### Cutting a run -/

/-- What a run that stops at the first failure gives where one that goes on reports `r`: the same report if that has
    no failure, and else its first failure with its progress through the first resource that is not ok. -/
inductive CutAtFailure (r : Report) : Except Halt Report → Prop
  | uncut : r.failures = [] → CutAtFailure r (.ok r)
  | cut {failure failures before last after} : r.failures = failure :: failures →
      r.progress = before ++ last :: after → (∀ p ∈ before, p.ok = true) → last.ok = false →
      CutAtFailure r (.error ⟨failure, before ++ [last]⟩)

theorem CutAtFailure.ok_iff {r : Report} {x : Except Halt Report} (h : CutAtFailure r x) :
    (∃ r', x = .ok r') ↔ r.failures = [] := by
  cases h with
  | uncut hnil => exact ⟨fun _ => hnil, fun _ => ⟨r, rfl⟩⟩
  | cut hcons => simp [hcons]

theorem cutAtFailure_addAll (total : Nat) (es : List Ending) :
    CutAtFailure (Report.addAll total .empty es) (es.foldlM (Report.add .failFast total) .empty) := by
  rcases failureless_or_first_failure es with hall | ⟨before, e, after, f, rfl, hbefore, he⟩
  · rw [Report.foldlM_failFast_of_success hall]
    exact .uncut (by simpa [Report.addAll, Report.empty] using hall)
  · rw [Report.foldlM_failFast_of_failure hbefore he]
    -- All is ok before the first failure, so the cut falls right after it.
    have hnil : before.filterMap Ending.failure? = [] := List.filterMap_eq_nil_iff.mpr hbefore
    have hfailures : (Report.addAll total .empty (before ++ e :: after)).failures =
        f :: after.filterMap Ending.failure? := by
      simp [Report.addAll, Report.empty, hnil, he]
    have hprogress : (Report.addAll total .empty (before ++ [e])).progress =
        (Report.addAll total .empty before).progress ++ [e.progress (before.length + 1) total] := by
      simp [Report.addAll, Report.empty, List.mapIdx_append]
    have hcut : (Report.addAll total .empty (before ++ e :: after)).progress =
        (Report.addAll total .empty before).progress ++ e.progress (before.length + 1) total ::
          after.mapIdx fun k => Ending.progress (before.length + 1 + k + 1) total := by
      simp [Report.addAll, Report.empty, List.mapIdx_append, Nat.add_assoc, Nat.add_comm, Nat.add_left_comm]
    rw [hprogress]
    refine .cut hfailures hcut (fun p hp => ?_) ?_
    · obtain ⟨k, hk, rfl⟩ := List.mem_mapIdx.mp (by simpa [Report.addAll, Report.empty] using hp)
      rw [Ending.progress_ok, hbefore _ (List.getElem_mem hk)]
      rfl
    · rw [Ending.progress_ok, he]
      rfl

theorem compose_keepGoing (defaultNamespace : Option String) (ds : List Declaration) :
    compose ⟨.keepGoing, defaultNamespace⟩ ds =
      .ok (.addAll ds.length .empty (endings defaultNamespace ds)) := by
  rw [compose_eq_foldlM]
  exact Report.foldlM_keepGoing

/-- A run that stops is one that goes on, cut at its first failure. -/
theorem compose_failFast (defaultNamespace : Option String) (ds : List Declaration) :
    CutAtFailure (.addAll ds.length .empty (endings defaultNamespace ds))
      (compose ⟨.failFast, defaultNamespace⟩ ds) := by
  rw [compose_eq_foldlM]
  exact cutAtFailure_addAll ds.length _

/-! ### What a run tells -/

/-- The failures that a run reports, or the one that it ends at. -/
def failuresOf : Except Halt Report → List Failure
  | .ok r => r.failures
  | .error halt => [halt.failure]

/-- The progress of a run. -/
def progressOf : Except Halt Report → List Progress
  | .ok r => r.progress
  | .error halt => halt.progress

theorem CutAtFailure.failures_subset {r : Report} {x : Except Halt Report} (h : CutAtFailure r x) :
    failuresOf x ⊆ r.failures := by
  cases h with
  | uncut => exact List.Subset.refl _
  | cut hfailures => simp [failuresOf, hfailures]

theorem CutAtFailure.progress_prefix {r : Report} {x : Except Halt Report} (h : CutAtFailure r x) :
    progressOf x <+: r.progress := by
  cases h with
  | uncut => exact List.prefix_refl _
  | cut _ hprogress =>
    rw [hprogress]
    exact ⟨_, (List.append_cons ..).symm⟩

/-- What a run tells under either policy is told by one that goes on after failures. -/
theorem exists_keepGoing (options : Options) (ds : List Declaration) :
    ∃ r, compose ⟨.keepGoing, options.defaultNamespace⟩ ds = .ok r ∧
      failuresOf (compose options ds) ⊆ r.failures ∧ progressOf (compose options ds) <+: r.progress := by
  obtain ⟨policy, defaultNamespace⟩ := options
  refine ⟨_, compose_keepGoing defaultNamespace ds, ?_⟩
  cases policy with
  | failFast =>
    have hcut := compose_failFast defaultNamespace ds
    exact ⟨hcut.failures_subset, hcut.progress_prefix⟩
  | keepGoing =>
    rw [compose_keepGoing]
    exact ⟨List.Subset.refl _, List.prefix_refl _⟩

/-! ### Checks -/

namespace CommandLine

theorem exitCode_eq_zero_iff {success : Bool} : exitCode success = 0 ↔ success = true := by
  cases success <;> decide

theorem checked_code (v : Voice) (r : Report) : (checked v r).code = exitCode r.isSuccess := by
  unfold checked
  split <;> rfl

/-- A check accepts declarations that a run which stops at the first failure composes. -/
theorem runCheck_code_eq_zero_iff (v : Voice) (options : Options) (ds : List Declaration) :
    (runCheck v options ds).code = 0 ↔
      ∃ r, compose { options with failurePolicy := .failFast } ds = .ok r := by
  rw [(compose_failFast options.defaultNamespace ds).ok_iff]
  simp only [runCheck, compose_keepGoing, checked_code, exitCode_eq_zero_iff, Report.isSuccess, List.isEmpty_iff]

variable {start tree : FileTree} {here : Place} {settings : Settings} {i : Invocation}

/-- What the program gives in a file tree is decided by what it loads there. -/
theorem runWith_check :
    ((runWith (start.host here) settings { i with command := .check }).run tree).1 =
      match (((start.host here).source.load i.file).run.run tree).1 with
      | .error failure => ⟨1, "", i.voice.report failure.diagnostic⟩
      | .ok ds => runCheck i.voice settings.options ds := by
  simp only [runWith, StateT.run_bind]
  rcases h : ((start.host here).source.load i.file).run.run tree with ⟨_ | _, _⟩ <;> rfl

end CommandLine

/-- A run that stops at the first failure is the run that goes on after failures, cut at its first failure. So a check,
    which goes on after failures, accepts a file exactly if its declarations can be loaded and composing them with
    the policy that stops gives a report. -/
theorem failFast_cuts_keepGoing (defaultNamespace : Option String) (ds : List Declaration) :
    (∃ r, compose ⟨.keepGoing, defaultNamespace⟩ ds = .ok r ∧
      CutAtFailure r (compose ⟨.failFast, defaultNamespace⟩ ds)) ∧
    ∀ (start tree : FileTree) (here : Place) (settings : Settings) (i : CommandLine.Invocation),
      ((CommandLine.runWith (start.host here) settings { i with command := .check }).run tree).1.code = 0 ↔
        ∃ ds r, (((start.host here).source.load i.file).run.run tree).1 = .ok ds ∧
          compose { settings.options with failurePolicy := .failFast } ds = .ok r := by
  refine ⟨⟨_, compose_keepGoing defaultNamespace ds, compose_failFast defaultNamespace ds⟩, ?_⟩
  intro start tree here settings i
  rw [CommandLine.runWith_check]
  cases (((start.host here).source.load i.file).run.run tree).1 with
  | error failure => simp
  | ok ds => simp [CommandLine.runCheck_code_eq_zero_iff]

end Manifests
