import Manifests.Proofs.Composition.Accounting
import Manifests.Proofs.Composition.Stages
import Mathlib.Data.List.InsertIdx

/-! # What a declaration does to the others

A declaration that is rejected enters nothing into the registry, so the others fare as if it had not been declared.
Of one that is enrolled the others see no more than its outline: what it is called and where it is declared. So the
others fare the same if it is replaced by a declaration with the same outline, whatever becomes of the two. -/

namespace Manifests

/-! ### Reports that differ in one fate -/

/-- The fates before and after one fate come about on the two sides of it, wherever it is put by its being enrolled
    or not. -/
theorem inTurn_between (before after : List Fate) (enrolled : Bool) :
    ∃ earlier later, inTurn (before ++ after) = earlier ++ later ∧
      ∀ x : Fate, x.enrolled = enrolled → inTurn (before ++ x :: after) = earlier ++ x :: later := by
  cases enrolled with
  | false =>
    refine ⟨before.filter (!·.enrolled), after.filter (!·.enrolled) ++ (before ++ after).filter (·.enrolled), ?_,
      fun x hx => ?_⟩
    · simp [inTurn]
    · simp [inTurn, hx]
  | true =>
    refine ⟨(before ++ after).filter (!·.enrolled) ++ before.filter (·.enrolled), after.filter (·.enrolled), ?_,
      fun x hx => ?_⟩
    · simp [inTurn]
    · simp [inTurn, hx]

theorem filterMap_between {α β : Type} (f : α → Option β) (before after : List α) (x : α) :
    (before ++ x :: after).filterMap f = before.filterMap f ++ (f x).toList ++ after.filterMap f := by
  cases h : f x <;> simp [h]

/-- Two reports are the same but for an ending in each, if there is one: what the other endings give stands in the
    same order before and after what these give. -/
structure Report.SameBut (r r' : Report) (x x' : Option Ending) : Prop where
  manifests : ∃ before after, r.manifests = before ++ (x.bind (·.manifest?)).toList ++ after ∧
    r'.manifests = before ++ (x'.bind (·.manifest?)).toList ++ after
  failures : ∃ before after, r.failures = before ++ (x.bind (·.failure?)).toList ++ after ∧
    r'.failures = before ++ (x'.bind (·.failure?)).toList ++ after

theorem eq_take_append_cons_drop {α : Type} {as : List α} {i : Nat} {a : α} (h : as[i]? = some a) :
    as = as.take i ++ a :: as.drop (i + 1) := by
  obtain ⟨hi, rfl⟩ := List.getElem?_eq_some_iff.mp h
  rw [← List.drop_eq_getElem_cons hi, List.take_append_drop]

section
variable {r r' : Report} {all : List Fate} {i : Nat} {x x' : Fate}

theorem Report.Accounts.sameBut_eraseIdx (h : r.Accounts all) (h' : r'.Accounts (all.eraseIdx i))
    (hx : all[i]? = some x) : r.SameBut r' (some x.ending) none := by
  rw [eq_take_append_cons_drop hx] at h
  rw [List.eraseIdx_eq_take_drop_succ] at h'
  obtain ⟨earlier, later, hothers, hturn⟩ := inTurn_between (all.take i) (all.drop (i + 1)) x.enrolled
  constructor
  · refine ⟨_, _, by rw [h.manifests, filterMap_between, Option.bind_some], ?_⟩
    rw [h'.manifests, List.filterMap_append, Option.bind_none, Option.toList_none, List.append_nil]
  · refine ⟨_, _, by rw [h.failures, hturn x rfl, filterMap_between, Option.bind_some], ?_⟩
    rw [h'.failures, hothers, List.filterMap_append, Option.bind_none, Option.toList_none, List.append_nil]

theorem Report.Accounts.sameBut_set (h : r.Accounts all) (h' : r'.Accounts (all.set i x'))
    (hx : all[i]? = some x) (henrolled : x'.enrolled = x.enrolled) :
    r.SameBut r' (some x.ending) (some x'.ending) := by
  rw [eq_take_append_cons_drop hx] at h
  rw [List.set_eq_take_append_cons_drop, if_pos (List.getElem?_eq_some_iff.mp hx).1] at h'
  obtain ⟨earlier, later, -, hturn⟩ := inTurn_between (all.take i) (all.drop (i + 1)) x.enrolled
  constructor
  · exact ⟨_, _, by rw [h.manifests, filterMap_between, Option.bind_some],
      by rw [h'.manifests, filterMap_between, Option.bind_some]⟩
  · exact ⟨_, _, by rw [h.failures, hturn x rfl, filterMap_between, Option.bind_some],
      by rw [h'.failures, hturn x' henrolled, filterMap_between, Option.bind_some]⟩

end

theorem exists_accounts (defaultNamespace : Option String) (ds : List Declaration) :
    ∃ r, compose ⟨.keepGoing, defaultNamespace⟩ ds = .ok r ∧ r.Accounts (fates defaultNamespace ds) :=
  ⟨_, compose_keepGoing defaultNamespace ds, addAll_accounts defaultNamespace ds⟩

theorem Ending.manifest?_eq_none {e : Ending} {failure : Failure} (h : e.failure? = some failure) :
    e.manifest? = none := by
  obtain ⟨resource, failure' | manifest⟩ := e
  · rfl
  · cases h

/-! ### Without a declaration that is rejected -/

section
variable {registry : Registry} {ds : List Declaration} {i : Nat} {d : Declaration} {failure : Failure}
  {defaultNamespace : Option String}

theorem enrollments_eraseIdx (h : (enrollments registry ds)[i]? = some (d, .error failure)) :
    enrollments registry (ds.eraseIdx i) = (enrollments registry ds).eraseIdx i ∧
      registryAfter registry (ds.eraseIdx i) = registryAfter registry ds := by
  induction ds generalizing registry i with
  | nil => exact ⟨rfl, rfl⟩
  | cons first ds ih =>
    cases i with
    | zero =>
      obtain ⟨rfl, henroll⟩ := Prod.mk.inj (Option.some.inj h)
      have henter : registry.enter (enroll registry first) = registry := by rw [henroll]; rfl
      constructor
      · show enrollments registry ds = enrollments (registry.enter (enroll registry first)) ds
        rw [henter]
      · show registryAfter registry ds = registryAfter (registry.enter (enroll registry first)) ds
        rw [henter]
    | succ i =>
      obtain ⟨hrest, hregistry⟩ := ih h
      exact ⟨congrArg ((first, enroll registry first) :: ·) hrest, hregistry⟩

theorem fates_eraseIdx (h : (enrollments {} ds)[i]? = some (d, .error failure)) :
    fates defaultNamespace (ds.eraseIdx i) = (fates defaultNamespace ds).eraseIdx i := by
  obtain ⟨hrest, hregistry⟩ := enrollments_eraseIdx h
  rw [fates, fates, hrest, hregistry, List.eraseIdx_map]

/-- A fate that ends with a failure of enrolling is that of a declaration which is rejected for it. -/
theorem getElem?_enrollments_of_fate {x : Fate} (hx : (fates defaultNamespace ds)[i]? = some x)
    (hfailure : x.ending.failure? = some failure) (hstage : failure.whileEnrolling = true) :
    ∃ d, (enrollments {} ds)[i]? = some (d, .error failure) := by
  rw [fates, List.getElem?_map] at hx
  obtain ⟨⟨d, failure' | record⟩, he, rfl⟩ := Option.map_eq_some_iff.mp hx
  · obtain rfl := Option.some.inj hfailure
    exact ⟨d, he⟩
  · have hmem : failure ∈ failings (registryAfter {} ds).serviceNames defaultNamespace [record] :=
      List.mem_filterMap.mpr ⟨record, List.mem_singleton_self record, hfailure⟩
    rw [Failure.whileEnrolling_of_whileFinishing (whileFinishing_of_mem_failings hmem)] at hstage
    cases hstage

end

/-- A declaration that fails while it is read or registered leaves no trace: without it a run that goes on after
    failures gives the same manifests, and the same failures but for that one. All other declarations have the same
    fates. -/
theorem compose_eraseIdx {defaultNamespace : Option String} {ds : List Declaration} {i : Nat} {x : Fate}
    {failure : Failure} (hx : (fates defaultNamespace ds)[i]? = some x) (hfailure : x.ending.failure? = some failure)
    (hstage : failure.stage = .extract ∨ failure.stage = .register) :
    ∃ r r', compose ⟨.keepGoing, defaultNamespace⟩ ds = .ok r ∧
      compose ⟨.keepGoing, defaultNamespace⟩ (ds.eraseIdx i) = .ok r' ∧
      r.Accounts (fates defaultNamespace ds) ∧ r'.Accounts ((fates defaultNamespace ds).eraseIdx i) ∧
      r'.manifests = r.manifests ∧
      ∃ before after, r.failures = before ++ failure :: after ∧ r'.failures = before ++ after := by
  obtain ⟨d, he⟩ := getElem?_enrollments_of_fate hx hfailure (by simpa [Failure.whileEnrolling] using hstage)
  obtain ⟨r, hr, haccounts⟩ := exists_accounts defaultNamespace ds
  obtain ⟨r', hr', haccounts'⟩ := exists_accounts defaultNamespace (ds.eraseIdx i)
  rw [fates_eraseIdx he] at haccounts'
  have hsame := haccounts.sameBut_eraseIdx haccounts' hx
  have hnone : x.ending.manifest? = none := Ending.manifest?_eq_none hfailure
  refine ⟨r, r', hr, hr', haccounts, haccounts', ?_, ?_⟩
  · obtain ⟨before, after, hmanifests, hmanifests'⟩ := hsame.manifests
    rw [hmanifests, hmanifests', Option.bind_some, hnone, Option.bind_none]
  · obtain ⟨before, after, hfailures, hfailures'⟩ := hsame.failures
    refine ⟨before, after, ?_, ?_⟩
    · rw [hfailures, Option.bind_some, hfailure, Option.toList_some, List.append_assoc, List.singleton_append]
    · rw [hfailures', Option.bind_none, Option.toList_none, List.append_nil]

/-- Services that are called alike: the second takes the identifier of the first and would have the name of the third,
    which the fourth declaration refers to. -/
def takenIdentifier : List Declaration :=
  let ports : Entry := ("ports", .list [.map [("port", .int 80)]])
  let destination : Value := .map [("serviceName", .text "svcB")]
  [⟨.service, some "svcA", [ports], ⟨"app.yaml", 0⟩⟩,
   ⟨.service, some "svcA", [("name", .text "svcB"), ports], ⟨"app.yaml", 1⟩⟩,
   ⟨.service, some "svcB", [ports], ⟨"app.yaml", 2⟩⟩,
   ⟨.virtualService, some "front", [("http", .list [.map [("route", .list [.map [("destination", destination)]])]])],
    ⟨"app.yaml", 3⟩⟩]

theorem takenIdentifier_eraseIdx :
    ∃ x r r', (fates none takenIdentifier)[1]? = some x ∧
      x.ending.failure? = some (.duplicateIdentifier .service "svcA" "app.yaml") ∧
      compose ⟨.keepGoing, none⟩ takenIdentifier = .ok r ∧
      compose ⟨.keepGoing, none⟩ (takenIdentifier.eraseIdx 1) = .ok r' ∧
      r.manifests.map (·.name) = ["svc-a", "svc-b", "front"] ∧ r'.manifests = r.manifests ∧
      ∃ before after, r.failures = before ++ .duplicateIdentifier .service "svcA" "app.yaml" :: after ∧
        r'.failures = before ++ after := by
  have hx : (fates none takenIdentifier)[1]? =
      some ⟨false, "svcB", .error (.duplicateIdentifier .service "svcA" "app.yaml")⟩ := rfl
  obtain ⟨r, r', h, h', -, -, hmanifests, hfailures⟩ := compose_eraseIdx hx rfl (Or.inr rfl)
  refine ⟨_, r, r', hx, rfl, h, h', ?_, hmanifests, hfailures⟩
  rw [Except.ok.inj (h.symm.trans (compose_keepGoing none takenIdentifier))]
  rfl

/-! ### With another declaration of the same outline -/

/-- What the other resources of a run see of a record: what it is called and where it is declared. -/
def Record.outline (r : Record) : Title × Provenance := (r.title, r.provenance)

namespace Registry

/-- The outlines of the registered records, with their keys. -/
def outlines (r : Registry) : List (String × Title × Provenance) := r.entries.map fun e => (e.1, e.2.outline)

theorem lookup?_outline (r : Registry) (kind : Kind) (key : String) :
    (r.lookup? kind key).map Record.outline =
      (r.outlines.find? fun o => o.2.1.kind = kind && o.1 = key).map (·.2) := by
  have hstands : stands kind key = fun entry => entry.2.kind = kind && entry.1 = key := rfl
  simp [lookup?, outlines, List.find?_map, Function.comp_def, hstands, Record.outline, Record.title]

theorem named?_outline (r : Registry) (kind : Kind) (name : String) :
    (r.named? kind name).map Record.outline =
      (r.outlines.find? fun o => o.2.1.kind = kind && o.2.1.name = name).map (·.2) := by
  simp [named?, outlines, List.find?_map, Function.comp_def, Record.outline, Record.title]

theorem outlines_register (r : Registry) (key : String) (record : Record) :
    (r.register key record).outlines =
      r.outlines.filter (fun o => !(o.2.1.kind = record.kind && o.1 = key)) ++ [(key, record.outline)] := by
  simp [register, outlines, List.filter_map, Function.comp_def, stands, Record.outline, Record.title]

theorem serviceNames_outline (r : Registry) (reference : String) :
    r.serviceNames reference = ((r.lookup? .service reference).map Record.outline).map (·.1.name) := by
  simp [serviceNames, Function.comp_def, Record.outline, Record.title]

end Registry

section
variable {registry registry' : Registry} {d d' : Declaration} {record record' : Record}

theorem enroll_of_outlines (h : d.extract = .ok record) :
    enroll registry d =
      match (registry.lookup? d.kind record.id).map Record.outline,
        (registry.named? d.kind record.name).map Record.outline with
      | some first, _ => .error (.duplicateIdentifier d.kind record.id first.2.file)
      | none, some first => .error (.nameCollision d.kind record.id record.name first.1.id)
      | none, none => .ok record := by
  rw [enroll_of_extract h]
  cases registry.lookup? d.kind record.id with
  | some first => rfl
  | none => cases registry.named? d.kind record.name <;> rfl

theorem enroll_congr (h : registry'.outlines = registry.outlines) (d : Declaration) :
    enroll registry' d = enroll registry d := by
  cases hd : d.extract with
  | error defect => rw [enroll_of_unreadable hd, enroll_of_unreadable hd]
  | ok record =>
    rw [enroll_of_outlines hd, enroll_of_outlines hd]
    simp only [Registry.lookup?_outline, Registry.named?_outline, h]

/-- Declarations whose records have the same outline are enrolled both, or rejected both for the same failure. -/
theorem enroll_of_outline_eq (registry : Registry) (h : d.extract = .ok record) (h' : d'.extract = .ok record')
    (houtline : record'.outline = record.outline) :
    (∃ failure, enroll registry d = .error failure ∧ enroll registry d' = .error failure) ∨
      enroll registry d = .ok record ∧ enroll registry d' = .ok record' := by
  obtain ⟨htitle, -⟩ := Prod.mk.inj houtline
  obtain ⟨hkind, hid, hname⟩ := Title.mk.inj htitle
  rw [Declaration.extract_kind h, Declaration.extract_kind h'] at hkind
  rw [enroll_of_extract h, enroll_of_extract h', hkind, hid, hname]
  cases registry.lookup? d.kind record.id with
  | some first => exact Or.inl ⟨_, rfl, rfl⟩
  | none =>
    cases registry.named? d.kind record.name with
    | some first => exact Or.inl ⟨_, rfl, rfl⟩
    | none => exact Or.inr ⟨rfl, rfl⟩

theorem outlines_enter (h : registry'.outlines = registry.outlines) (d : Declaration) :
    (registry'.enter (enroll registry' d)).outlines = (registry.enter (enroll registry d)).outlines := by
  rw [enroll_congr h]
  cases enroll registry d with
  | error failure => exact h
  | ok record => rw [Registry.enter, Registry.enter, Registry.outlines_register, Registry.outlines_register, h]

theorem outlines_enter_of_outline_eq (registry : Registry) (h : d.extract = .ok record)
    (h' : d'.extract = .ok record') (houtline : record'.outline = record.outline) :
    (registry.enter (enroll registry d')).outlines = (registry.enter (enroll registry d)).outlines := by
  rcases enroll_of_outline_eq registry h h' houtline with ⟨failure, hd, hd'⟩ | ⟨hd, hd'⟩
  · rw [hd, hd']
  · obtain ⟨htitle, -⟩ := Prod.mk.inj houtline
    obtain ⟨hkind, hid, -⟩ := Title.mk.inj htitle
    rw [hd, hd', Registry.enter, Registry.enter, Registry.outlines_register, Registry.outlines_register, hkind, hid,
      houtline]

end

section
variable {registry registry' : Registry} {ds : List Declaration} {i : Nat} {d d' : Declaration}
  {record record' : Record}

theorem enrollments_congr (h : registry'.outlines = registry.outlines) (ds : List Declaration) :
    enrollments registry' ds = enrollments registry ds ∧
      (registryAfter registry' ds).outlines = (registryAfter registry ds).outlines := by
  induction ds generalizing registry registry' with
  | nil => exact ⟨rfl, h⟩
  | cons d ds ih =>
    obtain ⟨hrest, hregistry⟩ := ih (outlines_enter h d)
    refine ⟨?_, hregistry⟩
    rw [enrollments, enrollments, hrest, enroll_congr h]

/-- A declaration with the outline of another is enrolled where that was, and leaves the registry with the same
    outlines, so that those after it are enrolled alike. -/
theorem enrollments_set (registry : Registry) (hd : ds[i]? = some d) (h : d.extract = .ok record)
    (h' : d'.extract = .ok record') (houtline : record'.outline = record.outline) :
    ∃ earlier, (enrollments registry ds)[i]? = some (d, enroll earlier d) ∧
      enrollments registry (ds.set i d') = (enrollments registry ds).set i (d', enroll earlier d') ∧
      (registryAfter registry (ds.set i d')).outlines = (registryAfter registry ds).outlines := by
  induction ds generalizing registry i with
  | nil => cases hd
  | cons first ds ih =>
    cases i with
    | zero =>
      obtain rfl := Option.some.inj hd
      obtain ⟨hrest, hregistry⟩ := enrollments_congr (outlines_enter_of_outline_eq registry h h' houtline) ds
      exact ⟨registry, rfl, congrArg ((d', enroll registry d') :: ·) hrest, hregistry⟩
    | succ i =>
      obtain ⟨earlier, hi, hrest, hregistry⟩ := ih _ hd
      exact ⟨earlier, hi, congrArg ((first, enroll registry first) :: ·) hrest, hregistry⟩

/-- Declarations with the same outline put in one place are both enrolled or both rejected, and the other fates are
    the same. -/
theorem fates_set (defaultNamespace : Option String) (hd : ds[i]? = some d) (h : d.extract = .ok record)
    (h' : d'.extract = .ok record') (houtline : record'.outline = record.outline) :
    ∃ x x', (fates defaultNamespace ds)[i]? = some x ∧ x'.enrolled = x.enrolled ∧
      fates defaultNamespace (ds.set i d') = (fates defaultNamespace ds).set i x' := by
  obtain ⟨earlier, hi, hset, houtlines⟩ := enrollments_set {} hd h h' houtline
  have hservices : (registryAfter {} (ds.set i d')).serviceNames = (registryAfter {} ds).serviceNames := by
    funext reference
    rw [Registry.serviceNames_outline, Registry.serviceNames_outline, Registry.lookup?_outline,
      Registry.lookup?_outline, houtlines]
  refine ⟨fate (registryAfter {} ds).serviceNames defaultNamespace (d, enroll earlier d),
    fate (registryAfter {} ds).serviceNames defaultNamespace (d', enroll earlier d'), ?_, ?_, ?_⟩
  · rw [fates, List.getElem?_map, hi, Option.map_some]
  · rcases enroll_of_outline_eq earlier h h' houtline with ⟨failure, hd, hd'⟩ | ⟨hd, hd'⟩
    · rw [hd, hd']
      rfl
    · rw [hd, hd']
      rfl
  · rw [fates, fates, hset, hservices, List.map_set]

end

/-- Editing the body of a resource affects that resource only: where a declaration is replaced by one of the same kind
    and place whose record has the same identifier and name, a run that goes on after failures gives all other
    declarations the same manifests and failures, in the same order. -/
theorem compose_set {defaultNamespace : Option String} {ds : List Declaration} {i : Nat} {d d' : Declaration}
    {record record' : Record} (hd : ds[i]? = some d) (h : d.extract = .ok record) (h' : d'.extract = .ok record')
    (hkind : d'.kind = d.kind) (hprovenance : d'.provenance = d.provenance) (hid : record'.id = record.id)
    (hname : record'.name = record.name) :
    ∃ r r' x x', compose ⟨.keepGoing, defaultNamespace⟩ ds = .ok r ∧
      compose ⟨.keepGoing, defaultNamespace⟩ (ds.set i d') = .ok r' ∧
      r.Accounts (fates defaultNamespace ds) ∧ r'.Accounts (fates defaultNamespace (ds.set i d')) ∧
      (∀ j, j ≠ i → (fates defaultNamespace (ds.set i d'))[j]? = (fates defaultNamespace ds)[j]?) ∧
      (fates defaultNamespace ds)[i]? = some x ∧ (fates defaultNamespace (ds.set i d'))[i]? = some x' ∧
      r.SameBut r' (some x.ending) (some x'.ending) := by
  have houtline : record'.outline = record.outline := by
    rw [Record.outline, Record.outline, Record.title, Record.title, hid, hname, Declaration.extract_kind h,
      Declaration.extract_kind h', hkind, Declaration.extract_provenance h, Declaration.extract_provenance h',
      hprovenance]
  obtain ⟨x, x', hx, henrolled, hset⟩ := fates_set defaultNamespace hd h h' houtline
  obtain ⟨r, hr, haccounts⟩ := exists_accounts defaultNamespace ds
  obtain ⟨r', hr', haccounts'⟩ := exists_accounts defaultNamespace (ds.set i d')
  have hi : i < (fates defaultNamespace ds).length := (List.getElem?_eq_some_iff.mp hx).1
  refine ⟨r, r', x, x', hr, hr', haccounts, haccounts', fun j hj => ?_, hx, ?_, ?_⟩
  · rw [hset, List.getElem?_set_ne (Ne.symm hj)]
  · rw [hset, List.getElem?_set_self hi]
  · exact haccounts.sameBut_set (hset ▸ haccounts') hx henrolled

/-- A service to which the virtual service before it refers. -/
def editedService : List Declaration :=
  let destination : Value := .map [("serviceName", .text "svcA")]
  [⟨.virtualService, some "front", [("http", .list [.map [("route", .list [.map [("destination", destination)]])]])],
    ⟨"app.yaml", 0⟩⟩,
   ⟨.service, some "svcA", [("ports", .list [.map [("port", .int 80)]])], ⟨"app.yaml", 1⟩⟩,
   ⟨.service, some "svcB", [], ⟨"app.yaml", 2⟩⟩]

/-- The service with labels and without its ports, which is not valid. -/
def withoutPorts : Declaration :=
  ⟨.service, some "svcA", [("labels", .map [("tier", .text "back")]), ("ports", .list [])], ⟨"app.yaml", 1⟩⟩

theorem editedService_set :
    ∃ r r' x x', compose ⟨.keepGoing, none⟩ editedService = .ok r ∧
      compose ⟨.keepGoing, none⟩ (editedService.set 1 withoutPorts) = .ok r' ∧
      r.manifests.map (·.name) = ["front", "svc-a"] ∧ r'.manifests.map (·.name) = ["front"] ∧
      (fates none editedService)[1]? = some x ∧ (fates none (editedService.set 1 withoutPorts))[1]? = some x' ∧
      (∀ j, j ≠ 1 → (fates none (editedService.set 1 withoutPorts))[j]? = (fates none editedService)[j]?) ∧
      r.SameBut r' (some x.ending) (some x'.ending) := by
  have hd : editedService[1]? = some ⟨.service, some "svcA", [("ports", .list [.map [("port", .int 80)]])],
    ⟨"app.yaml", 1⟩⟩ := rfl
  obtain ⟨r, r', x, x', h, h', -, -, hothers, hx, hx', hsame⟩ :=
    @compose_set none editedService 1 _ withoutPorts _ _ hd rfl rfl rfl rfl rfl rfl
  refine ⟨r, r', x, x', h, h', ?_, ?_, hx, hx', hothers, hsame⟩
  · rw [Except.ok.inj (h.symm.trans (compose_keepGoing none editedService))]
    rfl
  · rw [Except.ok.inj (h'.symm.trans (compose_keepGoing none (editedService.set 1 withoutPorts)))]
    rfl

end Manifests
