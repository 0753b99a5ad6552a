import Manifests.Proofs.Composition.Enrolling
import Manifests.Proofs.Composition.Policy

/-! # What is registered

Enrolling a declaration looks at the records that were registered before it and at nothing else. So what it gives is
told by the declarations that were accepted before (`Outcome`), and one that is not accepted could as well not have
been declared. The registry holds the accepted records, each under its kind and identifier (`Registry.Holds`): one
step keeps this (`Registry.Holds.enter`), and so does a run (`Registry.Holds.registryAfter`). -/

namespace Manifests

/-! ### One declaration -/

/-- The accepted declarations, with their records. -/
def accepted (es : List (Declaration × Except Failure Record)) : List (Declaration × Record) :=
  es.filterMap fun e => e.2.toOption.map (e.1, ·)

@[simp] theorem accepted_append (es es' : List (Declaration × Except Failure Record)) :
    accepted (es ++ es') = accepted es ++ accepted es' :=
  List.filterMap_append

@[simp] theorem map_snd_accepted (es : List (Declaration × Except Failure Record)) :
    (accepted es).map (·.2) = enrolledRecords es := by
  simp [accepted, enrolledRecords, List.map_filterMap, Function.comp_def]

/-- An accepted declaration of the kind has the identifier. -/
def HoldsId (earlier : List (Declaration × Record)) (kind : Kind) (id : String) (first : Declaration × Record) :
    Prop :=
  first ∈ earlier ∧ first.1.kind = kind ∧ first.2.id = id

/-- An accepted declaration of the kind has the name. -/
def HoldsName (earlier : List (Declaration × Record)) (kind : Kind) (name : String)
    (first : Declaration × Record) : Prop :=
  first ∈ earlier ∧ first.1.kind = kind ∧ first.2.name = name

/-- What enrolling a declaration gives, where `earlier` were accepted before it. -/
structure Outcome (earlier : List (Declaration × Record)) (d : Declaration) (x : Except Failure Record) : Prop where
  /-- It is accepted exactly if it can be read and neither its identifier nor its name is taken. -/
  accepted_iff : ∀ record, x = .ok record ↔ d.extract = .ok record ∧
    (∀ first, ¬ HoldsId earlier d.kind record.id first) ∧ ∀ first, ¬ HoldsName earlier d.kind record.name first
  /-- If it cannot be read, it fails with the defect that was found. -/
  unreadable : ∀ defect, d.extract = .error defect → x = .error (.defect d.kind d.label defect)
  /-- If its identifier is taken, it fails with the file of the one that has it. -/
  duplicate : ∀ record first, d.extract = .ok record → HoldsId earlier d.kind record.id first →
    x = .error (.duplicateIdentifier d.kind record.id first.1.provenance.file)
  /-- If only its name is taken, it fails with the identifier of the one that has it. -/
  collision : ∀ record first, d.extract = .ok record → (∀ other, ¬ HoldsId earlier d.kind record.id other) →
    HoldsName earlier d.kind record.name first →
    x = .error (.nameCollision d.kind record.id record.name first.2.id)

/-- What is reported as a duplicate has an accepted declaration before it. -/
theorem Outcome.exists_holdsId {earlier : List (Declaration × Record)} {d : Declaration} {kind : Kind}
    {id file : String} (h : Outcome earlier d (.error (.duplicateIdentifier kind id file))) :
    ∃ first, HoldsId earlier kind id first ∧ first.1.provenance.file = file := by
  cases hextract : d.extract with
  | error defect => cases h.unreadable defect hextract
  | ok record =>
    by_cases hid : ∃ first, HoldsId earlier d.kind record.id first
    · obtain ⟨first, hfirst⟩ := hid
      cases h.duplicate record first hextract hfirst
      exact ⟨first, hfirst, rfl⟩
    · have hfree := not_exists.mp hid
      by_cases hname : ∃ first, HoldsName earlier d.kind record.name first
      · obtain ⟨first, hfirst⟩ := hname
        cases h.collision record first hextract hfree hfirst
      · cases (h.accepted_iff record).mpr ⟨hextract, hfree, not_exists.mp hname⟩

theorem enroll_of_unreadable {registry : Registry} {d : Declaration} {defect : Extraction.Defect}
    (h : d.extract = .error defect) : enroll registry d = .error (.defect d.kind d.label defect) := by
  rw [enroll, h]
  rfl

theorem enroll_of_extract {registry : Registry} {d : Declaration} {record : Record} (h : d.extract = .ok record) :
    enroll registry d =
      match registry.lookup? d.kind record.id, registry.named? d.kind record.name with
      | some first, _ => .error (.duplicateIdentifier d.kind record.id first.provenance.file)
      | none, some first => .error (.nameCollision d.kind record.id record.name first.id)
      | none, none => .ok record := by
  rw [enroll, h]
  rfl

namespace Registry

/-- A registry holds the records of accepted declarations, each under its identifier, and no two of a kind have the
    same name. -/
structure Holds (registry : Registry) (earlier : List (Declaration × Record)) : Prop where
  entries : registry.entries = earlier.map fun e => (e.2.id, e.2)
  extract : ∀ e ∈ earlier, e.1.extract = .ok e.2
  names : registry.NamesDistinct

theorem holds_empty : Registry.Holds {} [] where
  entries := rfl
  extract _ h := by cases h
  names := List.Pairwise.nil

section
variable {registry : Registry} {earlier : List (Declaration × Record)} {kind : Kind} {record : Record}

theorem Holds.kind_eq (h : registry.Holds earlier) {e : Declaration × Record} (he : e ∈ earlier) :
    e.2.kind = e.1.kind :=
  Declaration.extract_kind (h.extract e he)

/-- No two accepted declarations of a kind have the same identifier. -/
theorem Holds.pairwise (h : registry.Holds earlier) :
    earlier.Pairwise fun a b => (a.1.kind, a.2.id) ≠ (b.1.kind, b.2.id) := by
  have hdistinct := registry.distinct
  rw [h.entries, List.pairwise_map] at hdistinct
  refine hdistinct.imp_of_mem fun ha hb hne => ?_
  rwa [← h.kind_eq ha, ← h.kind_eq hb]

/-- The record of a kind under an identifier is the accepted one that has them. -/
theorem Holds.lookup?_eq_some_iff (h : registry.Holds earlier) {id : String} :
    registry.lookup? kind id = some record ↔ ∃ d, HoldsId earlier kind id (d, record) := by
  rw [Registry.lookup?_eq_some_iff, h.entries, List.mem_map]
  constructor
  · rintro ⟨⟨e, he, heq⟩, rfl⟩
    obtain ⟨rfl, rfl⟩ := Prod.mk.injEq .. ▸ heq
    exact ⟨e.1, he, (h.kind_eq he).symm, rfl⟩
  · rintro ⟨d, hd, rfl, rfl⟩
    exact ⟨⟨_, hd, rfl⟩, h.kind_eq hd⟩

theorem Holds.lookup?_eq_none_iff (h : registry.Holds earlier) {id : String} :
    registry.lookup? kind id = none ↔ ∀ first, ¬ HoldsId earlier kind id first := by
  rw [Option.eq_none_iff_forall_ne_some]
  constructor
  · exact fun hnone first hfirst => hnone first.2 (h.lookup?_eq_some_iff.mpr ⟨first.1, hfirst⟩)
  · intro hfree record hsome
    obtain ⟨d, hd⟩ := h.lookup?_eq_some_iff.mp hsome
    exact hfree _ hd

theorem Holds.named?_eq_none_iff (h : registry.Holds earlier) {name : String} :
    registry.named? kind name = none ↔ ∀ first, ¬ HoldsName earlier kind name first := by
  rw [Registry.named?_eq_none_iff, h.entries, List.forall_mem_map]
  constructor
  · rintro hfree first ⟨hfirst, hkind, hname⟩
    exact hfree first hfirst ((h.kind_eq hfirst).trans hkind) hname
  · exact fun hfree e he hkind hname => hfree e ⟨he, (h.kind_eq he).symm.trans hkind, hname⟩

/-- The record of a kind with a name is the accepted one that has them. -/
theorem Holds.named?_of_holdsName (h : registry.Holds earlier) {name : String} {first : Declaration × Record}
    (hfirst : HoldsName earlier kind name first) : registry.named? kind name = some first.2 := by
  obtain ⟨hmem, hkind, hname⟩ := hfirst
  cases hnamed : registry.named? kind name with
  | none => exact absurd ⟨hmem, hkind, hname⟩ (h.named?_eq_none_iff.mp hnamed first)
  | some found =>
    obtain ⟨key, hfound, hkind', hname'⟩ := named?_eq_some hnamed
    have hnodup : (registry.records.map fun record => (record.kind, record.name)).Nodup :=
      List.pairwise_map.mpr h.names
    have hfound' : found ∈ registry.records := List.mem_map.mpr ⟨_, hfound, rfl⟩
    have hmem' : first.2 ∈ registry.records := by
      rw [records, h.entries]
      exact List.mem_map.mpr ⟨_, List.mem_map.mpr ⟨first, hmem, rfl⟩, rfl⟩
    rw [List.inj_on_of_nodup_map hnodup hfound' hmem' (by rw [hkind', hname', h.kind_eq hmem, hkind, hname])]

/-- What enrolling gives is told by the declarations that were accepted before. -/
theorem Holds.outcome (h : registry.Holds earlier) (d : Declaration) : Outcome earlier d (enroll registry d) where
  accepted_iff record := by
    rw [← h.lookup?_eq_none_iff, ← h.named?_eq_none_iff]
    constructor
    · exact enroll_eq_ok
    · rintro ⟨hextract, hid, hname⟩
      rw [enroll_of_extract hextract, hid, hname]
  unreadable _ := enroll_of_unreadable
  duplicate record first hextract hfirst := by
    have hprovenance := Declaration.extract_provenance (h.extract first hfirst.1)
    rw [enroll_of_extract hextract, h.lookup?_eq_some_iff.mpr ⟨first.1, hfirst⟩]
    simp only [hprovenance]
  collision record first hextract hfree hfirst := by
    rw [enroll_of_extract hextract, h.lookup?_eq_none_iff.mpr hfree, h.named?_of_holdsName hfirst]

theorem Holds.enter (h : registry.Holds earlier) (d : Declaration) :
    (registry.enter (enroll registry d)).Holds (earlier ++ accepted [(d, enroll registry d)]) := by
  have hnames := h.names.enter d
  cases hd : enroll registry d with
  | error failure =>
    have hnone : accepted [(d, .error failure)] = [] := rfl
    rw [hnone, List.append_nil]
    exact h
  | ok record =>
    obtain ⟨hextract, hid, -⟩ := enroll_eq_ok hd
    rw [← Declaration.extract_kind hextract] at hid
    refine ⟨?_, fun e he => ?_, hd ▸ hnames⟩
    · show (registry.register record.id record).entries = _
      rw [register_entries hid, h.entries, List.map_append]
      rfl
    · rcases List.mem_append.mp he with he | he
      · exact h.extract e he
      · obtain rfl := List.mem_singleton.mp he
        exact hextract

theorem Holds.registryAfter (h : registry.Holds earlier) (ds : List Declaration) :
    (registryAfter registry ds).Holds (earlier ++ accepted (enrollments registry ds)) := by
  induction ds generalizing registry earlier with
  | nil =>
    show registry.Holds (earlier ++ [])
    rwa [List.append_nil]
  | cons d ds ih =>
    have hcons : enrollments registry (d :: ds) =
        [(d, enroll registry d)] ++ enrollments (registry.enter (enroll registry d)) ds := rfl
    rw [hcons, accepted_append, ← List.append_assoc]
    exact ih (h.enter d)

end

end Registry

/-! ### All declarations -/

theorem map_fst_accepted {es : List (Declaration × Except Failure Record)} (h : rejections es = []) :
    (accepted es).map (·.1) = es.map (·.1) := by
  induction es with
  | nil => rfl
  | cons e es ih =>
    obtain ⟨d, failure | record⟩ := e
    · cases h
    · exact congrArg (d :: ·) (ih h)

theorem rejections_eq_nil {es : List (Declaration × Except Failure Record)}
    (h : (rejections es).filterMap (·.failure?) = []) : rejections es = [] := by
  refine List.eq_nil_iff_forall_not_mem.mpr fun ending hending => ?_
  have hnone := List.filterMap_eq_nil_iff.mp h ending hending
  obtain ⟨⟨d, failure | record⟩, -, he⟩ := List.mem_filterMap.mp hending
  · obtain rfl := Option.some.inj he
    cases hnone
  · cases he

theorem map_fst_enrollments (registry : Registry) (ds : List Declaration) :
    (enrollments registry ds).map (·.1) = ds := by
  induction ds generalizing registry with
  | nil => rfl
  | cons d ds ih => exact congrArg (d :: ·) (ih _)

theorem enrollments_append (registry : Registry) (ds ds' : List Declaration) :
    enrollments registry (ds ++ ds') = enrollments registry ds ++ enrollments (registryAfter registry ds) ds' := by
  induction ds generalizing registry with
  | nil => rfl
  | cons d ds ih => exact congrArg ((d, enroll registry d) :: ·) (ih _)

theorem registryAfter_append (registry : Registry) (ds ds' : List Declaration) :
    registryAfter registry (ds ++ ds') = registryAfter (registryAfter registry ds) ds' :=
  List.foldl_append

section
variable {registry : Registry} {ds : List Declaration} {before after : List (Declaration × Except Failure Record)}
  {e : Declaration × Except Failure Record}

/-- Where a run enrolls a declaration, it has enrolled those before it and then enrolls those after it. -/
theorem enrollments_eq_append_cons (h : enrollments registry ds = before ++ e :: after) :
    enrollments registry (before.map (·.1)) = before ∧
      enroll (registryAfter registry (before.map (·.1))) e.1 = e.2 ∧
      enrollments ((registryAfter registry (before.map (·.1))).enter e.2) (after.map (·.1)) = after := by
  have hds : ds = before.map (·.1) ++ e.1 :: after.map (·.1) := by
    rw [← map_fst_enrollments registry ds, h, List.map_append, List.map_cons]
  rw [hds, enrollments_append] at h
  have hlength : (enrollments registry (before.map (·.1))).length = before.length := by
    rw [← List.length_map (·.1), map_fst_enrollments, List.length_map]
  obtain ⟨hbefore, hrest⟩ := List.append_inj h hlength
  obtain ⟨he, hafter⟩ := List.cons.inj hrest
  have hx : enroll (registryAfter registry (before.map (·.1))) e.1 = e.2 := congrArg Prod.snd he
  exact ⟨hbefore, hx, hx ▸ hafter⟩

theorem registryAfter_eq_append_cons (h : enrollments registry ds = before ++ e :: after) :
    registryAfter registry ds =
      registryAfter ((registryAfter registry (before.map (·.1))).enter e.2) (after.map (·.1)) := by
  obtain ⟨-, hx, -⟩ := enrollments_eq_append_cons h
  have hds : ds = before.map (·.1) ++ e.1 :: after.map (·.1) := by
    rw [← map_fst_enrollments registry ds, h, List.map_append, List.map_cons]
  rw [hds, registryAfter_append]
  show registryAfter (Registry.enter _ (enroll (registryAfter registry (before.map (·.1))) e.1)) _ = _
  rw [hx]

end

/-- A run that goes on after failures enrolls declarations: `es` is what enrolling gave for each, and `registry` what
    references are then looked up in. -/
def Enrolls (ds : List Declaration) (es : List (Declaration × Except Failure Record)) (registry : Registry) : Prop :=
  ∀ total report, enrollAll .keepGoing total ds {} report =
    .ok ((accepted es).map (·.2), registry, report.addAll total (rejections es))

theorem enrolls_enrollments (ds : List Declaration) : Enrolls ds (enrollments {} ds) (registryAfter {} ds) := by
  intro total report
  rw [enrollAll_eq, Report.foldlM_keepGoing, map_snd_accepted]
  rfl

/-- The registration of declarations in a run that goes on after failures. -/
structure Registration (ds : List Declaration) (es : List (Declaration × Except Failure Record))
    (registry : Registry) : Prop where
  /-- Each declaration is enrolled or not, in order. -/
  declarations : es.map (·.1) = ds
  enrolls : Enrolls ds es registry
  /-- What becomes of a declaration is told by the accepted ones before it. -/
  outcomes : ∀ before e after, es = before ++ e :: after → Outcome (accepted before) e.1 e.2
  /-- A look-up finds the accepted record of the kind with the identifier, and nothing else. -/
  lookup : ∀ kind id record,
    registry.lookup? kind id = some record ↔ ∃ d, HoldsId (accepted es) kind id (d, record)
  size : registry.size = (accepted es).length
  /-- An accepted record is registered in place of no other: it is put after those of the accepted declarations
      before it. -/
  appended : ∀ before d record after, es = before ++ (d, .ok record) :: after →
    ∃ earlier, Enrolls (before.map (·.1)) before earlier ∧ earlier.lookup? record.kind record.id = none ∧
      (earlier.register record.id record).entries = earlier.entries ++ [(record.id, record)]
  /-- Without a declaration that is not accepted, the others fare the same and the registry is the same. -/
  traceless : ∀ before d failure after, es = before ++ (d, .error failure) :: after →
    Enrolls ((before ++ after).map (·.1)) (before ++ after) registry

theorem registration_enrollments (ds : List Declaration) :
    Registration ds (enrollments {} ds) (registryAfter {} ds) where
  declarations := map_fst_enrollments {} ds
  enrolls := enrolls_enrollments ds
  outcomes before e after h := by
    obtain ⟨hbefore, he, -⟩ := enrollments_eq_append_cons h
    have hholds := Registry.holds_empty.registryAfter (before.map (·.1))
    rw [hbefore, List.nil_append] at hholds
    exact he ▸ hholds.outcome e.1
  lookup kind id record := (Registry.holds_empty.registryAfter ds).lookup?_eq_some_iff
  size := by
    rw [Registry.size, (Registry.holds_empty.registryAfter ds).entries, List.length_map, List.nil_append]
  appended before d record after h := by
    obtain ⟨hbefore, he, -⟩ := enrollments_eq_append_cons h
    obtain ⟨hextract, hid, -⟩ := enroll_eq_ok he
    rw [← Declaration.extract_kind hextract] at hid
    refine ⟨_, ?_, hid, Registry.register_entries hid⟩
    have henrolls := enrolls_enrollments (before.map (·.1))
    rwa [hbefore] at henrolls
  traceless before d failure after h := by
    obtain ⟨hbefore, -, hafter⟩ := enrollments_eq_append_cons h
    have henrolls := enrolls_enrollments ((before ++ after).map (·.1))
    rw [List.map_append, enrollments_append, hbefore, registryAfter_append] at henrolls
    -- The rejected declaration enters nothing into the registry.
    rw [registryAfter_eq_append_cons h]
    rw [Registry.enter] at hafter ⊢
    rwa [hafter, ← List.map_append] at henrolls

/-- In a run that goes on after failures a declaration is registered exactly if it can be read and no declaration of
    its kind that was registered before has its identifier or its name; else it fails for the first of these that does
    not hold, and leaves no trace. References are then looked up among exactly the registered records. -/
theorem keepGoing_registration (defaultNamespace : Option String) (ds : List Declaration) :
    ∃ es registry report, Registration ds es registry ∧
      compose ⟨.keepGoing, defaultNamespace⟩ ds = .ok report ∧
      finishAll .keepGoing ds.length registry.serviceNames defaultNamespace ((accepted es).map (·.2))
        (.addAll ds.length .empty (rejections es)) = .ok report ∧
      (rejections es).filterMap (·.failure?) <+: report.failures := by
  refine ⟨_, _, _, registration_enrollments ds, compose_keepGoing defaultNamespace ds, ?_, ?_⟩
  · rw [finishAll_eq, Report.foldlM_keepGoing, ← Report.addAll_append, map_snd_accepted]
    rfl
  · simp [Report.addAll, Report.empty, endings, List.filterMap_append]

end Manifests
