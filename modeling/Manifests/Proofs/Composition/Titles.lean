import Manifests.Proofs.Composition.Registration

/-! # What resources are called

Other resources see no more of a registered record than its title: its kind, its identifier and its name. A declaration
that can be read is enrolled exactly if its title clashes with none before it (`Registry.Holds.enroll_eq_ok_iff`), and
references are looked up among the titles (`Registry.Holds.serviceNames_eq_some_iff`). So where no two titles clash,
every record that can be read is enrolled, whatever the order is. -/

namespace Manifests

/-- What a resource is called. -/
structure Title where
  kind : Kind
  id : String
  name : String
  deriving DecidableEq

/-- Two titles of the same kind have the identifier or the name in common. -/
def Title.Clashes (a b : Title) : Prop := a.kind = b.kind ∧ (a.id = b.id ∨ a.name = b.name)

theorem Title.Clashes.symm {a b : Title} (h : a.Clashes b) : b.Clashes a :=
  ⟨h.1.symm, h.2.imp Eq.symm Eq.symm⟩

def Record.title (r : Record) : Title := ⟨r.kind, r.id, r.name⟩

/-- No two records have titles that clash. -/
def Apart (records : List Record) : Prop := records.Pairwise fun a b => ¬ a.title.Clashes b.title

/-! ### Registered titles -/

namespace Registry.Holds

variable {registry : Registry} {earlier : List (Declaration × Record)}

theorem enroll_eq_ok_iff (h : registry.Holds earlier) {d : Declaration} {record : Record} :
    enroll registry d = .ok record ↔
      d.extract = .ok record ∧ ∀ first ∈ earlier, ¬ first.2.title.Clashes record.title := by
  rw [(h.outcome d).accepted_iff]
  refine and_congr_right fun hextract => ?_
  have hkind : record.kind = d.kind := Declaration.extract_kind hextract
  constructor
  · rintro ⟨hid, hname⟩ first hfirst ⟨hsame, hclash⟩
    have hfirstKind : first.1.kind = d.kind := (h.kind_eq hfirst).symm.trans (hsame.trans hkind)
    rcases hclash with hclash | hclash
    · exact hid first ⟨hfirst, hfirstKind, hclash⟩
    · exact hname first ⟨hfirst, hfirstKind, hclash⟩
  · intro hclear
    have hsame (first : Declaration × Record) (hfirst : first ∈ earlier) (h' : first.1.kind = d.kind) :
        first.2.kind = record.kind := (h.kind_eq hfirst).trans (h'.trans hkind.symm)
    constructor
    · rintro first ⟨hfirst, hfirstKind, hid⟩
      exact hclear first hfirst ⟨hsame first hfirst hfirstKind, Or.inl hid⟩
    · rintro first ⟨hfirst, hfirstKind, hname⟩
      exact hclear first hfirst ⟨hsame first hfirst hfirstKind, Or.inr hname⟩

theorem apart (h : registry.Holds earlier) : Apart (earlier.map (·.2)) := by
  have hids := registry.distinct
  rw [h.entries, List.pairwise_map] at hids
  have hnames : (registry.entries.map (·.2)).Pairwise fun a b => (a.kind, a.name) ≠ (b.kind, b.name) := h.names
  rw [h.entries, List.map_map, List.pairwise_map] at hnames
  refine List.pairwise_map.mpr ((hids.and hnames).imp ?_)
  rintro a b ⟨hid, hname⟩ ⟨hkind, hclash⟩
  rcases hclash with hclash | hclash
  · exact hid (Prod.ext hkind hclash)
  · exact hname (Prod.ext hkind hclash)

/-- A reference to a service is resolved to a name exactly if the service is registered with both. -/
theorem serviceNames_eq_some_iff (h : registry.Holds earlier) {id name : String} :
    registry.serviceNames id = some name ↔ ⟨.service, id, name⟩ ∈ (earlier.map (·.2)).map Record.title := by
  simp only [serviceNames, Option.map_eq_some_iff, Registry.lookup?_eq_some_iff, h.entries, List.mem_map]
  constructor
  · rintro ⟨record, ⟨⟨e, he, heq⟩, hkind⟩, rfl⟩
    obtain ⟨rfl, rfl⟩ := Prod.mk.inj heq
    exact ⟨e.2, ⟨e, he, rfl⟩, by rw [Record.title, hkind]⟩
  · rintro ⟨record, ⟨e, he, rfl⟩, htitle⟩
    obtain ⟨hkind, rfl, rfl⟩ := Title.mk.inj htitle
    exact ⟨e.2, ⟨⟨e, he, rfl⟩, hkind⟩, rfl⟩

end Registry.Holds

/-- References of a run are looked up among the titles of the enrolled records. -/
theorem serviceNames_registryAfter {ds : List Declaration} {id name : String} :
    (registryAfter {} ds).serviceNames id = some name ↔
      ⟨.service, id, name⟩ ∈ (enrolledRecords (enrollments {} ds)).map Record.title := by
  rw [← map_snd_accepted]
  exact (Registry.holds_empty.registryAfter ds).serviceNames_eq_some_iff

theorem apart_enrolledRecords (ds : List Declaration) : Apart (enrolledRecords (enrollments {} ds)) := by
  rw [← map_snd_accepted]
  exact (Registry.holds_empty.registryAfter ds).apart

/-! ### Enrolling without clashes -/

/-- The records of the declarations that can be read. -/
def readable (ds : List Declaration) : List Record := ds.filterMap (·.extract.toOption)

section
variable {d : Declaration} {ds : List Declaration}

theorem readable_of_error {defect : Extraction.Defect} (h : d.extract = .error defect) :
    readable (d :: ds) = readable ds := by
  simp [readable, h, Except.toOption]

theorem readable_of_ok {record : Record} (h : d.extract = .ok record) :
    readable (d :: ds) = record :: readable ds := by
  simp [readable, h, Except.toOption]

end

section
variable {registry : Registry}

/-- Where no titles clash, every record that can be read is enrolled. -/
theorem Registry.Holds.enrolledRecords_of_apart {earlier : List (Declaration × Record)} {ds : List Declaration}
    (h : registry.Holds earlier) (hapart : Apart (earlier.map (·.2) ++ readable ds)) :
    enrolledRecords (enrollments registry ds) = readable ds := by
  induction ds generalizing registry earlier with
  | nil => rfl
  | cons d ds ih =>
    cases hd : d.extract with
    | error defect =>
      rw [readable_of_error hd] at hapart ⊢
      rw [enrolledRecords_of_error (enroll_of_unreadable hd)]
      exact ih h hapart
    | ok record =>
      rw [readable_of_ok hd] at hapart ⊢
      have henroll : enroll registry d = .ok record := h.enroll_eq_ok_iff.mpr ⟨hd, fun first hfirst =>
        (List.pairwise_append.mp hapart).2.2 first.2 (List.mem_map.mpr ⟨first, hfirst, rfl⟩) record
          List.mem_cons_self⟩
      have hnext := h.enter d
      rw [henroll] at hnext
      rw [enrolledRecords_of_ok henroll, ih hnext]
      rw [List.map_append, List.append_assoc]
      exact hapart

/-- A declaration that is refused for its identifier or its name fails while it is registered. -/
theorem enroll_of_not_register {d : Declaration} {record : Record} (hextract : d.extract = .ok record)
    (h : ∀ failure, enroll registry d = .error failure → failure.stage ≠ .register) :
    enroll registry d = .ok record := by
  rw [enroll_of_extract hextract] at h ⊢
  split at h
  · exact absurd rfl (h _ rfl)
  · exact absurd rfl (h _ rfl)
  · rfl

/-- Where no declaration is refused for its identifier or its name, every record that can be read is enrolled. -/
theorem enrolledRecords_of_not_register {ds : List Declaration}
    (h : ∀ e ∈ enrollments registry ds, ∀ failure, e.2 = .error failure → failure.stage ≠ .register) :
    enrolledRecords (enrollments registry ds) = readable ds := by
  induction ds generalizing registry with
  | nil => rfl
  | cons d ds ih =>
    obtain ⟨hd, hds⟩ := List.forall_mem_cons.mp h
    cases hextract : d.extract with
    | error defect =>
      have henroll : enroll registry d = .error (.defect d.kind d.label defect) := enroll_of_unreadable hextract
      rw [readable_of_error hextract, enrolledRecords_of_error henroll]
      rw [henroll] at hds
      exact ih hds
    | ok record =>
      have henroll := enroll_of_not_register hextract hd
      rw [readable_of_ok hextract, enrolledRecords_of_ok henroll]
      rw [henroll] at hds
      rw [ih hds]

end

end Manifests
