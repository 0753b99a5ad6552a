import Manifests.Proofs.Composition.Stages

/-! # Declarations in another order and in other files

Where a declaration stands, in which file and at which place, is kept in its record for diagnostics only: no manifest
and no failure of finishing shows it. Where no titles clash every record that can be read is enrolled, in whatever
order the declarations come, and references see no order among the titles. So declarations that are moved about give
the same manifests. -/

namespace Manifests

/-! ### Places -/

/-- The declaration without its place. -/
def Declaration.unplaced (d : Declaration) : Declaration := { d with provenance := ⟨"", 0⟩ }

/-- The record without the place of its declaration. -/
def Record.unplaced (r : Record) : Record := { r with provenance := ⟨"", 0⟩ }

@[simp] theorem Record.title_unplaced (r : Record) : r.unplaced.title = r.title := rfl

/-- Reading a declaration passes its place on and does not look at it. -/
theorem Declaration.extract_unplaced (d : Declaration) : d.unplaced.extract = d.extract.map Record.unplaced := by
  rw [extract, extractAs, extract, extractAs]
  simp only [except_map_bind]
  rfl

theorem readable_unplaced (ds : List Declaration) :
    readable (ds.map Declaration.unplaced) = (readable ds).map Record.unplaced := by
  rw [readable, readable, List.filterMap_map, List.map_filterMap]
  refine List.filterMap_congr fun d _ => ?_
  rw [Function.comp_apply, Declaration.extract_unplaced]
  cases d.extract <;> rfl

/-- Finishing a record does not look at the place of its declaration. -/
theorem finishing_unplaced (services : ServiceNames) (defaultNamespace : Option String) (record : Record) :
    finishing services defaultNamespace record.unplaced = finishing services defaultNamespace record := by
  rw [finishing, finishing, finish_eq, finish_eq]
  rfl

section
variable {records records' : List Record}

/-- Records that are the same apart from their places end alike, in another order. -/
theorem filterMap_finishing_perm {β : Type} (services : ServiceNames) (defaultNamespace : Option String)
    (f : Ending → Option β) (hperm : (records'.map Record.unplaced).Perm (records.map Record.unplaced)) :
    (records'.filterMap fun record => f (finishing services defaultNamespace record)).Perm
      (records.filterMap fun record => f (finishing services defaultNamespace record)) := by
  have hunplaced (records : List Record) :
      (records.map Record.unplaced).filterMap (fun record => f (finishing services defaultNamespace record)) =
        records.filterMap fun record => f (finishing services defaultNamespace record) := by
    rw [List.filterMap_map]
    exact List.filterMap_congr fun record _ => congrArg f (finishing_unplaced services defaultNamespace record)
  rw [← hunplaced records, ← hunplaced records']
  exact hperm.filterMap _

theorem Apart.perm (h : Apart records) (hperm : (records'.map Record.title).Perm (records.map Record.title)) :
    Apart records' := by
  have htitles : (records.map Record.title).Pairwise fun a b => ¬ a.Clashes b := List.pairwise_map.mpr h
  have hsymm {a b : Title} (hab : ¬ a.Clashes b) : ¬ b.Clashes a := fun hba => hab hba.symm
  exact List.pairwise_map.mp ((hperm.pairwise_iff hsymm).mpr htitles)

end

/-! ### Runs -/

/-- References are looked up among titles, whose order does not count. -/
theorem serviceNames_perm {ds ds' : List Declaration}
    (hperm : ((enrolledRecords (enrollments {} ds')).map Record.title).Perm
      ((enrolledRecords (enrollments {} ds)).map Record.title)) :
    (registryAfter {} ds').serviceNames = (registryAfter {} ds).serviceNames := by
  funext reference
  refine Option.ext fun name => ?_
  rw [serviceNames_registryAfter, serviceNames_registryAfter, hperm.mem_iff]

theorem enrolledRecords_of_failures {options : Options} {ds : List Declaration} {r : Report}
    (h : compose options ds = .ok r) (hfree : ∀ f ∈ r.failures, f.stage ≠ .register) :
    enrolledRecords (enrollments {} ds) = readable ds := by
  refine enrolledRecords_of_not_register fun e he failure hfailure => hfree failure ?_
  rw [compose_failures h]
  exact List.mem_append_left _ (mem_refusals_iff.mpr ⟨e.1, hfailure ▸ he⟩)

/-- Where no identifier and no name is taken, declarations can be moved about within files and between them: a run
    that goes on after failures gives the same manifests, and the same failures of resolving and validating. -/
theorem compose_perm {defaultNamespace : Option String} {ds ds' : List Declaration} {r : Report}
    (h : compose ⟨.keepGoing, defaultNamespace⟩ ds = .ok r) (hfree : ∀ f ∈ r.failures, f.stage ≠ .register)
    (hperm : (ds'.map Declaration.unplaced).Perm (ds.map Declaration.unplaced)) :
    ∃ r', compose ⟨.keepGoing, defaultNamespace⟩ ds' = .ok r' ∧ r'.manifests.Perm r.manifests ∧
      (r'.failures.filter (·.whileFinishing)).Perm (r.failures.filter (·.whileFinishing)) := by
  have h' := compose_keepGoing defaultNamespace ds'
  have hrecords : ((readable ds').map Record.unplaced).Perm ((readable ds).map Record.unplaced) := by
    rw [← readable_unplaced, ← readable_unplaced]
    exact hperm.filterMap _
  have htitles : ((readable ds').map Record.title).Perm ((readable ds).map Record.title) := by
    simpa [Function.comp_def] using hrecords.map Record.title
  -- No titles clash in the one order, so none do in the other, and the same records are enrolled.
  have henrolled := enrolledRecords_of_failures h hfree
  have hapart : Apart (readable ds) := henrolled ▸ apart_enrolledRecords ds
  have henrolled' := Registry.holds_empty.enrolledRecords_of_apart (hapart.perm htitles)
  have hservices : (registryAfter {} ds').serviceNames = (registryAfter {} ds).serviceNames :=
    serviceNames_perm (by rwa [henrolled, henrolled'])
  refine ⟨_, h', ?_, ?_⟩
  · rw [compose_manifests h, compose_manifests h', henrolled, henrolled', hservices]
    exact filterMap_finishing_perm _ _ (·.manifest?) hrecords
  · rw [filter_whileFinishing_failures h, filter_whileFinishing_failures h', henrolled, henrolled', hservices]
    exact filterMap_finishing_perm _ _ (·.failure?) hrecords

/-- A service between two virtual services, one of which refers to it and the other to none, and a service without
    ports. -/
def inOneFile : List Declaration :=
  let toService (reference : String) : List Entry :=
    [("http", .list [.map [("route", .list [.map [("destination", .map [("serviceName", .text reference)])]])]])]
  [⟨.virtualService, some "front", toService "svcA", ⟨"app.yaml", 0⟩⟩,
   ⟨.service, some "svcA", [("ports", .list [.map [("port", .int 80)]])], ⟨"app.yaml", 1⟩⟩,
   ⟨.virtualService, some "stray", toService "ghost", ⟨"app.yaml", 2⟩⟩,
   ⟨.service, some "idle", [], ⟨"app.yaml", 3⟩⟩]

/-- The same declarations backwards, each in a file of its own. -/
def inFilesOfTheirOwn : List Declaration :=
  (inOneFile.map fun d => { d with provenance := ⟨d.label ++ ".yaml", 0⟩ }).reverse

theorem inFilesOfTheirOwn_perm :
    ∃ r r', compose ⟨.keepGoing, none⟩ inOneFile = .ok r ∧
      r.manifests.map (·.name) = ["front", "svc-a"] ∧ r.failures.map (·.stage) = [.resolve, .validate] ∧
      (inFilesOfTheirOwn.map Declaration.unplaced).Perm (inOneFile.map Declaration.unplaced) ∧
      compose ⟨.keepGoing, none⟩ inFilesOfTheirOwn = .ok r' ∧ r'.manifests.Perm r.manifests ∧
      (r'.failures.filter (·.whileFinishing)).Perm (r.failures.filter (·.whileFinishing)) := by
  have h := compose_keepGoing none inOneFile
  have hstages : (Report.addAll inOneFile.length .empty (endings none inOneFile)).failures.map (·.stage) =
      [.resolve, .validate] := rfl
  have hfree : ∀ f ∈ (Report.addAll inOneFile.length .empty (endings none inOneFile)).failures,
      f.stage ≠ .register := by
    intro f hf hstage
    have hmem := List.mem_map_of_mem (f := (·.stage)) hf
    rw [hstages, hstage] at hmem
    simp at hmem
  have hperm : (inFilesOfTheirOwn.map Declaration.unplaced).Perm (inOneFile.map Declaration.unplaced) :=
    List.reverse_perm (inOneFile.map Declaration.unplaced)
  obtain ⟨r', h', hmanifests, hfailures⟩ := compose_perm h hfree hperm
  exact ⟨_, r', h, rfl, hstages, hperm, h', hmanifests, hfailures⟩

end Manifests
