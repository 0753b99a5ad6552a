import Manifests.Proofs.CommandLine.Writing
import Manifests.Proofs.Composition.Enrolling
import Manifests.Proofs.Composition.Finishing
import Manifests.Proofs.Composition.Policy
import Manifests.Proofs.FileName

/-! # The files of a run

The manifests of a report are those of enrolled records, no two of which have the same kind and name. So their file
names are distinct, and each is one plain step of a path, whatever the declarations are called. Writing a report
therefore puts each manifest into a file of its own in the directory. -/

namespace Manifests

/-- A report without a halt reports all endings, whatever the policy is. -/
theorem compose_eq_ok {options : Options} {ds : List Declaration} {r : Report} (h : compose options ds = .ok r) :
    r = .addAll ds.length .empty (endings options.defaultNamespace ds) := by
  obtain ⟨policy, defaultNamespace⟩ := options
  cases policy with
  | keepGoing =>
    rw [compose_keepGoing] at h
    exact (Except.ok.inj h).symm
  | failFast =>
    have hcut := compose_failFast defaultNamespace ds
    rw [h] at hcut
    cases hcut
    rfl

theorem filterMap_manifest?_rejections (es : List (Declaration × Except Failure Record)) :
    (rejections es).filterMap Ending.manifest? = [] := by
  rw [List.filterMap_eq_nil_iff]
  intro e he
  obtain ⟨⟨d, failure | record⟩, -, he⟩ := List.mem_filterMap.mp he
  · obtain rfl := Option.some.inj he
    rfl
  · cases he

theorem compose_manifests {options : Options} {ds : List Declaration} {r : Report} (h : compose options ds = .ok r) :
    r.manifests = (enrolledRecords (enrollments {} ds)).filterMap fun record =>
      (finishing (registryAfter {} ds).serviceNames options.defaultNamespace record).manifest? := by
  rw [compose_eq_ok h]
  show [] ++ (endings options.defaultNamespace ds).filterMap Ending.manifest? = _
  rw [List.nil_append, endings, List.filterMap_append, filterMap_manifest?_rejections, List.nil_append,
    List.filterMap_map]
  rfl

theorem finishing_manifest?_eq_some {services : ServiceNames} {defaultNamespace : Option String} {record : Record}
    {m : Manifest} (h : (finishing services defaultNamespace record).manifest? = some m) :
    finish services defaultNamespace record = .ok m := by
  unfold finishing at h
  cases hf : finish services defaultNamespace record with
  | error failure => simp [hf] at h
  | ok m' => simpa [hf] using h

theorem nodup_fileNames {options : Options} {ds : List Declaration} {r : Report} (h : compose options ds = .ok r) :
    (r.manifests.map (·.fileName)).Nodup := by
  rw [compose_manifests h]
  refine List.pairwise_map.mpr ((pairwise_enrolledRecords ds).filterMap _ fun a b hne m hm m' hm' heq => hne ?_)
  -- A file name tells the kind and the name of the enrolled record.
  obtain ⟨hkind, hname, -⟩ := finish_kind_name (finishing_manifest?_eq_some hm)
  obtain ⟨hkind', hname', -⟩ := finish_kind_name (finishing_manifest?_eq_some hm')
  obtain ⟨hk, hn⟩ := Kind.fileName_injective heq
  rw [← hkind, ← hname, hk, hn, hkind', hname']

theorem plainlyNamed_of_mem {options : Options} {ds : List Declaration} {r : Report} (h : compose options ds = .ok r)
    {m : Manifest} (hm : m ∈ r.manifests) : m.kind.PlainlyNamed m.name := by
  rw [compose_manifests h] at hm
  obtain ⟨record, hrecord, hm⟩ := List.mem_filterMap.mp hm
  obtain ⟨-, hname, hnamed⟩ := finish_kind_name (finishing_manifest?_eq_some hm)
  obtain ⟨d, -, hextract⟩ := mem_enrolledRecords hrecord
  obtain ⟨declared, hdeclared⟩ := Declaration.extract_name hextract
  refine Kind.plainlyNamed hnamed fun c hc => ?_
  rw [hname, hdeclared] at hc
  exact Name.isPlain_of_mem_normalize hc

/-- The manifests of a report have files of their own. -/
structure Report.FilesApart (r : Report) : Prop where
  /-- No two manifests are for the same file. -/
  distinct : (r.manifests.map (·.fileName)).Nodup
  /-- The name of each file is one plain step of a path. -/
  plain : ∀ m ∈ r.manifests, m.kind.PlainlyNamed m.name
  /-- The path of each file is that of the directory and one name more. -/
  inside : ∀ m ∈ r.manifests, ∀ directory : String,
    (Path.ofDirectoryText directory).join (Path.ofText m.fileName) =
      ⟨(Path.ofDirectoryText directory).absolute, (Path.ofDirectoryText directory).steps ++ [.name m.fileName]⟩
  /-- A run that writes the manifests leaves each that it writes in its file, and changes nothing else but that it
      makes directories. -/
  written : ∀ (start tree : FileTree) (here : Place) (directory : String), ∃ place written,
    CommandLine.WritesApart here directory tree r.manifests
      ((CommandLine.writeManifests (start.host here) directory r.manifests).run tree) place written

/-- Whatever texts declarations are called by, the manifests of a run have files of their own. -/
theorem compose_filesApart {options : Options} {ds : List Declaration} {r : Report} (h : compose options ds = .ok r) :
    r.FilesApart where
  distinct := nodup_fileNames h
  plain _ hm := plainlyNamed_of_mem h hm
  inside m hm directory := by
    have hstep : Path.ofText m.fileName = ⟨false, [.name m.fileName]⟩ := (plainlyNamed_of_mem h hm).step
    rw [hstep]
    rfl
  written start tree here directory :=
    CommandLine.writeManifests_writesApart start tree here directory (nodup_fileNames h)

/-- Services whose identifiers climb out of a directory, and one whose name is that of the first. -/
def climbingServices : List Declaration :=
  ["../svcA", "svc-a", "/..//B"].mapIdx fun index id =>
    ⟨.service, some id, [("ports", .list [.map [("port", .int 80)]])], ⟨"services.yaml", index⟩⟩

theorem climbingServices_filesApart :
    ∃ r, compose ⟨.keepGoing, none⟩ climbingServices = .ok r ∧
      r.manifests.map (·.fileName) = ["service-svc-a.yaml", "service-b.yaml"] ∧ r.FilesApart :=
  ⟨_, compose_keepGoing none climbingServices, rfl, compose_filesApart (compose_keepGoing none climbingServices)⟩

end Manifests
