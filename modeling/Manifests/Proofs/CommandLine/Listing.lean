import Manifests.Proofs.Composition.Policy
import Manifests.Proofs.Composition.References
import Manifests.Proofs.Extraction.Metadata
import Manifests.Proofs.Loading.Names

/-! # What a list says of the resources

A list is printed without reading the resources: it looks their names and identifiers up among the declared entries.
For a declaration with at most one entry `name` these are what its record is called (`Declaration.called_of_namedOnce`).
As declarations that are loaded are such, the rows of a list agree with the manifests that are composed from the same
file. -/

namespace Manifests

open Extraction

/-! ### Names -/

theorem Extraction.declared_cons (key : String) (e : Entry) (entries : List Entry) :
    declared key (e :: entries) =
      if !e.2.isNull && e.1 = key then e.2 :: declared key entries else declared key entries := by
  cases hnull : e.2.isNull <;> by_cases hkey : e.1 = key <;> simp [declared, present, hnull, hkey]

theorem Extraction.declared_eq_nil {key : String} {entries : List Entry} (h : key ∉ entries.map (·.1)) :
    declared key entries = [] := by
  rw [declared, List.map_eq_nil_iff, List.filter_eq_nil_iff]
  intro e he hkey
  exact h (List.mem_map.mpr ⟨e, (List.mem_filter.mp he).1, by simpa using hkey⟩)

/-- Where a key stands at most once, the text that is looked up under it is the one that is read. -/
theorem Extraction.lookup_eq_declaredText? {key : String} {entries : List Entry}
    (h : (entries.map (·.1)).count key ≤ 1) :
    (entries.lookup key).bind Value.scalarText? = declaredText? key entries := by
  induction entries with
  | nil => rfl
  | cons e entries ih =>
    obtain ⟨own, value⟩ := e
    rw [List.map_cons, List.count_cons] at h
    by_cases hown : own = key
    · subst hown
      have hrest : declared own entries = [] := by
        refine declared_eq_nil (List.count_eq_zero.mp ?_)
        simp only [beq_self_eq_true, if_true] at h
        omega
      rw [List.lookup_cons_self, Option.bind_some, declaredText?, declared?, declared_cons, hrest]
      -- A null value counts as none, and has no text either.
      cases value <;> simp [Value.isNull, Value.scalarText?]
    · have hother : declared key ((own, value) :: entries) = declared key entries := by
        simp [declared_cons, hown]
      rw [List.lookup_cons, beq_false_of_ne (Ne.symm hown), declaredText?, declared?, hother]
      exact ih (by simpa [hown] using h)

namespace Declaration

variable {d : Declaration} {record : Record}

theorem name?_of_namedOnce (h : d.NamedOnce) : d.name? = declaredText? "name" d.entries :=
  lookup_eq_declaredText? h

/-- What a declaration with at most one entry `name` is called is what its record is called. -/
theorem called_of_namedOnce (h : d.NamedOnce) (hextract : d.extract = .ok record) :
    d.identifier? = some record.id ∧ CommandLine.canonicalName? d = some record.name := by
  obtain ⟨hid, hname⟩ := extract_called hextract
  rw [identifier?, CommandLine.canonicalName?, name?_of_namedOnce h]
  refine ⟨hid, ?_⟩
  rw [hname]
  generalize declaredText? "name" d.entries = name at hid
  cases name with
  | some text => rfl
  | none =>
    have hgiven : d.id = some record.id := by
      cases hdid : d.id <;> simp_all
    rw [hgiven]
    rfl

end Declaration

namespace CommandLine

/-! ### Rows -/

/-- A row of a list: where a resource is declared, its identifier, its kind and its name. -/
structure Row where
  file : String
  id : Option String
  kind : Kind
  name : Option String

namespace Row

/-- The row of a declaration. -/
def of (d : Declaration) : Row := ⟨d.provenance.file, d.identifier?, d.kind, canonicalName? d⟩

def json (r : Row) : Json :=
  .object [("file", .text r.file), ("id", .ofText? r.id), ("kind", .text r.kind.name), ("name", .ofText? r.name)]

def text (r : Row) : String := line (r.kind.name ++ " " ++ r.id.getD "-" ++ " " ++ r.name.getD "-")

/-- The list with the rows. -/
def list (output : OutputFormat) (rows : List Row) : String :=
  match output with
  | .json => line (Json.list (rows.map json)).pretty
  | .text => String.join (rows.map text)

end Row

theorem listing_eq (output : OutputFormat) (ds : List Declaration) :
    listing output ds = Row.list output (ds.map .of) := by
  cases output <;> simp only [listing, Row.list, List.map_map] <;> rfl

theorem runWith_list {σ : Type} {host : Host (StateM σ)} {settings : Settings} {i : Invocation} {s : σ}
    {ds : List Declaration} (h : ((host.source.load i.file).run.run s).1 = .ok ds) :
    ((runWith host settings { i with command := .list }).run s).1 = ⟨0, listing i.output ds, ""⟩ := by
  simp only [runWith, StateT.run_bind]
  rcases hrun : (host.source.load i.file).run.run s with ⟨_ | _, _⟩ <;> rw [hrun] at h <;> cases h
  rfl

/-- In a run without failures, each manifest has the kind of its declaration and the name that a list shows for it. -/
theorem rows_of_compose {options : Options} {ds : List Declaration} {r : Report} (hds : ∀ d ∈ ds, d.NamedOnce)
    (h : compose options ds = .ok r) (hr : r.failures = []) :
    (ds.map Row.of).map (fun row => (row.kind, row.name)) = r.manifests.map fun m => (m.kind, some m.name) := by
  obtain ⟨earlier, rfl, hholds, hfinish⟩ := compose_without_failures h hr
  rw [List.map_map, List.map_map, ← List.forall₂_eq_eq_eq, List.forall₂_map_left_iff, List.forall₂_map_right_iff]
  have hread : ∀ e ∈ earlier, e ∈ earlier ∧ e.1.extract = .ok e.2 := fun e he => ⟨he, hholds.extract e he⟩
  refine ((List.forall₂_and_left _ _).mpr ⟨hread, hfinish⟩).imp ?_
  rintro e m ⟨⟨he, hextract⟩, hm⟩
  obtain ⟨hkind, hname, -⟩ := finish_kind_name hm
  obtain ⟨-, hcalled⟩ := Declaration.called_of_namedOnce (hds e.1 (List.mem_map.mpr ⟨e, he, rfl⟩)) hextract
  show (e.1.kind, canonicalName? e.1) = (m.kind, some m.name)
  rw [hcalled, hname, hkind, Declaration.extract_kind hextract]

/-! ### Lists and compositions -/

/-- A list shows the identifier and the name that the record of a declaration has, if there is at most one entry
    `name`. So with a file whose declarations are composed without failures, a list prints a row for each manifest, in
    their order and with their kinds and names. -/
theorem list_agrees :
    (∀ (d : Declaration) (record : Record), d.NamedOnce → d.extract = .ok record →
      d.identifier? = some record.id ∧ canonicalName? d = some record.name) ∧
    ∀ {σ : Type} (host : Host (StateM σ)) (s : σ) (settings : Settings) (i : Invocation) (options : Options)
      (ds : List Declaration) (r : Report),
      ((host.source.load i.file).run.run s).1 = .ok ds → compose options ds = .ok r → r.failures = [] →
        ((runWith host settings { i with command := .list }).run s).1 = ⟨0, Row.list i.output (ds.map .of), ""⟩ ∧
        (ds.map Row.of).map (fun row => (row.kind, row.name)) = r.manifests.map fun m => (m.kind, some m.name) := by
  refine ⟨fun d record => Declaration.called_of_namedOnce, ?_⟩
  intro σ host s settings i options ds r hload hcompose hr
  rw [runWith_list hload, listing_eq]
  exact ⟨rfl, rows_of_compose (host.source.load_namedOnce i.file s ds hload) hcompose hr⟩

/-- A declaration file with a service that has a number for a name, and one that has none but an identifier. -/
def servicesText : String :=
  "resources:\n- kind: Service\n  name: 7\n  ports:\n  - port: 80\n- kind: Service\n  id: A_b\n  ports:\n  - port: 80\n"

/-- The first of these services. -/
def numberedService : Declaration :=
  ⟨.service, none, [("name", .int 7), ("ports", .list [.map [("port", .int 80)]])], ⟨"app.yaml", 0⟩⟩

/-- The second of these services. -/
def identifiedService : Declaration :=
  ⟨.service, some "A_b", [("ports", .list [.map [("port", .int 80)]])], ⟨"app.yaml", 1⟩⟩

/-- A tree with this file and nothing else. -/
def servicesTree : FileTree := ⟨[(["app.yaml"], .file (.text servicesText))]⟩

theorem read_servicesText :
    DeclarationFile.read "app.yaml" servicesText = .ok ⟨[], [numberedService, identifiedService]⟩ := by
  have hevents : (Yaml.Token.scan servicesText.toList >>= Yaml.Event.ofTokens >>= Yaml.Event.number []) =
      .ok [.mappingStart none none, .scalar none none "resources" true, .sequenceStart none none,
        .mappingStart none none, .scalar none none "kind" true, .scalar none none "Service" true,
        .scalar none none "name" true, .scalar none none "7" true,
        .scalar none none "ports" true, .sequenceStart none none, .mappingStart none none,
        .scalar none none "port" true, .scalar none none "80" true, .mappingEnd, .sequenceEnd, .mappingEnd,
        .mappingStart none none, .scalar none none "kind" true, .scalar none none "Service" true,
        .scalar none none "id" true, .scalar none none "A_b" true,
        .scalar none none "ports" true, .sequenceStart none none, .mappingStart none none,
        .scalar none none "port" true, .scalar none none "80" true, .mappingEnd, .sequenceEnd, .mappingEnd,
        .sequenceEnd, .mappingEnd] := rfl
  have hresources : Yaml.Tree.ofPlain "resources" = .ok (.text "resources") := rfl
  have hkind : Yaml.Tree.ofPlain "kind" = .ok (.text "kind") := rfl
  have hservice : Yaml.Tree.ofPlain "Service" = .ok (.text "Service") := rfl
  have hname : Yaml.Tree.ofPlain "name" = .ok (.text "name") := rfl
  have hseven : Yaml.Tree.ofPlain "7" = .ok (.int 7) := rfl
  have hid : Yaml.Tree.ofPlain "id" = .ok (.text "id") := rfl
  have hidentifier : Yaml.Tree.ofPlain "A_b" = .ok (.text "A_b") := rfl
  have hports : Yaml.Tree.ofPlain "ports" = .ok (.text "ports") := rfl
  have hport : Yaml.Tree.ofPlain "port" = .ok (.text "port") := rfl
  have height : Yaml.Tree.ofPlain "80" = .ok (.int 80) := rfl
  have htree : Yaml.read servicesText = .ok (.mapping [(.text "resources", .sequence [
      .mapping [(.text "kind", .text "Service"), (.text "name", .int 7),
        (.text "ports", .sequence [.mapping [(.text "port", .int 80)]])],
      .mapping [(.text "kind", .text "Service"), (.text "id", .text "A_b"),
        (.text "ports", .sequence [.mapping [(.text "port", .int 80)]])]])]) := by
    rw [Yaml.read_of_events hevents]
    simp [Yaml.Tree.ofEvents, Yaml.Tree.depthLimit, Yaml.Tree.readNode.child, Yaml.Tree.readNode, Yaml.Tree.readItems,
      Yaml.Tree.readEntries, Yaml.Tree.same, Yaml.Tree.ofScalar, Yaml.Tree.ofUntagged, Yaml.Tree.withTag, bind,
      Except.bind, pure, Except.pure, hresources, hkind, hservice, hname, hseven, hid, hidentifier, hports, hport,
      height]
  rw [DeclarationFile.read, htree]
  rfl

theorem load_servicesTree :
    ((servicesTree.host []).source.load "app.yaml").run.run servicesTree =
      (.ok [numberedService, identifiedService], servicesTree) := by
  have hroot : servicesTree.canonicalize [] (Path.ofText "app.yaml") = .ok ⟨true, [.name "app.yaml"]⟩ := by decide
  have hdirectory : servicesTree.canonicalize [] (Path.parent ⟨true, [.name "app.yaml"]⟩) = .ok ⟨true, []⟩ := by decide
  exact FileTree.load_of_no_imports hroot hdirectory rfl read_servicesText

/-- The list of a file with two services. -/
theorem servicesTree_list :
    (∃ record, numberedService.NamedOnce ∧ numberedService.extract = .ok record ∧
      numberedService.identifier? = some record.id ∧ canonicalName? numberedService = some record.name) ∧
    ∃ r, compose ⟨.keepGoing, none⟩ [numberedService, identifiedService] = .ok r ∧ r.failures = [] ∧
      ((runWith (servicesTree.host []) .default ⟨.text, false, none, .list, "app.yaml"⟩).run servicesTree).1 =
        ⟨0, "Service 7 7\nService A_b a-b\n", ""⟩ ∧
      [(.service, some "7"), (.service, some "a-b")] = r.manifests.map fun m => (m.kind, some m.name) := by
  have hcompose := compose_keepGoing none [numberedService, identifiedService]
  have hnamed : numberedService.NamedOnce := Nat.le_refl 1
  exact ⟨⟨_, hnamed, rfl, list_agrees.1 numberedService _ hnamed rfl⟩, _, hcompose, rfl,
    list_agrees.2 (servicesTree.host []) servicesTree .default ⟨.text, false, none, .list, "app.yaml"⟩
      ⟨.keepGoing, none⟩ [numberedService, identifiedService] _ (by rw [load_servicesTree]) hcompose rfl⟩

end CommandLine

end Manifests
