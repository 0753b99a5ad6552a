import Manifests.Extraction.Record
import Manifests.Proofs.Extraction.Indifferent
import Mathlib.Logic.Relation

/-! # Quoted integers in declarations

The readers of each kind are indifferent, one lemma for each reader, and so a declaration is read alike whether its
integers are in quotes or not. The port of a route is the exception: an integer is its number, and a text its name. -/

namespace Manifests

namespace Extraction

/-! ### Gateways -/

@[simp] theorem readServerPort_indifferent : Indifferent readServerPort :=
  (readRecord_indifferent (by simp [serverPortFields]) _).bind

@[simp] theorem readTlsMode_indifferent : Indifferent readTlsMode := readText_indifferent.bind

@[simp] theorem readServerTls_indifferent : Indifferent readServerTls :=
  (readRecord_indifferent (by simp [serverTlsFields]) _).bind

@[simp] theorem readServer_indifferent : Indifferent readServer :=
  (readRecord_indifferent (by simp [serverFields]) _).bind

theorem gatewayFields_indifferent : ∀ field ∈ gatewayFields, field.Indifferent := by simp [gatewayFields]

/-! ### Virtual services -/

@[simp] theorem readMatchRequest_indifferent : Indifferent readMatchRequest := by
  refine readRecord_indifferent ?_ _
  simp only [matchRequestFields, List.forall_mem_cons, Field.of_indifferent, readStringMatch_indifferent,
    readOptionalInt_indifferent, true_and]
  exact ⟨fun s => (readHeaders_indifferent s.headers).bind, List.forall_mem_nil _⟩

@[simp] theorem readDestinationPort_indifferent : Indifferent readDestinationPort := by
  intro v v' hv path n
  have hfields : Indifferent (readRecord portSelectorFields none) :=
    readRecord_indifferent (by simp [portSelectorFields]) none
  -- A port is a scalar or a mapping, and each form has a reader of its own.
  have hsame := hv
  cases hv with
  | integer => exact readOptionalInt_indifferent _ _ hsame path n
  | entry => exact hfields _ _ hsame path n
  | item => exact ⟨nofun, nofun⟩

@[simp] theorem readDestination_indifferent : Indifferent readDestination :=
  readRecord_indifferent (by simp [destinationFields]) _

@[simp] theorem readWeightedDestination_indifferent : Indifferent readWeightedDestination :=
  (readRecord_indifferent (by simp [weightedDestinationFields]) _).bind

@[simp] theorem readAddressParts_indifferent : Indifferent readAddressParts :=
  readRecord_indifferent (by simp [addressPartsFields]) _

@[simp] theorem readRetries_indifferent : Indifferent readRetries :=
  (readRecord_indifferent (by simp [retriesFields]) _).bind

@[simp] theorem readFaultDelay_indifferent : Indifferent readFaultDelay :=
  (readRecord_indifferent (by simp [faultDelayFields]) _).bind

@[simp] theorem readFaultAbort_indifferent : Indifferent readFaultAbort :=
  (readRecord_indifferent (by simp [faultAbortFields]) _).bind

@[simp] theorem readFaultInjection_indifferent : Indifferent readFaultInjection :=
  readRecord_indifferent (by simp [faultInjectionFields]) _

@[simp] theorem readCorsPolicy_indifferent : Indifferent readCorsPolicy :=
  readRecord_indifferent (by simp [corsPolicyFields]) _

@[simp] theorem readHttpRoute_indifferent : Indifferent readHttpRoute :=
  readRecord_indifferent (by simp [httpRouteFields]) _

theorem virtualServiceFields_indifferent : ∀ field ∈ virtualServiceFields, field.Indifferent := by
  simp [virtualServiceFields]

/-! ### Services and deployments -/

@[simp] theorem readServicePort_indifferent : Indifferent readServicePort :=
  (readRecord_indifferent (by simp [servicePortFields]) _).bind

theorem serviceFields_indifferent : ∀ field ∈ serviceFields, field.Indifferent := by simp [serviceFields]

@[simp] theorem readContainerPort_indifferent : Indifferent readContainerPort :=
  (readRecord_indifferent (by simp [containerPortFields]) _).bind

@[simp] theorem readContainer_indifferent : Indifferent readContainer :=
  (readRecord_indifferent (by simp [containerFields]) _).bind

theorem deploymentFields_indifferent : ∀ field ∈ deploymentFields, field.Indifferent := by simp [deploymentFields]

/-! ### Routes -/

@[simp] theorem readRouteTarget_indifferent : Indifferent readRouteTarget :=
  readRecord_indifferent (by simp [routeTargetFields]) _

theorem readPortRef_readsAlike {v v' : Value} (hv : v.Quotes v') (hport : ∀ i, v ≠ .int i) :
    ReadsAlike readPortRef v v' := by
  intro path port
  cases hv with
  | integer i => exact absurd rfl (hport i)
  | entry | item =>
    -- A list or a mapping is no port, whatever it holds.
    exact ⟨nofun, nofun⟩

@[simp] theorem readRouteTls_indifferent : Indifferent readRouteTls :=
  (readRecord_indifferent (by simp [routeTlsFields]) _).bind

theorem routeFields_readsAlike {key : String} {v v' : Value} (hv : v.Quotes v')
    (hport : key = "targetPort" → ∀ i, v ≠ .int i) :
    ∀ field ∈ routeFields, field.key = key → ∀ s, ReadsAlike (fun path v => field.read path v s) v v' := by
  simp only [routeFields, List.forall_mem_cons, Field.of_key]
  exact ⟨fun _ _ => (readText_indifferent v v' hv).bind, fun _ _ => (readText_indifferent v v' hv).bind,
    fun _ _ => (readRouteTarget_indifferent v v' hv).bind,
    fun hkey _ => (readPortRef_readsAlike hv (hport hkey.symm)).bind,
    fun _ _ => (readRouteTls_indifferent v v' hv).bind, List.forall_mem_nil _⟩

/-! ### Build configurations -/

@[simp] theorem readBuildSource_indifferent : Indifferent readBuildSource := by
  have hgit : ∀ field ∈ gitFields, field.Indifferent := by simp [gitFields]
  refine (readRecord_indifferent ?_ _).bind
  simp only [buildSourceFields, List.forall_mem_cons, Field.of_indifferent, readText_indifferent, true_and]
  exact ⟨fun s => readRecord_indifferent hgit s, List.forall_mem_nil _⟩

@[simp] theorem readStrategyType_indifferent : Indifferent readStrategyType := readText_indifferent.bind

@[simp] theorem readBuildStrategy_indifferent : Indifferent readBuildStrategy :=
  (readRecord_indifferent (by simp [buildStrategyFields]) _).bind

@[simp] theorem readOutput_indifferent : Indifferent (readRecord outputFields none) :=
  readRecord_indifferent (by simp [outputFields]) _

theorem buildConfigFields_indifferent : ∀ field ∈ buildConfigFields, field.Indifferent := by simp [buildConfigFields]

/-! ### Metadata and fields of a kind -/

section
variable {σ : Type} {fields : List (Field σ)} {kind : Kind} {key : String} {v v' : Value} {before after : List Entry}

/-- An entry is kept or left out together with the one that stands in for it. -/
theorem readFields_filter_readsAlike {path : FieldPath} {keep : Entry → Bool} {s s' : σ} (hv : v.Quotes v')
    (hkeep : keep (key, v) = keep (key, v'))
    (h : ∀ field ∈ fields, field.key = key → ∀ s, ReadsAlike (fun path v => field.read path v s) v v') :
    readFields fields path ((before ++ (key, v) :: after).filter keep) s = .ok s' ↔
      readFields fields path ((before ++ (key, v') :: after).filter keep) s = .ok s' := by
  simp only [List.filter_append, List.filter_cons, hkeep]
  split
  · exact readFields_readsAlike hv h
  · rfl

theorem readMetadata_quotes {m : Metadata} (hv : v.Quotes v') :
    readMetadata (before ++ (key, v) :: after) = .ok m ↔ readMetadata (before ++ (key, v') :: after) = .ok m := by
  have hfields : ∀ field ∈ metadataFields, field.Indifferent := by simp [metadataFields]
  exact readFields_filter_readsAlike hv rfl fun field hfield _ s => hfields field hfield s v v' hv

theorem readSpec_quotes {spec : Spec} (hv : v.Quotes v')
    (hport : kind = .route → key = "targetPort" → ∀ i, v ≠ .int i) :
    readSpec kind ((before ++ (key, v) :: after).filter fun entry => !isMetadata entry) = .ok spec ↔
      readSpec kind ((before ++ (key, v') :: after).filter fun entry => !isMetadata entry) = .ok spec := by
  have hmap {σ : Type} {fields : List (Field σ)} {s : σ} {f : σ → Spec}
      (h : ∀ field ∈ fields, field.key = key → ∀ s, ReadsAlike (fun path v => field.read path v s) v v') :
      (readFields fields [] ((before ++ (key, v) :: after).filter fun entry => !isMetadata entry) s).map f = .ok spec ↔
        (readFields fields [] ((before ++ (key, v') :: after).filter fun entry => !isMetadata entry) s).map f =
          .ok spec := by
    rw [map_eq_ok_iff, map_eq_ok_iff]
    refine exists_congr fun s' => and_congr_left fun _ => ?_
    exact readFields_filter_readsAlike hv rfl h
  have hall {σ : Type} {fields : List (Field σ)} (h : ∀ field ∈ fields, field.Indifferent) :
      ∀ field ∈ fields, field.key = key → ∀ s, ReadsAlike (fun path v => field.read path v s) v v' :=
    fun field hfield _ s => h field hfield s v v' hv
  cases kind with
  | gateway => exact hmap (hall gatewayFields_indifferent)
  | virtualService => exact hmap (hall virtualServiceFields_indifferent)
  | service => exact hmap (hall serviceFields_indifferent)
  | deployment => exact hmap (hall deploymentFields_indifferent)
  | route => exact hmap (routeFields_readsAlike hv (hport rfl))
  | buildConfig => exact hmap (hall buildConfigFields_indifferent)

end

end Extraction

/-! ### Declarations -/

/-- One integer of a declaration, at any depth, is put into quotes. It is not the port of a route, as a text names a
    port. -/
def Declaration.Quotes (d d' : Declaration) : Prop :=
  ∃ before key v v' after, d.entries = before ++ (key, v) :: after ∧ v.Quotes v' ∧
    (d.kind = .route → key = "targetPort" → ∀ i, v ≠ .int i) ∧
    d' = { d with entries := before ++ (key, v') :: after }

open Extraction in
theorem Declaration.Quotes.extract_eq_ok_iff {d d' : Declaration} (h : d.Quotes d') (record : Record) :
    d.extract = .ok record ↔ d'.extract = .ok record := by
  obtain ⟨before, key, v, v', after, hentries, hv, hport, rfl⟩ := h
  simp only [extract, extractAs, hentries, bind_eq_ok_iff, readMetadata_quotes hv, readSpec_quotes hv hport,
    readIdentifier]

/-- However many integers are put into quotes, a declaration gives the same record, or none as before. -/
theorem Declaration.extract_quotes {d d' : Declaration} (h : Relation.ReflTransGen Declaration.Quotes d d')
    (record : Record) : d.extract = .ok record ↔ d'.extract = .ok record := by
  induction h with
  | refl => rfl
  | tail _ hstep ih => exact ih.trans (hstep.extract_eq_ok_iff record)

/-- A service with such a name, and such a target of its one port. -/
def numberedService (name targetPort : Value) : Declaration :=
  ⟨.service, none, [("name", name), ("ports", .list [.map [("port", .int 80), ("targetPort", targetPort)]])],
    ⟨"app.yaml", 0⟩⟩

theorem numberedService_quotes :
    ∃ record, (numberedService (.int 7) (.int (-9223372036854775808))).extract = .ok record ∧
      (numberedService (.text "7") (.text "-9223372036854775808")).extract = .ok record := by
  have hname : (numberedService (.int 7) (.int (-9223372036854775808))).Quotes
      (numberedService (.text "7") (.int (-9223372036854775808))) :=
    ⟨[], "name", _, _, _, rfl, .integer 7, nofun, rfl⟩
  have htarget : (numberedService (.text "7") (.int (-9223372036854775808))).Quotes
      (numberedService (.text "7") (.text "-9223372036854775808")) :=
    ⟨[_], "ports", _, _, [], rfl, @Value.Quotes.item _ _ [] []
      (@Value.Quotes.entry "targetPort" _ _ [("port", .int 80)] [] (.integer (-9223372036854775808))), nofun, rfl⟩
  exact ⟨_, rfl, (Declaration.extract_quotes (.tail (.single hname) htarget) _).mp rfl⟩

end Manifests
