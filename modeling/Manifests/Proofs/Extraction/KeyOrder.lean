import Manifests.Proofs.Extraction.Acceptance
import Manifests.Proofs.Extraction.Steady
import Mathlib.Logic.Relation

/-! # The order of keys in declarations

The readers of each kind are steady, one lemma for each reader, and so a declaration that repeats no key is read alike
in whatever order its entries stand. -/

namespace Manifests

namespace Extraction

open Value

/-! ### Gateways -/

@[simp] theorem readServerPort_steady : Steady readServerPort :=
  (readRecord_steady ⟨by simp [serverPortFields], by simp [serverPortFields]⟩ _).bind

@[simp] theorem readTlsMode_steady : Steady readTlsMode := readText_steady.bind

@[simp] theorem readServerTls_steady : Steady readServerTls :=
  (readRecord_steady ⟨by simp [serverTlsFields], by simp [serverTlsFields]⟩ _).bind

@[simp] theorem readServer_steady : Steady readServer :=
  (readRecord_steady ⟨by simp [serverFields], by simp [serverFields]⟩ _).bind

theorem gatewayFields_steady : FieldsSteady gatewayFields := ⟨by simp [gatewayFields], by simp [gatewayFields]⟩

/-! ### Virtual services -/

/-- Headers go into the headers, which the other fields leave as they are. -/
theorem of_commutes_headers {α : Type} {key : String} {read : Reader α} {put : α → MatchRequest → MatchRequest}
    (hkept : ∀ a s, (put a s).headers = s.headers)
    (hput : ∀ a m s, { put a s with headers := m } = put a { s with headers := m }) :
    (Field.of key read put).Commutes
      ⟨"headers", fun path value s => do return { s with headers := ← readHeaders path value s.headers }⟩ :=
  Field.of_commutes_part MatchRequest.headers readHeaders (fun m s => { s with headers := m }) hkept hput

theorem matchRequestFields_steady : FieldsSteady matchRequestFields where
  steady := by
    simp only [matchRequestFields, List.forall_mem_cons, Field.of_steady, readStringMatch_steady,
      readOptionalInt_steady, true_and]
    exact ⟨fun s => (readHeaders_steady s.headers).bind, List.forall_mem_nil _⟩
  commute := by
    have hport : (Field.of "port" readOptionalInt fun n (s : MatchRequest) => { s with port := n }).Commutes _ :=
      of_commutes_headers (by simp) (by simp)
    simp [matchRequestFields, of_commutes_headers, symm hport, -bind_pure_comp]

@[simp] theorem readMatchRequest_steady : Steady readMatchRequest := readRecord_steady matchRequestFields_steady _

theorem portSelectorFields_steady : FieldsSteady portSelectorFields :=
  ⟨by simp [portSelectorFields], by simp [portSelectorFields]⟩

@[simp] theorem readDestinationPort_steady : Steady readDestinationPort := by
  intro path v v' n hkeys hv h
  cases v with
  | map es =>
    obtain ⟨es', rfl⟩ := hv.exists_entries
    exact portSelectorFields_steady.readFields hkeys hv h
  | null | bool | int | float | text | list =>
    -- A list is no port.
    cases hv <;> cases h

@[simp] theorem readDestination_steady : Steady readDestination :=
  readRecord_steady ⟨by simp [destinationFields], by simp [destinationFields]⟩ _

@[simp] theorem readWeightedDestination_steady : Steady readWeightedDestination :=
  (readRecord_steady ⟨by simp [weightedDestinationFields], by simp [weightedDestinationFields]⟩ _).bind

@[simp] theorem readAddressParts_steady : Steady readAddressParts :=
  readRecord_steady ⟨by simp [addressPartsFields], by simp [addressPartsFields]⟩ _

@[simp] theorem readRetries_steady : Steady readRetries :=
  (readRecord_steady ⟨by simp [retriesFields], by simp [retriesFields]⟩ _).bind

@[simp] theorem readFaultDelay_steady : Steady readFaultDelay :=
  (readRecord_steady ⟨by simp [faultDelayFields], by simp [faultDelayFields]⟩ _).bind

@[simp] theorem readFaultAbort_steady : Steady readFaultAbort :=
  (readRecord_steady ⟨by simp [faultAbortFields], by simp [faultAbortFields]⟩ _).bind

@[simp] theorem readFaultInjection_steady : Steady readFaultInjection :=
  readRecord_steady ⟨by simp [faultInjectionFields], by simp [faultInjectionFields]⟩ _

@[simp] theorem readCorsPolicy_steady : Steady readCorsPolicy :=
  readRecord_steady ⟨by simp [corsPolicyFields], by simp [corsPolicyFields]⟩ _

@[simp] theorem readHttpRoute_steady : Steady readHttpRoute :=
  readRecord_steady ⟨by simp [httpRouteFields], by simp [httpRouteFields]⟩ _

theorem virtualServiceFields_steady : FieldsSteady virtualServiceFields :=
  ⟨by simp [virtualServiceFields], by simp [virtualServiceFields]⟩

/-! ### Services and deployments -/

@[simp] theorem readServicePort_steady : Steady readServicePort :=
  (readRecord_steady ⟨by simp [servicePortFields], by simp [servicePortFields]⟩ _).bind

theorem serviceFields_steady : FieldsSteady serviceFields := ⟨by simp [serviceFields], by simp [serviceFields]⟩

@[simp] theorem readContainerPort_steady : Steady readContainerPort :=
  (readRecord_steady ⟨by simp [containerPortFields], by simp [containerPortFields]⟩ _).bind

@[simp] theorem readContainer_steady : Steady readContainer :=
  (readRecord_steady ⟨by simp [containerFields], by simp [containerFields]⟩ _).bind

theorem deploymentFields_steady : FieldsSteady deploymentFields :=
  ⟨by simp [deploymentFields], by simp [deploymentFields]⟩

/-! ### Routes -/

@[simp] theorem readRouteTarget_steady : Steady readRouteTarget :=
  readRecord_steady ⟨by simp [routeTargetFields], by simp [routeTargetFields]⟩ _

@[simp] theorem readPortRef_steady : Steady readPortRef :=
  readPortRef_follows.steady fun _ => Grammar.conforms_text_iff.mp

@[simp] theorem readRouteTls_steady : Steady readRouteTls :=
  (readRecord_steady ⟨by simp [routeTlsFields], by simp [routeTlsFields]⟩ _).bind

theorem routeFields_steady : FieldsSteady routeFields := ⟨by simp [routeFields], by simp [routeFields]⟩

/-! ### Build configurations -/

theorem gitFields_steady : FieldsSteady gitFields := ⟨by simp [gitFields], by simp [gitFields]⟩

/-- The fields of the repository go into the source, beside the directory. -/
theorem buildSourceFields_steady : FieldsSteady buildSourceFields where
  steady := by
    simp only [buildSourceFields, List.forall_mem_cons, Field.of_steady, readText_steady, true_and]
    exact ⟨fun s => readRecord_steady gitFields_steady s, List.forall_mem_nil _⟩
  commute := by
    rw [buildSourceFields, List.pairwise_pair]
    exact Field.commutes_of_fields (by simp [gitFields]) "git"

@[simp] theorem readBuildSource_steady : Steady readBuildSource :=
  (readRecord_steady buildSourceFields_steady _).bind

@[simp] theorem readStrategyType_steady : Steady readStrategyType := readText_steady.bind

@[simp] theorem readBuildStrategy_steady : Steady readBuildStrategy :=
  (readRecord_steady ⟨by simp [buildStrategyFields], by simp [buildStrategyFields]⟩ _).bind

@[simp] theorem readOutput_steady : Steady (readRecord outputFields none) :=
  readRecord_steady ⟨by simp [outputFields], by simp [outputFields]⟩ _

theorem buildConfigFields_steady : FieldsSteady buildConfigFields :=
  ⟨by simp [buildConfigFields], by simp [buildConfigFields]⟩

/-! ### Metadata and fields of a kind -/

theorem metadataFields_steady : FieldsSteady metadataFields := ⟨by simp [metadataFields], by simp [metadataFields]⟩

section
variable {entries entries' : List Entry}

theorem readMetadata_shuffles {m : Metadata} (hkeys : (Value.map entries).KeysDistinct)
    (h : (Value.map entries).Shuffles (.map entries')) (hm : readMetadata entries = .ok m) :
    readMetadata entries' = .ok m := by
  unfold readMetadata at hm ⊢
  rcases h.filter isMetadata fun _ _ _ => rfl with heq | hfiltered
  · rwa [heq]
  · exact metadataFields_steady.readFields (hkeys.filter isMetadata) hfiltered hm

theorem readSpec_shuffles {kind : Kind} {spec : Spec} (hkeys : (Value.map entries).KeysDistinct)
    (h : (Value.map entries).Shuffles (.map entries')) (hspec : readSpec kind entries = .ok spec) :
    readSpec kind entries' = .ok spec := by
  have hmap {σ : Type} {fields : List (Field σ)} {s : σ} {f : σ → Spec} (hfields : FieldsSteady fields)
      (hspec : (readFields fields [] entries s).map f = .ok spec) :
      (readFields fields [] entries' s).map f = .ok spec := by
    obtain ⟨s', hs', rfl⟩ := map_eq_ok_iff.mp hspec
    exact map_eq_ok_iff.mpr ⟨s', hfields.readFields hkeys h hs', rfl⟩
  cases kind with
  | gateway => exact hmap gatewayFields_steady hspec
  | virtualService => exact hmap virtualServiceFields_steady hspec
  | service => exact hmap serviceFields_steady hspec
  | deployment => exact hmap deploymentFields_steady hspec
  | route => exact hmap routeFields_steady hspec
  | buildConfig => exact hmap buildConfigFields_steady hspec

end

end Extraction

/-! ### Declarations -/

/-- No mapping of the declaration repeats a key. -/
def Declaration.KeysDistinct (d : Declaration) : Prop := (Value.map d.entries).KeysDistinct

/-- The entries of one mapping of the declaration, which may be that of its fields, are put in another order. -/
def Declaration.Shuffles (d d' : Declaration) : Prop :=
  ∃ entries, (Value.map d.entries).Shuffles (.map entries) ∧ d' = { d with entries }

open Extraction in
theorem Declaration.extractAs_shuffles {d d' : Declaration} {kind : Kind} {record : Record} (hkeys : d.KeysDistinct)
    (h : d.Shuffles d') (hrecord : d.extractAs kind = .ok record) : d'.extractAs kind = .ok record := by
  obtain ⟨entries, hentries, rfl⟩ := h
  obtain ⟨m, id, spec, hm, hid, hspec, rfl⟩ := extractAs_eq_ok hrecord
  have hm' : readMetadata entries = .ok m := readMetadata_shuffles hkeys hentries hm
  have hspec' : readSpec kind (entries.filter fun entry => !isMetadata entry) = .ok spec := by
    rcases hentries.filter (fun entry => !isMetadata entry) fun _ _ _ => rfl with heq | hfiltered
    · rwa [heq]
    · exact readSpec_shuffles (hkeys.filter _) hfiltered hspec
  exact bind_eq_ok_iff.mpr ⟨m, hm', bind_eq_ok_iff.mpr ⟨id, hid, bind_eq_ok_iff.mpr ⟨spec, hspec', rfl⟩⟩⟩

/-- However often entries are put in another order, the declaration keeps its kind and gives the same record. -/
theorem Declaration.extract_shuffles {d d' : Declaration} {record : Record} (hkeys : d.KeysDistinct)
    (h : Relation.ReflTransGen Declaration.Shuffles d d') (hrecord : d.extract = .ok record) :
    d'.extract = .ok record := by
  have hrun : d'.KeysDistinct ∧ d'.extract = .ok record := by
    induction h with
    | refl => exact ⟨hkeys, hrecord⟩
    | tail _ hstep ih =>
      obtain ⟨hkeys, hrecord⟩ := ih
      refine ⟨?_, ?_⟩
      · obtain ⟨entries, hentries, rfl⟩ := hstep
        exact Value.KeysDistinct.shuffles hkeys hentries
      · have hkind := hstep
        obtain ⟨entries, -, rfl⟩ := hkind
        exact extractAs_shuffles hkeys hstep hrecord
  exact hrun.2

end Manifests
