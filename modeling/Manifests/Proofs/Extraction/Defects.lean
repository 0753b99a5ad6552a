import Manifests.Failure
import Manifests.Proofs.Extraction.Acceptance
import Manifests.Proofs.Extraction.Blame

/-! # Where a declaration is defective

The readers of each kind point at faults, one lemma for each reader, and so does the reading of a declaration: what it
fails for is a fault of the declaration at the path that is reported, or it is that there is neither a name nor an
identifier (`Declaration.HasFault`). A declaration fails exactly if there is something of the sort. -/

namespace Manifests

open Extraction

namespace Extraction

open Grammar

/-! ### Gateways -/

@[simp] theorem readServerPort_blames : Blames readServerPort serverPort :=
  blames_record_two (by simp [FieldsBlame, serverPortFields]) rfl rfl (by simp [serverPortFields])
    (by simp [serverPortFields])

theorem readTlsMode_eq_error {path : FieldPath} {v : Value} {defect : Defect} (h : readTlsMode path v = .error defect) :
    readText path v = .error defect ∨ ∃ text, v.scalarText? = some text ∧ TlsMode.ofName? text = none ∧
      defect = ⟨path, .unknownTlsMode text⟩ := by
  rcases bind_eq_error_iff.mp h with h | ⟨text, htext, h⟩
  · exact .inl h
  · refine .inr ⟨text, readText_eq_ok_iff.mp htext, ?_⟩
    split at h
    · exact absurd h pure_ne_error
    · exact ⟨‹_›, (Except.error.inj h).symm⟩

@[simp] theorem readTlsMode_blames :
    Blames readTlsMode (.word ["SIMPLE", "MUTUAL", "PASSTHROUGH", "AUTO_PASSTHROUGH", "ISTIO_MUTUAL"]) :=
  blames_word (fun _ _ _ => readTlsMode_eq_error) .tlsMode

@[simp] theorem readServerTls_blames : Blames readServerTls serverTls :=
  blames_record_one (by simp [FieldsBlame, serverTlsFields]) rfl (by simp [serverTlsFields]) fun _ => rfl

@[simp] theorem readServer_blames : Blames readServer server :=
  blames_record_one (by simp [FieldsBlame, serverFields]) rfl (by simp [serverFields]) fun _ => rfl

theorem gatewayFields_blame : FieldsBlame gatewayFields gateway := by
  simp [FieldsBlame, gatewayFields, gateway]

/-! ### Virtual services -/

theorem readHeaderEntries_eq_error {path : FieldPath} {entries : List Entry} {m : TextMap StringMatch}
    {defect : Defect} (h : readHeaderEntries path entries m = .error defect) :
    ∃ e ∈ entries, readStringMatch (path.field e.1) e.2 = .error defect := by
  induction entries generalizing m with
  | nil => cases h
  | cons entry entries ih =>
    rcases bind_eq_error_iff.mp h with h | ⟨condition, -, h⟩
    · exact ⟨entry, List.mem_cons_self, h⟩
    · obtain ⟨e, he, hread⟩ := ih h
      exact ⟨e, List.mem_cons_of_mem _ he, hread⟩

/-- Headers are read whether they are null or not. -/
theorem readHeaders_blames (m : TextMap StringMatch) :
    Blames (fun path v => readHeaders path v m) (.table condition false) := by
  refine blames_mapping trivial fun path entries defect h => ?_
  obtain ⟨⟨key, v⟩, hentry, hread⟩ := readHeaderEntries_eq_error h
  exact exists_rest_of_entry hread readStringMatch_blames rfl hentry fun _ => Bool.false_ne_true

@[simp] theorem readMatchRequest_blames : Blames readMatchRequest matchRequest := by
  refine readRecord_blames ?_
  simp only [FieldsBlame, matchRequestFields, List.forall₂_cons, Field.of_key, List.Forall₂.nil, Field.of_blames,
    readStringMatch_blames, readOptionalInt_blames, and_self, and_true, true_and]
  exact fun s => (readHeaders_blames s.headers).map fun m => { s with headers := m }

@[simp] theorem readDestinationPort_blames : Blames readDestinationPort destinationPort := by
  intro path v defect h
  cases v with
  | map entries =>
    have hfields : FieldsBlame portSelectorFields [("number", .integer)] := by
      simp [FieldsBlame, portSelectorFields]
    obtain ⟨rest, hpath, hfault⟩ := readFields_blames hfields h
    exact ⟨rest, hpath, hfault.orInteger⟩
  | null | bool | int | float | text | list =>
    obtain ⟨rest, hpath, hfault⟩ := readOptionalInt_blames path _ defect h
    exact ⟨rest, hpath, hfault.number trivial (by simp [Value.shape])⟩

@[simp] theorem readDestination_blames : Blames readDestination destination :=
  readRecord_blames (by simp [FieldsBlame, destinationFields])

@[simp] theorem readWeightedDestination_blames : Blames readWeightedDestination weightedDestination :=
  blames_record_one (by simp [FieldsBlame, weightedDestinationFields]) rfl (by simp [weightedDestinationFields])
    fun _ => rfl

@[simp] theorem readAddressParts_blames : Blames readAddressParts addressParts :=
  readRecord_blames (by simp [FieldsBlame, addressPartsFields])

@[simp] theorem readRetries_blames : Blames readRetries retries :=
  blames_record_one (by simp [FieldsBlame, retriesFields]) rfl (by simp [retriesFields]) fun _ => rfl

@[simp] theorem readFaultDelay_blames :
    Blames readFaultDelay (.record [("percent", .integer), ("fixedDelay", .text)] [["fixedDelay"]]) :=
  blames_record_one (by simp [FieldsBlame, faultDelayFields]) rfl (by simp [faultDelayFields]) fun _ => rfl

@[simp] theorem readFaultAbort_blames :
    Blames readFaultAbort (.record [("percent", .integer), ("httpStatus", .integer)] [["httpStatus"]]) :=
  blames_record_one (by simp [FieldsBlame, faultAbortFields]) rfl (by simp [faultAbortFields]) fun _ => rfl

@[simp] theorem readFaultInjection_blames : Blames readFaultInjection faultInjection :=
  readRecord_blames (by simp [FieldsBlame, faultInjectionFields])

@[simp] theorem readCorsPolicy_blames : Blames readCorsPolicy corsPolicy :=
  readRecord_blames (by simp [FieldsBlame, corsPolicyFields])

@[simp] theorem readHttpRoute_blames : Blames readHttpRoute httpRoute :=
  readRecord_blames (by simp [FieldsBlame, httpRouteFields])

theorem virtualServiceFields_blame : FieldsBlame virtualServiceFields virtualService := by
  simp [FieldsBlame, virtualServiceFields, virtualService]

/-! ### Services and deployments -/

@[simp] theorem readServicePort_blames : Blames readServicePort servicePort :=
  blames_record_one (by simp [FieldsBlame, servicePortFields]) rfl (by simp [servicePortFields]) fun _ => rfl

theorem serviceFields_blame : FieldsBlame serviceFields service := by
  simp [FieldsBlame, serviceFields, service]

@[simp] theorem readContainerPort_blames : Blames readContainerPort containerPort :=
  blames_record_one (by simp [FieldsBlame, containerPortFields]) rfl (by simp [containerPortFields]) fun _ => rfl

@[simp] theorem readContainer_blames : Blames readContainer container :=
  blames_record_two (by simp [FieldsBlame, containerFields]) rfl rfl (by simp [containerFields])
    (by simp [containerFields])

theorem deploymentFields_blame : FieldsBlame deploymentFields deployment := by
  simp [FieldsBlame, deploymentFields, deployment]

/-! ### Routes -/

@[simp] theorem readRouteTarget_blames : Blames readRouteTarget routeTarget :=
  readRecord_blames (by simp [FieldsBlame, routeTargetFields])

@[simp] theorem readPortRef_blames : Blames readPortRef .text := by
  intro path v defect h
  cases v with
  | int => cases h
  | null | bool | float | text | map | list => exact readText_blames.map PortRef.name path _ defect h

@[simp] theorem readRouteTls_blames : Blames readRouteTls routeTls :=
  blames_record_one (by simp [FieldsBlame, routeTlsFields]) rfl (by simp [routeTlsFields]) fun _ => rfl

theorem routeFields_blame : FieldsBlame routeFields route := by
  simp [FieldsBlame, routeFields, route]

/-! ### Build configurations -/

@[simp] theorem readBuildSource_blames : Blames readBuildSource buildSource := by
  have hgit : FieldsBlame gitFields [("uri", .text), ("ref", .text)] := by simp [FieldsBlame, gitFields]
  have hfields : FieldsBlame buildSourceFields
      [("git", .record [("uri", .text), ("ref", .text)] []), ("contextDir", .text)] := by
    simp only [FieldsBlame, buildSourceFields, List.forall₂_cons, Field.of_key, List.Forall₂.nil, Field.of_blames,
      readText_blames, and_self, and_true, true_and]
    exact fun s => readRecord_blames hgit
  exact blames_record_one hfields rfl buildSourceFields_fill fun path => List.append_assoc path _ _

theorem readStrategyType_eq_error {path : FieldPath} {v : Value} {defect : Defect}
    (h : readStrategyType path v = .error defect) :
    readText path v = .error defect ∨ ∃ text, v.scalarText? = some text ∧ StrategyType.ofName? text = none ∧
      defect = ⟨path, .unknownStrategy text⟩ := by
  rcases bind_eq_error_iff.mp h with h | ⟨text, htext, h⟩
  · exact .inl h
  · refine .inr ⟨text, readText_eq_ok_iff.mp htext, ?_⟩
    split at h
    · exact absurd h pure_ne_error
    · exact ⟨‹_›, (Except.error.inj h).symm⟩

@[simp] theorem readStrategyType_blames : Blames readStrategyType (.word ["Docker", "Source"]) :=
  blames_word (fun _ _ _ => readStrategyType_eq_error) .strategy

@[simp] theorem readBuildStrategy_blames : Blames readBuildStrategy buildStrategy :=
  blames_record_one (by simp [FieldsBlame, buildStrategyFields]) rfl (by simp [buildStrategyFields]) fun _ => rfl

@[simp] theorem readOutput_blames : Blames (readRecord outputFields none) (.record [("to", .text)] []) :=
  readRecord_blames (by simp [FieldsBlame, outputFields])

theorem buildConfigFields_blame : FieldsBlame buildConfigFields buildConfig := by
  simp [FieldsBlame, buildConfigFields, buildConfig]

end Extraction

/-! ### The two parts of the entries -/

section
variable {gs gs' : List (String × Grammar)} {keep : Entry → Bool} {entries : List Entry}

/-- What a path leads to in some of the entries it leads to in all of them, unless it is the mapping itself. -/
theorem Grammar.Leads.of_filter {path : FieldPath} {g' : Grammar} {v' : Value}
    (hlookup : ∀ e, keep e = true → gs'.lookup e.1 = gs.lookup e.1)
    (h : (Grammar.record gs []).Leads (.map (entries.filter keep)) path g' v') :
    (path = [] ∧ g' = .record gs [] ∧ v' = .map (entries.filter keep)) ∨
      (Grammar.record gs' []).Leads (.map entries) path g' v' := by
  cases h with
  | here => exact .inl ⟨rfl, rfl, rfl⟩
  | key hinner hentry hnull hrest =>
    obtain ⟨hentry, hkeep⟩ := List.mem_filter.mp hentry
    exact .inr (.key (by rwa [field?, hlookup _ hkeep]) hentry hnull hrest)

theorem Grammar.HasFault.of_filter {path : FieldPath} {fault : Fault}
    (hlookup : ∀ e, keep e = true → gs'.lookup e.1 = gs.lookup e.1)
    (h : (Grammar.record gs []).HasFault (.map (entries.filter keep)) path fault) :
    (Grammar.record gs' []).HasFault (.map entries) path fault := by
  cases h with
  | unrecognized hleads hmapping hkey hentry =>
    rcases hleads.of_filter hlookup with ⟨rfl, rfl, hmap⟩ | hleads
    · obtain rfl := Value.map.inj hmap
      obtain ⟨hentry, hkeep⟩ := List.mem_filter.mp hentry
      exact .unrecognized .here trivial (by rwa [field?, hlookup _ hkeep]) hentry
    · exact .unrecognized hleads hmapping hkey hentry
  | unfit hleads hunfit =>
    rcases hleads.of_filter hlookup with ⟨rfl, rfl, rfl⟩ | hleads
    · cases hunfit with
      | mapping _ hshape => exact absurd rfl hshape
    · exact .unfit hleads hunfit
  | missing hleads hneeded hprovides =>
    rcases hleads.of_filter hlookup with ⟨-, hrecord, -⟩ | hleads
    · obtain ⟨-, rfl⟩ := Grammar.record.inj hrecord
      cases hneeded
    · exact .missing hleads hneeded hprovides

end

namespace Extraction

variable {kind : Kind} {entries : List Entry} {defect : Defect}

theorem readMetadata_eq_error (h : readMetadata entries = .error defect) :
    kind.grammar.HasFault (.map entries) defect.path defect.fault := by
  have hfields : FieldsBlame metadataFields Grammar.metadata := by
    simp [FieldsBlame, metadataFields, Grammar.metadata]
  obtain ⟨rest, hpath, hfault⟩ := readFields_blames hfields h
  rw [hpath, List.nil_append]
  exact hfault.of_filter fun e hmeta => by rw [Grammar.lookup_append_of_own isMetadata_iff, if_pos hmeta]

theorem readSpec_eq_error (h : readSpec kind entries = .error defect) :
    (Grammar.record kind.fields []).HasFault (.map entries) defect.path defect.fault := by
  have hread {σ : Type} {fields : List (Field σ)} {gs : List (String × Grammar)} {s : σ}
      (hfields : FieldsBlame fields gs) (h : readFields fields [] entries s = .error defect) :
      (Grammar.record gs []).HasFault (.map entries) defect.path defect.fault := by
    obtain ⟨rest, hpath, hfault⟩ := readFields_blames hfields h
    rwa [hpath, List.nil_append]
  cases kind with
  | gateway => exact hread gatewayFields_blame (map_eq_error_iff.mp h)
  | virtualService => exact hread virtualServiceFields_blame (map_eq_error_iff.mp h)
  | service => exact hread serviceFields_blame (map_eq_error_iff.mp h)
  | deployment => exact hread deploymentFields_blame (map_eq_error_iff.mp h)
  | route => exact hread routeFields_blame (map_eq_error_iff.mp h)
  | buildConfig => exact hread buildConfigFields_blame (map_eq_error_iff.mp h)

theorem readIdentifier_eq_error {d : Declaration} {m : Metadata} (h : readIdentifier d m = .error defect) :
    d.id = none ∧ m.name = none ∧ defect = ⟨[.key "name"], .nameless⟩ := by
  unfold readIdentifier at h
  split at h
  · cases h
  · rename_i hnone
    obtain ⟨hid, hname⟩ : d.id = none ∧ m.name = none := by simpa using hnone
    exact ⟨hid, hname, (Except.error.inj h).symm⟩

end Extraction

/-! ### Declarations -/

namespace Declaration

/-- A declaration has a fault where the path leads, as one of a kind: its entries do, or it has no identifier and the
    name is absent. -/
inductive HasFault (d : Declaration) (kind : Kind) : FieldPath → Fault → Prop
  | entries {path : FieldPath} {fault : Fault} : kind.grammar.HasFault (.map d.entries) path fault →
      HasFault d kind path fault
  | nameless : d.id = none → ¬ Grammar.Provides d.entries ["name"] → HasFault d kind [.key "name"] .nameless

variable {d : Declaration} {kind : Kind}

theorem HasFault.not_conforms {path : FieldPath} {fault : Fault} (h : d.HasFault kind path fault) :
    ¬ d.Conforms kind := by
  cases h with
  | entries hentries => exact fun hd => hentries.not_conforms hd.entries
  | nameless hid hname =>
    intro hd
    rcases hd.named with hsome | hprovides
    · rw [hid] at hsome
      cases hsome
    · exact hname hprovides

theorem hasFault_of_extractAs {defect : Defect} (h : d.extractAs kind = .error defect) :
    d.HasFault kind defect.path defect.fault := by
  rcases bind_eq_error_iff.mp h with h | ⟨m, hm, h⟩
  · exact .entries (readMetadata_eq_error h)
  · rcases bind_eq_error_iff.mp h with h | ⟨id, -, h⟩
    · obtain ⟨hid, hname, rfl⟩ := readIdentifier_eq_error h
      refine .nameless hid ?_
      rw [← readMetadata_name hm, hname]
      exact Bool.false_ne_true
    · rcases bind_eq_error_iff.mp h with h | ⟨spec, -, h⟩
      · refine .entries ((readSpec_eq_error h).of_filter fun e hother => ?_)
        rw [Bool.not_eq_true'] at hother
        rw [Grammar.lookup_append_of_own isMetadata_iff, hother, if_neg Bool.false_ne_true]
      · exact absurd h pure_ne_error

/-- What is made of a declaration that is read as one of a kind: its record, or the failure that says why there is
    none. -/
def readingAs (d : Declaration) (kind : Kind) : Except Failure Record :=
  (d.extractAs kind).mapError (.defect kind d.label)

/-- A declaration that cannot be read as one of a kind has a fault. The failure names the kind and the declaration, and
    its field is the path to the fault: to an entry that is not recognized, to a value that does not fit, to a needed
    field that is missing, or to the absent name. Any declaration with a fault fails. -/
theorem readingAs_hasFault (d : Declaration) (kind : Kind) :
    (∀ failure, d.readingAs kind = .error failure → ∃ path fault, d.HasFault kind path fault ∧
      (fault = .unrecognized → failure.diagnostic = .unrecognizedField kind.name d.label path.text) ∧
      (fault ≠ .unrecognized →
        failure.diagnostic = .declaration kind.name d.label path.text fault.message)) ∧
    ((∃ failure, d.readingAs kind = .error failure) ↔ ∃ path fault, d.HasFault kind path fault) := by
  refine ⟨fun failure h => ?_, ?_, ?_⟩
  · obtain ⟨⟨path, fault⟩, hdefect, rfl⟩ := mapError_eq_error_iff.mp h
    refine ⟨path, fault, hasFault_of_extractAs hdefect, ?_, fun hfault => ?_⟩
    · rintro rfl
      rfl
    · cases fault with
      | unrecognized => exact absurd rfl hfault
      | expected | notInteger | unknownTlsMode | unknownStrategy | notOneCondition | missing | nameless => rfl
  · rintro ⟨failure, h⟩
    obtain ⟨defect, hdefect, -⟩ := mapError_eq_error_iff.mp h
    exact ⟨_, _, hasFault_of_extractAs hdefect⟩
  · rintro ⟨path, fault, hfault⟩
    cases hread : d.extractAs kind with
    | error defect => exact ⟨_, mapError_eq_error_iff.mpr ⟨defect, hread, rfl⟩⟩
    | ok record => exact absurd ((extractAs_isOk_iff d kind).mp ⟨record, hread⟩) hfault.not_conforms

end Declaration

/-- A service with such a second port. -/
def listening (port : Value) : Declaration :=
  ⟨.service, none, [("name", .text "a"), ("ports", .list [.map [("port", .int 80)], .map [("port", port)]])],
    ⟨"app.yaml", 0⟩⟩

theorem listening_hasFault :
    ∃ failure, (listening (.text "http")).readingAs .service = .error failure ∧
      failure.diagnostic = .declaration "Service" "a" "ports[1].port" "expected an integer, found 'http'" ∧
      ∃ path fault, (listening (.text "http")).HasFault .service path fault := by
  obtain ⟨hfault, -⟩ := Declaration.readingAs_hasFault (listening (.text "http")) .service
  refine ⟨_, rfl, by decide, ?_⟩
  obtain ⟨path, fault, hhas, -⟩ := hfault _ rfl
  exact ⟨path, fault, hhas⟩

end Manifests
