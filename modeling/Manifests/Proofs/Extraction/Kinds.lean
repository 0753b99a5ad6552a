import Manifests.Extraction.Record
import Manifests.Proofs.Extraction.Readers

/-! # The readers of each kind follow its grammar

One lemma for each reader, from the parts to the records that have them. -/

namespace Manifests.Extraction

open Grammar

/-! ### Gateways -/

@[simp] theorem readServerPort_follows : Follows readServerPort serverPort :=
  follows_record_two (by simp [FieldsFollow, serverPortFields]) rfl rfl (by simp [serverPortFields])
    (by simp [serverPortFields])

theorem readTlsMode_eq_ok_iff {path : FieldPath} {v : Value} {mode : TlsMode} :
    readTlsMode path v = .ok mode ↔ ∃ text, v.scalarText? = some text ∧ TlsMode.ofName? text = some mode := by
  simp only [readTlsMode, bind_eq_ok_iff, readText_eq_ok_iff]
  refine exists_congr fun text => and_congr_right fun _ => ?_
  cases TlsMode.ofName? text <;> simp [pure_eq_ok_iff]

@[simp] theorem readTlsMode_follows :
    Follows readTlsMode (.word ["SIMPLE", "MUTUAL", "PASSTHROUGH", "AUTO_PASSTHROUGH", "ISTIO_MUTUAL"]) :=
  follows_word fun _ _ _ => readTlsMode_eq_ok_iff

@[simp] theorem readServerTls_follows : Follows readServerTls serverTls :=
  follows_record_one (by simp [FieldsFollow, serverTlsFields]) rfl (by simp [serverTlsFields])

@[simp] theorem readServer_follows : Follows readServer server :=
  follows_record_one (by simp [FieldsFollow, serverFields]) rfl (by simp [serverFields])

theorem gatewayFields_follow : FieldsFollow gatewayFields gateway := by
  simp [FieldsFollow, gatewayFields, gateway]

/-! ### Headers -/

theorem readHeaderEntries_isOk_iff (path : FieldPath) (entries : List Entry) (m : TextMap StringMatch) :
    (∃ m', readHeaderEntries path entries m = .ok m') ↔ ∀ e ∈ entries, condition.Conforms e.2 := by
  induction entries generalizing m with
  | nil => exact ⟨(fun _ _ he => by cases he), fun _ => ⟨m, rfl⟩⟩
  | cons entry entries ih =>
    obtain ⟨key, value⟩ := entry
    simp only [readHeaderEntries, isOk_bind, ih, List.forall_mem_cons, exists_and_right,
      readStringMatch_follows.accepts]

theorem readHeaderEntries_congr {v v' : Value} (h : ∀ path, readStringMatch path v' = readStringMatch path v)
    (path : FieldPath) (key : String) (before after : List Entry) (m : TextMap StringMatch) :
    readHeaderEntries path (before ++ (key, v') :: after) m =
      readHeaderEntries path (before ++ (key, v) :: after) m := by
  induction before generalizing m with
  | nil => simp only [List.nil_append, readHeaderEntries, h]
  | cons entry before ih => simp only [List.cons_append, readHeaderEntries, ih]

theorem not_conforms_condition_null : ¬ condition.Conforms .null := fun h => by cases h

/-- Headers take no null values: every value is read as a condition. -/
theorem readHeaders_follows (m : TextMap StringMatch) :
    Follows (fun path v => readHeaders path v m) (.table condition false) where
  accepts path v := by
    constructor
    · rintro ⟨m', h⟩
      obtain ⟨entries, hentries, h⟩ := bind_eq_ok_iff.mp h
      have hvalues := (readHeaderEntries_isOk_iff path entries m).mp ⟨m', h⟩
      rw [readMapping_eq_map hentries]
      refine .table (fun e he hnull => ?_) fun e he _ => hvalues e he
      exact absurd (hnull ▸ hvalues e he) not_conforms_condition_null
    · intro h
      cases h with
      | @table _ _ entries hnulls hvalues =>
        refine (readHeaderEntries_isOk_iff path entries m).mpr fun e he => hvalues e he fun hnull => ?_
        cases hnulls e he hnull
  skipsNull path v v' hv := by
    cases hv with
    | entry htakes _ => cases htakes
    | inside hinner hv =>
      obtain rfl := Option.some.inj hinner
      exact readHeaderEntries_congr (fun path => readStringMatch_follows.skipsNull path _ _ hv) path _ _ _ m

/-! ### Virtual services -/

@[simp] theorem readMatchRequest_follows : Follows readMatchRequest matchRequest := by
  refine readRecord_follows ?_
  simp only [FieldsFollow, matchRequestFields, List.forall₂_cons, Field.of_key, List.Forall₂.nil, Field.of_follows,
    readStringMatch_follows, readOptionalInt_follows, and_self, and_true, true_and]
  exact fun s => (readHeaders_follows s.headers).map fun m => { s with headers := m }

theorem readPortSelector_follows :
    Follows (readRecord portSelectorFields none) (.record [("number", .integer)] []) :=
  readRecord_follows (by simp [FieldsFollow, portSelectorFields])

@[simp] theorem readDestinationPort_follows : Follows readDestinationPort destinationPort where
  accepts path v := by
    cases v with
    | map entries =>
      refine (readPortSelector_follows.accepts path (.map entries)).trans ⟨.other, fun h => ?_⟩
      cases h with
      | number h => cases h
      | other h => exact h
    | null | bool | int | float | text | list =>
      refine (readOptionalInt_follows.accepts path _).trans ⟨.number, fun h => ?_⟩
      cases h with
      | number h => exact h
      | other h => cases h
  skipsNull path v v' hv := by
    cases hv with
    | entry _ hkey => cases hkey
    | inside hkey _ => cases hkey
    | other hv =>
      obtain ⟨entries, entries', rfl, rfl⟩ := hv.of_record
      exact readPortSelector_follows.skipsNull path _ _ hv

@[simp] theorem readDestination_follows : Follows readDestination destination :=
  readRecord_follows (by simp [FieldsFollow, destinationFields])

@[simp] theorem readWeightedDestination_follows : Follows readWeightedDestination weightedDestination :=
  follows_record_one (by simp [FieldsFollow, weightedDestinationFields]) rfl (by simp [weightedDestinationFields])

@[simp] theorem readAddressParts_follows : Follows readAddressParts addressParts :=
  readRecord_follows (by simp [FieldsFollow, addressPartsFields])

@[simp] theorem readRetries_follows : Follows readRetries retries :=
  follows_record_one (by simp [FieldsFollow, retriesFields]) rfl (by simp [retriesFields])

@[simp] theorem readFaultDelay_follows :
    Follows readFaultDelay (.record [("percent", .integer), ("fixedDelay", .text)] [["fixedDelay"]]) :=
  follows_record_one (by simp [FieldsFollow, faultDelayFields]) rfl (by simp [faultDelayFields])

@[simp] theorem readFaultAbort_follows :
    Follows readFaultAbort (.record [("percent", .integer), ("httpStatus", .integer)] [["httpStatus"]]) :=
  follows_record_one (by simp [FieldsFollow, faultAbortFields]) rfl (by simp [faultAbortFields])

@[simp] theorem readFaultInjection_follows : Follows readFaultInjection faultInjection :=
  readRecord_follows (by simp [FieldsFollow, faultInjectionFields])

@[simp] theorem readCorsPolicy_follows : Follows readCorsPolicy corsPolicy :=
  readRecord_follows (by simp [FieldsFollow, corsPolicyFields])

@[simp] theorem readHttpRoute_follows : Follows readHttpRoute httpRoute :=
  readRecord_follows (by simp [FieldsFollow, httpRouteFields])

theorem virtualServiceFields_follow : FieldsFollow virtualServiceFields virtualService := by
  simp [FieldsFollow, virtualServiceFields, virtualService]

/-! ### Services and deployments -/

@[simp] theorem readServicePort_follows : Follows readServicePort servicePort :=
  follows_record_one (by simp [FieldsFollow, servicePortFields]) rfl (by simp [servicePortFields])

theorem serviceFields_follow : FieldsFollow serviceFields service := by
  simp [FieldsFollow, serviceFields, service]

@[simp] theorem readContainerPort_follows : Follows readContainerPort containerPort :=
  follows_record_one (by simp [FieldsFollow, containerPortFields]) rfl (by simp [containerPortFields])

@[simp] theorem readContainer_follows : Follows readContainer container :=
  follows_record_two (by simp [FieldsFollow, containerFields]) rfl rfl (by simp [containerFields])
    (by simp [containerFields])

theorem deploymentFields_follow : FieldsFollow deploymentFields deployment := by
  simp [FieldsFollow, deploymentFields, deployment]

/-! ### Routes -/

@[simp] theorem readRouteTarget_follows : Follows readRouteTarget routeTarget :=
  readRecord_follows (by simp [FieldsFollow, routeTargetFields])

/-- Whether a scalar is a port's number or its name, it is read. -/
@[simp] theorem readPortRef_follows : Follows readPortRef .text where
  accepts path v := by
    cases v with
    | int n => exact ⟨fun _ => .int n, fun _ => ⟨.number n, rfl⟩⟩
    | null | bool | float | text | map | list => exact (readText_follows.map PortRef.name).accepts path _
  skipsNull path v v' h := absurd h (not_omits_of_isScalar trivial)

@[simp] theorem readRouteTls_follows : Follows readRouteTls routeTls :=
  follows_record_one (by simp [FieldsFollow, routeTlsFields]) rfl (by simp [routeTlsFields])

theorem routeFields_follow : FieldsFollow routeFields route := by
  simp [FieldsFollow, routeFields, route]

/-! ### Build configurations -/

theorem gitFields_follow : FieldsFollow gitFields [("uri", .text), ("ref", .text)] := by
  simp [FieldsFollow, gitFields]

/-- The address of a repository is an entry of the repository, and goes into the source. -/
theorem buildSourceFields_fill : ∀ field ∈ buildSourceFields, field.Fills (·.gitUri) "git" ["uri"] := by
  rw [buildSourceFields, List.forall_mem_cons, List.forall_mem_singleton]
  constructor
  · intro path value s s' hread
    have huri := readFields_fills (·.gitUri) "uri" [] (readRecord_eq_ok hread) (by simp [gitFields])
    rw [huri, eq_self_iff_true, true_and]
  · intro path value s s' hread
    obtain ⟨t, -, rfl⟩ := Field.of_read_eq_ok hread
    simp

@[simp] theorem readBuildSource_follows : Follows readBuildSource buildSource := by
  refine follows_record_one ?_ rfl buildSourceFields_fill
  simp only [FieldsFollow, buildSourceFields, List.forall₂_cons, Field.of_key, List.Forall₂.nil, Field.of_follows,
    readText_follows, and_self, and_true, true_and]
  exact fun s => readRecord_follows gitFields_follow

theorem readStrategyType_eq_ok_iff {path : FieldPath} {v : Value} {type : StrategyType} :
    readStrategyType path v = .ok type ↔
      ∃ text, v.scalarText? = some text ∧ StrategyType.ofName? text = some type := by
  simp only [readStrategyType, bind_eq_ok_iff, readText_eq_ok_iff]
  refine exists_congr fun text => and_congr_right fun _ => ?_
  cases StrategyType.ofName? text <;> simp [pure_eq_ok_iff]

@[simp] theorem readStrategyType_follows : Follows readStrategyType (.word ["Docker", "Source"]) :=
  follows_word fun _ _ _ => readStrategyType_eq_ok_iff

@[simp] theorem readBuildStrategy_follows : Follows readBuildStrategy buildStrategy :=
  follows_record_one (by simp [FieldsFollow, buildStrategyFields]) rfl (by simp [buildStrategyFields])

@[simp] theorem readOutput_follows : Follows (readRecord outputFields none) (.record [("to", .text)] []) :=
  readRecord_follows (by simp [FieldsFollow, outputFields])

theorem buildConfigFields_follow : FieldsFollow buildConfigFields buildConfig := by
  simp [FieldsFollow, buildConfigFields, buildConfig]

end Manifests.Extraction
