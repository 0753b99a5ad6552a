import Manifests.Proofs.Extraction.Fields
import Manifests.Proofs.Extraction.Record

/-! # Which declared values references are read from

Where a virtual service or a route names a service, the host and the reference of the record are the texts that are
declared under these keys, and the destinations are those declared, in order. -/

namespace Manifests

open Extraction

namespace Extraction

theorem readDestination_eq_ok {value : Value} {d : Destination} (h : Reads readDestination value d) :
    d.host = declaredText? "host" value.entries ∧ d.serviceName = declaredText? "serviceName" value.entries := by
  obtain ⟨path, h⟩ := h
  have hfields := readRecord_eq_ok h
  constructor
  · exact readFields_text "host" (·.host) hfields rfl (by simp [destinationFields])
  · exact readFields_text "serviceName" (·.serviceName) hfields rfl (by simp [destinationFields])

theorem readWeightedDestination_eq_ok {value : Value} {w : WeightedDestination}
    (h : Reads readWeightedDestination value w) :
    ∃ destination, declared? "destination" value.entries = some destination ∧
      Reads readDestination destination w.destination := by
  obtain ⟨path, h⟩ := h
  obtain ⟨draft, hdraft, h⟩ := bind_eq_ok_iff.mp h
  obtain ⟨d, hd, h⟩ := bind_eq_ok_iff.mp h
  obtain rfl := pure_eq_ok_iff.mp h
  have hrel := readFields_sets "destination" readDestination (·.destination) (readRecord_eq_ok hdraft) rfl
    (by simp [weightedDestinationFields])
  rw [required_eq_ok hd] at hrel
  generalize declared? "destination" value.entries = declared at hrel ⊢
  cases hrel with
  | some hread => exact ⟨_, rfl, hread⟩

theorem readHttpRoute_eq_ok {value : Value} {h : HttpRoute} (hread : Reads readHttpRoute value h) :
    List.Forall₂ (Reads readWeightedDestination) (declaredItems "route" value.entries) h.route ∧
      Option.Rel (Reads readDestination) (declared? "mirror" value.entries) h.mirror := by
  obtain ⟨path, hread⟩ := hread
  have hfields := readRecord_eq_ok hread
  constructor
  · exact readFields_adds "route" readWeightedDestination (·.route) hfields rfl (by simp [httpRouteFields])
  · exact readFields_sets "mirror" readDestination (·.mirror) hfields rfl (by simp [httpRouteFields])

theorem readVirtualService_eq_ok {entries : List Entry} {v : VirtualService}
    (h : readVirtualService entries = .ok v) :
    List.Forall₂ (Reads readHttpRoute) (declaredItems "http" entries) v.http :=
  readFields_adds "http" readHttpRoute (·.http) h rfl (by simp [virtualServiceFields])

theorem readRouteTarget_eq_ok {value : Value} {t : RouteTarget} (h : Reads readRouteTarget value t) :
    t.name = declaredText? "name" value.entries ∧ t.serviceName = declaredText? "serviceName" value.entries := by
  obtain ⟨path, h⟩ := h
  have hfields := readRecord_eq_ok h
  constructor
  · exact readFields_text "name" (·.name) hfields rfl (by simp [routeTargetFields])
  · exact readFields_text "serviceName" (·.serviceName) hfields rfl (by simp [routeTargetFields])

theorem readRoute_eq_ok {entries : List Entry} {r : Route} (h : readRoute entries = .ok r) :
    Option.Rel (Reads readRouteTarget) (declared? "to" entries) r.target :=
  readFields_sets "to" readRouteTarget (·.target) h rfl (by simp [routeFields])

end Extraction

section
variable {d : Declaration} {record : Record}

/-- The fields of a kind are read from the entries that are no metadata. -/
theorem Declaration.extract_spec (h : d.extract = .ok record) :
    readSpec d.kind (d.entries.filter fun entry => !isMetadata entry) = .ok record.spec := by
  obtain ⟨m, id, spec, -, -, hspec, rfl⟩ := extractAs_eq_ok h
  exact hspec

theorem Declaration.extract_virtualService (h : d.extract = .ok record) (hkind : d.kind = .virtualService) :
    ∃ v, record.spec = .virtualService v ∧
      List.Forall₂ (Reads readHttpRoute) (declaredItems "http" d.entries) v.http := by
  have hspec := extract_spec h
  rw [hkind] at hspec
  obtain ⟨v, hv, heq⟩ := map_eq_ok_iff.mp hspec
  have hhttp := readVirtualService_eq_ok hv
  rw [declaredItems, declared_filter (by simp [isMetadata, metadataFields])] at hhttp
  exact ⟨v, heq.symm, hhttp⟩

theorem Declaration.extract_route (h : d.extract = .ok record) (hkind : d.kind = .route) :
    ∃ r, record.spec = .route r ∧ Option.Rel (Reads readRouteTarget) (declared? "to" d.entries) r.target := by
  have hspec := extract_spec h
  rw [hkind] at hspec
  obtain ⟨r, hr, heq⟩ := map_eq_ok_iff.mp hspec
  have htarget := readRoute_eq_ok hr
  rw [declared?, declared_filter (by simp [isMetadata, metadataFields])] at htarget
  exact ⟨r, heq.symm, htarget⟩

end

end Manifests
