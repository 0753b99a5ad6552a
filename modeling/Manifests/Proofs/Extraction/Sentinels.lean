import Manifests.Proofs.Extraction.References
import Manifests.Proofs.Rendering.Numbers

/-! # Where `-1` is read as none

Two fields take numbers that no rule bounds: a weight, and the status of an abort. A weight of `-1` is read as none, so
that no record has it (`Declaration.extract_weights`). The status of an abort is a plain number: each that a virtual
service declares is read as it is (`Declaration.extract_abortStatuses`). -/

namespace Manifests

open Extraction

/-! ### Weights and statuses -/

def HttpRoute.weights (h : HttpRoute) : List Int64 := h.route.flatMap (·.weight.toList)

/-- The status that requests are aborted with. -/
def HttpRoute.abortStatus? (h : HttpRoute) : Option Int64 := (h.fault.bind (·.abort)).map (·.httpStatus)

namespace Spec

/-- The shares that a specification gives out. -/
def weights : Spec → List Int64
  | .virtualService v => v.http.flatMap (·.weights)
  | .route r => (r.target.bind (·.weight)).toList
  | .gateway _ | .service _ | .deployment _ | .buildConfig _ => []

/-- The statuses that requests are aborted with. -/
def abortStatuses : Spec → List Int64
  | .virtualService v => v.http.flatMap (·.abortStatus?.toList)
  | .gateway _ | .service _ | .deployment _ | .route _ | .buildConfig _ => []

end Spec

namespace Extraction

/-! ### Weights -/

theorem readOptionalInt_ne_sentinel {path : FieldPath} {value : Value} {n : Option Int64}
    (h : readOptionalInt path value = .ok n) : n ≠ some (-1) := by
  obtain ⟨i, -, h⟩ := bind_eq_ok_iff.mp h
  obtain rfl := pure_eq_ok_iff.mp h
  by_cases hi : i = -1 <;> simp [hi]

/-- Reading the field keeps what holds of the record. -/
def Field.Preserves {σ : Type} (P : σ → Prop) (field : Field σ) : Prop :=
  ∀ path value s s', field.read path value s = .ok s' → P s → P s'

theorem Field.preserves_of {σ α : Type} {P : σ → Prop} {key : String} {read : Reader α} {put : α → σ → σ}
    (h : ∀ path value a s, read path value = .ok a → P s → P (put a s)) : (Field.of key read put).Preserves P := by
  intro path value s s' hread hs
  obtain ⟨a, ha, rfl⟩ := of_read_eq_ok hread
  exact h path value a s ha hs

theorem readFields_preserves {σ : Type} {P : σ → Prop} {fields : List (Field σ)} {path : FieldPath}
    {entries : List Entry} {s s' : σ} (h : readFields fields path entries s = .ok s') (hs : P s)
    (hfields : ∀ field ∈ fields, field.Preserves P) : P s' :=
  readFields_induction (P := fun _ => P) h hs fun field hfield path value _ s s' _ hread =>
    hfields field hfield path value s s' hread

theorem readWeightedDestination_weight {value : Value} {w : WeightedDestination}
    (h : Reads readWeightedDestination value w) : w.weight ≠ some (-1) := by
  obtain ⟨path, h⟩ := h
  obtain ⟨draft, hdraft, h⟩ := bind_eq_ok_iff.mp h
  obtain ⟨d, -, h⟩ := bind_eq_ok_iff.mp h
  obtain rfl := pure_eq_ok_iff.mp h
  refine readFields_preserves (P := fun s => s.weight ≠ some (-1)) (readRecord_eq_ok hdraft) nofun ?_
  rw [weightedDestinationFields, List.forall_mem_cons, List.forall_mem_singleton]
  exact ⟨Field.preserves_of fun _ _ _ _ _ hs => hs,
    Field.preserves_of fun _ _ _ _ hread _ => readOptionalInt_ne_sentinel hread⟩

theorem readRouteTarget_weight {value : Value} {t : RouteTarget} (h : Reads readRouteTarget value t) :
    t.weight ≠ some (-1) := by
  obtain ⟨path, h⟩ := h
  refine readFields_preserves (P := fun s => s.weight ≠ some (-1)) (readRecord_eq_ok h) nofun ?_
  rw [routeTargetFields, List.forall_mem_cons, List.forall_mem_cons, List.forall_mem_singleton]
  exact ⟨Field.preserves_of fun _ _ _ _ _ hs => hs, Field.preserves_of fun _ _ _ _ _ hs => hs,
    Field.preserves_of fun _ _ _ _ hread _ => readOptionalInt_ne_sentinel hread⟩

theorem readHttpRoute_weights {value : Value} {h : HttpRoute} (hread : Reads readHttpRoute value h) :
    -1 ∉ h.weights := by
  intro hmem
  obtain ⟨w, hw, hweight⟩ := List.mem_flatMap.mp hmem
  obtain ⟨item, -, hitem⟩ := exists_mem_left_of_forall₂ (readHttpRoute_eq_ok hread).1 hw
  exact readWeightedDestination_weight hitem (Option.mem_toList.mp hweight)

/-! ### Statuses -/

theorem reads_readInt_iff {value : Value} {n : Int64} :
    Reads readInt value n ↔
      value = .int n ∨ ∃ s, value = .text s ∧ Number.readInt64? (Text.trim s.toList) = some n := by
  constructor
  · rintro ⟨path, h⟩
    cases value with
    | int i => exact .inl (congrArg Value.int (Except.ok.inj h))
    | text s =>
      rw [readInt] at h
      cases hs : Number.readInt64? (Text.trim s.toList) with
      | some i =>
        rw [hs] at h
        exact .inr ⟨s, rfl, hs.trans (congrArg some (Except.ok.inj h))⟩
      | none =>
        rw [hs] at h
        cases h
    | null | bool | float | map | list => cases h
  · rintro (rfl | ⟨s, rfl, hs⟩)
    · exact ⟨[], rfl⟩
    · exact ⟨[], by rw [readInt, hs]⟩

theorem reads_readInt_unique {value : Value} {a b : Int64} (ha : Reads readInt value a) (hb : Reads readInt value b) :
    a = b := by
  rw [reads_readInt_iff] at ha hb
  rcases ha with rfl | ⟨s, rfl, hs⟩
  · simpa using hb
  · simpa [hs] using hb

/-- The status that a route for HTTP requests declares for aborted requests. -/
def declaredAbortStatus? (item : Value) : Option Value := do
  let fault ← declared? "fault" item.entries
  let abort ← declared? "abort" fault.entries
  declared? "httpStatus" abort.entries

theorem readFaultAbort_eq_ok {value : Value} {a : FaultAbort} (h : Reads readFaultAbort value a) :
    Option.Rel (Reads readInt) (declared? "httpStatus" value.entries) (some a.httpStatus) := by
  obtain ⟨path, h⟩ := h
  obtain ⟨draft, hdraft, h⟩ := bind_eq_ok_iff.mp h
  obtain ⟨status, hstatus, h⟩ := bind_eq_ok_iff.mp h
  obtain rfl := pure_eq_ok_iff.mp h
  rw [← required_eq_ok hstatus]
  exact readFields_sets "httpStatus" readInt (·.httpStatus) (readRecord_eq_ok hdraft) rfl
    (by simp [faultAbortFields])

theorem readFaultInjection_eq_ok {value : Value} {f : FaultInjection} (h : Reads readFaultInjection value f) :
    Option.Rel (Reads readFaultAbort) (declared? "abort" value.entries) f.abort := by
  obtain ⟨path, h⟩ := h
  exact readFields_sets "abort" readFaultAbort (·.abort) (readRecord_eq_ok h) rfl (by simp [faultInjectionFields])

theorem readHttpRoute_abortStatus? {value : Value} {h : HttpRoute} (hread : Reads readHttpRoute value h) :
    Option.Rel (Reads readInt) (declaredAbortStatus? value) h.abortStatus? := by
  obtain ⟨path, hread⟩ := hread
  have hfault : Option.Rel (Reads readFaultInjection) (declared? "fault" value.entries) h.fault :=
    readFields_sets "fault" readFaultInjection (·.fault) (readRecord_eq_ok hread) rfl (by simp [httpRouteFields])
  rw [HttpRoute.abortStatus?, Option.map_eq_bind, Option.bind_assoc]
  refine option_rel_bind hfault fun fault f hf => option_rel_bind (readFaultInjection_eq_ok hf) fun abort a ha => ?_
  exact readFaultAbort_eq_ok ha

end Extraction

/-! ### Records -/

variable {d : Declaration} {record : Record}

/-- No weight of a record is `-1`. -/
theorem Declaration.extract_weights (h : d.extract = .ok record) : -1 ∉ record.spec.weights := by
  intro hmem
  have hkind : record.spec.kind = d.kind := extract_kind h
  cases hspec : record.spec with
  | virtualService v =>
    rw [hspec] at hkind hmem
    obtain ⟨v', hv, hread⟩ := extract_virtualService h hkind.symm
    obtain rfl := Spec.virtualService.inj (hspec.symm.trans hv)
    obtain ⟨route, hroute, hweight⟩ := List.mem_flatMap.mp hmem
    obtain ⟨item, -, hitem⟩ := exists_mem_left_of_forall₂ hread hroute
    exact readHttpRoute_weights hitem hweight
  | route r =>
    rw [hspec] at hkind hmem
    obtain ⟨r', hr, hread⟩ := extract_route h hkind.symm
    obtain rfl := Spec.route.inj (hspec.symm.trans hr)
    obtain ⟨target, htarget, hweight⟩ := Option.bind_eq_some_iff.mp (Option.mem_toList.mp hmem)
    rw [htarget] at hread
    obtain ⟨value, -, hvalue⟩ := option_rel_some_right_iff.mp hread
    exact readRouteTarget_weight hvalue hweight
  | gateway | service | deployment | buildConfig =>
    rw [hspec] at hmem
    cases hmem

/-- A virtual service declares an abort with the status, in one of its routes. -/
def Declaration.AbortsWith (d : Declaration) (status : Int64) : Prop :=
  d.kind = .virtualService ∧
    ∃ item ∈ declaredItems "http" d.entries, ∃ value ∈ declaredAbortStatus? item, Reads readInt value status

/-- The statuses of a record's aborts are those that are declared. -/
theorem Declaration.extract_abortStatuses (h : d.extract = .ok record) {status : Int64} :
    status ∈ record.spec.abortStatuses ↔ d.AbortsWith status := by
  have hkind : record.spec.kind = d.kind := extract_kind h
  cases hspec : record.spec with
  | virtualService v =>
    rw [hspec] at hkind
    obtain ⟨v', hv, hread⟩ := extract_virtualService h hkind.symm
    obtain rfl := Spec.virtualService.inj (hspec.symm.trans hv)
    simp only [Spec.abortStatuses, List.mem_flatMap, Option.mem_toList, AbortsWith, hkind.symm, Spec.kind, true_and]
    constructor
    · rintro ⟨route, hroute, hstatus⟩
      obtain ⟨item, hitem, hreads⟩ := exists_mem_left_of_forall₂ hread hroute
      have hrel := readHttpRoute_abortStatus? hreads
      rw [hstatus] at hrel
      obtain ⟨value, hvalue, hint⟩ := option_rel_some_right_iff.mp hrel
      exact ⟨item, hitem, value, hvalue, hint⟩
    · rintro ⟨item, hitem, value, hvalue, hint⟩
      obtain ⟨route, hroute, hreads⟩ := exists_mem_right_of_forall₂ hread hitem
      have hrel := readHttpRoute_abortStatus? hreads
      rw [hvalue] at hrel
      obtain ⟨status', hstatus, hint'⟩ := option_rel_some_left_iff.mp hrel
      exact ⟨route, hroute, reads_readInt_unique hint hint' ▸ hstatus⟩
  | gateway | service | deployment | route | buildConfig =>
    rw [hspec] at hkind
    simp [Spec.abortStatuses, AbortsWith, ← hkind, Spec.kind]

end Manifests
