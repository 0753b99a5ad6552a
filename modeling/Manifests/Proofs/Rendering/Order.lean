import Manifests.Proofs.Rendering.HttpRoutes
import Manifests.Proofs.Rendering.Layout
import Manifests.Proofs.Rendering.Slots
import Manifests.Proofs.Rendering.Workload

/-! # Manifests are laid out by kind

Each part of a record is rendered as a row of slots, and its layout has the keys of that row. So what is rendered stands
in the order of the layout, whatever slots are filled, and an empty part fills no slot. One lemma for each part leads up
to the manifest. -/

namespace Manifests

open Rendering

namespace Layout

/-! ### Entries of a record -/

/-- Entries stand in the order of the fields, and their values are laid out as the fields are. -/
structure EntriesFit (fields : List (String × Layout)) (entries : List Entry) : Prop where
  keys : (entries.map (·.1)).Sublist (fields.map (·.1))
  values : ∀ e ∈ entries, ∀ layout, fields.lookup e.1 = some layout → layout.Fits e.2

/-- What stands in a slot, if it is filled, is laid out like this. -/
def FitsSlot (layout : Layout) (slot : Option Value) : Prop := ∀ v ∈ slot, layout.Fits v

/-- A row of slots gives entries in its order. -/
theorem entriesFit_filled {slots : List (String × Option Value)} {fields : List (String × Layout)}
    (hdistinct : (fields.map (·.1)).Nodup)
    (h : List.Forall₂ (fun slot field => slot.1 = field.1 ∧ field.2.FitsSlot slot.2) slots fields) :
    EntriesFit fields (filled slots) := by
  induction h with
  | nil => exact ⟨.slnil, nofun⟩
  | @cons slot field slots fields hslot _ ih =>
    obtain ⟨key, value⟩ := slot
    obtain ⟨own, layout⟩ := field
    obtain ⟨rfl, hvalue⟩ : key = own ∧ layout.FitsSlot value := hslot
    obtain ⟨hnew, hrest⟩ := List.nodup_cons.mp hdistinct
    obtain ⟨hkeys, hvalues⟩ := ih hrest
    -- The key of this slot is none of those after it.
    have htail : ∀ e ∈ filled slots, ∀ layout', ((key, layout) :: fields).lookup e.1 = some layout' →
        layout'.Fits e.2 := by
      intro e he layout' hlookup
      have hne : e.1 ≠ key := fun heq => hnew (heq ▸ hkeys.subset (List.mem_map_of_mem he))
      rw [List.lookup_cons, beq_false_of_ne hne] at hlookup
      exact hvalues e he layout' hlookup
    cases value with
    | none => exact ⟨hkeys.cons key, htail⟩
    | some v =>
      refine ⟨hkeys.cons_cons key, List.forall_mem_cons.mpr ⟨fun layout' hlookup => ?_, htail⟩⟩
      rw [List.lookup_cons_self] at hlookup
      exact Option.some.inj hlookup ▸ hvalue v rfl

/-! ### Slots -/

@[simp] theorem fits_text (text : String) : scalar.Fits (.text text) := .scalar rfl

@[simp] theorem fits_int (n : Int64) : scalar.Fits (.int n) := .scalar rfl

@[simp] theorem fits_bool (b : Bool) : scalar.Fits (.bool b) := .scalar rfl

@[simp] theorem fitsSlot_none (layout : Layout) : layout.FitsSlot none := nofun

@[simp] theorem fitsSlot_some {layout : Layout} {v : Value} : layout.FitsSlot (some v) ↔ layout.Fits v := by
  simp [FitsSlot]

@[simp] theorem fitsSlot_map {α : Type} {layout : Layout} {value : α → Value} {part : Option α}
    (h : ∀ a, layout.Fits (value a)) : layout.FitsSlot (part.map value) := by
  cases part <;> simp [h]

@[simp] theorem fitsSlot_bind {α : Type} {layout : Layout} {slot : α → Option Value} {part : Option α}
    (h : ∀ a, layout.FitsSlot (slot a)) : layout.FitsSlot (part.bind slot) := by
  cases part <;> simp [h]

@[simp] theorem fitsSlot_ite {layout : Layout} {c : Prop} [Decidable c] {slot : Option Value}
    (h : layout.FitsSlot slot) : layout.FitsSlot (if c then slot else none) := by
  split
  · exact h
  · exact fitsSlot_none layout

@[simp] theorem fitsSlot_shown {fields : List (String × Layout)} {entries : List Entry}
    (h : EntriesFit fields entries) : (record fields).FitsSlot (shown entries) := by
  intro v hv
  obtain ⟨hne, rfl⟩ := shown_eq_some_iff.mp hv
  exact .record hne h.keys h.values

theorem fitsSlot_shownList {item : Layout} {items : List Value} (h : ∀ v ∈ items, item.Fits v) :
    (list item).FitsSlot (shownList items) := by
  intro v hv
  obtain ⟨hne, rfl⟩ := shownList_eq_some_iff.mp hv
  exact .list hne h

@[simp] theorem fitsSlot_texts (texts : List String) : (list scalar).FitsSlot (shownList (texts.map .text)) :=
  fitsSlot_shownList (List.forall_mem_map.mpr fun text _ => fits_text text)

@[simp] theorem fitsSlot_mappings {α : Type} {item : Layout} {parts : List α} {entries : α → List Entry}
    (h : ∀ a, item.FitsSlot (shown (entries a))) :
    (list item).FitsSlot (shownList (parts.filterMap fun a => shown (entries a))) := by
  refine fitsSlot_shownList fun v hv => ?_
  obtain ⟨a, -, ha⟩ := List.mem_filterMap.mp hv
  exact h a v ha

theorem fitsSlot_table {α : Type} {value : Layout} {valueOf : α → Value} (m : TextMap α)
    (h : ∀ a, value.Fits (valueOf a)) :
    (table value).FitsSlot (shown (m.entries.map fun entry => (entry.1, valueOf entry.2))) := by
  intro v hv
  obtain ⟨hne, rfl⟩ := shown_eq_some_iff.mp hv
  refine .table hne ?_ (List.forall_mem_map.mpr fun entry _ => h entry.2)
  rw [List.map_map]
  exact m.inByteOrder

@[simp] theorem fitsSlot_textMap (m : TextMap String) :
    (table scalar).FitsSlot (shown (m.entries.map fun entry => (entry.1, .text entry.2))) :=
  fitsSlot_table m fits_text

theorem fitsSlot_environment (m : TextMap String) :
    environment.FitsSlot (shownList (m.entries.filterMap fun entry => shown (renderEnv entry))) := by
  have hvars : m.entries.filterMap (fun entry => shown (renderEnv entry)) =
      m.entries.map fun entry => .map [("name", .text entry.1), ("value", .text entry.2)] := by
    rw [← List.filterMap_eq_map]
    rfl
  intro v hv
  obtain ⟨hne, rfl⟩ := shownList_eq_some_iff.mp hv
  rw [hvars] at hne ⊢
  exact .environment (by simpa using hne) m.inByteOrder

/-! ### Parts with one slot -/

section
variable (key : String)

theorem entriesFit_single {layout : Layout} {slot : Option Value} (h : layout.FitsSlot slot) :
    EntriesFit [(key, layout)] (filled [(key, slot)]) :=
  entriesFit_filled (by simp) (by simp [h])

@[simp] theorem textEntry_fits (text : String) : EntriesFit [(key, .scalar)] (textEntry key text) :=
  entriesFit_single key (fitsSlot_some.mpr (fits_text text))

@[simp] theorem intEntry_fits (n : Int64) : EntriesFit [(key, .scalar)] (intEntry key n) :=
  entriesFit_single key (fitsSlot_some.mpr (fits_int n))

@[simp] theorem textMap_fits (m : TextMap String) : EntriesFit [(key, .table .scalar)] (textMap key m) := by
  rw [textMap_filled]
  exact entriesFit_single key (by simp)

@[simp] theorem mappings_fits {α : Type} {item : Layout} {parts : List α} {entries : α → List Entry}
    (h : ∀ a, item.FitsSlot (shown (entries a))) : EntriesFit [(key, .list item)] (mappings key parts entries) := by
  rw [mappings_filled]
  exact entriesFit_single key (fitsSlot_mappings h)

end

end Layout

open Layout

/-! ### Gateways -/

@[simp] theorem ServerPort.render_fits (p : ServerPort) : EntriesFit Layout.serverPort p.render := by
  rw [render_filled]
  exact entriesFit_filled (by decide) (by simp [Layout.serverPort])

@[simp] theorem ServerTls.render_fits (t : ServerTls) : EntriesFit Layout.serverTls t.render := by
  rw [render_filled]
  exact entriesFit_filled (by decide) (by simp [Layout.serverTls])

@[simp] theorem Server.render_fits (s : Server) : EntriesFit Layout.server s.render := by
  rw [render_filled]
  exact entriesFit_filled (by decide) (by simp [Layout.server])

theorem Gateway.render_fits (g : Gateway) : EntriesFit Layout.gateway g.render := by
  rw [render_filled]
  exact entriesFit_filled (by decide) (by simp [Layout.gateway, Layout.texts])

/-! ### Virtual services -/

@[simp] theorem StringMatch.render_fits (m : StringMatch) : EntriesFit Layout.condition m.render := by
  have hrow : ∃ exact start regex : Option String, m.render = filled
      [("exact", exact.map .text), ("prefix", start.map .text), ("regex", regex.map .text)] := by
    cases m with
    | exact s => exact ⟨some s, none, none, rfl⟩
    | start s => exact ⟨none, some s, none, rfl⟩
    | regex s => exact ⟨none, none, some s, rfl⟩
  obtain ⟨exact, start, regex, hrow⟩ := hrow
  rw [hrow]
  exact entriesFit_filled (by decide) (by simp [Layout.condition])

theorem fitsSlot_headers (m : TextMap StringMatch) :
    (table (.record Layout.condition)).FitsSlot
      (shown (m.entries.flatMap fun entry => mapping entry.1 entry.2.render)) := by
  rw [StringMatch.flatMap_mapping]
  refine @fitsSlot_table _ _ (fun s => .map s.render) m fun s => ?_
  have h := StringMatch.render_fits s
  exact .record (StringMatch.render_ne_nil s) h.keys h.values

@[simp] theorem MatchRequest.render_fits (m : MatchRequest) : EntriesFit Layout.matchRequest m.render := by
  rw [render_filled]
  exact entriesFit_filled (by decide) (by simp [Layout.matchRequest, fitsSlot_headers])

@[simp] theorem Destination.render_fits (d : Destination) : EntriesFit Layout.destination d.render := by
  rw [render_filled]
  exact entriesFit_filled (by decide) (by simp [Layout.destination])

@[simp] theorem WeightedDestination.render_fits (w : WeightedDestination) :
    EntriesFit Layout.weightedDestination w.render := by
  rw [render_filled]
  exact entriesFit_filled (by decide) (by simp [Layout.weightedDestination])

@[simp] theorem AddressParts.render_fits (a : AddressParts) : EntriesFit Layout.addressParts a.render := by
  rw [render_filled]
  exact entriesFit_filled (by decide) (by simp [Layout.addressParts])

@[simp] theorem Retries.render_fits (r : Retries) : EntriesFit Layout.retries r.render := by
  rw [render_filled]
  exact entriesFit_filled (by decide) (by simp [Layout.retries])

@[simp] theorem FaultDelay.render_fits (d : FaultDelay) : EntriesFit Layout.faultDelay d.render := by
  rw [render_filled]
  exact entriesFit_filled (by decide) (by simp [Layout.faultDelay])

@[simp] theorem FaultAbort.render_fits (a : FaultAbort) : EntriesFit Layout.faultAbort a.render := by
  rw [render_filled]
  exact entriesFit_filled (by decide) (by simp [Layout.faultAbort])

@[simp] theorem FaultInjection.render_fits (f : FaultInjection) : EntriesFit Layout.faultInjection f.render := by
  rw [render_filled]
  exact entriesFit_filled (by decide) (by simp [Layout.faultInjection])

@[simp] theorem CorsPolicy.render_fits (c : CorsPolicy) : EntriesFit Layout.corsPolicy c.render := by
  rw [render_filled]
  exact entriesFit_filled (by decide) (by simp [Layout.corsPolicy])

@[simp] theorem HttpRoute.render_fits (h : HttpRoute) : EntriesFit Layout.httpRoute h.render := by
  rw [render_filled]
  exact entriesFit_filled (by decide) (by simp [Layout.httpRoute, Layout.texts])

theorem VirtualService.render_fits (v : VirtualService) : EntriesFit Layout.virtualService v.render := by
  rw [render_filled]
  exact entriesFit_filled (by decide) (by simp [Layout.virtualService])

/-! ### Services and deployments -/

@[simp] theorem ServicePort.render_fits (p : ServicePort) : EntriesFit Layout.servicePort p.render := by
  rw [render_filled]
  exact entriesFit_filled (by decide) (by simp [Layout.servicePort])

theorem Service.render_fits (s : Service) : EntriesFit Layout.service s.render := by
  rw [render_filled]
  exact entriesFit_filled (by decide) (by simp [Layout.service, Layout.texts])

@[simp] theorem ContainerPort.render_fits (p : ContainerPort) : EntriesFit Layout.containerPort p.render := by
  rw [render_filled]
  exact entriesFit_filled (by decide) (by simp [Layout.containerPort])

@[simp] theorem Container.render_fits (c : Container) : EntriesFit Layout.container c.render := by
  rw [render_filled]
  exact entriesFit_filled (by decide) (by simp [Layout.container, fitsSlot_environment])

@[simp] theorem Deployment.renderTemplate_fits (d : Deployment) : EntriesFit Layout.template d.renderTemplate := by
  have hcontainers : EntriesFit [("containers", .list (.record Layout.container))]
      (mappings "containers" d.containers Container.render) := mappings_fits "containers" (by simp)
  rw [renderTemplate_filled]
  exact entriesFit_filled (by decide) (by simp [Layout.template, Layout.texts, hcontainers])

theorem Deployment.render_fits (d : Deployment) : EntriesFit Layout.deployment d.render := by
  rw [render_filled]
  exact entriesFit_filled (by decide) (by simp [Layout.deployment, Layout.texts])

/-! ### Routes -/

@[simp] theorem RouteTarget.render_fits (t : RouteTarget) : EntriesFit Layout.routeTarget t.render := by
  rw [render_filled]
  exact entriesFit_filled (by decide) (by simp [Layout.routeTarget])

@[simp] theorem PortRef.render_fits (p : PortRef) : EntriesFit [("targetPort", .scalar)] p.render := by
  cases p <;> simp [PortRef.render]

@[simp] theorem RouteTls.render_fits (t : RouteTls) : EntriesFit Layout.routeTls t.render := by
  rw [render_filled]
  exact entriesFit_filled (by decide) (by simp [Layout.routeTls])

theorem Route.render_fits (r : Route) : EntriesFit Layout.route r.render := by
  rw [render_filled]
  exact entriesFit_filled (by decide) (by simp [Layout.route])

/-! ### Build configurations -/

@[simp] theorem BuildSource.render_fits (s : BuildSource) : EntriesFit Layout.buildSource s.render := by
  have hgit : EntriesFit [("uri", .scalar), ("ref", .scalar)]
      (filled [("uri", some (.text s.gitUri)), ("ref", s.gitRef.map .text)]) :=
    entriesFit_filled (by decide) (by simp)
  rw [render_filled]
  exact entriesFit_filled (by decide) (by simp [Layout.buildSource, hgit])

@[simp] theorem renderBase_fits (image : String) : EntriesFit Layout.image (renderBase image) := by
  rw [renderBase_filled]
  exact entriesFit_filled (by decide) (by simp [Layout.image])

@[simp] theorem renderOutput_fits (image : String) :
    EntriesFit [("to", .record Layout.image)] (renderOutput image) := by
  have himage : EntriesFit Layout.image
      (filled [("kind", some (.text "ImageStreamTag")), ("name", some (.text image))]) :=
    entriesFit_filled (by decide) (by simp [Layout.image])
  rw [renderOutput_filled]
  exact entriesFit_single "to" (fitsSlot_shown himage)

@[simp] theorem BuildStrategy.details_fits (s : BuildStrategy) : EntriesFit Layout.strategyDetails s.details :=
  entriesFit_filled (by decide) (by simp [Layout.strategyDetails])

@[simp] theorem BuildStrategy.render_fits (s : BuildStrategy) : EntriesFit Layout.buildStrategy s.render := by
  rw [render_filled]
  exact entriesFit_filled (by decide) (by simp [Layout.buildStrategy])

theorem BuildConfig.render_fits (b : BuildConfig) : EntriesFit Layout.buildConfig b.render := by
  rw [render_filled]
  exact entriesFit_filled (by decide) (by simp [Layout.buildConfig])

/-! ### Records -/

@[simp] theorem Record.renderMetadata_fits (r : Record) : EntriesFit Layout.metadata r.renderMetadata := by
  rw [renderMetadata_filled]
  exact entriesFit_filled (by decide) (by simp [Layout.metadata, Layout.texts])

theorem Spec.render_fits (s : Spec) : EntriesFit s.kind.specLayout s.render := by
  cases s with
  | gateway g => exact g.render_fits
  | virtualService v => exact v.render_fits
  | service s => exact s.render_fits
  | deployment d => exact d.render_fits
  | route r => exact r.render_fits
  | buildConfig b => exact b.render_fits

theorem Spec.render_ne_nil {s : Spec} (h : s.Lawful) : s.render ≠ [] := by
  cases s with
  | gateway g => exact Gateway.render_ne_nil h
  | virtualService v => exact VirtualService.render_ne_nil h
  | service s => exact Service.render_ne_nil h
  | deployment d => exact Deployment.render_ne_nil h
  | route r => exact Route.render_ne_nil h
  | buildConfig b => exact BuildConfig.render_ne_nil h

theorem Record.renderEntries_fits (r : Record) : EntriesFit r.kind.manifestLayout r.renderEntries := by
  have hspec : EntriesFit r.kind.specLayout r.spec.render := r.spec.render_fits
  rw [renderEntries_filled]
  exact entriesFit_filled (by simp [Kind.manifestLayout]) (by simp [Kind.manifestLayout, hspec])

/-- The manifest of a valid record is laid out as its kind says, whatever the record holds: the keys of each record in
    it stand in one order, and keys chosen by the declarer in the order of their bytes. Nothing in it is null or empty,
    and it has all four parts. -/
theorem ValidRecord.render_layout (r : ValidRecord) :
    r.record.kind.layout.Fits r.record.render ∧ r.record.render.Full ∧
      r.record.render.entries.map (·.1) = ["apiVersion", "kind", "metadata", "spec"] := by
  have hentries := r.record.renderEntries_fits
  have hfits : r.record.kind.layout.Fits r.record.render :=
    .record (by simp [Record.renderEntries, textEntry]) hentries.keys hentries.values
  have hkeys : r.record.renderEntries.map (·.1) = ["apiVersion", "kind", "metadata", "spec"] := by
    have hmetadata : r.record.renderMetadata ≠ [] := by simp [Record.renderMetadata, textEntry]
    have hspec : r.record.spec.render ≠ [] := Spec.render_ne_nil (Record.valid_iff.mp r.valid).2
    rw [Record.renderEntries_filled, shown_of_ne_nil hmetadata, shown_of_ne_nil hspec]
    rfl
  exact ⟨hfits, hfits.full, hkeys⟩

end Manifests
