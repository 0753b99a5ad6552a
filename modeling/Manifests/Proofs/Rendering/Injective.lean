import Manifests.Proofs.Rendering.Rules
import Manifests.Proofs.Rendering.Slots

/-! # What can be told from a manifest

The keys of a row are distinct, so the entries of a row tell which slots are filled and with what (`filled_inj`). What
fills a slot tells the part in turn, unless it is left out for being empty; a part that always fills a slot of its own
is never empty. So gateways, services, deployments and routes can be told from their manifests, all but the reference
of a route. -/

namespace Manifests

namespace Rendering

/-! ### Rows -/

theorem mem_keys_of_mem_filled {slots : List (String × Option Value)} {e : Entry} (h : e ∈ filled slots) :
    e.1 ∈ slots.map (·.1) := by
  obtain ⟨slot, hslot, hvalue⟩ := List.mem_filterMap.mp h
  obtain ⟨v, -, rfl⟩ := Option.map_eq_some_iff.mp hvalue
  exact List.mem_map_of_mem hslot

/-- Rows with the same keys are the same if their entries are. -/
theorem filled_inj {slots slots' : List (String × Option Value)} (hkeys : slots.map (·.1) = slots'.map (·.1))
    (hdistinct : (slots.map (·.1)).Nodup) : filled slots = filled slots' ↔ slots = slots' := by
  refine ⟨fun h => ?_, congrArg filled⟩
  induction slots generalizing slots' with
  | nil => exact (List.map_eq_nil_iff.mp hkeys.symm).symm
  | cons slot slots ih =>
    cases slots' with
    | nil => cases hkeys
    | cons slot' slots' =>
      obtain ⟨key, value⟩ := slot
      obtain ⟨key', value'⟩ := slot'
      obtain ⟨rfl, hrest⟩ : key = key' ∧ slots.map (·.1) = slots'.map (·.1) := List.cons.inj hkeys
      obtain ⟨hnew, hdistinct'⟩ := List.nodup_cons.mp hdistinct
      -- An entry with this key comes from this slot only.
      have habsent (slots₁ : List (String × Option Value)) (hslots : slots₁.map (·.1) = slots.map (·.1)) (v : Value)
          (es : List Entry) : filled slots₁ ≠ (key, v) :: es := fun heq => by
        have hmem : (key, v) ∈ filled slots₁ := heq ▸ List.mem_cons_self
        exact hnew (hslots ▸ mem_keys_of_mem_filled hmem)
      cases value with
      | none =>
        cases value' with
        | none => rw [ih hrest hdistinct' h]
        | some v => exact absurd h (habsent slots rfl v _)
      | some v =>
        cases value' with
        | none => exact absurd h.symm (habsent slots' hrest.symm v _)
        | some v' =>
          obtain ⟨hentry, htail⟩ := List.cons.inj h
          rw [(Prod.mk.inj hentry).2, ih hrest hdistinct' htail]

/-! ### Slots -/

@[simp] theorem map_text_inj {text text' : Option String} : text.map Value.text = text'.map Value.text ↔ text = text' :=
  (Option.map_injective fun _ _ => Value.text.inj).eq_iff

@[simp] theorem map_int_inj {n n' : Option Int64} : n.map Value.int = n'.map Value.int ↔ n = n' :=
  (Option.map_injective fun _ _ => Value.int.inj).eq_iff

@[simp] theorem map_bool_inj {b b' : Option Bool} : b.map Value.bool = b'.map Value.bool ↔ b = b' :=
  (Option.map_injective fun _ _ => Value.bool.inj).eq_iff

@[simp] theorem shown_inj {entries entries' : List Entry} : shown entries = shown entries' ↔ entries = entries' := by
  cases entries <;> cases entries' <;> simp [shown]

@[simp] theorem shownList_inj {items items' : List Value} : shownList items = shownList items' ↔ items = items' := by
  cases items <;> cases items' <;> simp [shownList]

@[simp] theorem texts_inj {texts texts' : List String} :
    texts.map Value.text = texts'.map Value.text ↔ texts = texts' :=
  (List.map_injective_iff.mpr fun _ _ => Value.text.inj).eq_iff

theorem textMap_eq_iff {α : Type} {m m' : TextMap α} : m = m' ↔ m.entries = m'.entries := by
  cases m; cases m'
  simp

@[simp] theorem textMap_inj {m m' : TextMap String} :
    (m.entries.map fun entry => (entry.1, Value.text entry.2)) =
      m'.entries.map (fun entry => (entry.1, .text entry.2)) ↔ m = m' := by
  have hentry : Function.Injective fun entry : String × String => (entry.1, Value.text entry.2) := by
    rintro ⟨key, text⟩ ⟨key', text'⟩ h
    simpa using h
  rw [(List.map_injective_iff.mpr hentry).eq_iff, textMap_eq_iff]

section
variable {α β : Type} {entries : α → List Entry} {g : α → β}

/-- A part that is never empty can be told as far as `g` keeps it, if its entries tell as much. -/
theorem bind_shown_eq_iff (hne : ∀ a, entries a ≠ []) (h : ∀ a a', entries a = entries a' ↔ g a = g a')
    {part part' : Option α} :
    (part.bind fun a => shown (entries a)) = (part'.bind fun a => shown (entries a)) ↔ part.map g = part'.map g := by
  cases part <;> cases part' <;> simp [shown_of_ne_nil (hne _), h]

theorem bind_shown_inj (hne : ∀ a, entries a ≠ []) (h : ∀ a a', entries a = entries a' ↔ a = a')
    {part part' : Option α} :
    (part.bind fun a => shown (entries a)) = (part'.bind fun a => shown (entries a)) ↔ part = part' := by
  simpa using @bind_shown_eq_iff α α entries id hne h part part'

theorem filterMap_shown_inj (hne : ∀ a, entries a ≠ []) (h : ∀ a a', entries a = entries a' ↔ a = a')
    {parts parts' : List α} :
    (parts.filterMap fun a => shown (entries a)) = parts'.filterMap (fun a => shown (entries a)) ↔ parts = parts' := by
  have hmap (parts : List α) : parts.filterMap (fun a => shown (entries a)) = parts.map fun a => .map (entries a) := by
    rw [← List.filterMap_eq_map]
    exact List.filterMap_congr fun a _ => shown_of_ne_nil (hne a)
  have hpart : Function.Injective fun a => Value.map (entries a) := fun a a' heq => (h a a').mp (Value.map.inj heq)
  rw [hmap, hmap, (List.map_injective_iff.mpr hpart).eq_iff]

end

end Rendering

open Rendering

/-! ### Gateways -/

@[simp] theorem ServerPort.render_inj {p p' : ServerPort} : p.render = p'.render ↔ p = p' := by
  cases p; cases p'
  simp [ServerPort.render_filled, filled_inj]

@[simp] theorem TlsMode.name_inj {mode mode' : TlsMode} : mode.name = mode'.name ↔ mode = mode' :=
  ⟨TlsMode.name_injective, congrArg TlsMode.name⟩

@[simp] theorem ServerTls.render_inj {t t' : ServerTls} : t.render = t'.render ↔ t = t' := by
  cases t; cases t'
  simp [ServerTls.render_filled, filled_inj, and_assoc, and_comm, and_left_comm]

theorem ServerTls.render_ne_nil (t : ServerTls) : t.render ≠ [] := by
  simp [ServerTls.render, textEntry]

@[simp] theorem Server.render_inj {s s' : Server} : s.render = s'.render ↔ s = s' := by
  cases s; cases s'
  simp [Server.render_filled, filled_inj, bind_shown_inj ServerTls.render_ne_nil fun _ _ => ServerTls.render_inj]

theorem Gateway.render_inj {g g' : Gateway} : g.render = g'.render ↔ g = g' := by
  cases g; cases g'
  simp [Gateway.render_filled, filled_inj, filterMap_shown_inj Server.render_ne_nil fun _ _ => Server.render_inj]

/-! ### Services -/

@[simp] theorem ServicePort.render_inj {p p' : ServicePort} : p.render = p'.render ↔ p = p' := by
  cases p; cases p'
  simp [ServicePort.render_filled, filled_inj]

theorem Service.render_inj {s s' : Service} : s.render = s'.render ↔ s = s' := by
  cases s; cases s'
  simp [Service.render_filled, filled_inj,
    filterMap_shown_inj ServicePort.render_ne_nil fun _ _ => ServicePort.render_inj]

/-! ### Deployments -/

@[simp] theorem ContainerPort.render_inj {p p' : ContainerPort} : p.render = p'.render ↔ p = p' := by
  cases p; cases p'
  simp [ContainerPort.render_filled, filled_inj, and_left_comm]

theorem ContainerPort.render_ne_nil (p : ContainerPort) : p.render ≠ [] := by
  simp [ContainerPort.render, intEntry]

theorem renderEnv_inj {entry entry' : String × String} : renderEnv entry = renderEnv entry' ↔ entry = entry' := by
  cases entry; cases entry'
  simp [renderEnv, textEntry]

theorem renderEnv_ne_nil (entry : String × String) : renderEnv entry ≠ [] := by
  simp [renderEnv, textEntry]

@[simp] theorem Container.render_inj {c c' : Container} : c.render = c'.render ↔ c = c' := by
  cases c; cases c'
  simp [Container.render_filled, filled_inj, textMap_eq_iff,
    filterMap_shown_inj ContainerPort.render_ne_nil fun _ _ => ContainerPort.render_inj,
    filterMap_shown_inj renderEnv_ne_nil fun _ _ => renderEnv_inj, and_assoc, and_comm, and_left_comm]

/-- The labels that a deployment selects stand in its manifest twice, and tell the same both times. -/
theorem Deployment.render_inj {d d' : Deployment} : d.render = d'.render ↔ d = d' := by
  cases d; cases d'
  simp [Deployment.render_filled, Deployment.renderTemplate_filled, textMap_filled, mappings_filled, filled_inj,
    filterMap_shown_inj Container.render_ne_nil fun _ _ => Container.render_inj]

/-! ### Routes -/

/-- The target without the reference that its name came from. -/
def RouteTarget.withoutReference (t : RouteTarget) : RouteTarget := { t with serviceName := none }

theorem RouteTarget.render_eq_iff {t t' : RouteTarget} :
    t.render = t'.render ↔ t.withoutReference = t'.withoutReference := by
  cases t; cases t'
  simp [RouteTarget.render_filled, filled_inj, withoutReference]

/-- A number and a name can be told apart, whatever they are. -/
theorem PortRef.render_inj {p p' : PortRef} : p.render = p'.render ↔ p = p' := by
  cases p <;> cases p' <;> simp [PortRef.render, intEntry, textEntry]

theorem PortRef.render_ne_nil (p : PortRef) : p.render ≠ [] := by
  cases p <;> simp [PortRef.render, intEntry, textEntry]

theorem RouteTls.render_inj {t t' : RouteTls} : t.render = t'.render ↔ t = t' := by
  cases t; cases t'
  simp [RouteTls.render_filled, filled_inj]

theorem RouteTls.render_ne_nil (t : RouteTls) : t.render ≠ [] := by
  simp [RouteTls.render, textEntry]

/-- The route without the reference of its target. -/
def Route.withoutReference (r : Route) : Route := { r with target := r.target.map RouteTarget.withoutReference }

theorem Route.render_eq_iff {r r' : Route} : r.render = r'.render ↔ r.withoutReference = r'.withoutReference := by
  cases r; cases r'
  simp [Route.render_filled, filled_inj, Route.withoutReference,
    bind_shown_eq_iff RouteTarget.render_ne_nil fun _ _ => RouteTarget.render_eq_iff,
    bind_shown_inj PortRef.render_ne_nil fun _ _ => PortRef.render_inj,
    bind_shown_inj RouteTls.render_ne_nil fun _ _ => RouteTls.render_inj]

/-! ### Records -/

/-- The specification without the reference of a route's target, which no manifest shows. -/
def Spec.withoutReference : Spec → Spec
  | .route r => .route r.withoutReference
  | s => s

theorem Spec.render_eq_iff {s s' : Spec} (hkind : s.kind ∈ [.gateway, .service, .deployment, .route])
    (hsame : s.kind = s'.kind) : s.render = s'.render ↔ s.withoutReference = s'.withoutReference := by
  cases s with
  | gateway g =>
    cases s' with
    | gateway g' => simpa [Spec.render, withoutReference] using Gateway.render_inj
    | _ => cases hsame
  | service s =>
    cases s' with
    | service s' => simpa [Spec.render, withoutReference] using Service.render_inj
    | _ => cases hsame
  | deployment d =>
    cases s' with
    | deployment d' => simpa [Spec.render, withoutReference] using Deployment.render_inj
    | _ => cases hsame
  | route r =>
    cases s' with
    | route r' => simpa [Spec.render, withoutReference] using Route.render_eq_iff
    | _ => cases hsame
  | virtualService | buildConfig => simp [Spec.kind] at hkind

theorem Record.renderMetadata_inj {r r' : Record} : r.renderMetadata = r'.renderMetadata ↔
    r.name = r'.name ∧ r.namespaceName = r'.namespaceName ∧ r.labels = r'.labels ∧ r.annotations = r'.annotations := by
  simp [Record.renderMetadata_filled, filled_inj]

theorem Kind.name_inj {kind kind' : Kind} : kind.name = kind'.name ↔ kind = kind' := by
  refine ⟨fun h => ?_, congrArg Kind.name⟩
  have hfound := Kind.ofName?_name kind
  rw [h, Kind.ofName?_name] at hfound
  exact (Option.some.inj hfound).symm

theorem Spec.kind_withoutReference (s : Spec) : s.withoutReference.kind = s.kind := by
  cases s <;> rfl

theorem Record.render_inj {r r' : Record} : r.render = r'.render ↔
    r.kind = r'.kind ∧ r.renderMetadata = r'.renderMetadata ∧ r.spec.render = r'.spec.render := by
  have hversion (hsame : r.kind = r'.kind) : r.kind.apiVersion = r'.kind.apiVersion := congrArg _ hsame
  simp only [Record.render, Value.map.injEq]
  simpa [Record.renderEntries_filled, filled_inj, Kind.name_inj] using fun hsame _ _ => hversion hsame

/-- Nothing is lost from gateways, services, deployments and routes, except the reference of a route's target: two
    records, of which one is of these kinds, have the same manifest exactly if they agree in all that is declared. -/
theorem Record.sameManifest_iff {r r' : Record} (hkind : r.kind ∈ [.gateway, .service, .deployment, .route]) :
    r.render = r'.render ↔
      r.name = r'.name ∧ r.namespaceName = r'.namespaceName ∧ r.labels = r'.labels ∧ r.annotations = r'.annotations ∧
        r.spec.withoutReference = r'.spec.withoutReference := by
  rw [Record.render_inj, Record.renderMetadata_inj]
  constructor
  · rintro ⟨hsame, ⟨hname, hnamespace, hlabels, hannotations⟩, hspec⟩
    exact ⟨hname, hnamespace, hlabels, hannotations, (Spec.render_eq_iff hkind hsame).mp hspec⟩
  · rintro ⟨hname, hnamespace, hlabels, hannotations, hspec⟩
    have hsame : r.kind = r'.kind := by
      have h := congrArg Spec.kind hspec
      rwa [Spec.kind_withoutReference, Spec.kind_withoutReference] at h
    exact ⟨hsame, ⟨hname, hnamespace, hlabels, hannotations⟩, (Spec.render_eq_iff hkind hsame).mpr hspec⟩

/-- A route to a port of a service, with the reference that the service's name came from. -/
def routeToPort (port : PortRef) (reference : Option String) : Record :=
  ⟨"edge", "edge", none, {}, {}, .route ⟨none, none, some ⟨some "a", reference, none⟩, some port, none⟩,
    ⟨"app.yaml", 0⟩⟩

/-- The manifests of two valid routes tell a port by number from one by name, but not whether there was a reference. -/
theorem routeToPort_render :
    (routeToPort (.number 80) none).Valid ∧ (routeToPort (.name "80") none).Valid ∧
      (routeToPort (.number 80) none).render ≠ (routeToPort (.name "80") none).render ∧
      (routeToPort (.number 80) (some "svcA")).render = (routeToPort (.number 80) none).render :=
  ⟨rfl, rfl, mt (Record.sameManifest_iff (by decide)).mp (by decide),
    (Record.sameManifest_iff (by decide)).mpr (by decide)⟩

end Manifests
