import Manifests.Proofs.Rendering.HttpRoutes
import Manifests.Proofs.Rendering.Slots

/-! # The numbers of a manifest

A manifest shows the numbers of its record, and no others: each field that holds a number is rendered wherever it is
present, and texts and truth values give no numbers, whatever they say (`Record.render_mentions`). -/

namespace Manifests

/-- The number stands in the value, at some depth. -/
inductive Value.Mentions (n : Int64) : Value → Prop
  | int : Mentions n (.int n)
  | entry {entries : List Entry} {e : Entry} : e ∈ entries → Mentions n e.2 → Mentions n (.map entries)
  | item {items : List Value} {v : Value} : v ∈ items → Mentions n v → Mentions n (.list items)

namespace Value

variable {n : Int64}

@[simp] theorem not_mentions_text (s : String) : ¬ (Value.text s).Mentions n := nofun

@[simp] theorem not_mentions_bool (b : Bool) : ¬ (Value.bool b).Mentions n := nofun

@[simp] theorem mentions_int_iff {i : Int64} : (Value.int i).Mentions n ↔ n = i := by
  constructor
  · rintro ⟨⟩
    rfl
  · rintro rfl
    exact .int

@[simp] theorem mentions_map_iff {entries : List Entry} :
    (Value.map entries).Mentions n ↔ ∃ e ∈ entries, e.2.Mentions n := by
  constructor
  · rintro ⟨⟩
    exact ⟨_, ‹_›, ‹_›⟩
  · rintro ⟨e, he, h⟩
    exact .entry he h

@[simp] theorem mentions_list_iff {items : List Value} :
    (Value.list items).Mentions n ↔ ∃ v ∈ items, v.Mentions n := by
  constructor
  · rintro ⟨⟩
    exact ⟨_, ‹_›, ‹_›⟩
  · rintro ⟨v, hv, h⟩
    exact .item hv h

theorem Mentions.of_get? {v w : Value} (key : String) (hget : v.get? key = some w) (h : w.Mentions n) :
    v.Mentions n := by
  cases v with
  | map entries =>
    obtain ⟨before, after, rfl, -⟩ := List.lookup_eq_some_iff.mp hget
    exact .entry (e := (key, w)) (by simp) h
  | null | bool | int | float | text | list => cases hget

end Value

namespace Rendering

/-! ### Slots -/

/-- The number stands in what fills the slot. -/
def SlotMentions (n : Int64) (slot : Option Value) : Prop := ∃ v ∈ slot, v.Mentions n

/-- The number stands under one of the keys. -/
def EntriesMention (n : Int64) (entries : List Entry) : Prop := ∃ e ∈ entries, e.2.Mentions n

variable {n : Int64}

@[simp] theorem entriesMention_filled {slots : List (String × Option Value)} :
    EntriesMention n (filled slots) ↔ ∃ slot ∈ slots, SlotMentions n slot.2 := by
  simp only [EntriesMention, SlotMentions, filled, List.mem_filterMap, Option.map_eq_some_iff, Option.mem_def]
  constructor
  · rintro ⟨_, ⟨slot, hslot, v, hv, rfl⟩, h⟩
    exact ⟨slot, hslot, v, hv, h⟩
  · rintro ⟨slot, hslot, v, hv, h⟩
    exact ⟨_, ⟨slot, hslot, v, hv, rfl⟩, h⟩

@[simp] theorem slotMentions_none : ¬ SlotMentions n none := nofun

@[simp] theorem slotMentions_some {v : Value} : SlotMentions n (some v) ↔ v.Mentions n := by
  simp [SlotMentions]

@[simp] theorem slotMentions_map {α : Type} {value : α → Value} {part : Option α} :
    SlotMentions n (part.map value) ↔ ∃ a ∈ part, (value a).Mentions n := by
  cases part <;> simp

@[simp] theorem slotMentions_bind {α : Type} {slot : α → Option Value} {part : Option α} :
    SlotMentions n (part.bind slot) ↔ ∃ a ∈ part, SlotMentions n (slot a) := by
  cases part <;> simp

@[simp] theorem slotMentions_shown {entries : List Entry} :
    SlotMentions n (shown entries) ↔ EntriesMention n entries := by
  cases entries <;> simp [shown, EntriesMention]

theorem slotMentions_shownList {items : List Value} :
    SlotMentions n (shownList items) ↔ ∃ v ∈ items, v.Mentions n := by
  cases items <;> simp [shownList]

@[simp] theorem not_slotMentions_texts {texts : List String} : ¬ SlotMentions n (shownList (texts.map .text)) := by
  simp [slotMentions_shownList]

@[simp] theorem slotMentions_ite {c : Prop} [Decidable c] {slot : Option Value} :
    SlotMentions n (if c then slot else none) ↔ c ∧ SlotMentions n slot := by
  split <;> simp [*]

@[simp] theorem slotMentions_mappings {α : Type} {parts : List α} {entries : α → List Entry} :
    SlotMentions n (shownList (parts.filterMap fun a => shown (entries a))) ↔
      ∃ a ∈ parts, EntriesMention n (entries a) := by
  simp only [slotMentions_shownList, List.mem_filterMap, shown_eq_some_iff]
  constructor
  · rintro ⟨v, ⟨a, ha, -, rfl⟩, h⟩
    exact ⟨a, ha, Value.mentions_map_iff.mp h⟩
  · rintro ⟨a, ha, h⟩
    obtain ⟨e, he, -⟩ := id h
    exact ⟨_, ⟨a, ha, List.ne_nil_of_mem he, rfl⟩, Value.mentions_map_iff.mpr h⟩

@[simp] theorem not_entriesMention_texts {α : Type} {items : List α} {key text : α → String} :
    ¬ EntriesMention n (items.map fun item => (key item, .text (text item))) := by
  simp [EntriesMention]

@[simp] theorem not_entriesMention_textMap {key : String} {m : TextMap String} :
    ¬ EntriesMention n (textMap key m) := by
  rw [textMap_filled]
  simp

end Rendering

open Rendering

variable {n : Int64}

/-! ### Gateways -/

@[simp] theorem ServerPort.render_mentions {p : ServerPort} : EntriesMention n p.render ↔ n = p.number := by
  simp [render_filled]

@[simp] theorem ServerTls.render_mentions {t : ServerTls} : ¬ EntriesMention n t.render := by
  simp [render_filled]

@[simp] theorem Server.render_mentions {s : Server} : EntriesMention n s.render ↔ n = s.port.number := by
  simp [render_filled]

def Gateway.numbers (g : Gateway) : List Int64 := g.servers.map (·.port.number)

theorem Gateway.render_mentions {g : Gateway} : EntriesMention n g.render ↔ n ∈ g.numbers := by
  simp [render_filled, numbers, eq_comm]

/-! ### Virtual services -/

@[simp] theorem StringMatch.render_mentions {m : StringMatch} : ¬ EntriesMention n m.render := by
  cases m <;> simp [render, textEntry, EntriesMention]

@[simp] theorem not_entriesMention_headers {m : TextMap StringMatch} :
    ¬ EntriesMention n (m.entries.flatMap fun entry => mapping entry.1 entry.2.render) := by
  have h (s : StringMatch) : ¬ (Value.map s.render).Mentions n := by
    rw [Value.mentions_map_iff]
    exact StringMatch.render_mentions
  rw [StringMatch.flatMap_mapping]
  simp [EntriesMention, h]

@[simp] theorem MatchRequest.render_mentions {m : MatchRequest} : EntriesMention n m.render ↔ n ∈ m.port := by
  simp [render_filled]

@[simp] theorem Destination.render_mentions {d : Destination} : EntriesMention n d.render ↔ n ∈ d.port := by
  simp [render_filled, intEntry_filled]

def WeightedDestination.numbers (w : WeightedDestination) : List Int64 := w.destination.port.toList ++ w.weight.toList

@[simp] theorem WeightedDestination.render_mentions {w : WeightedDestination} :
    EntriesMention n w.render ↔ n ∈ w.numbers := by
  simp [render_filled, numbers]

@[simp] theorem AddressParts.render_mentions {a : AddressParts} : ¬ EntriesMention n a.render := by
  simp [render_filled]

@[simp] theorem Retries.render_mentions {r : Retries} : EntriesMention n r.render ↔ n = r.attempts := by
  simp [render_filled]

@[simp] theorem FaultDelay.render_mentions {d : FaultDelay} : EntriesMention n d.render ↔ n ∈ d.percent := by
  simp [render_filled]

def FaultAbort.numbers (a : FaultAbort) : List Int64 := a.percent.toList ++ [a.httpStatus]

@[simp] theorem FaultAbort.render_mentions {a : FaultAbort} : EntriesMention n a.render ↔ n ∈ a.numbers := by
  simp [render_filled, numbers]

def FaultInjection.numbers (f : FaultInjection) : List Int64 :=
  f.delay.toList.flatMap (·.percent.toList) ++ f.abort.toList.flatMap (·.numbers)

@[simp] theorem FaultInjection.render_mentions {f : FaultInjection} : EntriesMention n f.render ↔ n ∈ f.numbers := by
  simp [render_filled, numbers]

@[simp] theorem CorsPolicy.render_mentions {c : CorsPolicy} : ¬ EntriesMention n c.render := by
  simp [render_filled]

def HttpRoute.numbers (h : HttpRoute) : List Int64 :=
  h.conditions.flatMap (·.port.toList) ++ h.route.flatMap (·.numbers) ++ h.retries.toList.map (·.attempts) ++
    h.fault.toList.flatMap (·.numbers) ++ h.mirror.toList.flatMap (·.port.toList)

@[simp] theorem HttpRoute.render_mentions {h : HttpRoute} : EntriesMention n h.render ↔ n ∈ h.numbers := by
  simp [render_filled, numbers, eq_comm]

def VirtualService.numbers (v : VirtualService) : List Int64 := v.http.flatMap (·.numbers)

theorem VirtualService.render_mentions {v : VirtualService} : EntriesMention n v.render ↔ n ∈ v.numbers := by
  simp [render_filled, numbers]

/-! ### Services and deployments -/

def ServicePort.numbers (p : ServicePort) : List Int64 := p.port :: p.targetPort.toList

@[simp] theorem ServicePort.render_mentions {p : ServicePort} : EntriesMention n p.render ↔ n ∈ p.numbers := by
  simp [render_filled, numbers]

def Service.numbers (s : Service) : List Int64 := s.ports.flatMap (·.numbers)

theorem Service.render_mentions {s : Service} : EntriesMention n s.render ↔ n ∈ s.numbers := by
  simp [render_filled, numbers]

@[simp] theorem ContainerPort.render_mentions {p : ContainerPort} :
    EntriesMention n p.render ↔ n = p.containerPort := by
  simp [render_filled]

@[simp] theorem renderEnv_mentions {entry : String × String} : ¬ EntriesMention n (renderEnv entry) := by
  simp [renderEnv, textEntry, EntriesMention]

@[simp] theorem Container.render_mentions {c : Container} :
    EntriesMention n c.render ↔ n ∈ c.ports.map (·.containerPort) := by
  simp [render_filled, eq_comm]

def Deployment.numbers (d : Deployment) : List Int64 :=
  d.replicas.toList ++ d.containers.flatMap fun c => c.ports.map (·.containerPort)

@[simp] theorem Deployment.renderTemplate_mentions {d : Deployment} :
    EntriesMention n d.renderTemplate ↔ ∃ c ∈ d.containers, n ∈ c.ports.map (·.containerPort) := by
  simp [renderTemplate_filled, mappings_filled]

theorem Deployment.render_mentions {d : Deployment} : EntriesMention n d.render ↔ n ∈ d.numbers := by
  simp [render_filled, numbers]

/-! ### Routes -/

@[simp] theorem RouteTarget.render_mentions {t : RouteTarget} : EntriesMention n t.render ↔ n ∈ t.weight := by
  simp [render_filled]

def PortRef.numbers : PortRef → List Int64
  | .number n => [n]
  | .name _ => []

@[simp] theorem PortRef.render_mentions {p : PortRef} : EntriesMention n p.render ↔ n ∈ p.numbers := by
  cases p <;> simp [render, numbers, intEntry, textEntry, EntriesMention]

@[simp] theorem RouteTls.render_mentions {t : RouteTls} : ¬ EntriesMention n t.render := by
  simp [render_filled]

def Route.numbers (r : Route) : List Int64 :=
  r.target.toList.flatMap (·.weight.toList) ++ r.targetPort.toList.flatMap (·.numbers)

theorem Route.render_mentions {r : Route} : EntriesMention n r.render ↔ n ∈ r.numbers := by
  simp [render_filled, numbers]

/-! ### Build configurations -/

@[simp] theorem BuildSource.render_mentions {s : BuildSource} : ¬ EntriesMention n s.render := by
  simp [render_filled]

@[simp] theorem BuildStrategy.render_mentions {s : BuildStrategy} : ¬ EntriesMention n s.render := by
  simp [render_filled, details, renderBase_filled]

theorem BuildConfig.render_mentions {b : BuildConfig} : ¬ EntriesMention n b.render := by
  simp [render_filled, renderOutput_filled, textEntry_filled]

/-! ### Records -/

/-- The numbers of a specification, as many times as they stand in it. -/
def Spec.numbers : Spec → List Int64
  | .gateway g => g.numbers
  | .virtualService v => v.numbers
  | .service s => s.numbers
  | .deployment d => d.numbers
  | .route r => r.numbers
  | .buildConfig _ => []

theorem Spec.render_mentions {s : Spec} : EntriesMention n s.render ↔ n ∈ s.numbers := by
  cases s with
  | gateway g => exact Gateway.render_mentions
  | virtualService v => exact VirtualService.render_mentions
  | service s => exact Service.render_mentions
  | deployment d => exact Deployment.render_mentions
  | route r => exact Route.render_mentions
  | buildConfig b => simpa [render, numbers] using BuildConfig.render_mentions

theorem Record.render_mentions {r : Record} : r.render.Mentions n ↔ n ∈ r.spec.numbers := by
  have hmetadata : ¬ EntriesMention n r.renderMetadata := by
    simp [renderMetadata_filled]
  rw [render, Value.mentions_map_iff]
  show EntriesMention n r.renderEntries ↔ _
  rw [renderEntries_filled, ← Spec.render_mentions]
  simp [hmetadata]

end Manifests
