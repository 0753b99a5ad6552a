import Manifests.Proofs.Registry
import Manifests.Proofs.Resolution

/-! # Which references are looked up

A record has references that are looked up (`Record.references`), in the order of the document. Resolving is decided
by them alone (`resolve_eq_requiring`): it puts the names of the services in, or it fails with the first reference that
is to none. What is resolved has no reference left that is looked up, so that resolving it again leaves it alone. -/

namespace Manifests

/-! ### References -/

/-- The reference that is looked up: none where a name is given. -/
def lookedUp (given reference : Option String) : List String := if given.isSome then [] else reference.toList

def Destination.references (d : Destination) : List String := lookedUp d.host d.serviceName

/-- The references of a route for HTTP requests: those of its destinations, and then that of its mirror. -/
def HttpRoute.references (h : HttpRoute) : List String :=
  h.route.flatMap (·.destination.references) ++ h.mirror.toList.flatMap Destination.references

def VirtualService.references (v : VirtualService) : List String := v.http.flatMap HttpRoute.references

def RouteTarget.references (t : RouteTarget) : List String := lookedUp t.name t.serviceName

def Route.references (r : Route) : List String := r.target.toList.flatMap RouteTarget.references

def Spec.references : Spec → List String
  | .virtualService v => v.references
  | .route r => r.references
  | .gateway _ | .service _ | .deployment _ | .buildConfig _ => []

def Record.references (r : Record) : List String := r.spec.references

/-! ### Names in the place of references -/

/-- A name that is given, or else that of what the reference is to. -/
def nameOr (names : String → String) (given reference : Option String) : Option String := given <|> reference.map names

def Destination.named (names : String → String) (d : Destination) : Destination :=
  { d with host := nameOr names d.host d.serviceName }

def WeightedDestination.named (names : String → String) (w : WeightedDestination) : WeightedDestination :=
  { w with destination := w.destination.named names }

def HttpRoute.named (names : String → String) (h : HttpRoute) : HttpRoute :=
  { h with route := h.route.map (·.named names), mirror := h.mirror.map (·.named names) }

def VirtualService.named (names : String → String) (v : VirtualService) : VirtualService :=
  { v with http := v.http.map (·.named names) }

def RouteTarget.named (names : String → String) (t : RouteTarget) : RouteTarget :=
  { t with name := nameOr names t.name t.serviceName }

def Route.named (names : String → String) (r : Route) : Route := { r with target := r.target.map (·.named names) }

def Spec.named (names : String → String) : Spec → Spec
  | .virtualService v => .virtualService (v.named names)
  | .route r => .route (r.named names)
  | other => other

/-- The record with names in the place of the references that are looked up, and else as it is. -/
def Record.named (names : String → String) (r : Record) : Record := { r with spec := r.spec.named names }

/-! ### Requiring services -/

/-- The value, if all references are to services, or else the first that is to none. -/
def requiring {α : Type} (services : ServiceNames) (references : List String) (a : α) : Resolving α :=
  match references.find? fun reference => (services reference).isNone with
  | none => .ok a
  | some reference => .error reference

/-- The names of services, with an empty one for what is none. -/
def ServiceNames.total (services : ServiceNames) (reference : String) : String := (services reference).getD ""

section
variable {α β : Type} {services : ServiceNames}

@[simp] theorem requiring_nil (a : α) : requiring services [] a = .ok a := rfl

theorem requiring_map {references : List String} {a : α} (f : α → β) :
    (requiring services references a).map f = requiring services references (f a) := by
  unfold requiring
  cases references.find? fun reference => (services reference).isNone <;> rfl

/-- The references required first decide, and then those required after them. -/
theorem requiring_bind {first more : List String} {a : α} {f : α → Resolving β} {b : β}
    (h : f a = requiring services more b) :
    (requiring services first a >>= f) = requiring services (first ++ more) b := by
  unfold requiring
  rw [List.find?_append]
  cases first.find? fun reference => (services reference).isNone with
  | some reference => rfl
  | none => exact h

theorem requiring_bind_pure {references : List String} {a : α} {f : α → β} :
    (requiring services references a >>= fun a => pure (f a)) = requiring services references (f a) := by
  have hpure : pure (f a) = requiring services [] (f a) := rfl
  have hbind : (requiring services references a >>= fun a => pure (f a)) =
      requiring services (references ++ []) (f a) := requiring_bind hpure
  rwa [List.append_nil] at hbind

theorem requiring_mapM {f : α → Resolving β} {references : α → List String} {g : α → β}
    (h : ∀ a, f a = requiring services (references a) (g a)) (as : List α) :
    as.mapM f = requiring services (as.flatMap references) (as.map g) := by
  induction as with
  | nil => rfl
  | cons a as ih =>
    rw [List.mapM_cons, h a, List.flatMap_cons, List.map_cons]
    refine requiring_bind ?_
    rw [ih]
    exact requiring_bind_pure

theorem requiring_option_mapM {f : α → Resolving β} {references : α → List String} {g : α → β}
    (h : ∀ a, f a = requiring services (references a) (g a)) (a : Option α) :
    a.mapM f = requiring services (a.toList.flatMap references) (a.map g) := by
  cases a with
  | none => rfl
  | some a =>
    have hone : Option.mapM f (some a) = f a >>= fun b => pure (some b) := by
      show some <$> f a = _
      cases f a <;> rfl
    rw [hone, h a, Option.toList_some, List.flatMap_singleton]
    exact requiring_bind_pure

theorem requiring_eq_ok_iff {references : List String} {a b : α} :
    requiring services references a = .ok b ↔ a = b ∧ ∀ reference ∈ references, (services reference).isSome := by
  unfold requiring
  cases hfind : references.find? fun reference => (services reference).isNone with
  | none =>
    have hall : ∀ reference ∈ references, (services reference).isSome := by
      simpa [Option.isSome_iff_ne_none] using List.find?_eq_none.mp hfind
    exact ⟨fun h => ⟨Except.ok.inj h, hall⟩, fun h => by rw [h.1]⟩
  | some reference =>
    have hmem := List.mem_of_find?_eq_some hfind
    have hnone := List.find?_some hfind
    refine ⟨(fun h => by cases h), fun h => ?_⟩
    have hsome := h.2 reference hmem
    simp [Option.isSome_iff_ne_none] at hsome hnone
    exact absurd hnone hsome

/-- The first reference that is to no service is the one after references to services. -/
theorem requiring_eq_error_iff {references : List String} {a : α} {reference : String} :
    requiring services references a = .error reference ↔
      ∃ before after, references = before ++ reference :: after ∧ (∀ earlier ∈ before, (services earlier).isSome) ∧
        services reference = none := by
  have hfind : requiring services references a = .error reference ↔
      references.find? (fun reference => (services reference).isNone) = some reference := by
    unfold requiring
    cases references.find? fun reference => (services reference).isNone <;> simp
  rw [hfind, List.find?_eq_some_iff_append]
  constructor
  · rintro ⟨hnone, before, after, hsplit, hbefore⟩
    exact ⟨before, after, hsplit, by simpa using hbefore, by simpa using hnone⟩
  · rintro ⟨before, after, hsplit, hbefore, hnone⟩
    exact ⟨by simpa using hnone, before, after, hsplit, by simpa using hbefore⟩

end

/-! ### Resolving -/

section
variable {services : ServiceNames}

theorem resolveName_eq_requiring (given reference : Option String) :
    resolveName services given reference =
      requiring services (lookedUp given reference) (nameOr services.total given reference) := by
  cases given with
  | some name => rfl
  | none =>
    cases reference with
    | none => rfl
    | some reference =>
      cases hname : services reference <;> simp [resolveName, requiring, lookedUp, nameOr, ServiceNames.total, hname]

theorem Destination.resolve_eq_requiring (d : Destination) :
    d.resolve services = requiring services d.references (d.named services.total) := by
  rw [Destination.resolve, resolveName_eq_requiring]
  exact requiring_bind_pure

theorem WeightedDestination.resolve_eq_requiring (w : WeightedDestination) :
    w.resolve services = requiring services w.destination.references (w.named services.total) := by
  rw [WeightedDestination.resolve, w.destination.resolve_eq_requiring]
  exact requiring_bind_pure

theorem HttpRoute.resolve_eq_requiring (h : HttpRoute) :
    h.resolve services = requiring services h.references (h.named services.total) := by
  rw [HttpRoute.resolve, requiring_mapM WeightedDestination.resolve_eq_requiring]
  refine requiring_bind ?_
  rw [requiring_option_mapM Destination.resolve_eq_requiring]
  exact requiring_bind_pure

theorem VirtualService.resolve_eq_requiring (v : VirtualService) :
    v.resolve services = requiring services v.references (v.named services.total) := by
  rw [VirtualService.resolve, requiring_mapM HttpRoute.resolve_eq_requiring]
  exact requiring_bind_pure

theorem RouteTarget.resolve_eq_requiring (t : RouteTarget) :
    t.resolve services = requiring services t.references (t.named services.total) := by
  rw [RouteTarget.resolve, resolveName_eq_requiring]
  exact requiring_bind_pure

theorem Route.resolve_eq_requiring (r : Route) :
    r.resolve services = requiring services r.references (r.named services.total) := by
  rw [Route.resolve, requiring_option_mapM RouteTarget.resolve_eq_requiring]
  exact requiring_bind_pure

theorem Spec.resolve_eq_requiring (s : Spec) :
    s.resolve services = requiring services s.references (s.named services.total) := by
  cases s with
  | virtualService v =>
    rw [Spec.resolve, v.resolve_eq_requiring]
    exact requiring_bind_pure
  | route r =>
    rw [Spec.resolve, r.resolve_eq_requiring]
    exact requiring_bind_pure
  | gateway | service | deployment | buildConfig => rfl

/-- A record is resolved if all its references are to services, and else its first other one is reported. -/
theorem Record.resolve_eq_requiring (r : Record) :
    r.resolve services = requiring services r.references (r.named services.total) := by
  rw [Record.resolve, r.spec.resolve_eq_requiring]
  exact requiring_bind_pure

end

/-! ### What is resolved already

A record with names put in has no reference left that is looked up, and others put nothing in. -/

section
variable (names names' : String → String)

theorem lookedUp_nameOr (given reference : Option String) : lookedUp (nameOr names given reference) reference = [] := by
  cases given <;> cases reference <;> rfl

theorem nameOr_nameOr (given reference : Option String) :
    nameOr names' (nameOr names given reference) reference = nameOr names given reference := by
  cases given <;> cases reference <;> rfl

@[simp] theorem Destination.references_named (d : Destination) : (d.named names).references = [] :=
  lookedUp_nameOr names d.host d.serviceName

@[simp] theorem Destination.named_named (d : Destination) : (d.named names).named names' = d.named names := by
  have hhost := nameOr_nameOr names names' d.host d.serviceName
  simp only [Destination.named, hhost]

@[simp] theorem WeightedDestination.named_named (w : WeightedDestination) :
    (w.named names).named names' = w.named names := by
  simp [WeightedDestination.named]

@[simp] theorem HttpRoute.references_named (h : HttpRoute) : (h.named names).references = [] := by
  cases hmirror : h.mirror <;> simp [HttpRoute.references, HttpRoute.named, WeightedDestination.named, hmirror]

@[simp] theorem HttpRoute.named_named (h : HttpRoute) : (h.named names).named names' = h.named names := by
  cases hmirror : h.mirror <;> simp [HttpRoute.named, hmirror]

theorem VirtualService.references_named (v : VirtualService) : (v.named names).references = [] := by
  simp [VirtualService.references, VirtualService.named]

theorem VirtualService.named_named (v : VirtualService) : (v.named names).named names' = v.named names := by
  simp [VirtualService.named]

@[simp] theorem RouteTarget.references_named (t : RouteTarget) : (t.named names).references = [] :=
  lookedUp_nameOr names t.name t.serviceName

@[simp] theorem RouteTarget.named_named (t : RouteTarget) : (t.named names).named names' = t.named names := by
  have hname := nameOr_nameOr names names' t.name t.serviceName
  simp only [RouteTarget.named, hname]

theorem Route.references_named (r : Route) : (r.named names).references = [] := by
  cases htarget : r.target <;> simp [Route.references, Route.named, htarget]

theorem Route.named_named (r : Route) : (r.named names).named names' = r.named names := by
  cases htarget : r.target <;> simp [Route.named, htarget]

theorem Record.references_named (r : Record) : (r.named names).references = [] := by
  show (r.spec.named names).references = []
  cases r.spec with
  | virtualService v => exact v.references_named names
  | route r => exact r.references_named names
  | gateway | service | deployment | buildConfig => rfl

theorem Record.named_named (r : Record) : (r.named names).named names' = r.named names := by
  have hspec : (r.spec.named names).named names' = r.spec.named names := by
    cases r.spec with
    | virtualService v => exact congrArg Spec.virtualService (v.named_named names names')
    | route r => exact congrArg Spec.route (r.named_named names names')
    | gateway | service | deployment | buildConfig => rfl
  simp only [Record.named, hspec]

end

/-! ### Registries -/

/-- A service is registered under the key, and has the name. -/
def Registry.NamesService (registry : Registry) (key name : String) : Prop :=
  ∃ service, (key, service) ∈ registry.entries ∧ service.kind = .service ∧ service.name = name

namespace Registry
variable {registry : Registry}

theorem serviceNames_eq_some {key name : String} :
    registry.serviceNames key = some name ↔ registry.NamesService key name := by
  simp only [serviceNames, Option.map_eq_some_iff, lookup?_eq_some_iff, NamesService, and_assoc]

theorem isSome_serviceNames {key : String} :
    (registry.serviceNames key).isSome ↔ ∃ name, registry.NamesService key name := by
  simp only [Option.isSome_iff_exists, serviceNames_eq_some]

theorem serviceNames_eq_none {key : String} :
    registry.serviceNames key = none ↔ ¬∃ name, registry.NamesService key name := by
  rw [← isSome_serviceNames, Option.not_isSome_iff_eq_none]

theorem namesService_total {key : String} (h : (registry.serviceNames key).isSome) :
    registry.NamesService key (registry.serviceNames.total key) := by
  obtain ⟨name, hname⟩ := Option.isSome_iff_exists.mp h
  rw [ServiceNames.total, hname]
  exact serviceNames_eq_some.mp hname

/-- Registries with the same names of services resolve alike. -/
theorem serviceNames_congr {registry' : Registry}
    (h : ∀ key name, registry'.NamesService key name ↔ registry.NamesService key name) :
    registry'.serviceNames = registry.serviceNames := by
  funext key
  refine Option.ext fun name => ?_
  rw [serviceNames_eq_some, serviceNames_eq_some]
  exact h key name

end Registry

/-- The record is resolved reference by reference, each against the services of the registry. -/
structure Record.ResolvesPointwise (r : Record) (registry : Registry) : Prop where
  /-- It is resolved exactly if each of its references is to a registered service. -/
  succeeds : (∃ r', r.resolve registry.serviceNames = .ok r') ↔
    ∀ reference ∈ r.references, ∃ name, registry.NamesService reference name
  /-- Then the names of these services stand in the place of the references, and nothing else is different. -/
  changes : ∀ r', r.resolve registry.serviceNames = .ok r' → ∃ names : String → String,
    (∀ reference ∈ r.references, registry.NamesService reference (names reference)) ∧ r' = r.named names
  /-- Else the first reference is reported that is to none. -/
  fails : ∀ reference, r.resolve registry.serviceNames = .error reference ↔
    ∃ before after, r.references = before ++ reference :: after ∧
      (∀ earlier ∈ before, ∃ name, registry.NamesService earlier name) ∧
      ¬∃ name, registry.NamesService reference name
  /-- Of the registry only the names of its services count. -/
  depends : ∀ registry' : Registry,
    (∀ key name, registry'.NamesService key name ↔ registry.NamesService key name) →
      r.resolve registry'.serviceNames = r.resolve registry.serviceNames
  /-- What is resolved stays as it is, whatever it is resolved against. -/
  stays : ∀ r', r.resolve registry.serviceNames = .ok r' →
    ∀ registry' : Registry, r'.resolve registry'.serviceNames = .ok r'

theorem Record.resolve_pointwise (r : Record) (registry : Registry) : r.ResolvesPointwise registry where
  succeeds := by
    simp only [resolve_eq_requiring, requiring_eq_ok_iff, Registry.isSome_serviceNames, exists_eq_left']
  changes := by
    intro r' h
    rw [resolve_eq_requiring, requiring_eq_ok_iff] at h
    obtain ⟨rfl, hservices⟩ := h
    exact ⟨_, fun reference href => Registry.namesService_total (hservices reference href), rfl⟩
  fails := by
    intro reference
    simp only [resolve_eq_requiring, requiring_eq_error_iff, Registry.isSome_serviceNames,
      Registry.serviceNames_eq_none]
  depends := by
    intro registry' h
    rw [Registry.serviceNames_congr h]
  stays := by
    intro r' h registry'
    rw [resolve_eq_requiring, requiring_eq_ok_iff] at h
    obtain ⟨rfl, -⟩ := h
    rw [resolve_eq_requiring, references_named, requiring_nil, named_named]

end Manifests
