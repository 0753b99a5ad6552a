import Manifests.Proofs.Composition.FileNames
import Manifests.Proofs.Rendering.Rules

/-! # The rules of manifests

The rules of a kind are checked on the record, after gaps are filled in and references are resolved. Its manifest is
rendered from the same record, and what stands there keeps the rules as well. -/

namespace Manifests

open Rendered

/-- Every manifest of a report shows a specification, for which the rules of its kind hold. -/
theorem compose_specRules {options : Options} {ds : List Declaration} {r : Report} (h : compose options ds = .ok r) :
    ∀ m ∈ r.manifests, m.tree.get? "kind" = some (.text m.kind.name) ∧
      ∃ spec, m.tree.get? "spec" = some spec ∧ SpecRules m.kind spec := by
  intro m hm
  rw [compose_manifests h] at hm
  obtain ⟨record, -, hfinishing⟩ := List.mem_filterMap.mp hm
  have hfinish := finishing_manifest?_eq_some hfinishing
  obtain ⟨hkind, -⟩ := finish_kind_name hfinish
  obtain ⟨s, hresolve, hlawful, htree⟩ := finish_spec hfinish
  obtain ⟨spec, hshown, hrules⟩ := hlawful.rules
  rw [Spec.resolve_kind hresolve, Spec.withDefaults_kind] at hrules
  rw [hkind]
  exact ⟨(finish_shows hfinish).1, spec, htree.trans hshown, hrules⟩

/-- A resource of each kind, with what its rules ask for. The gateway gets its server by default. -/
def oneOfEachKind : List Declaration :=
  [⟨.gateway, some "gate", [("selector", .map [("app", .text "gate")])], ⟨"app.yaml", 0⟩⟩,
   ⟨.virtualService, some "front", [("http", .list [.map
      [("match", .list [.map [("port", .int 8080)]]),
       ("route", .list [.map [("destination", .map [("host", .text "a"), ("port", .int 80)])]]),
       ("retries", .map [("attempts", .int 3)])]])], ⟨"app.yaml", 1⟩⟩,
   ⟨.service, some "a", [("ports", .list [.map [("port", .int 80), ("targetPort", .int 8080)]])], ⟨"app.yaml", 2⟩⟩,
   ⟨.deployment, some "a", [("replicas", .int 2), ("containers", .list [.map
      [("name", .text "a"), ("image", .text "a:1"), ("ports", .list [.map [("containerPort", .int 8080)]])]])],
    ⟨"app.yaml", 3⟩⟩,
   ⟨.route, some "edge", [("to", .map [("name", .text "a")]), ("targetPort", .int 80),
      ("tls", .map [("termination", .text "edge"), ("key", .text "k"), ("certificate", .text "c")])],
    ⟨"app.yaml", 4⟩⟩,
   ⟨.buildConfig, some "image", [("source", .map [("git", .map [("uri", .text "https://a.example/a.git")])]),
      ("strategy", .map [("type", .text "Source"), ("from", .text "base:1")]),
      ("output", .map [("to", .text "image:1")])], ⟨"app.yaml", 5⟩⟩]

theorem oneOfEachKind_specRules :
    ∃ r, compose ⟨.keepGoing, none⟩ oneOfEachKind = .ok r ∧ r.manifests.map (·.kind) = Kind.all ∧
      ∀ m ∈ r.manifests, m.tree.get? "kind" = some (.text m.kind.name) ∧
        ∃ spec, m.tree.get? "spec" = some spec ∧ SpecRules m.kind spec :=
  ⟨_, compose_keepGoing none oneOfEachKind, rfl, compose_specRules (compose_keepGoing none oneOfEachKind)⟩

end Manifests
