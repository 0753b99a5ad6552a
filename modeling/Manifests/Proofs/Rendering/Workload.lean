import Manifests.Proofs.Rendering.Entries
import Manifests.Proofs.Validation
import Manifests.Rendering.Workload

/-! # What stands in rendered services, deployments and build configurations

The parts that other parts are looked up in. A part that keeps its rules is not empty, so that it is not left out. -/

namespace Manifests

open Rendering

/-! ### Services -/

theorem ServicePort.render_ne_nil (p : ServicePort) : p.render ≠ [] := by
  simp [ServicePort.render, intEntry]

theorem Service.get?_ports_render (s : Service) :
    (Value.map s.render).get? "ports" = shownList (s.ports.filterMap fun p => shown p.render) := by
  simp [Service.render, List.lookup_append]

theorem Service.render_ne_nil {s : Service} (h : s.Lawful) : s.render ≠ [] := by
  simp [Service.render, mappings_ne_nil h.ports ServicePort.render_ne_nil]

/-! ### Deployments -/

theorem Container.get?_ports_render (c : Container) :
    (Value.map c.render).get? "ports" = shownList (c.ports.filterMap fun p => shown p.render) := by
  simp [Container.render, List.lookup_append]

theorem Container.render_ne_nil (c : Container) : c.render ≠ [] := by
  simp [Container.render, textEntry]

/-- The specification of the pods in the template of a deployment that has containers. -/
theorem Deployment.get?_spec_renderTemplate {d : Deployment} (h : d.Lawful) :
    (Value.map d.renderTemplate).get? "spec" = some (.map (mappings "containers" d.containers Container.render)) := by
  simp [Deployment.renderTemplate, List.lookup_append,
    shown_of_ne_nil (mappings_ne_nil h.containers Container.render_ne_nil)]

theorem Deployment.get?_template_render {d : Deployment} (h : d.Lawful) :
    (Value.map d.render).get? "template" = some (.map d.renderTemplate) := by
  simp [Deployment.render, List.lookup_append,
    shown_of_ne_nil (Value.ne_nil_of_get? (Deployment.get?_spec_renderTemplate h))]

theorem Deployment.render_ne_nil {d : Deployment} (h : d.Lawful) : d.render ≠ [] :=
  Value.ne_nil_of_get? (Deployment.get?_template_render h)

/-! ### Build configurations -/

theorem BuildSource.get?_git_render (s : BuildSource) :
    (Value.map s.render).get? "git" = some (.map (textEntry "uri" s.gitUri ++ optionalText "ref" s.gitRef)) := by
  have hgit : textEntry "uri" s.gitUri ++ optionalText "ref" s.gitRef ≠ [] := by simp [textEntry]
  simp [BuildSource.render, List.lookup_append, shown_of_ne_nil hgit]

theorem BuildConfig.get?_source_render {b : BuildConfig} {source : BuildSource} (h : b.source = some source) :
    (Value.map b.render).get? "source" = some (.map source.render) := by
  simp [BuildConfig.render, List.lookup_append, h, shown_of_ne_nil (Value.ne_nil_of_get? source.get?_git_render)]

theorem BuildConfig.get?_strategy_render (b : BuildConfig) :
    (Value.map b.render).get? "strategy" = b.strategy.bind fun s => shown s.render := by
  simp [BuildConfig.render, List.lookup_append]

/-- A build from source that has an image to build from. -/
theorem BuildStrategy.get?_sourceStrategy_render {s : BuildStrategy} {image : String} (htype : s.type = .source)
    (hbase : s.base = some image) : (Value.map s.render).get? "sourceStrategy" =
      some (.map (mapping "from" (renderBase image))) := by
  have hfrom : optionalMapping "from" (some image) renderBase = mapping "from" (renderBase image) := rfl
  have hne : mapping "from" (renderBase image) ≠ [] := by simp [mapping, renderBase, textEntry]
  simp [BuildStrategy.render, htype, hbase, List.lookup_append, hfrom, shown_of_ne_nil hne]

theorem BuildConfig.get?_output_render {b : BuildConfig} {image : String} (h : b.output = some image) :
    (Value.map b.render).get? "output" = some (.map (renderOutput image)) := by
  simp [BuildConfig.render, List.lookup_append, h, shown, renderOutput, mapping, textEntry]

theorem BuildConfig.render_ne_nil {b : BuildConfig} (h : b.Lawful) : b.render ≠ [] := by
  obtain ⟨source, hsource, -⟩ := h.source
  exact Value.ne_nil_of_get? (BuildConfig.get?_source_render hsource)

end Manifests
