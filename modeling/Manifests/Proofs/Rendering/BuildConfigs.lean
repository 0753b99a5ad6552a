import Manifests.Proofs.Rendering.Injective

/-! # Build configurations in manifests

The manifest of a build configuration shows all that was declared, but for one part: a strategy that builds from source
may be declared with a Dockerfile, passes validation with it, and is rendered without it. -/

namespace Manifests

open Rendering

/-! ### Parts that can be told -/

@[simp] theorem BuildSource.render_inj {s s' : BuildSource} : s.render = s'.render ↔ s = s' := by
  cases s; cases s'
  simp [BuildSource.render_filled, filled_inj, and_assoc]

theorem BuildSource.render_ne_nil (s : BuildSource) : s.render ≠ [] :=
  Value.ne_nil_of_get? s.get?_git_render

theorem renderBase_inj {image image' : String} : renderBase image = renderBase image' ↔ image = image' := by
  simp [renderBase, textEntry]

theorem renderBase_ne_nil (image : String) : renderBase image ≠ [] := by
  simp [renderBase, textEntry]

theorem renderOutput_inj {image image' : String} : renderOutput image = renderOutput image' ↔ image = image' := by
  simp [renderOutput, mapping, textEntry]

theorem renderOutput_ne_nil (image : String) : renderOutput image ≠ [] := by
  simp [renderOutput, mapping, textEntry]

/-! ### Strategies -/

/-- The path of the Dockerfile that a strategy has no use for, because it builds from source. -/
def BuildStrategy.unusedPath (s : BuildStrategy) : Option String :=
  if s.type = .source then s.dockerfilePath else none

/-- The strategy without a path that it has no use for. -/
def BuildStrategy.withoutUnusedPath (s : BuildStrategy) : BuildStrategy :=
  { s with dockerfilePath := if s.type = .docker then s.dockerfilePath else none }

theorem BuildStrategy.eq_of_paths {s s' : BuildStrategy} (h : s.withoutUnusedPath = s'.withoutUnusedPath)
    (hpath : s.unusedPath = s'.unusedPath) : s = s' := by
  obtain ⟨type, base, path⟩ := s
  obtain ⟨type', base', path'⟩ := s'
  obtain ⟨rfl, rfl, hused⟩ := BuildStrategy.mk.inj h
  cases type with
  | docker => exact congrArg _ hused
  | source => exact congrArg _ hpath

theorem BuildStrategy.details_inj {s s' : BuildStrategy} (htype : s.type = s'.type) :
    s.details = s'.details ↔ s.withoutUnusedPath = s'.withoutUnusedPath := by
  obtain ⟨type, base, path⟩ := s
  obtain ⟨type', base', path'⟩ := s'
  obtain rfl : type = type' := htype
  cases type <;>
    simp [details, filled_inj, withoutUnusedPath, bind_shown_inj renderBase_ne_nil fun _ _ => renderBase_inj]

theorem StrategyType.name_inj {type type' : StrategyType} : type.name = type'.name ↔ type = type' := by
  cases type <;> cases type' <;> simp [StrategyType.name]

theorem BuildStrategy.render_eq_iff {s s' : BuildStrategy} :
    s.render = s'.render ↔ s.withoutUnusedPath = s'.withoutUnusedPath := by
  simp only [BuildStrategy.render_filled]
  rw [filled_inj (by simp) (by simp)]
  -- The type tells which of the two slots is filled, and only then do details stand against details.
  by_cases htype : s.type = s'.type
  · rw [← details_inj htype]
    cases hs : s'.type <;> simp [hs, htype]
  · have hname : s.type.name ≠ s'.type.name := mt StrategyType.name_inj.mp htype
    have hne : s.withoutUnusedPath ≠ s'.withoutUnusedPath := fun h => htype (BuildStrategy.mk.inj h).1
    simp [hname, hne]

theorem BuildStrategy.render_ne_nil (s : BuildStrategy) : s.render ≠ [] := by
  simp [BuildStrategy.render_filled, filled]

/-! ### Build configurations -/

/-- The path of the Dockerfile that is declared without being used. -/
def BuildConfig.unusedPath (b : BuildConfig) : Option String := b.strategy.bind BuildStrategy.unusedPath

/-- The build configuration without a path that it has no use for. -/
def BuildConfig.withoutUnusedPath (b : BuildConfig) : BuildConfig :=
  { b with strategy := b.strategy.map BuildStrategy.withoutUnusedPath }

theorem trigger_inj {trigger trigger' : String} :
    textEntry "type" trigger = textEntry "type" trigger' ↔ trigger = trigger' := by
  simp [textEntry]

theorem trigger_ne_nil (trigger : String) : textEntry "type" trigger ≠ [] := by
  simp [textEntry]

theorem BuildConfig.render_eq_iff {b b' : BuildConfig} :
    b.render = b'.render ↔ b.withoutUnusedPath = b'.withoutUnusedPath := by
  cases b; cases b'
  have htriggers := @filterMap_shown_inj String (textEntry "type") trigger_ne_nil fun _ _ => trigger_inj
  simp [BuildConfig.render_filled, filled_inj, BuildConfig.withoutUnusedPath,
    bind_shown_inj BuildSource.render_ne_nil fun _ _ => BuildSource.render_inj,
    bind_shown_eq_iff BuildStrategy.render_ne_nil fun _ _ => BuildStrategy.render_eq_iff,
    bind_shown_inj renderOutput_ne_nil fun _ _ => renderOutput_inj,
    htriggers]

theorem BuildConfig.eq_of_paths {b b' : BuildConfig} (h : b.withoutUnusedPath = b'.withoutUnusedPath)
    (hpath : b.unusedPath = b'.unusedPath) : b = b' := by
  obtain ⟨source, strategy, output, triggers⟩ := b
  obtain ⟨source', strategy', output', triggers'⟩ := b'
  obtain ⟨rfl, hstrategy, rfl, rfl⟩ := BuildConfig.mk.inj h
  have hpath : strategy.bind BuildStrategy.unusedPath = strategy'.bind BuildStrategy.unusedPath := hpath
  have hstrategy : strategy.map BuildStrategy.withoutUnusedPath = strategy'.map BuildStrategy.withoutUnusedPath :=
    hstrategy
  cases strategy with
  | none => rw [Option.map_eq_none_iff.mp hstrategy.symm]
  | some s =>
    cases strategy' with
    | none => cases hstrategy
    | some s' => rw [BuildStrategy.eq_of_paths (Option.some.inj hstrategy) hpath]

/-- Two valid build configurations with the same manifest are the same, if they do not differ in a Dockerfile that a
    strategy has no use for. Such a Dockerfile is lost: any other may stand in its place, or none, and the record is as
    valid and has the same manifest. -/
theorem ValidRecord.buildConfig_sameManifest {r : ValidRecord} {b : BuildConfig}
    (hspec : r.record.spec = .buildConfig b) :
    (∀ (r' : ValidRecord) (b' : BuildConfig), r'.record.spec = .buildConfig b' →
        r'.record.render = r.record.render → b'.unusedPath = b.unusedPath → b' = b) ∧
      ∀ s, b.strategy = some s → s.type = .source → ∀ path, ∃ r' : ValidRecord,
        r'.record.spec = .buildConfig { b with strategy := some { s with dockerfilePath := path } } ∧
          r'.record.render = r.record.render := by
  constructor
  · intro r' b' hspec' hrender hpath
    obtain ⟨-, -, hspecs⟩ := Record.render_inj.mp hrender
    rw [hspec, hspec'] at hspecs
    exact BuildConfig.eq_of_paths (BuildConfig.render_eq_iff.mp hspecs) hpath
  · intro s hs htype path
    obtain ⟨hname, hrules⟩ := Record.valid_iff.mp r.valid
    rw [hspec] at hrules
    have hb : b.Lawful := hrules
    let b' : BuildConfig := { b with strategy := some { s with dockerfilePath := path } }
    -- The rules ask for the base of a build from source and say nothing of its Dockerfile.
    have hb' : b'.Lawful :=
      ⟨hb.source, fun s' hs' _ => Option.mem_some_iff.mp hs' ▸ hb.base s hs htype, hb.output⟩
    have hvalid : Record.Valid { r.record with spec := .buildConfig b' } := Record.valid_iff.mpr ⟨hname, hb'⟩
    have hkind : Kind.buildConfig = r.record.kind := (congrArg Spec.kind hspec).symm
    have hshown : (Spec.buildConfig b').render = r.record.spec.render := by
      rw [hspec]
      refine BuildConfig.render_eq_iff.mpr ?_
      simp [b', BuildConfig.withoutUnusedPath, BuildStrategy.withoutUnusedPath, hs, htype]
    exact ⟨⟨_, hvalid⟩, rfl, Record.render_inj.mpr ⟨hkind, rfl, hshown⟩⟩

/-- A build from source, with or without a Dockerfile. -/
def sourceBuild (path : Option String) : Record :=
  ⟨"app", "app", none, {}, {},
    .buildConfig ⟨some ⟨"https://a.example/a.git", none, none⟩, some ⟨.source, some "base:1", path⟩,
      some "image:1", []⟩,
    ⟨"app.yaml", 0⟩⟩

/-- Without a Dockerfile, the manifest of a build from source tells all of it; with one, it does not. -/
theorem sourceBuild_sameManifest :
    (∀ (r : ValidRecord) (b : BuildConfig), r.record.spec = .buildConfig b →
        r.record.render = (sourceBuild none).render → b.unusedPath = none →
          .buildConfig b = (sourceBuild none).spec) ∧
      ∃ r : ValidRecord, r.record.spec = (sourceBuild (some "Containerfile")).spec ∧
        r.record.render = (sourceBuild none).render := by
  obtain ⟨htold, hlost⟩ := ValidRecord.buildConfig_sameManifest (r := ⟨sourceBuild none, rfl⟩) rfl
  exact ⟨fun r b hspec hrender hpath => congrArg _ (htold r b hspec hrender hpath),
    hlost _ rfl rfl (some "Containerfile")⟩

/-- The Dockerfile of a build from source is declared, valid and not in the manifest. -/
theorem sourceBuild_path_lost :
    (sourceBuild (some "Containerfile")).Valid ∧ (sourceBuild none).Valid ∧
      (sourceBuild (some "Containerfile")).render = (sourceBuild none).render ∧
        (sourceBuild (some "Containerfile")).spec ≠ (sourceBuild none).spec :=
  ⟨rfl, rfl, rfl, by decide⟩

end Manifests
