import Manifests.Defaults
import Manifests.Failure
import Manifests.Proofs.Resolution.Pointwise
import Manifests.Proofs.TextMap

/-! # What is filled in

A record gets a namespace, servers, hosts or a label only where its declaration leaves a gap (`Record.FilledIn`). What
was filled in is no gap any more, so filling in again changes nothing; and no reference stands where something is
filled in, so that a record can be resolved before or afterwards. -/

namespace Manifests

/-! ### Gaps -/

/-- A specification differs from another only where that has a gap: in the servers of a gateway without any, or in the
    hosts of a virtual service without any. -/
inductive Spec.FilledIn : Spec → Spec → Prop
  | same (s : Spec) : FilledIn s s
  | servers {g : Gateway} (servers : List Server) : g.servers = [] →
      FilledIn (.gateway g) (.gateway { g with servers })
  | hosts {v : VirtualService} (hosts : List String) : v.hosts = [] →
      FilledIn (.virtualService v) (.virtualService { v with hosts })

/-- A record differs from another only where that has a gap. -/
structure Record.FilledIn (r filled : Record) : Prop where
  id : filled.id = r.id
  name : filled.name = r.name
  annotations : filled.annotations = r.annotations
  provenance : filled.provenance = r.provenance
  /-- A namespace that is declared is kept. -/
  namespaceName : filled.namespaceName = r.namespaceName ∨ r.namespaceName = none
  /-- Labels that are declared are kept, and a build configuration alone may get one. -/
  labels : ∀ key, filled.labels.get? key = r.labels.get? key ∨
    r.kind = .buildConfig ∧ key = "app" ∧ r.labels.get? key = none
  spec : r.spec.FilledIn filled.spec

theorem Spec.filledIn_withDefaults (s : Spec) : s.FilledIn s.withDefaults := by
  cases s with
  | gateway g =>
    rw [Spec.withDefaults, Gateway.withDefaults]
    split
    · exact .servers _ (List.isEmpty_iff.mp ‹_›)
    · exact .same _
  | virtualService v =>
    rw [Spec.withDefaults, VirtualService.withDefaults]
    split
    · exact .hosts _ (List.isEmpty_iff.mp ‹_›)
    · exact .same _
  | service | deployment | route | buildConfig => exact .same _

namespace Record

/-- Only a build configuration without the label `app` gets one. -/
theorem labelsWithDefaults_eq (r : Record) :
    r.labelsWithDefaults = r.labels ∨
      r.kind = .buildConfig ∧ r.labels.get? "app" = none ∧ r.labelsWithDefaults = r.labels.insert "app" r.name := by
  unfold labelsWithDefaults
  split
  · rename_i hspec
    cases hlabel : r.labels.get? "app" with
    | some label => exact .inl (if_pos (by rw [TextMap.contains, hlabel]; rfl))
    | none => exact .inr ⟨by rw [kind, hspec]; rfl, rfl, if_neg (by rw [TextMap.contains, hlabel]; nofun)⟩
  · exact .inl rfl

theorem filledIn_withDefaults (r : Record) (defaultNamespace : Option String) :
    r.FilledIn (r.withDefaults defaultNamespace) where
  id := rfl
  name := rfl
  annotations := rfl
  provenance := rfl
  namespaceName := by
    rw [withDefaults]
    cases r.namespaceName with
    | some name => exact .inl rfl
    | none => exact .inr rfl
  labels := by
    intro key
    show r.labelsWithDefaults.get? key = _ ∨ _
    obtain hsame | ⟨hkind, hnone, hinsert⟩ := r.labelsWithDefaults_eq
    · rw [hsame]
      exact .inl rfl
    · rw [hinsert]
      by_cases hkey : key = "app"
      · subst hkey
        exact .inr ⟨hkind, rfl, hnone⟩
      · exact .inl (TextMap.get?_insert_of_ne hkey _ _)
  spec := r.spec.filledIn_withDefaults

end Record

/-! ### Filling in again -/

theorem Gateway.withDefaults_withDefaults (g : Gateway) : g.withDefaults.withDefaults = g.withDefaults := by
  have hservers : g.withDefaults.servers.isEmpty = false := by
    unfold withDefaults
    split
    · rfl
    · exact Bool.not_eq_true _ ▸ ‹_›
  rw [withDefaults, hservers, if_neg Bool.false_ne_true]

theorem VirtualService.withDefaults_withDefaults (v : VirtualService) :
    v.withDefaults.withDefaults = v.withDefaults := by
  have hhosts : v.withDefaults.hosts.isEmpty = false := by
    unfold withDefaults
    split
    · rfl
    · exact Bool.not_eq_true _ ▸ ‹_›
  rw [withDefaults, hhosts, if_neg Bool.false_ne_true]

theorem Spec.withDefaults_withDefaults (s : Spec) : s.withDefaults.withDefaults = s.withDefaults := by
  cases s with
  | gateway g => exact congrArg Spec.gateway g.withDefaults_withDefaults
  | virtualService v => exact congrArg Spec.virtualService v.withDefaults_withDefaults
  | service | deployment | route | buildConfig => rfl

theorem Spec.withDefaults_kind (s : Spec) : s.withDefaults.kind = s.kind := by
  cases s <;> rfl

namespace Record
variable (r : Record) (defaultNamespace : Option String)

theorem withDefaults_kind : (r.withDefaults defaultNamespace).kind = r.kind := r.spec.withDefaults_kind

/-- After filling in, a build configuration has the label. -/
theorem isSome_labelsWithDefaults_app (h : r.kind = .buildConfig) : (r.labelsWithDefaults.get? "app").isSome := by
  obtain ⟨b, hspec⟩ : ∃ b, r.spec = .buildConfig b := by
    cases hspec : r.spec with
    | buildConfig b => exact ⟨b, rfl⟩
    | gateway | virtualService | service | deployment | route =>
      rw [kind, hspec] at h
      cases h
  simp only [labelsWithDefaults, hspec]
  split
  · assumption
  · rw [TextMap.get?_insert_self]
    rfl

theorem labelsWithDefaults_withDefaults :
    (r.withDefaults defaultNamespace).labelsWithDefaults = r.labelsWithDefaults := by
  obtain hsame | ⟨hkind, hnone, -⟩ := (r.withDefaults defaultNamespace).labelsWithDefaults_eq
  · exact hsame
  · rw [withDefaults_kind] at hkind
    have happ : (r.labelsWithDefaults.get? "app").isSome := r.isSome_labelsWithDefaults_app hkind
    exact absurd happ (Option.not_isSome_iff_eq_none.mpr hnone)

theorem withDefaults_withDefaults :
    (r.withDefaults defaultNamespace).withDefaults defaultNamespace = r.withDefaults defaultNamespace := by
  have hnamespace : ((r.namespaceName <|> defaultNamespace) <|> defaultNamespace) =
      (r.namespaceName <|> defaultNamespace) := by
    cases r.namespaceName <;> cases defaultNamespace <;> rfl
  have hlabels := r.labelsWithDefaults_withDefaults defaultNamespace
  have hspec := r.spec.withDefaults_withDefaults
  rw [withDefaults, hlabels]
  simp only [withDefaults, hnamespace, hspec]

end Record

/-! ### Filling in and resolving -/

theorem VirtualService.withDefaults_http (v : VirtualService) : v.withDefaults.http = v.http := by
  unfold VirtualService.withDefaults
  split <;> rfl

/-- No reference stands where something is filled in. -/
theorem Spec.references_withDefaults (s : Spec) : s.withDefaults.references = s.references := by
  cases s with
  | virtualService v =>
    show v.withDefaults.references = v.references
    rw [VirtualService.references, VirtualService.references, v.withDefaults_http]
  | gateway | service | deployment | route | buildConfig => rfl

theorem VirtualService.named_withDefaults (names : String → String) (v : VirtualService) :
    v.withDefaults.named names = (v.named names).withDefaults := by
  have hhosts : (v.named names).hosts = v.hosts := rfl
  unfold withDefaults
  rw [hhosts]
  split <;> rfl

theorem Spec.named_withDefaults (names : String → String) (s : Spec) :
    s.withDefaults.named names = (s.named names).withDefaults := by
  cases s with
  | virtualService v => exact congrArg Spec.virtualService (v.named_withDefaults names)
  | gateway | service | deployment | route | buildConfig => rfl

/-- What a run makes of the references of a record: the record with the names put in, or the failure that says which
    reference is to no service. -/
def Record.resolving (services : ServiceNames) (r : Record) : Except Failure Record :=
  (r.resolve services).mapError (.unresolvedReference r.kind r.name)

namespace Record
variable (r : Record) (defaultNamespace : Option String)

theorem references_withDefaults : (r.withDefaults defaultNamespace).references = r.references :=
  r.spec.references_withDefaults

theorem named_withDefaults (names : String → String) :
    (r.withDefaults defaultNamespace).named names = (r.named names).withDefaults defaultNamespace := by
  have hlabels : (r.named names).labelsWithDefaults = r.labelsWithDefaults := by
    unfold labelsWithDefaults named
    cases r.spec <;> rfl
  have hspec := r.spec.named_withDefaults names
  simp only [withDefaults, hlabels]
  simp only [named, hspec]

theorem resolve_withDefaults (services : ServiceNames) :
    (r.withDefaults defaultNamespace).resolve services =
      (r.resolve services).map (·.withDefaults defaultNamespace) := by
  rw [resolve_eq_requiring, resolve_eq_requiring, requiring_map, references_withDefaults, named_withDefaults]

theorem resolving_withDefaults (services : ServiceNames) :
    (r.withDefaults defaultNamespace).resolving services =
      (r.resolving services).map (·.withDefaults defaultNamespace) := by
  rw [resolving, resolving, resolve_withDefaults, withDefaults_kind]
  cases r.resolve services <;> rfl

end Record

/-- A record is filled in once and for all, before its references are resolved or afterwards, and nothing that was
    declared changes. -/
theorem Record.withDefaults_laws (r : Record) (defaultNamespace : Option String) (registry : Registry) :
    (r.withDefaults defaultNamespace).withDefaults defaultNamespace = r.withDefaults defaultNamespace ∧
      (r.withDefaults defaultNamespace).resolving registry.serviceNames =
        (r.resolving registry.serviceNames).map (·.withDefaults defaultNamespace) ∧
      r.FilledIn (r.withDefaults defaultNamespace) :=
  ⟨r.withDefaults_withDefaults defaultNamespace, r.resolving_withDefaults defaultNamespace _,
    r.filledIn_withDefaults defaultNamespace⟩

end Manifests
