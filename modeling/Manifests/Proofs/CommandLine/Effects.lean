import Manifests.Proofs.CommandLine.Listing
import Manifests.Proofs.Composition.FileNames
import Manifests.Proofs.FileTree.OperatingSystem

/-! # What runs leave behind

A run leaves the file tree alone unless it comes to the writing of manifests: unless it is a `compose` that is no dry
run, is called with proper arguments and settings, and ends at no failure (`Spared`, `Composes`). Where it comes there
and all is written, the directory has a file for each manifest of the report, directories on the way to it may be new,
and nothing else is different (`LeavesManifests`). How much a run prints makes no difference. -/

namespace Manifests.CommandLine

open FileTree

/-! ### Settings and loading -/

theorem run_bind_of_leaves {α β : Type} {x : StateM FileTree α} {f : α → StateM FileTree β} {tree : FileTree}
    (h : (x.run tree).2 = tree) : (x >>= f).run tree = (f (x.run tree).1).run tree := by
  have hrun : x.run tree = ((x.run tree).1, tree) := Prod.ext rfl h
  exact run_bind_of_run hrun f

section
variable {host : Host (StateM FileTree)} {here : Place}

theorem readSettingsFile_leaves (h : host.OverTree here) (path : String) (tree : FileTree) :
    ((readSettingsFile host path).run tree).2 = tree := by
  rw [readSettingsFile, run_bind_of_leaves ((h.source tree).read _)]
  split
  · rfl
  · split <;> rfl

theorem readSettings_leaves (h : host.OverTree here) (config : Option String) (tree : FileTree) :
    ((readSettings host config).run tree).2 = tree := by
  cases config with
  | some path => exact readSettingsFile_leaves h path tree
  | none =>
    show ((host.isFile _ >>= _).run tree).2 = tree
    rw [run_bind_of_leaves (h.isFile _ tree)]
    split
    · exact readSettingsFile_leaves h _ tree
    · rfl

theorem load_leaves (h : host.OverTree here) (file : String) (tree : FileTree) :
    ((host.source.load file).run.run tree).2 = tree :=
  congrArg Prod.snd (Source.load_onlyReads (h.source tree) file)

end

/-! ### Which runs write -/

/-- The options of a run with the policy of the command line, or else with that of the settings. -/
def optionsWith (settings : Settings) (policy : Option FailurePolicy) : Options :=
  { settings.options with failurePolicy := policy.getD settings.options.failurePolicy }

/-- The directory of the command line, or else that of the settings, or else the usual one. -/
def directoryWith (settings : Settings) (outDir : Option String) : String :=
  (outDir <|> settings.outputDirectory).getD manifestDirectory

/-- A run in a tree does not come to writing. -/
inductive Spared (host : Host (StateM FileTree)) (tree : FileTree) (arguments : List String) : Prop
  /-- The arguments are refused, or ask for help or for the version. -/
  | arguments {stop : Stop} : Invocation.read arguments = .error stop → Spared host tree arguments
  /-- The settings cannot be read. -/
  | settings {i : Invocation} {fault : SettingsFault} : Invocation.read arguments = .ok i →
      ((readSettings host i.config).run tree).1 = .error fault → Spared host tree arguments
  | check {i : Invocation} : Invocation.read arguments = .ok i → i.command = .check → Spared host tree arguments
  | list {i : Invocation} : Invocation.read arguments = .ok i → i.command = .list → Spared host tree arguments
  | dryRun {i : Invocation} {outDir : Option String} {policy : Option FailurePolicy} :
      Invocation.read arguments = .ok i → i.command = .compose outDir true policy → Spared host tree arguments
  /-- The declarations cannot be loaded. -/
  | loading {i : Invocation} {failure : LoadFailure} : Invocation.read arguments = .ok i →
      ((host.source.load i.file).run.run tree).1 = .error failure → Spared host tree arguments
  /-- The first failure ends the run, and some resource fails. -/
  | failing {i : Invocation} {settings : Settings} {outDir : Option String} {dryRun : Bool}
      {policy : Option FailurePolicy} {ds : List Declaration} {r : Report} : Invocation.read arguments = .ok i →
      ((readSettings host i.config).run tree).1 = .ok settings → i.command = .compose outDir dryRun policy →
      ((host.source.load i.file).run.run tree).1 = .ok ds → (optionsWith settings policy).failurePolicy = .failFast →
      compose { optionsWith settings policy with failurePolicy := .keepGoing } ds = .ok r → r.failures ≠ [] →
      Spared host tree arguments

/-- A run in a tree composes a report and comes to writing it into a directory. -/
inductive Composes (host : Host (StateM FileTree)) (tree : FileTree) (arguments : List String) (directory : String)
    (r : Report) : Prop
  | intro {i : Invocation} {settings : Settings} {outDir : Option String} {policy : Option FailurePolicy}
      {ds : List Declaration} : Invocation.read arguments = .ok i →
      ((readSettings host i.config).run tree).1 = .ok settings → i.command = .compose outDir false policy →
      ((host.source.load i.file).run.run tree).1 = .ok ds → compose (optionsWith settings policy) ds = .ok r →
      directory = directoryWith settings outDir → Composes host tree arguments directory r

theorem Composes.unique {host : Host (StateM FileTree)} {tree : FileTree} {arguments : List String}
    {directory directory' : String} {r r' : Report} (h : Composes host tree arguments directory r)
    (h' : Composes host tree arguments directory' r') : directory = directory' ∧ r = r' := by
  obtain ⟨hread, hsettings, hcommand, hload, hcompose, rfl⟩ := h
  obtain ⟨hread', hsettings', hcommand', hload', hcompose', rfl⟩ := h'
  obtain rfl := Except.ok.inj (hread.symm.trans hread')
  obtain rfl := Except.ok.inj (hsettings.symm.trans hsettings')
  obtain rfl := Except.ok.inj (hload.symm.trans hload')
  cases hcommand.symm.trans hcommand'
  exact ⟨rfl, Except.ok.inj (hcompose.symm.trans hcompose')⟩

/-- Where the first failure ends a run, a report has none, and else the run that goes on has one. -/
theorem compose_failFast_iff {options : Options} (hpolicy : options.failurePolicy = .failFast) (ds : List Declaration) :
    (∃ r, compose options ds = .ok r) ↔
      ∃ r, compose { options with failurePolicy := .keepGoing } ds = .ok r ∧ r.failures = [] := by
  obtain ⟨policy, defaultNamespace⟩ := options
  obtain rfl : policy = .failFast := hpolicy
  rw [(compose_failFast defaultNamespace ds).ok_iff]
  simp only [compose_keepGoing]
  constructor
  · intro h
    exact ⟨_, rfl, h⟩
  · rintro ⟨r, hr, h⟩
    obtain rfl := Except.ok.inj hr
    exact h

theorem failing_of_halt {options : Options} {ds : List Declaration} {halt : Halt}
    (h : compose options ds = .error halt) : options.failurePolicy = .failFast ∧
      ∃ r, compose { options with failurePolicy := .keepGoing } ds = .ok r ∧ r.failures ≠ [] := by
  obtain ⟨policy, defaultNamespace⟩ := options
  cases policy with
  | keepGoing =>
    rw [compose_keepGoing] at h
    cases h
  | failFast =>
    refine ⟨rfl, _, compose_keepGoing defaultNamespace ds, fun hnone => ?_⟩
    obtain ⟨r, hr⟩ := (compose_failFast defaultNamespace ds).ok_iff.mpr hnone
    cases h.symm.trans hr

theorem Composes.not_spared {host : Host (StateM FileTree)} {tree : FileTree} {arguments : List String}
    {directory : String} {r : Report} (h : Composes host tree arguments directory r) :
    ¬Spared host tree arguments := by
  obtain ⟨hread, hsettings, hcommand, hload, hcompose, -⟩ := h
  intro hspared
  cases hspared with
  | arguments hstop => cases hread.symm.trans hstop
  | settings hread' hfault =>
    obtain rfl := Except.ok.inj (hread.symm.trans hread')
    cases hsettings.symm.trans hfault
  | check hread' hcheck =>
    obtain rfl := Except.ok.inj (hread.symm.trans hread')
    cases hcommand.symm.trans hcheck
  | list hread' hlist =>
    obtain rfl := Except.ok.inj (hread.symm.trans hread')
    cases hcommand.symm.trans hlist
  | dryRun hread' hdry =>
    obtain rfl := Except.ok.inj (hread.symm.trans hread')
    cases hcommand.symm.trans hdry
  | loading hread' hfailure =>
    obtain rfl := Except.ok.inj (hread.symm.trans hread')
    cases hload.symm.trans hfailure
  | failing hread' hsettings' hcommand' hload' hpolicy hgoing hfailures =>
    obtain rfl := Except.ok.inj (hread.symm.trans hread')
    obtain rfl := Except.ok.inj (hsettings.symm.trans hsettings')
    obtain rfl := Except.ok.inj (hload.symm.trans hload')
    cases hcommand.symm.trans hcommand'
    obtain ⟨r', hr', hnone⟩ := (compose_failFast_iff hpolicy _).mp ⟨r, hcompose⟩
    obtain rfl := Except.ok.inj (hgoing.symm.trans hr')
    exact hfailures hnone

section
variable {host : Host (StateM FileTree)} {here : Place} {tree : FileTree}

theorem run_of_settings (h : host.OverTree here) {arguments : List String} {i : Invocation} {settings : Settings}
    (hread : Invocation.read arguments = .ok i) (hsettings : ((readSettings host i.config).run tree).1 = .ok settings) :
    (run host arguments).run tree = (runWith host settings i).run tree := by
  unfold run
  rw [hread]
  dsimp only
  rw [run_bind_of_leaves (readSettings_leaves h _ tree), hsettings]

theorem runWith_of_load (h : host.OverTree here) {i : Invocation} {settings : Settings} {outDir : Option String}
    {dryRun : Bool} {policy : Option FailurePolicy} {ds : List Declaration}
    (hcommand : i.command = .compose outDir dryRun policy)
    (hload : ((host.source.load i.file).run.run tree).1 = .ok ds) :
    (runWith host settings i).run tree =
      (runCompose host i.voice (optionsWith settings policy) (directoryWith settings outDir) dryRun ds).run tree := by
  unfold runWith
  rw [run_bind_of_leaves (load_leaves h _ tree), hload, hcommand]
  rfl

theorem runWith_of_load_error (h : host.OverTree here) {i : Invocation} {settings : Settings} {failure : LoadFailure}
    (hload : ((host.source.load i.file).run.run tree).1 = .error failure) :
    ((runWith host settings i).run tree).2 = tree := by
  unfold runWith
  rw [run_bind_of_leaves (load_leaves h _ tree), hload]
  rfl

theorem runWith_of_check_or_list (h : host.OverTree here) {i : Invocation} {settings : Settings}
    (hcommand : i.command = .check ∨ i.command = .list) : ((runWith host settings i).run tree).2 = tree := by
  unfold runWith
  rw [run_bind_of_leaves (load_leaves h _ tree)]
  split
  · rfl
  · rcases hcommand with hcommand | hcommand <;> rw [hcommand] <;> rfl

theorem runCompose_of_dryRun {v : Voice} {options : Options} {directory : String} {ds : List Declaration} :
    ((runCompose host v options directory true ds).run tree).2 = tree := by
  unfold runCompose
  split <;> rfl

theorem runCompose_of_halt {v : Voice} {options : Options} {directory : String} {dryRun : Bool}
    {ds : List Declaration} {halt : Halt} (hcompose : compose options ds = .error halt) :
    ((runCompose host v options directory dryRun ds).run tree).2 = tree := by
  unfold runCompose
  rw [hcompose]
  rfl

/-- What a run gives that comes to writing is what the writing gives. -/
theorem runCompose_of_report {v : Voice} {options : Options} {directory : String} {ds : List Declaration} {r : Report}
    (hcompose : compose options ds = .ok r) :
    (runCompose host v options directory false ds).run tree =
      match (writeManifests host directory r.manifests).run tree with
      | (.ok (), after) => (composed v false directory r, after)
      | (.error fault, after) => (⟨1, "", v.progress r.progress ++ v.complain fault.message⟩, after) := by
  unfold runCompose
  rw [hcompose]
  show ((writeManifests host directory r.manifests >>= _).run tree) = _
  rw [StateT.run_bind]
  rcases (writeManifests host directory r.manifests).run tree with ⟨fault | _, after⟩ <;> rfl

theorem run_of_composes (h : host.OverTree here) {arguments : List String} {directory : String} {r : Report}
    (hcomposes : Composes host tree arguments directory r) :
    ∃ v : Voice, (run host arguments).run tree =
      match (writeManifests host directory r.manifests).run tree with
      | (.ok (), after) => (composed v false directory r, after)
      | (.error fault, after) => (⟨1, "", v.progress r.progress ++ v.complain fault.message⟩, after) := by
  obtain @⟨i, settings, outDir, policy, ds, hread, hsettings, hcommand, hload, hcompose, rfl⟩ := hcomposes
  refine ⟨i.voice, ?_⟩
  rw [run_of_settings h hread hsettings, runWith_of_load h hcommand hload, runCompose_of_report hcompose]

/-- Each run is spared and leaves the tree, or comes to writing. -/
theorem spared_or_composes (h : host.OverTree here) (tree : FileTree) (arguments : List String) :
    (Spared host tree arguments ∧ ((run host arguments).run tree).2 = tree) ∨
      ∃ directory r, Composes host tree arguments directory r := by
  cases hread : Invocation.read arguments with
  | error stop =>
    refine Or.inl ⟨.arguments hread, ?_⟩
    unfold run
    rw [hread]
    rfl
  | ok i =>
    cases hsettings : ((readSettings host i.config).run tree).1 with
    | error fault =>
      refine Or.inl ⟨.settings hread hsettings, ?_⟩
      unfold run
      rw [hread]
      dsimp only
      rw [run_bind_of_leaves (readSettings_leaves h _ tree), hsettings]
      rfl
    | ok settings =>
      rw [run_of_settings h hread hsettings]
      cases hload : ((host.source.load i.file).run.run tree).1 with
      | error failure => exact Or.inl ⟨.loading hread hload, runWith_of_load_error h hload⟩
      | ok ds =>
        cases hcommand : i.command with
        | check => exact Or.inl ⟨.check hread hcommand, runWith_of_check_or_list h (.inl hcommand)⟩
        | list => exact Or.inl ⟨.list hread hcommand, runWith_of_check_or_list h (.inr hcommand)⟩
        | compose outDir dryRun policy =>
          rw [runWith_of_load h hcommand hload]
          cases dryRun with
          | true => exact Or.inl ⟨.dryRun hread hcommand, runCompose_of_dryRun⟩
          | false =>
            cases hcompose : compose (optionsWith settings policy) ds with
            | error halt =>
              obtain ⟨hpolicy, r, hgoing, hfailures⟩ := failing_of_halt hcompose
              exact Or.inl
                ⟨.failing hread hsettings hcommand hload hpolicy hgoing hfailures, runCompose_of_halt hcompose⟩
            | ok r => exact Or.inr ⟨_, r, .intro hread hsettings hcommand hload hcompose rfl⟩

end

/-! ### What is written -/

/-- The second tree has the manifests in files of their own in a directory, and else it is the first one but for
    directories on the way to this one that were missing. -/
structure LeavesManifests (here : Place) (directory : Path) (tree after : FileTree) (ms : List Manifest) : Prop where
  /-- The path of the directory leads to its place. -/
  inside : after.walk here directory = .ok (directory.place here)
  distinct : (ms.map (·.fileName)).Nodup
  files : ∀ m ∈ ms, after.item? (filePlace (directory.place here) m) = some (.file (.text m.text))
  others : ∀ q, (∀ m ∈ ms, q ≠ filePlace (directory.place here) m) → after.item? q = tree.item? q ∨
    (directory.LeadsThrough here q ∧ tree.item? q = none ∧ after.item? q = some .directory)

section
variable {host : Host (StateM FileTree)} {here : Place}

/-- Where a host over a tree writes all manifests, the tree by itself writes the same. -/
theorem writeEach_of_overTree (h : host.OverTree here) (start : FileTree) {directory : String} {ms : List Manifest}
    {tree after : FileTree} (hrun : (writeEach host directory ms).run tree = (.ok (), after)) :
    (writeEach (start.host here) directory ms).run tree = (.ok (), after) := by
  induction ms generalizing tree with
  | nil => exact hrun
  | cons m ms ih =>
    unfold writeEach at hrun
    rcases (h.write (Path.ofDirectoryText directory) m.fileName m.text).run_bind _ tree with
      ⟨next, hwrite, hnext⟩ | ⟨fault, hfault⟩
    · rw [hnext] at hrun
      rw [writeEach_of_ok hwrite]
      exact ih hrun
    · rw [hfault] at hrun
      cases hrun

theorem leavesManifests_of_writeManifests (h : host.OverTree here) {directory : String} {ms : List Manifest}
    {tree after : FileTree} (hnames : (ms.map (·.fileName)).Nodup)
    (hrun : (writeManifests host directory ms).run tree = (.ok (), after)) :
    LeavesManifests here (Path.ofDirectoryText directory) tree after ms := by
  have hmade := h.createDirectories (Path.ofDirectoryText directory) tree
  rw [writeManifests, StateT.run_bind] at hrun
  generalize (host.createDirectories (Path.ofDirectoryText directory)).run tree = made at hmade hrun
  obtain ⟨fault | _, made⟩ := made
  · cases hrun
  · have hwritten := writeEach_written made (hmade.reached rfl) hnames
    rw [writeEach_of_overTree h made hrun] at hwritten
    obtain ⟨written, -, hall, hwalk, hwritten⟩ := hwritten
    obtain rfl := hall rfl
    exact ⟨hwalk, hnames, hwritten.files, fun q hq => hwritten.others q hq ▸ hmade.made q⟩

end

theorem composed_code (v : Voice) (dryRun : Bool) (wrote : String) (r : Report) :
    (composed v dryRun wrote r).code = if r.failures = [] then 0 else 1 := by
  have hcode : (composed v dryRun wrote r).code = exitCode r.isSuccess := by
    unfold composed
    split <;> rfl
  rw [hcode, exitCode, Report.isSuccess]
  simp

/-- Under any operating system and in any tree, a run that is spared writing leaves the tree as it is. Any other run
    composes a report, and where the directory can be made and the files can be written, it leaves the manifests of the
    report in files of that directory and nothing else but directories on the way there, and its code tells whether
    the report has failures. -/
theorem run_leaves (os : OperatingSystem) (start tree : FileTree) (here : Place) (arguments : List String) :
    (Spared (os.host start here) tree arguments → ((run (os.host start here) arguments).run tree).2 = tree) ∧
    (¬Spared (os.host start here) tree arguments → ∃ directory r,
      Composes (os.host start here) tree arguments directory r ∧
      (((writeManifests (os.host start here) directory r.manifests).run tree).1 = .ok () →
        ((run (os.host start here) arguments).run tree).1.code = (if r.failures = [] then 0 else 1) ∧
        LeavesManifests here (Path.ofDirectoryText directory) tree ((run (os.host start here) arguments).run tree).2
          r.manifests)) := by
  have h := os.host_overTree start here
  rcases spared_or_composes h tree arguments with ⟨hspared, hleaves⟩ | ⟨directory, r, hcomposes⟩
  · exact ⟨fun _ => hleaves, fun hnot => absurd hspared hnot⟩
  · refine ⟨fun hspared => absurd hspared hcomposes.not_spared, fun _ => ⟨directory, r, hcomposes, fun hok => ?_⟩⟩
    obtain ⟨v, hrun⟩ := run_of_composes h hcomposes
    have hnames : (r.manifests.map (·.fileName)).Nodup := by
      obtain ⟨-, -, -, -, hcompose, -⟩ := hcomposes
      exact nodup_fileNames hcompose
    rcases hwrite : (writeManifests (os.host start here) directory r.manifests).run tree with ⟨_, after⟩
    rw [hwrite] at hok hrun
    obtain rfl := hok
    rw [hrun]
    exact ⟨composed_code v false directory r, leavesManifests_of_writeManifests h hnames hwrite⟩

/-- A run that writes two services into a directory which it makes. -/
theorem servicesTree_run_leaves :
    ∃ r, compose ⟨.keepGoing, none⟩ [numberedService, identifiedService] = .ok r ∧
      r.manifests.map (·.fileName) = ["service-7.yaml", "service-a-b.yaml"] ∧
      ((run (OperatingSystem.obliging.host servicesTree []) ["compose", "app.yaml", "--policy", "continue"]).run
        servicesTree).1.code = 0 ∧
      LeavesManifests [] (Path.ofDirectoryText "manifests") servicesTree
        ((run (OperatingSystem.obliging.host servicesTree []) ["compose", "app.yaml", "--policy", "continue"]).run
          servicesTree).2 r.manifests := by
  have hcompose := compose_keepGoing none [numberedService, identifiedService]
  refine ⟨_, hcompose, rfl, ?_⟩
  generalize hr : Report.addAll _ _ _ = r at hcompose ⊢
  have hcomposes : Composes (OperatingSystem.obliging.host servicesTree []) servicesTree
      ["compose", "app.yaml", "--policy", "continue"] "manifests" r := by
    have hread : Invocation.read ["compose", "app.yaml", "--policy", "continue"] =
        .ok ⟨.text, false, none, .compose none false (some .keepGoing), "app.yaml"⟩ := rfl
    have hload : (((OperatingSystem.obliging.host servicesTree []).source.load "app.yaml").run.run servicesTree).1 =
        .ok [numberedService, identifiedService] := by
      rw [OperatingSystem.host_obliging, load_servicesTree]
    exact .intro hread rfl rfl hload hcompose rfl
  obtain ⟨directory, r', hcomposes', hleaves⟩ :=
    (run_leaves OperatingSystem.obliging servicesTree servicesTree [] _).2 hcomposes.not_spared
  obtain ⟨rfl, rfl⟩ := hcomposes.unique hcomposes'
  have hmade : ((servicesTree.host []).createDirectories (Path.ofDirectoryText "manifests")).run servicesTree =
      (.ok (), servicesTree.put ["manifests"] .directory) := rfl
  have hwritten : ((writeManifests (OperatingSystem.obliging.host servicesTree []) "manifests" r.manifests).run
      servicesTree).1 = .ok () := by
    rw [OperatingSystem.host_obliging, writeManifests, StateT.run_bind, hmade]
    have hwalk : (servicesTree.put ["manifests"] .directory).walk [] (Path.ofDirectoryText "manifests") =
        .ok ["manifests"] := rfl
    refine writeEach_eq_ok servicesTree hwalk fun m _ => ?_
    rw [item?_put servicesTree (List.cons_ne_nil _ _), if_neg (by simp [filePlace])]
    simp [item?, servicesTree, filePlace, List.lookup_cons]
  obtain ⟨hcode, hmanifests⟩ := hleaves hwritten
  refine ⟨?_, hmanifests⟩
  rw [hcode, ← hr]
  rfl

end Manifests.CommandLine
