import LibraryGuard.Proofs.CommandLine.Arguments
import LibraryGuard.Proofs.CommandLine.Replies
import LibraryGuard.Proofs.Search.Agreement

/-!
# The two ways of naming a configuration

A check takes its configuration from the file that an option names, or else from the one that a variable names. In the second
way the environment may replace the shipped library and the probe program of the file, and in the first way it may not. So the
two come to the same settings exactly when the environment replaces nothing, and to the same reply if it does not replace the
probe program (`naming_agrees_iff_keeps`); a replaced one changes the reply (`reply_naming_ne`).
-/

namespace LibraryGuard

namespace Environment

variable {env : Environment} {name value : String}

/-- The variables with one of them set. -/
def set (env : Environment) (name value : String) : Environment := (name, value) :: env.filter (·.1 ≠ name)

/-- A variable that is set has its value, unless that is empty. -/
theorem get?_set_self (h : value ≠ "") : (env.set name value).get? name = some value := by
  simp [get?, set, h]

/-- A variable that is set leaves the others as they were. -/
theorem get?_set_of_ne {other : String} (h : other ≠ name) : (env.set name value).get? other = env.get? other := by
  have hkept : (env.filter (·.1 ≠ name)).lookup other = env.lookup other := by
    induction env with
    | nil => rfl
    | cons v rest ih =>
      obtain ⟨n, s⟩ := v
      by_cases hn : n = name
      · subst hn
        have hother : (other == n) = false := beq_eq_false_iff_ne.2 h
        rw [List.filter_cons_of_neg (by simp), List.lookup_cons, hother]
        exact ih
      · rw [List.filter_cons_of_pos (by simpa using hn), List.lookup_cons, List.lookup_cons, ih]
  have hother : (other == name) = false := beq_eq_false_iff_ne.2 h
  rw [get?, set, List.lookup_cons, hother, hkept, get?]

/-- Whoever does not see a variable sees the same whether or not it is set. -/
theorem hide_set {names : List String} (h : names.contains name = true) : (env.set name value).hide names = env.hide names := by
  rw [hide, set, List.filter_cons_of_neg (by rw [h]; decide), List.filter_filter, hide]
  refine List.filter_congr fun v _ => ?_
  cases hv : names.contains v.1 with
  | true => rfl
  | false =>
    have hne : v.1 ≠ name := by
      rintro rfl
      nomatch h.symm.trans hv
    simp [hne]

end Environment

namespace Config

/-- A configuration that is named by the environment is that of its file, with what the environment replaces. -/
theorem ofEnvironment_set (files : Files) (env : Environment) {path : Path} (h : path.text ≠ "") :
    ofEnvironment files (env.set "CXXGUARD_CONFIG" path.text) = (load files path).map (·.withOverrides env) := by
  have hoverrides : ∀ c : Config, c.withOverrides (env.set "CXXGUARD_CONFIG" path.text) = c.withOverrides env := by
    intro c
    rw [withOverrides, Environment.get?_set_of_ne (by decide), Environment.get?_set_of_ne (by decide), withOverrides]
  rw [ofEnvironment, Environment.get?_set_self h]
  cases hload : load files path with
  | error e => simp [hload, Except.map, bind, Except.bind]
  | ok c => simp [hload, Except.map, bind, Except.bind, pure, Except.pure, hoverrides]

/-- The environment leaves the shipped library of a configuration: it names none, or the same. -/
def KeepsShipped (c : Config) (env : Environment) : Prop := ∀ s, env.get? "CXXGUARD_SHIPPED" = some s → c.shipped = some ⟨s⟩

/-- The environment leaves the probe program of a configuration. -/
def KeepsProbe (c : Config) (env : Environment) : Prop := ∀ s, env.get? "CXXGUARD_PROBE" = some s → c.probeProgram = ⟨s⟩

/-- A configuration is what the environment makes of it if the environment leaves both. -/
theorem withOverrides_eq_self_iff (c : Config) (env : Environment) :
    c.withOverrides env = c ↔ c.KeepsShipped env ∧ c.KeepsProbe env := by
  unfold KeepsShipped KeepsProbe
  cases c
  cases hs : env.get? "CXXGUARD_SHIPPED" <;> cases hp : env.get? "CXXGUARD_PROBE" <;>
    simp [withOverrides, hs, hp, eq_comm]

/-- The worker is the same if the environment leaves the probe program. -/
theorem probe_withOverrides {c : Config} {env : Environment} (h : c.KeepsProbe env) :
    Probe.ofConfig (c.withOverrides env) = Probe.ofConfig c := by
  cases hs : env.get? "CXXGUARD_PROBE" with
  | none => simp [Probe.ofConfig, withOverrides, hs]
  | some s => simp [Probe.ofConfig, withOverrides, hs, h s hs]

end Config

namespace Probe

variable {p : Probe} {name : String}

/-- A worker that does not see a variable is started the same whether or not it is set. -/
theorem invocation_set (h : p.hidden.contains name = true) (env : Environment) (value library : String) :
    p.invocation (env.set name value) library = p.invocation env library := by
  rw [invocation, Environment.hide_set h, invocation]

/-- So its answer is the same, and what it writes to the error stream. -/
theorem systemPath_set (h : p.hidden.contains name = true) (start : Starter) (env : Environment) (value library : String) :
    p.systemPath start (env.set name value) library = p.systemPath start env library := by
  rw [systemPath, invocation_set h, systemPath]

@[inherit_doc systemPath_set]
theorem complaint_set (h : p.hidden.contains name = true) (start : Starter) (env : Environment) (value library : String) :
    p.complaint start (env.set name value) library = p.complaint start env library := by
  rw [complaint, invocation_set h, complaint]

end Probe

namespace CommandLine

/-- The machine on which the environment names a configuration. -/
def naming (m : Machine) (path : Path) : Machine :=
  { m with environment := m.environment.set "CXXGUARD_CONFIG" path.text }

variable {m : Machine} {path shipped : Path}

/-- A check is the same in both ways if the environment leaves the probe program, and the worker does not see which configuration
is named: the shipped library that a configuration names is not looked at. -/
theorem checkReply_naming {c : Config} (hprobe : c.KeepsProbe m.environment)
    (hhidden : c.probeHidden.contains "CXXGUARD_CONFIG" = true) :
    checkReply (naming m path) (c.withOverrides m.environment) shipped = checkReply m c shipped := by
  have hworker : Probe.ofConfig (c.withOverrides m.environment) = Probe.ofConfig c := Config.probe_withOverrides hprobe
  have hhost : (naming m path).host (c.withOverrides m.environment) = m.host c := by
    have hasks : (Probe.ofConfig c).systemPath m.start (naming m path).environment =
        (Probe.ofConfig c).systemPath m.start m.environment := funext fun library => Probe.systemPath_set hhidden ..
    rw [Machine.host, hworker]
    simp only [naming] at hasks ⊢
    rw [hasks, Machine.host]
  have hcomplaints : workerComplaints (naming m path) (c.withOverrides m.environment) = workerComplaints m c := by
    funext calls
    rw [workerComplaints, hworker]
    simp only [naming, Probe.complaint_set (p := Probe.ofConfig c) hhidden]
    rfl
  rw [checkReply, hhost, hcomplaints]
  rfl

/-- The two ways of naming a configuration. The settings that the environment describes are those of the file, with what the
environment replaces; what is wrong with the file is wrong in both ways. So the settings are the same exactly if the environment
leaves the shipped library and the probe program, and the replies are the same if it leaves the probe program, provided that the
worker does not see which configuration is named. -/
theorem naming_agrees_iff_keeps {flagged bare : List String} (hflagged : Request.read flagged = .ok (.check shipped (some path)))
    (hbare : Request.read bare = .ok (.check shipped none)) :
    settings (naming m path) none = (settings m (some path)).map (·.withOverrides m.environment) ∧
      (∀ e, settings m (some path) = .error e → reply (naming m path) bare = reply m flagged) ∧
      ∀ c, settings m (some path) = .ok c →
        (settings (naming m path) none = .ok c ↔ c.KeepsShipped m.environment ∧ c.KeepsProbe m.environment) ∧
          (c.KeepsProbe m.environment → c.probeHidden.contains "CXXGUARD_CONFIG" = true →
            reply (naming m path) bare = reply m flagged) := by
  have hsettings : settings (naming m path) none = (settings m (some path)).map (·.withOverrides m.environment) :=
    Config.ofEnvironment_set m.files m.environment (Request.ne_empty_of_read_check hflagged)
  have hreply : reply m flagged = (Request.check shipped (some path)).answer m := by simp only [reply, hflagged]
  have hreply' : reply (naming m path) bare = (Request.check shipped none).answer (naming m path) := by simp only [reply, hbare]
  rw [Request.answer_check] at hreply hreply'
  refine ⟨hsettings, fun e he => ?_, fun c hc => ⟨?_, fun hprobe hhidden => ?_⟩⟩
  · rw [he, Except.map] at hsettings
    rw [hreply, hreply', he, hsettings]
  · rw [hsettings, hc, ← Config.withOverrides_eq_self_iff]
    exact ⟨Except.ok.inj, congrArg Except.ok⟩
  · rw [hc, Except.map] at hsettings
    rw [hreply, hreply', hc, hsettings]
    exact checkReply_naming hprobe hhidden

/-! ## A replaced probe program -/

/-- A machine on which the environment names the one worker that can be started, in place of the one that holds where nothing
else is said, and on which there is a configuration that says nothing. -/
def replacedWorker : Machine where
  files := { ShippedLibrary.threeCopies with
    read := fun path => if path.text = "guard.toml" then .ok #[] else ShippedLibrary.threeCopies.read path }
  start i := if i.program.text = "./worker" then .ok (Probe.promptRun ⟨0, "new/libstdc++.so.6\n", ""⟩) else .error .missing
  linker := ⟨ShippedLibrary.threeCopies, [], ⟨"/lib"⟩, [], []⟩
  environment := [("CXXGUARD_PROBE", "./worker")]

/-- What the environment of this machine makes of the configuration. -/
def replacedSettings : Config := { probeProgram := ⟨"./worker"⟩ }

theorem read_flagged : Request.read ["check", "app", "--config", "guard.toml"] = .ok (.check ⟨"app"⟩ (some ⟨"guard.toml"⟩)) := by
  decide +kernel

theorem read_bare : Request.read ["check", "app"] = .ok (.check ⟨"app"⟩ none) := by
  decide +kernel

theorem settings_flagged : settings replacedWorker (some ⟨"guard.toml"⟩) = .ok {} := by
  have hdecode : Text.Utf8.decode [] = some [] := Text.Utf8.decode_encode []
  have hread : replacedWorker.files.read ⟨"guard.toml"⟩ = .ok #[] := rfl
  have htext : replacedWorker.files.readText ⟨"guard.toml"⟩ = .ok "" := by
    simp [Files.readText, hread, hdecode, bind, Except.bind, pure, Except.pure]
  have hnothing : Config.ofText "" = .ok {} := by rfl
  simp [settings, Config.load, htext, hnothing, Except.mapError, bind, Except.bind]

theorem settings_bare : settings (naming replacedWorker ⟨"guard.toml"⟩) none = .ok replacedSettings := by
  have hname : (⟨"guard.toml"⟩ : Path).text ≠ "" := by decide
  calc settings (naming replacedWorker ⟨"guard.toml"⟩) none
      = (settings replacedWorker (some ⟨"guard.toml"⟩)).map (·.withOverrides replacedWorker.environment) :=
        Config.ofEnvironment_set replacedWorker.files replacedWorker.environment hname
    _ = .ok replacedSettings := by
        rw [settings_flagged]
        rfl

theorem naming_differs_replacedWorker : settings (naming replacedWorker ⟨"guard.toml"⟩) none ≠ .ok {} := by
  obtain ⟨-, -, hsame⟩ := naming_agrees_iff_keeps (m := replacedWorker) read_flagged read_bare
  intro hequal
  have hkeeps := (((hsame {} settings_flagged).1).1 hequal).2 "./worker" (by decide)
  exact absurd hkeeps (by decide)

/-- The output of a check tells the outcome. -/
theorem output_check {arguments : List String} {config : Option Path} {c : Config}
    (h : Request.read arguments = .ok (.check shipped config)) (hc : settings m config = .ok c) :
    (reply m arguments).value.output =
      ((m.host c).reconcile c.target c.versionFamily (shippedLibrary m.files shipped c.target)).value.text ++ "\n" := by
  simp only [reply, h, Request.answer_check, hc, checkReply]

theorem shippedLibrary_replacedWorker :
    shippedLibrary replacedWorker.files ⟨"app"⟩ "libstdc++.so.6" = ⟨"app/libstdc++.so.6"⟩ := by
  decide

/-- The worker that holds where nothing else is said cannot be started, so nothing is found out. -/
theorem output_flagged : (reply replacedWorker ["check", "app", "--config", "guard.toml"]).value.output = "indeterminate\n" := by
  rw [output_check read_flagged settings_flagged, shippedLibrary_replacedWorker]
  have houtcome : ((replacedWorker.host {}).reconcile "libstdc++.so.6" "GLIBCXX_" ⟨"app/libstdc++.so.6"⟩).value =
      .indeterminate := by
    refine (Host.reconcile_of_not_compared ?_).1
    rintro ⟨a, b, ⟨path, hat, -⟩, -⟩
    rcases hat with ⟨hmapped, -⟩ | ⟨-, hprobe⟩
    · nomatch hmapped
    · simp [Machine.host, Probe.systemPath, Probe.invocation, Probe.ofConfig, replacedWorker, Except.mapError] at hprobe
  rw [houtcome]
  decide

/-- The worker that the environment names finds a copy that is new enough. -/
theorem output_bare :
    (reply (naming replacedWorker ⟨"guard.toml"⟩) ["check", "app"]).value.output =
      "up to date (system 3.4.30, shipped 3.4.26)\n" := by
  have houtcome : (((naming replacedWorker ⟨"guard.toml"⟩).host replacedSettings).reconcile "libstdc++.so.6" "GLIBCXX_"
      ⟨"app/libstdc++.so.6"⟩).value = .upToDate ⟨3, 4, 30⟩ ⟨3, 4, 26⟩ :=
    upToDate_newestCopy rfl (by decide) rfl ⟨rfl, Files.newestVersion_of_encode rfl (by decide) (by decide) (by decide)⟩
      ⟨rfl, Files.newestVersion_of_encode rfl (by decide) (by decide) (by decide)⟩
  have htext := output_check read_bare settings_bare
  have hshipped : shippedLibrary (naming replacedWorker ⟨"guard.toml"⟩).files ⟨"app"⟩ replacedSettings.target =
      ⟨"app/libstdc++.so.6"⟩ := shippedLibrary_replacedWorker
  rw [hshipped] at htext
  calc (reply (naming replacedWorker ⟨"guard.toml"⟩) ["check", "app"]).value.output
      = (Outcome.upToDate ⟨3, 4, 30⟩ ⟨3, 4, 26⟩).text ++ "\n" := htext.trans (congrArg (·.text ++ "\n") houtcome)
    _ = "up to date (system 3.4.30, shipped 3.4.26)\n" := by decide

/-- A check may reply otherwise when the environment replaces the probe program. -/
theorem reply_naming_ne :
    ¬ ∀ (m : Machine) (path shipped : Path) (flagged bare : List String),
      Request.read flagged = .ok (.check shipped (some path)) → Request.read bare = .ok (.check shipped none) →
        (reply (naming m path) bare).value = (reply m flagged).value := by
  intro hclaim
  have hsame := congrArg Reply.output (hclaim replacedWorker _ _ _ _ read_flagged read_bare)
  rw [output_bare, output_flagged] at hsame
  exact absurd hsame (by decide)

end CommandLine

end LibraryGuard
