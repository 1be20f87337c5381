import LibraryGuard.Arming
import LibraryGuard.Guard.EventSource
import LibraryGuard.Proofs.Config

/-!
# Arming as the environment says

Arming from the environment ends in one of three ways: there is no configuration, one without a shipped library, or one with it.
Only the last adds a hook, and only the first two give a warning (`Machine.armFromEnvironment_all_or_nothing`). An event that a
host emits reaches the added hook after the others, which do not work on its guard (`EventSource.emit_attach`).
-/

namespace LibraryGuard

variable {Guard : Type}

/-! ## A new guard beside those of the host -/

section EventSource

variable [DecidableEq Guard]

/-- Hooks that are called after others find the guards as those left them. -/
theorem Hook.deliver_append (before after : List (Hook Guard)) (guards : Guard → GuardState) (e : LoadEvent) :
    deliver (before ++ after) guards e = deliver before guards e >>= fun guards => deliver after guards e := by
  induction before generalizing guards with
  | nil => rfl
  | cons hook rest ih => apply Traced.ext <;> simp [deliver, ih]

/-- Hooks that do not work on a new guard leave it, and treat the others as if it was not there. -/
theorem Hook.deliver_besideNew (hooks : List (Hook Guard)) (new : GuardState) (guards : Guard → GuardState) (e : LoadEvent) :
    deliver (hooks.map besideNew) (withNew new guards) e = withNew new <$> deliver hooks guards e := by
  induction hooks generalizing guards with
  | nil => rfl
  | cons hook rest ih =>
    let s := (hook.interceptor.onEvent (guards hook.guard) e).value.2
    have hstep : (fun g => if g = some hook.guard then s else withNew new guards g) =
        withNew new fun g => if g = hook.guard then s else guards g := by
      funext g
      cases g <;> simp [withNew]
    have hcall : hook.besideNew.onEvent (withNew new guards) e = withNew new <$> hook.onEvent guards e := by
      apply Traced.ext
      · exact hstep
      · simp [onEvent, besideNew, withNew]
      · simp [onEvent, besideNew, withNew]
    apply Traced.ext <;> simp [deliver, hcall, ih]

/-- An event reaches a hook that was added after the others, and works on its own guard. -/
theorem EventSource.emit_attach (source : EventSource Guard) (i : Interceptor) (new : GuardState)
    (guards : Guard → GuardState) (e : LoadEvent) :
    (source.attach i).emit (withNew new guards) e = do
      let guards ← source.emit guards e
      let (_, new) ← i.onEvent new e
      return withNew new guards := by
  have hlast : ∀ guards : Guard → GuardState,
      (fun g => if g = none then (i.onEvent new e).value.2 else withNew new guards g) =
        withNew (i.onEvent new e).value.2 guards := by
    intro guards
    funext g
    cases g <;> simp [withNew]
  unfold EventSource.emit EventSource.attach
  rw [Hook.deliver_append, Hook.deliver_besideNew]
  apply Traced.ext
  · exact hlast _
  · simp [Hook.deliver, Hook.onEvent, withNew]
  · simp [Hook.deliver, Hook.onEvent, withNew]

/-- So the new guard goes through events as it would alone, and the others as if it was not there. -/
theorem EventSource.emitAll_attach (source : EventSource Guard) (i : Interceptor) (new : GuardState)
    (guards : Guard → GuardState) (es : List LoadEvent) :
    ((source.attach i).emitAll (withNew new guards) es).value =
      withNew (es.foldl (fun s e => (i.onEvent s e).value.2) new) (source.emitAll guards es).value := by
  induction es generalizing new guards with
  | nil => rfl
  | cons e es ih =>
    simp only [emitAll, List.foldlM_cons, Traced.value_bind, List.foldl_cons] at ih ⊢
    rw [EventSource.emit_attach]
    exact ih _ _

/-- Hooks that all work on one guard are called as the hooks of that guard alone. -/
theorem EventSource.emit_shared (hooks : List Interceptor) (g : Guard) (guards : Guard → GuardState) (e : LoadEvent) :
    (fun after => after g) <$> emit ⟨hooks.map fun i => ⟨i, g⟩⟩ guards e = Interceptor.emit hooks (guards g) e := by
  unfold emit
  induction hooks generalizing guards with
  | nil => rfl
  | cons i rest ih =>
    have hself : (Hook.onEvent ⟨i, g⟩ guards e).value g = (i.onEvent (guards g) e).value.2 := if_pos rfl
    have hrest := ih (Hook.onEvent ⟨i, g⟩ guards e).value
    rw [hself] at hrest
    apply Traced.ext <;> simp [Hook.deliver, Interceptor.emit, ← hrest, Hook.onEvent]

end EventSource

theorem EventSource.interceptors_attach (source : EventSource Guard) (i : Interceptor) :
    (source.attach i).interceptors = source.interceptors ++ [i] := by
  simp [interceptors, attach, Hook.besideNew]

/-! ## How arming ends -/

namespace Machine

variable {m : Machine} {c : Config}

/-- Without a configuration nothing is added, and a warning tells the error. -/
theorem armFromEnvironment_of_error (hooks : List Interceptor) {e : GuardError}
    (h : Config.ofEnvironment m.files m.environment = .error e) :
    m.armFromEnvironment hooks =
      ⟨(none, hooks), [⟨.arming, e.message ++ "; " ++ Config.defaultTarget ++ " guard not armed"⟩]⟩ := by
  simp only [armFromEnvironment, h]
  rfl

/-- With a shipped library that is named, or found beside the executable, the guard is armed with it and its hook is added. -/
theorem armFromEnvironment_of_named (hooks : List Interceptor) {path : Path}
    (h : Config.ofEnvironment m.files m.environment = .ok c) (hnamed : c.shipped = some path) :
    m.armFromEnvironment hooks =
      ⟨(some ⟨⟨shippedLibrary m.files path c.target, true⟩, m.interceptor c⟩, hooks ++ [m.interceptor c]), []⟩ := by
  simp only [armFromEnvironment, h, hnamed]
  rfl

/-- Without one nothing is added, and a warning tells what is missing. -/
theorem armFromEnvironment_of_nothing (hooks : List Interceptor) (h : Config.ofEnvironment m.files m.environment = .ok c)
    (hunnamed : c.shipped = none) (hbeside : (m.shippedBeside c.target).value = none) :
    m.armFromEnvironment hooks =
      ⟨(none, hooks), (m.shippedBeside c.target).warnings ++ [⟨.arming,
        "no shipped " ++ c.target ++ " configured or found on the executable's search path; guard not armed"⟩]⟩ := by
  simp only [armFromEnvironment, h, hunnamed]
  generalize m.shippedBeside c.target = looked at hbeside
  obtain ⟨found, warnings⟩ := looked
  obtain rfl : found = none := hbeside
  rfl

/-- What is known of a guard that is armed with a shipped library under a configuration. -/
structure IsArmedWith (m : Machine) (armed : Armed) (path : Path) (c : Config) : Prop where
  /-- The library itself if it is a file, and else the file with the target's name in it. -/
  shipped : armed.state.shipped = if m.files.isFile path then path else path.join ⟨c.target⟩
  isArmed : armed.state.armed = true
  target : armed.interceptor.target = c.target
  /-- It walks by the lister, to the target, and as deep as the configuration says. -/
  check : ∀ event : Path, armed.interceptor.check event = do
    let walker : Dependency.Walker := ⟨Lister.list m.start m.environment c.lister, c.target, c.dependencyDepth⟩
    return some (← (walker.dependsOnTarget m.files event).mapCalls .list)
  /-- It compares the copies of the target, by the family that the configuration says. -/
  reconcile : ∀ shipped : Path, armed.interceptor.reconcile shipped = do
    return some (← ((m.host c).reconcile c.target c.versionFamily shipped).mapCalls .host)

/-- If no target is found beside the executable, a guard is armed from the environment exactly if that describes a configuration
which names a shipped library. If not, nothing is added and a warning says so. If so, nothing is said and one hook is added, of a
guard that is armed with that library under that configuration; and an event that the host emits later changes this guard as the
hook alone does, whatever the other guards are. Where there are no others, it is delivered as to the hooks of one guard. -/
theorem armFromEnvironment_all_or_nothing [DecidableEq Guard] (m : Machine) (source : EventSource Guard)
    (hbeside : ∀ c, Config.ofEnvironment m.files m.environment = .ok c → (m.shippedBeside c.target).value = none) :
    let ending := m.armFromEnvironment source.interceptors
    (ending.value.1 = none ↔ (∃ e, Config.ofEnvironment m.files m.environment = .error e) ∨
        ∃ c, Config.ofEnvironment m.files m.environment = .ok c ∧ c.shipped = none) ∧
      (ending.value.1 = none → ending.value.2 = source.interceptors ∧ ∃ w ∈ ending.warnings, w.source = .arming) ∧
      ∀ armed, ending.value.1 = some armed →
        ending.warnings = [] ∧
          ending.value.2 = source.interceptors ++ [armed.interceptor] ∧
          ending.value.2 = (source.attach armed.interceptor).interceptors ∧
          (∃ c path, Config.ofEnvironment m.files m.environment = .ok c ∧ c.shipped = some path ∧ m.IsArmedWith armed path c) ∧
          ∀ (state : GuardState) (others : Guard → GuardState),
            (∀ e, ((source.attach armed.interceptor).emit (withNew state others) e).value none =
              (armed.interceptor.onEvent state e).value.2) ∧
              (∀ es, ((source.attach armed.interceptor).emitAll (withNew state others) es).value none =
                es.foldl (fun s e => (armed.interceptor.onEvent s e).value.2) state) ∧
              (source.hooks = [] → ∀ e, (fun after => after none) <$>
                  (source.attach armed.interceptor).emit (withNew state others) e =
                Interceptor.emit [armed.interceptor] state e) := by
  intro ending
  cases h : Config.ofEnvironment m.files m.environment with
  | error e =>
    have hending : ending = _ := armFromEnvironment_of_error source.interceptors h
    rw [hending]
    exact ⟨⟨fun _ => .inl ⟨e, rfl⟩, fun _ => rfl⟩, fun _ => ⟨rfl, _, List.mem_singleton_self _, rfl⟩, nofun⟩
  | ok c =>
    cases hnamed : c.shipped with
    | none =>
      have hending : ending = _ := armFromEnvironment_of_nothing source.interceptors h hnamed (hbeside c h)
      rw [hending]
      exact ⟨⟨fun _ => .inr ⟨c, rfl, hnamed⟩, fun _ => rfl⟩,
        fun _ => ⟨rfl, _, List.mem_append_right _ (List.mem_singleton_self _), rfl⟩, nofun⟩
    | some path =>
      have hending : ending = _ := armFromEnvironment_of_named source.interceptors h hnamed
      rw [hending]
      refine ⟨⟨nofun, ?_⟩, nofun, ?_⟩
      · rintro (⟨e, he⟩ | ⟨c', hc', hunnamed⟩)
        · nomatch he
        · obtain rfl := Except.ok.inj hc'
          nomatch hunnamed.symm.trans hnamed
      · intro armed harmed
        obtain rfl := Option.some.inj harmed
        refine ⟨rfl, rfl, (source.interceptors_attach _).symm, ⟨c, path, rfl, hnamed, ?_⟩, fun state others => ⟨?_, ?_, ?_⟩⟩
        · exact ⟨rfl, rfl, rfl, fun _ => rfl, fun _ => rfl⟩
        · intro e
          rw [EventSource.emit_attach]
          rfl
        · intro es
          rw [EventSource.emitAll_attach]
          rfl
        · intro hnone e
          have hattached : source.attach (m.interceptor c) = ⟨[m.interceptor c].map fun i => ⟨i, none⟩⟩ := by
            rw [EventSource.attach, hnone]
            rfl
          exact hattached ▸ EventSource.emit_shared [m.interceptor c] none (withNew state others) e

/-- Files of which none is there. -/
def noFiles : Files := ⟨fun _ => false, fun _ => false, fun _ => .error .missing⟩

/-- A machine on which no file can be read, that of the running executable neither, and the environment names a directory as the
place of the shipped library. -/
def namedDirectory : Machine where
  files := noFiles
  start _ := .error .missing
  linker := ⟨noFiles, [], ⟨"/lib"⟩, [], []⟩
  environment := [("CXXGUARD_SHIPPED", "app")]
  executable := some ⟨"host"⟩

/-- A host with one hook, of another guard. -/
def otherGuarded : EventSource Unit := ⟨[⟨⟨"libc.so.6", fun _ => pure none, fun _ => pure none⟩, ()⟩]⟩

theorem armFromEnvironment_namedDirectory :
    ∃ armed, (namedDirectory.armFromEnvironment otherGuarded.interceptors).value =
        (some armed, otherGuarded.interceptors ++ [armed.interceptor]) ∧
      armed.state.shipped = ⟨"app/libstdc++.so.6"⟩ := by
  have henvironment : Config.ofEnvironment namedDirectory.files namedDirectory.environment = .ok { shipped := some ⟨"app"⟩ } := by
    rfl
  obtain ⟨hnone, -, harmed⟩ := armFromEnvironment_all_or_nothing namedDirectory otherGuarded fun _ _ => rfl
  cases hended : (namedDirectory.armFromEnvironment otherGuarded.interceptors).value.1 with
  | none =>
    rcases hnone.1 hended with ⟨e, he⟩ | ⟨c, hc, hunnamed⟩
    · nomatch he.symm.trans henvironment
    · obtain rfl := Except.ok.inj (henvironment.symm.trans hc)
      nomatch hunnamed
  | some armed =>
    obtain ⟨-, hadded, -, ⟨c, path, hc, hnamed, hwith⟩, -⟩ := harmed armed hended
    obtain rfl := Except.ok.inj (henvironment.symm.trans hc)
    obtain rfl := Option.some.inj hnamed
    exact ⟨armed, Prod.ext hended hadded, hwith.shipped.trans (by decide)⟩

end Machine

end LibraryGuard
