import LibraryGuard.Proofs.Elf.MalformedNames
import LibraryGuard.Proofs.Reconciliation

/-!
# What reconciliation warns of

Besides the warnings about versions, a reconciliation warns of six things (`Topic`), of each at most once and in one order. When
it warns of one of them, and with which words, is said by `Host.Warns` without running through it (`reconcile_warned`). So a
reconciliation that leaves the process with a copy that is new enough is silent, one that finds an older copy in use gives one
warning, and one that decides nothing gives one to three.
-/

namespace LibraryGuard

/-- The warnings that one part of the guard gives, among some. -/
def Source.among (source : Source) (ws : List Warning) : List Warning := ws.filter (·.source = source)

namespace Source

@[simp] theorem among_nil (source : Source) : source.among [] = [] := rfl

@[simp] theorem among_append (source : Source) (ws ws' : List Warning) :
    source.among (ws ++ ws') = source.among ws ++ source.among ws' := List.filter_append ..

end Source

/-- What a reconciliation warns of. -/
inductive Topic where
  /-- Where the system's copy is cannot be found out. -/
  | lookup
  /-- The shipped path is no file. -/
  | shippedPath
  /-- The system's path is not known, or is no file. -/
  | systemPath
  /-- A version cannot be told. -/
  | versions
  /-- An older copy is in use already. -/
  | bound
  /-- The shipped copy cannot be loaded. -/
  | load
  deriving DecidableEq, Repr

/-- The order in which a reconciliation warns. -/
def Topic.all : List Topic := [.lookup, .shippedPath, .systemPath, .versions, .bound, .load]

namespace Host

/-- A reconciliation warns of a topic, in these words. -/
inductive Warns (h : Host) (target family : String) (shipped : Path) : Topic → String → Prop where
  | notResolved {e : GuardError} (isMapped : h.isMapped target = true) (fails : h.resolve target = .error e) :
      Warns h target family shipped .lookup
        (target ++ " is already loaded but " ++ e.message ++ "; runtime link errors may occur")
  | notProbed {e : GuardError} (isMapped : h.isMapped target = false) (fails : h.probe target = .error e) :
      Warns h target family shipped .lookup (e.message ++ "; runtime link errors may occur")
  | shippedInvalid (notFile : h.files.isFile shipped = false) :
      Warns h target family shipped .shippedPath
        ("the path to the shipped " ++ target ++ " is invalid: " ++ shipped.text ++ "; runtime link errors may occur")
  | systemInvalid {system : Path} (isThere : h.HasCopyAt target system) (notFile : h.files.isFile system = false) :
      Warns h target family shipped .systemPath
        ("the path to the system " ++ target ++ " is invalid: " ++ system.text ++ "; runtime link errors may occur")
  | systemUnknown (nowhere : ∀ system, ¬ h.HasCopyAt target system) :
      Warns h target family shipped .systemPath
        ("the path to the system " ++ target ++ " could not be determined; runtime link errors may occur")
  | notRead {system : Path} {e : GuardError} (isThere : h.HasCopyAt target system)
      (isFile : h.files.isFile system = true) (shippedFile : h.files.isFile shipped = true)
      (fails : (h.files.newestVersion system family).value = .error e ∨
        (∃ v, (h.files.newestVersion system family).value = .ok v) ∧
          (h.files.newestVersion shipped family).value = .error e) :
      Warns h target family shipped .versions
        (e.message ++ "; cannot compare " ++ system.text ++ " with " ++ shipped.text ++ ", runtime link errors may occur")
  | alreadyBound {system : Path} {a b : Version} (isThere : h.HasCopyAt target system)
      (ends : (h.reconcile target family shipped).value = .alreadyBound a b) :
      Warns h target family shipped .bound
        ("an incompatible " ++ target ++ " (" ++ a.text ++ " < " ++ b.text ++ ") was loaded from " ++ system.text ++
          " before this guard ran, most likely by another loader; runtime link errors may occur")
  | notLoaded {path : Path} {reason : String}
      (ends : (h.reconcile target family shipped).value = .loadFailed path reason) :
      Warns h target family shipped .load (reason ++ "; runtime link errors may occur")

/-- Some warnings are those of reconciliation about one topic: one, if there is anything to warn of, and else none. -/
def Tells (h : Host) (target family : String) (shipped : Path) (topic : Topic) (ws : List Warning) : Prop :=
  ∃ slot : Option String, ws = (slot.map (Warning.mk .reconciliation)).toList ∧
    ∀ text, slot = some text ↔ h.Warns target family shipped topic text

variable {h : Host} {target family : String} {shipped : Path}

/-- There is something to warn of, in one way. -/
theorem tells_singleton {topic : Topic} {text : String} (hw : h.Warns target family shipped topic text)
    (hone : ∀ text', h.Warns target family shipped topic text' → text' = text) :
    h.Tells target family shipped topic [⟨.reconciliation, text⟩] := by
  refine ⟨some text, rfl, fun text' => ⟨?_, ?_⟩⟩
  · rintro ⟨⟩
    exact hw
  · exact fun hw' => congrArg some (hone text' hw').symm

/-- There is nothing to warn of. -/
theorem tells_nil {topic : Topic} (hnone : ∀ text, ¬ h.Warns target family shipped topic text) :
    h.Tells target family shipped topic [] :=
  ⟨none, rfl, fun text => ⟨nofun, fun hw => absurd hw (hnone text)⟩⟩

/-! ## Finding the two copies -/

/-- Looking for the system's copy warns when it cannot be found out where it is. -/
theorem systemCopy_tells (h : Host) (target family : String) (shipped : Path) :
    h.Tells target family shipped .lookup (h.systemCopy target).warnings := by
  unfold systemCopy
  cases hm : h.isMapped target with
  | true =>
    cases hr : h.resolve target with
    | ok path =>
      refine tells_nil fun text hw => ?_
      cases hw with
      | notResolved _ hfails => nomatch hr.symm.trans hfails
      | notProbed hnot _ => nomatch hm.symm.trans hnot
    | error e =>
      refine tells_singleton (.notResolved hm hr) fun text hw => ?_
      cases hw with
      | notResolved _ hfails => rw [Except.error.inj (hr.symm.trans hfails)]
      | notProbed hnot _ => nomatch hm.symm.trans hnot
  | false =>
    cases hp : h.probe target with
    | ok path =>
      refine tells_nil fun text hw => ?_
      cases hw with
      | notResolved hnot _ => nomatch hm.symm.trans hnot
      | notProbed _ hfails => nomatch hp.symm.trans hfails
    | error e =>
      refine tells_singleton (.notProbed hm hp) fun text hw => ?_
      cases hw with
      | notResolved hnot _ => nomatch hm.symm.trans hnot
      | notProbed _ hfails => rw [Except.error.inj (hp.symm.trans hfails)]

/-- The shipped path is warned of when it is no file. -/
theorem checkShipped_tells (h : Host) (target family : String) (shipped : Path) :
    h.Tells target family shipped .shippedPath (h.checkShipped target shipped).warnings := by
  unfold checkShipped
  cases hf : h.files.isFile shipped with
  | true =>
    refine tells_nil fun text hw => ?_
    cases hw with
    | shippedInvalid hnot => nomatch hf.symm.trans hnot
  | false =>
    refine tells_singleton (.shippedInvalid hf) fun text hw => ?_
    cases hw with
    | shippedInvalid _ => rfl

/-- The system's path is warned of when it is not known, or is no file. -/
theorem checkSystem_tells (h : Host) (target family : String) (shipped : Path) :
    h.Tells target family shipped .systemPath (h.checkSystem target (h.systemCopy target).value.1).warnings := by
  obtain ⟨-, -, hfound⟩ := h.systemCopy_calls_and_value target
  cases hs : (h.systemCopy target).value.1 with
  | none =>
    have hnowhere : ∀ system, ¬ h.HasCopyAt target system := fun system hat => nomatch hs.symm.trans ((hfound system).2 hat)
    refine tells_singleton (.systemUnknown hnowhere) fun text hw => ?_
    cases hw with
    | systemInvalid hat _ => exact absurd hat (hnowhere _)
    | systemUnknown _ => rfl
  | some system =>
    have hat : h.HasCopyAt target system := (hfound system).1 hs
    rw [checkSystem]
    cases hf : h.files.isFile system with
    | true =>
      refine tells_nil fun text hw => ?_
      cases hw with
      | systemInvalid hat' hnot =>
        rw [hat'.unique hat] at hnot
        exact absurd hf (Bool.eq_false_iff.1 hnot)
      | systemUnknown hnowhere => exact hnowhere system hat
    | false =>
      refine tells_singleton (.systemInvalid hat hf) fun text hw => ?_
      cases hw with
      | systemInvalid hat' _ => rw [hat'.unique hat]
      | systemUnknown hnowhere => exact absurd hat (hnowhere system)

/-! ## Comparing them -/

/-- Every warning about the newest version of a file is about a version. -/
theorem newestVersion_source (files : Files) (path : Path) (family : String) {w : Warning}
    (hw : w ∈ (files.newestVersion path family).warnings) : w.source = .version := by
  unfold Files.newestVersion at hw
  cases hr : files.read path with
  | error cause => simp [hr] at hw
  | ok image => exact Elf.source_of_mem_warnings (by simpa [hr] using hw)

/-- Every warning about the two versions is about a version. -/
theorem versions_source {system : Path} {w : Warning} (hw : w ∈ (h.versions family system shipped).warnings) :
    w.source = .version := by
  unfold versions at hw
  cases hv : (h.files.newestVersion system family).value with
  | error e => exact newestVersion_source _ _ _ (by simpa [hv] using hw)
  | ok v =>
    simp only [Logged.warnings_bind, hv, Logged.warnings_pure, List.append_nil, List.mem_append] at hw
    exact hw.elim (newestVersion_source _ _ _) (newestVersion_source _ _ _)

/-- The two versions cannot be told exactly when one of them cannot: the system's, or else the shipped one. -/
theorem versions_eq_error_iff (system : Path) (e : GuardError) :
    (h.versions family system shipped).value = .error e ↔
      (h.files.newestVersion system family).value = .error e ∨
        (∃ v, (h.files.newestVersion system family).value = .ok v) ∧
          (h.files.newestVersion shipped family).value = .error e := by
  unfold versions
  cases ha : (h.files.newestVersion system family).value with
  | error e' => simp [ha]
  | ok v => cases hb : (h.files.newestVersion shipped family).value <;> simp [ha, hb, Except.map]

/-- There is nothing to warn of about an older copy in use unless that is the outcome. -/
theorem not_warns_bound (hne : ∀ a b, (h.reconcile target family shipped).value ≠ .alreadyBound a b) (text : String) :
    ¬ h.Warns target family shipped .bound text := by
  intro hw
  cases hw with
  | alreadyBound _ hends => exact hne _ _ hends

/-- There is nothing to warn of about a failed load unless that is the outcome. -/
theorem not_warns_load (hne : ∀ path reason, (h.reconcile target family shipped).value ≠ .loadFailed path reason)
    (text : String) : ¬ h.Warns target family shipped .load text := by
  intro hw
  cases hw with
  | notLoaded hends => exact hne _ _ hends

/-- Acting on two versions warns of an older copy in use, or of a failed load. -/
theorem act_tells {system : Path} {a b : Version} (hat : h.HasCopyAt target system)
    (hvalue : (h.reconcile target family shipped).value = (h.act target system shipped (h.isMapped target) (a, b)).value) :
    ∃ bound load, (h.act target system shipped (h.isMapped target) (a, b)).warnings = bound ++ load ∧
      h.Tells target family shipped .bound bound ∧ h.Tells target family shipped .load load := by
  rcases le_or_gt b a with hle | hlt
  · rw [(act_of_le h target system shipped _ hle).1] at hvalue
    refine ⟨[], [], by simp [act, decision, hle], tells_nil (not_warns_bound ?_), tells_nil (not_warns_load ?_)⟩ <;>
      simp [hvalue]
  · cases hm : h.isMapped target with
    | true =>
      rw [hm, (act_of_bound h target system shipped hlt).1] at hvalue
      refine ⟨_, [], by simp [act, decision, hlt.not_ge], tells_singleton (.alreadyBound hat hvalue) fun text hw => ?_,
        tells_nil (not_warns_load (by simp [hvalue]))⟩
      cases hw with
      | alreadyBound hat' hends =>
        obtain ⟨rfl, rfl⟩ := Outcome.alreadyBound.inj (hvalue.symm.trans hends)
        rw [hat'.unique hat]
    | false =>
      rw [hm, (act_of_unbound h target system shipped hlt).1] at hvalue
      cases hl : h.load shipped with
      | ok _ =>
        rw [hl] at hvalue
        refine ⟨[], [], by simp [act, decision, hlt.not_ge, hl], tells_nil (not_warns_bound ?_),
          tells_nil (not_warns_load ?_)⟩ <;> simp [hvalue]
      | error e =>
        rw [hl] at hvalue
        refine ⟨[], _, by simp [act, decision, hlt.not_ge, hl], tells_nil (not_warns_bound (by simp [hvalue])),
          tells_singleton (.notLoaded hvalue) fun text hw => ?_⟩
        cases hw with
        | notLoaded hends =>
          obtain ⟨rfl, rfl⟩ := Outcome.loadFailed.inj (hvalue.symm.trans hends)
          rfl

/-- Comparing two files warns of a version that cannot be told, of an older copy in use, or of a failed load. -/
theorem compare_tells {system : Path} (hat : h.HasCopyAt target system) (hfile : h.files.isFile system = true)
    (hshipped : h.files.isFile shipped = true)
    (hvalue : (h.reconcile target family shipped).value =
      (h.compare target family system shipped (h.isMapped target)).value) :
    ∃ versions bound load,
      (h.compare target family system shipped (h.isMapped target)).warnings =
        (h.versions family system shipped).warnings ++ (versions ++ (bound ++ load)) ∧
      h.Tells target family shipped .versions versions ∧ h.Tells target family shipped .bound bound ∧
      h.Tells target family shipped .load load := by
  cases hv : (h.versions family system shipped).value with
  | error e =>
    have hi := hvalue.trans (compare_of_error target (h.isMapped target) hv).1
    refine ⟨_, [], [], by simp [compare, hv],
      tells_singleton (.notRead hat hfile hshipped ((versions_eq_error_iff system e).1 hv)) fun text hw => ?_,
      tells_nil (not_warns_bound (by simp [hi])), tells_nil (not_warns_load (by simp [hi]))⟩
    cases hw with
    | notRead hat' _ _ hfails =>
      obtain rfl := hat'.unique hat
      rw [Except.error.inj (((versions_eq_error_iff _ _).2 hfails).symm.trans hv)]
  | ok vs =>
    obtain ⟨hacts, -⟩ := compare_of_ok target (h.isMapped target) hv
    obtain ⟨bound, load, hwarnings, hbound, hload⟩ := act_tells (a := vs.1) (b := vs.2) hat (hvalue.trans hacts)
    refine ⟨[], bound, load, by simp [compare, hv, hwarnings], tells_nil fun text hw => ?_, hbound, hload⟩
    cases hw with
    | notRead hat' _ _ hfails =>
      obtain rfl := hat'.unique hat
      nomatch ((versions_eq_error_iff _ _).2 hfails).symm.trans hv

/-! ## A whole reconciliation -/

/-- The warnings that looking for the two copies gives. -/
def lookingWarnings (h : Host) (target : String) (shipped : Path) : List Warning :=
  (h.systemCopy target).warnings ++ ((h.checkShipped target shipped).warnings ++
    (h.checkSystem target (h.systemCopy target).value.1).warnings)

/-- A reconciliation that misses a file ends after looking for the two copies, and decides nothing. -/
theorem reconcile_of_missing (family : String)
    (hmissing : ∀ system, h.HasCopyAt target system → h.files.isFile system = true → h.files.isFile shipped = false) :
    (h.reconcile target family shipped).value = .indeterminate ∧
      (h.reconcile target family shipped).warnings = h.lookingWarnings target shipped := by
  obtain ⟨-, -, hfound⟩ := h.systemCopy_calls_and_value target
  cases hs : (h.checkSystem target (h.systemCopy target).value.1).value with
  | none => simp [reconcile, lookingWarnings, hs]
  | some system =>
    obtain ⟨hat, hfile⟩ := (checkSystem_eq_some_iff _ _).1 hs
    simp [reconcile, lookingWarnings, checkShipped_value, hmissing system ((hfound system).1 hat) hfile]

/-- A reconciliation of two files goes on to compare them. -/
theorem reconcile_of_files (family : String) {system : Path} (hat : h.HasCopyAt target system)
    (hfile : h.files.isFile system = true) (hshipped : h.files.isFile shipped = true) :
    (h.reconcile target family shipped).value = (h.compare target family system shipped (h.isMapped target)).value ∧
      (h.reconcile target family shipped).warnings = h.lookingWarnings target shipped ++
        (h.compare target family system shipped (h.isMapped target)).warnings := by
  obtain ⟨-, hbound, hfound⟩ := h.systemCopy_calls_and_value target
  have hs : (h.checkSystem target (h.systemCopy target).value.1).value = some system :=
    (checkSystem_eq_some_iff _ _).2 ⟨(hfound system).2 hat, hfile⟩
  simp [reconcile, lookingWarnings, hs, checkShipped_value, hshipped, hbound]

/-- What reconciliation warns of about one topic is its own. -/
theorem Tells.among {topic : Topic} {ws : List Warning} (ht : h.Tells target family shipped topic ws) :
    Source.reconciliation.among ws = ws := by
  obtain ⟨slot, rfl, -⟩ := ht
  cases slot <;> rfl

/-- The warnings about the versions are not reconciliation's own. -/
theorem among_versions (system : Path) :
    Source.reconciliation.among (h.versions family system shipped).warnings = [] := by
  refine List.filter_eq_nil_iff.2 fun w hw => ?_
  rw [versions_source hw]
  decide

/-- A reconciliation warns of each topic in order. -/
theorem reconcile_tells (h : Host) (target family : String) (shipped : Path) :
    ∃ given : Topic → List Warning,
      Source.reconciliation.among (h.reconcile target family shipped).warnings = Topic.all.flatMap given ∧
        ∀ topic, h.Tells target family shipped topic (given topic) := by
  have hlookup := h.systemCopy_tells target family shipped
  have hshippedPath := h.checkShipped_tells target family shipped
  have hsystemPath := h.checkSystem_tells target family shipped
  -- What is warned of behind looking for the copies.
  have hbehind : ∃ rest versions bound load,
      (h.reconcile target family shipped).warnings = h.lookingWarnings target shipped ++ rest ∧
        Source.reconciliation.among rest = versions ++ (bound ++ load) ∧ h.Tells target family shipped .versions versions ∧
        h.Tells target family shipped .bound bound ∧ h.Tells target family shipped .load load := by
    by_cases hfiles : ∃ system, h.HasCopyAt target system ∧ h.files.isFile system = true ∧ h.files.isFile shipped = true
    · obtain ⟨system, hat, hfile, hshipped⟩ := hfiles
      obtain ⟨hvalue, hwarnings⟩ := reconcile_of_files family hat hfile hshipped
      obtain ⟨versions, bound, load, hcompare, hversions, hbound, hload⟩ := compare_tells hat hfile hshipped hvalue
      refine ⟨_, versions, bound, load, hwarnings, ?_, hversions, hbound, hload⟩
      rw [hcompare]
      simp [among_versions, hversions.among, hbound.among, hload.among]
    · have hmissing : ∀ system, h.HasCopyAt target system → h.files.isFile system = true → h.files.isFile shipped = false :=
        fun system hat hfile => Bool.eq_false_iff.2 fun hshipped => hfiles ⟨system, hat, hfile, hshipped⟩
      obtain ⟨hi, hwarnings⟩ := reconcile_of_missing family hmissing
      refine ⟨[], [], [], [], by rw [hwarnings, List.append_nil], rfl, tells_nil fun text hw => ?_,
        tells_nil (not_warns_bound (by simp [hi])), tells_nil (not_warns_load (by simp [hi]))⟩
      cases hw with
      | notRead hat hfile hshipped _ => exact hfiles ⟨_, hat, hfile, hshipped⟩
  obtain ⟨rest, versions, bound, load, hwarnings, hrest, hversions, hbound, hload⟩ := hbehind
  let given : Topic → List Warning
    | .lookup => (h.systemCopy target).warnings
    | .shippedPath => (h.checkShipped target shipped).warnings
    | .systemPath => (h.checkSystem target (h.systemCopy target).value.1).warnings
    | .versions => versions
    | .bound => bound
    | .load => load
  refine ⟨given, ?_, ?_⟩
  · rw [hwarnings]
    simp [lookingWarnings, hrest, hlookup.among, hshippedPath.among, hsystemPath.among, Topic.all, given]
  · intro topic
    cases topic <;> assumption

/-- Two files are found: nothing is warned of before they are compared. -/
theorem not_warns_of_files {system : Path} (hat : h.HasCopyAt target system) (hfile : h.files.isFile system = true)
    (hshipped : h.files.isFile shipped = true) {topic : Topic} {text : String}
    (hw : h.Warns target family shipped topic text) : topic = .versions ∨ topic = .bound ∨ topic = .load := by
  cases hw with
  | notResolved hm hfails =>
    rcases hat with ⟨-, hresolved⟩ | ⟨hm', -⟩
    · nomatch hresolved.symm.trans hfails
    · nomatch hm.symm.trans hm'
  | notProbed hm hfails =>
    rcases hat with ⟨hm', -⟩ | ⟨-, hprobed⟩
    · nomatch hm.symm.trans hm'
    · nomatch hprobed.symm.trans hfails
  | shippedInvalid hnot => nomatch hshipped.symm.trans hnot
  | systemInvalid hat' hnot =>
    obtain rfl := hat'.unique hat
    nomatch hfile.symm.trans hnot
  | systemUnknown hnowhere => exact absurd hat (hnowhere system)
  | notRead _ _ _ _ => exact Or.inl rfl
  | alreadyBound _ _ => exact Or.inr (Or.inl rfl)
  | notLoaded _ => exact Or.inr (Or.inr rfl)

/-- Two copies can be compared: nothing is warned of before they are acted on. -/
theorem Compared.not_warns {a b : Version} (hc : h.Compared target family shipped a b) {topic : Topic} {text : String}
    (hw : h.Warns target family shipped topic text) : topic = .bound ∨ topic = .load := by
  obtain ⟨⟨system, hat, hfile, ha⟩, hshipped, hb⟩ := hc
  refine (not_warns_of_files hat hfile hshipped hw).resolve_left ?_
  rintro rfl
  cases hw with
  | notRead hat' _ _ hfails =>
    obtain rfl := hat'.unique hat
    rcases hfails with hfails | ⟨-, hfails⟩
    · nomatch ha.symm.trans hfails
    · nomatch hb.symm.trans hfails

/-- A reconciliation of two copies that can be compared ends in one of four ways. -/
theorem Compared.outcome {a b : Version} (hc : h.Compared target family shipped a b) :
    (h.reconcile target family shipped).value = .upToDate a b ∨
      (h.reconcile target family shipped).value = .alreadyBound a b ∨
      (h.reconcile target family shipped).value = .loaded shipped a b ∨
      ∃ reason, (h.reconcile target family shipped).value = .loadFailed shipped reason := by
  obtain ⟨system, hvalue, -⟩ := reconcile_of_compared hc
  rw [hvalue]
  rcases le_or_gt b a with hle | hlt
  · exact Or.inl (act_of_le h target system shipped _ hle).1
  · cases h.isMapped target with
    | true => exact Or.inr (Or.inl (act_of_bound h target system shipped hlt).1)
    | false =>
      rw [(act_of_unbound h target system shipped hlt).1]
      cases h.load shipped with
      | ok _ => exact Or.inr (Or.inr (Or.inl rfl))
      | error e => exact Or.inr (Or.inr (Or.inr ⟨_, rfl⟩))

/-- A reconciliation of two copies that cannot be compared warns of something. -/
theorem exists_warns_of_not_compared (hc : ¬ ∃ a b, h.Compared target family shipped a b) :
    ∃ topic text, h.Warns target family shipped topic text := by
  by_cases hat : ∃ system, h.HasCopyAt target system
  · obtain ⟨system, hat⟩ := hat
    cases hfile : h.files.isFile system with
    | false => exact ⟨_, _, .systemInvalid hat hfile⟩
    | true =>
      cases hshipped : h.files.isFile shipped with
      | false => exact ⟨_, _, .shippedInvalid hshipped⟩
      | true =>
        cases ha : (h.files.newestVersion system family).value with
        | error e => exact ⟨_, _, .notRead hat hfile hshipped (Or.inl ha)⟩
        | ok a =>
          cases hb : (h.files.newestVersion shipped family).value with
          | error e => exact ⟨_, _, .notRead hat hfile hshipped (Or.inr ⟨⟨a, ha⟩, hb⟩)⟩
          | ok b => exact absurd ⟨a, b, ⟨system, hat, hfile, ha⟩, hshipped, hb⟩ hc
  · exact ⟨_, _, .systemUnknown fun system hs => hat ⟨system, hs⟩⟩

/-! ## How many warnings there are -/

/-- The words of a topic are there exactly when there is something to warn of. -/
def Holds (h : Host) (target family : String) (shipped : Path) (slot : Topic → Option String) : Prop :=
  ∀ topic text, slot topic = some text ↔ h.Warns target family shipped topic text

variable {slot : Topic → Option String}

/-- A topic has no words when there is nothing to warn of. -/
theorem Holds.eq_none (hs : h.Holds target family shipped slot) {topic : Topic}
    (hnot : ∀ text, ¬ h.Warns target family shipped topic text) : slot topic = none :=
  Option.eq_none_iff_forall_ne_some.2 fun text ht => hnot text ((hs topic text).1 ht)

/-- Two copies that can be compared: only an older copy in use and a failed load can be warned of. -/
theorem Holds.filterMap_of_compared (hs : h.Holds target family shipped slot) {a b : Version}
    (hc : h.Compared target family shipped a b) : Topic.all.filterMap slot = [Topic.bound, Topic.load].filterMap slot := by
  have hquiet : ∀ topic, topic ≠ .bound → topic ≠ .load → slot topic = none := fun topic hb hl =>
    hs.eq_none fun text hw => (hc.not_warns hw).elim hb hl
  simp [Topic.all, hquiet]

/-- Two copies that cannot be compared: one to three topics are warned of. -/
theorem Holds.length_of_not_compared (hs : h.Holds target family shipped slot)
    (hc : ¬ ∃ a b, h.Compared target family shipped a b) :
    1 ≤ (Topic.all.filterMap slot).length ∧ (Topic.all.filterMap slot).length ≤ 3 := by
  obtain ⟨hi, -⟩ := reconcile_of_not_compared hc
  have hbound : slot .bound = none := hs.eq_none (not_warns_bound (by simp [hi]))
  have hload : slot .load = none := hs.eq_none (not_warns_load (by simp [hi]))
  obtain ⟨topic, text, hw⟩ := exists_warns_of_not_compared hc
  have hsome : slot topic = some text := (hs topic text).2 hw
  constructor
  · exact List.length_pos_of_mem (List.mem_filterMap.2 ⟨topic, by cases topic <;> decide, hsome⟩)
  · cases hv : slot .versions with
    | none =>
      cases hl : slot .lookup <;> cases hp : slot .shippedPath <;> cases hy : slot .systemPath <;>
        simp [Topic.all, hv, hl, hp, hy, hbound, hload]
    | some words =>
      cases (hs _ _).1 hv with
      | notRead hat hfile hshipped _ =>
        have hquiet : ∀ topic, topic ≠ .versions → topic ≠ .bound → topic ≠ .load → slot topic = none := fun topic hn hb hl =>
          hs.eq_none fun text hw => (not_warns_of_files hat hfile hshipped hw).elim hn (Or.rec hb hl)
        simp [Topic.all, hquiet, hv, hbound, hload]

/-- What a reconciliation warns of. Its warnings are at most one for each topic, in the order of the topics, each with its words
exactly when there is something to warn of. So it is silent exactly when it ends with a copy that is new enough, it gives one
warning when it finds an older copy in use or cannot load the shipped one, and one to three when it decides nothing. -/
theorem reconcile_warned (h : Host) (target family : String) (shipped : Path) :
    let r := h.reconcile target family shipped
    let said := Source.reconciliation.among r.warnings
    (∃ slot : Topic → Option String,
      said = (Topic.all.filterMap slot).map (Warning.mk .reconciliation) ∧
        h.Holds target family shipped slot) ∧
    (said = [] ↔ (∃ a b, r.value = .upToDate a b) ∨ ∃ path a b, r.value = .loaded path a b) ∧
    ((∃ a b, r.value = .alreadyBound a b) ∨ (∃ path reason, r.value = .loadFailed path reason) → said.length = 1) ∧
    (r.value = .indeterminate → 1 ≤ said.length ∧ said.length ≤ 3) := by
  intro r said
  obtain ⟨given, hgiven, htells⟩ := reconcile_tells h target family shipped
  choose slot hslot hwarns using htells
  have hwarns : h.Holds target family shipped slot := hwarns
  have hsaid : said = (Topic.all.filterMap slot).map (Warning.mk .reconciliation) := by
    rw [List.map_filterMap, List.filterMap_eq_flatMap_toList, ← funext hslot]
    exact hgiven
  have hlength : said.length = (Topic.all.filterMap slot).length := by rw [hsaid, List.length_map]
  refine ⟨⟨slot, hsaid, hwarns⟩, ?_⟩
  rw [← List.length_eq_zero_iff, hlength]
  by_cases hc : ∃ a b, h.Compared target family shipped a b
  · obtain ⟨a, b, hc⟩ := hc
    have hbound : (∀ a b, r.value ≠ .alreadyBound a b) → slot .bound = none := fun hne => hwarns.eq_none (not_warns_bound hne)
    have hload : (∀ path reason, r.value ≠ .loadFailed path reason) → slot .load = none := fun hne =>
      hwarns.eq_none (not_warns_load hne)
    rw [hwarns.filterMap_of_compared hc]
    rcases hc.outcome with hvalue | hvalue | hvalue | ⟨reason, hvalue⟩
    · simp [r, hvalue, hbound (by simp [r, hvalue]), hload (by simp [r, hvalue])]
    · obtain ⟨⟨system, hat, -⟩, -⟩ := hc
      simp [r, hvalue, (hwarns _ _).2 (.alreadyBound hat hvalue), hload (by simp [r, hvalue])]
    · simp [r, hvalue, hbound (by simp [r, hvalue]), hload (by simp [r, hvalue])]
    · simp [r, hvalue, hbound (by simp [r, hvalue]), (hwarns _ _).2 (.notLoaded hvalue)]
  · obtain ⟨hi, -⟩ := reconcile_of_not_compared hc
    have hcount := hwarns.length_of_not_compared hc
    exact ⟨iff_of_false (by omega) (by simp [r, hi]), by simp [r, hi], fun _ => hcount⟩

/-! ## An older copy in use -/

/-- A host into which the system's copy is mapped, beside a shipped copy. Each of the two defines some names. -/
def mappedCopies (system shipped : List String) : Host where
  files := ⟨fun _ => true, fun _ => true, fun path =>
    .ok (Elf.VersionImage.encode (if path.text = "app/libstdc++.so.6" then shipped else system))⟩
  isMapped _ := true
  resolve _ := .ok ⟨"/usr/lib/libstdc++.so.6"⟩
  probe _ := .error (.probe "no worker")
  load path := .error (.load path "no linker")

theorem reconcile_warned_mappedCopies :
    let r := (mappedCopies ["GLIBCXX_3.4.26"] ["GLIBCXX_3.4.30"]).reconcile "libstdc++.so.6" "GLIBCXX_" ⟨"app/libstdc++.so.6"⟩
    r.value = .alreadyBound ⟨3, 4, 26⟩ ⟨3, 4, 30⟩ ∧
      Source.reconciliation.among r.warnings = [⟨.reconciliation,
        "an incompatible libstdc++.so.6 (3.4.26 < 3.4.30) was loaded from /usr/lib/libstdc++.so.6 before this guard ran, " ++
          "most likely by another loader; runtime link errors may occur"⟩] := by
  intro r
  let h := mappedCopies ["GLIBCXX_3.4.26"] ["GLIBCXX_3.4.30"]
  have hat : h.HasCopyAt "libstdc++.so.6" ⟨"/usr/lib/libstdc++.so.6"⟩ := Or.inl ⟨rfl, rfl⟩
  have hsystem : h.HasVersion "GLIBCXX_" ⟨"/usr/lib/libstdc++.so.6"⟩ ⟨3, 4, 26⟩ :=
    ⟨rfl, Files.newestVersion_of_encode rfl (by decide) (by decide) (by decide)⟩
  have hshipped : h.HasVersion "GLIBCXX_" ⟨"app/libstdc++.so.6"⟩ ⟨3, 4, 30⟩ :=
    ⟨rfl, Files.newestVersion_of_encode rfl (by decide) (by decide) (by decide)⟩
  obtain ⟨system, hacts, -⟩ := reconcile_of_compared (h := h) ⟨⟨_, hat, hsystem⟩, hshipped⟩
  have hvalue : r.value = .alreadyBound ⟨3, 4, 26⟩ ⟨3, 4, 30⟩ := hacts.trans (act_of_bound h _ _ _ (by decide)).1
  obtain ⟨⟨slot, hsaid, hslot⟩, -, hone, -⟩ := reconcile_warned h "libstdc++.so.6" "GLIBCXX_" ⟨"app/libstdc++.so.6"⟩
  have hbound := (hslot _ _).2 (.alreadyBound hat hvalue)
  have hgiven := List.mem_filterMap.2 ⟨Topic.bound, show Topic.bound ∈ Topic.all by decide, hbound⟩
  have hmem := List.mem_map_of_mem (f := Warning.mk .reconciliation) hgiven
  rw [← hsaid] at hmem
  obtain ⟨w, hw⟩ := List.length_eq_one_iff.1 (hone (Or.inl ⟨_, _, hvalue⟩))
  refine ⟨hvalue, hw.trans ?_⟩
  rw [hw, List.mem_singleton] at hmem
  rw [← hmem]
  decide +kernel

end Host

end LibraryGuard
