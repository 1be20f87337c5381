import LibraryGuard.Proofs.Version.Order
import LibraryGuard.Reconciliation

/-!
# What reconciliation calls, and how it ends

Two copies can be compared (`Compared`) when the system's copy is known, both copies are files, and the newest version of each
can be told. The calls and the outcome of a reconciliation follow from this, from the two versions, from whether the target is
mapped, and from the linker's answer to a load (`reconcile_calls_and_outcome`): in particular the shipped copy is loaded in one
case only.
-/

namespace LibraryGuard

namespace Host

variable (h : Host) (target family : String) (shipped : Path)

/-- The system's copy is at a path: the mapped library comes from there, or, when none is mapped, a fresh process would take it
from there. -/
def HasCopyAt (path : Path) : Prop :=
  h.isMapped target = true ∧ h.resolve target = .ok path ∨ h.isMapped target = false ∧ h.probe target = .ok path

/-- There is a file at a path, of which the newest version of the family can be told. -/
def HasVersion (path : Path) (v : Version) : Prop :=
  h.files.isFile path = true ∧ (h.files.newestVersion path family).value = .ok v

/-- The system's copy and the shipped one are files, and these are their newest versions. -/
def Compared (a b : Version) : Prop :=
  (∃ path, h.HasCopyAt target path ∧ h.HasVersion family path a) ∧ h.HasVersion family shipped b

/-- The shipped copy is to be loaded: the target is not mapped, and the system's copy is older. -/
def Forestalls : Prop := h.isMapped target = false ∧ ∃ a b, h.Compared target family shipped a b ∧ a < b

/-- The call by which the system's copy is found. -/
def locating : HostCall := if h.isMapped target then .resolve target else .probe target

/-! ## The parts of a reconciliation -/

variable {h target family shipped}

/-- The system's copy is looked for by two calls, which tell where it is, and whether it is mapped. -/
theorem systemCopy_calls_and_value (h : Host) (target : String) :
    (h.systemCopy target).calls = [.find target, h.locating target] ∧
      (h.systemCopy target).value.2 = h.isMapped target ∧
      ∀ path, (h.systemCopy target).value.1 = some path ↔ h.HasCopyAt target path := by
  unfold systemCopy locating HasCopyAt
  cases hm : h.isMapped target with
  | true => cases h.resolve target <;> simp
  | false => cases h.probe target <;> simp

/-- The shipped path is fine exactly when it leads to a file. -/
theorem checkShipped_value : (h.checkShipped target shipped).value = h.files.isFile shipped := by
  unfold checkShipped
  cases hf : h.files.isFile shipped <;> simp

/-- What was found for the system's copy is kept exactly when it is the path of a file. -/
theorem checkSystem_eq_some_iff (found : Option Path) (path : Path) :
    (h.checkSystem target found).value = some path ↔ found = some path ∧ h.files.isFile path = true := by
  cases found with
  | none => simp [checkSystem]
  | some path' =>
    cases hf : h.files.isFile path' with
    | true =>
      have hkept : (h.checkSystem target (some path')).value = some path' := by simp [checkSystem, hf]
      rw [hkept]
      exact ⟨fun heq => ⟨heq, Option.some.inj heq ▸ hf⟩, And.left⟩
    | false =>
      have hdropped : (h.checkSystem target (some path')).value = none := by simp [checkSystem, hf]
      rw [hdropped]
      refine ⟨nofun, ?_⟩
      rintro ⟨heq, hfile⟩
      rw [← Option.some.inj heq, hf] at hfile
      nomatch hfile

/-- Two versions are told exactly when each of them can be. -/
theorem versions_eq_ok_iff (system : Path) (a b : Version) :
    (h.versions family system shipped).value = .ok (a, b) ↔
      (h.files.newestVersion system family).value = .ok a ∧ (h.files.newestVersion shipped family).value = .ok b := by
  unfold versions
  cases ha : (h.files.newestVersion system family).value with
  | error e => simp [ha]
  | ok v => cases hb : (h.files.newestVersion shipped family).value <;> simp [ha, hb, Except.map]

/-- A system copy that is new enough is left alone. -/
theorem act_of_le (h : Host) (target : String) (system shipped : Path) (bound : Bool) {a b : Version} (hle : b ≤ a) :
    (h.act target system shipped bound (a, b)).value = .upToDate a b ∧
      (h.act target system shipped bound (a, b)).calls = [] := by
  simp [act, decision, hle]

/-- An older copy that is mapped already is left alone. -/
theorem act_of_bound (h : Host) (target : String) (system shipped : Path) {a b : Version} (hlt : a < b) :
    (h.act target system shipped true (a, b)).value = .alreadyBound a b ∧
      (h.act target system shipped true (a, b)).calls = [] := by
  simp [act, decision, hlt.not_ge]

/-- An older copy that is not mapped is forestalled by one load. -/
theorem act_of_unbound (h : Host) (target : String) (system shipped : Path) {a b : Version} (hlt : a < b) :
    (h.act target system shipped false (a, b)).value =
        (match h.load shipped with
          | .ok () => .loaded shipped a b
          | .error e => .loadFailed shipped e.message) ∧
      (h.act target system shipped false (a, b)).calls = [.load shipped] := by
  cases hl : h.load shipped <;> simp [act, decision, hlt.not_ge, hl]

/-- When both versions are told, comparing comes to acting on them. -/
theorem compare_of_ok (target : String) (bound : Bool) {system : Path} {vs : Version × Version}
    (hv : (h.versions family system shipped).value = .ok vs) :
    (h.compare target family system shipped bound).value = (h.act target system shipped bound vs).value ∧
      (h.compare target family system shipped bound).calls = (h.act target system shipped bound vs).calls := by
  unfold compare
  simp [hv]

/-- When a version cannot be told, nothing is decided, without a call. -/
theorem compare_of_error (target : String) (bound : Bool) {system : Path} {e : GuardError}
    (hv : (h.versions family system shipped).value = .error e) :
    (h.compare target family system shipped bound).value = .indeterminate ∧
      (h.compare target family system shipped bound).calls = [] := by
  unfold compare
  simp [hv]

/-! ## A whole reconciliation -/

/-- A reconciliation of two copies that can be compared looks for the system's copy, and acts on the two versions. -/
theorem reconcile_of_compared {a b : Version} (hc : h.Compared target family shipped a b) :
    ∃ system,
      (h.reconcile target family shipped).value = (h.act target system shipped (h.isMapped target) (a, b)).value ∧
        (h.reconcile target family shipped).calls =
          [.find target, h.locating target] ++ (h.act target system shipped (h.isMapped target) (a, b)).calls := by
  obtain ⟨⟨system, hat, hfile, ha⟩, hshipped, hb⟩ := hc
  obtain ⟨hcalls, hbound, hfound⟩ := h.systemCopy_calls_and_value target
  have hchecked : (h.checkSystem target (h.systemCopy target).value.1).value = some system :=
    (checkSystem_eq_some_iff _ _).2 ⟨(hfound system).2 hat, hfile⟩
  have hversions : (h.versions family system shipped).value = .ok (a, b) := (versions_eq_ok_iff ..).2 ⟨ha, hb⟩
  obtain ⟨hvalue, hacts⟩ := compare_of_ok target (h.isMapped target) hversions
  refine ⟨system, ?_, ?_⟩
  · simp [reconcile, hchecked, checkShipped_value, hshipped, hbound, hvalue]
  · simp [reconcile, hchecked, checkShipped_value, hshipped, hbound, hcalls, hacts]

/-- A reconciliation of two copies that cannot be compared looks for the system's copy, and decides nothing. -/
theorem reconcile_of_not_compared (hc : ¬ ∃ a b, h.Compared target family shipped a b) :
    (h.reconcile target family shipped).value = .indeterminate ∧
      (h.reconcile target family shipped).calls = [.find target, h.locating target] := by
  obtain ⟨hcalls, hbound, hfound⟩ := h.systemCopy_calls_and_value target
  cases hs : (h.checkSystem target (h.systemCopy target).value.1).value with
  | none => simp [reconcile, hs, hcalls]
  | some system =>
    cases hf : h.files.isFile shipped with
    | false => simp [reconcile, checkShipped_value, hf, hcalls]
    | true =>
      obtain ⟨hat, hfile⟩ := (checkSystem_eq_some_iff _ _).1 hs
      cases hv : (h.versions family system shipped).value with
      | error e =>
        obtain ⟨hvalue, hnone⟩ := compare_of_error target (h.isMapped target) hv
        simp [reconcile, hs, checkShipped_value, hf, hbound, hcalls, hvalue, hnone]
      | ok vs =>
        obtain ⟨ha, hb⟩ := (versions_eq_ok_iff system vs.1 vs.2).1 hv
        exact absurd ⟨vs.1, vs.2, ⟨system, (hfound system).1 hat, hfile, ha⟩, hf, hb⟩ hc

/-- A reconciliation looks for the system's copy by two calls, and makes at most one more, to load the shipped copy. -/
theorem reconcile_calls (h : Host) (target family : String) (shipped : Path) :
    (h.reconcile target family shipped).calls = [.find target, h.locating target] ∨
      (h.reconcile target family shipped).calls = [.find target, h.locating target] ++ [.load shipped] := by
  by_cases hc : ∃ a b, h.Compared target family shipped a b
  · obtain ⟨a, b, hc⟩ := hc
    obtain ⟨system, -, hcalls⟩ := reconcile_of_compared hc
    rw [hcalls]
    rcases le_or_gt b a with hle | hlt
    · exact Or.inl (by rw [(act_of_le h target system shipped _ hle).2, List.append_nil])
    · cases hm : h.isMapped target with
      | true => exact Or.inl (by rw [(act_of_bound h target system shipped hlt).2, List.append_nil])
      | false => exact Or.inr (by rw [(act_of_unbound h target system shipped hlt).2])
  · exact Or.inl (reconcile_of_not_compared hc).2

/-- The system's copy is at one place. -/
theorem HasCopyAt.unique {path path' : Path} (hat : h.HasCopyAt target path) (hat' : h.HasCopyAt target path') :
    path = path' := by
  obtain ⟨-, -, hfound⟩ := h.systemCopy_calls_and_value target
  exact Option.some.inj (((hfound path).2 hat).symm.trans ((hfound path').2 hat'))

/-- The copies are of one newest version each. -/
theorem Compared.unique {a b a' b' : Version} (hc : h.Compared target family shipped a b)
    (hc' : h.Compared target family shipped a' b') : a = a' ∧ b = b' := by
  obtain ⟨⟨system, hat, -, ha⟩, -, hb⟩ := hc
  obtain ⟨⟨system', hat', -, ha'⟩, -, hb'⟩ := hc'
  rw [hat.unique hat'] at ha
  exact ⟨Except.ok.inj (ha.symm.trans ha'), Except.ok.inj (hb.symm.trans hb')⟩

/-- What a reconciliation calls, and how it ends. It looks for the system's copy by two calls, and makes a third one, to load the
shipped copy, exactly when the target is not mapped and the system's copy is older. It leaves a copy that is new enough and an
older one that is mapped, tells whether the load went well, and decides nothing when the two copies cannot be compared. -/
theorem reconcile_calls_and_outcome (h : Host) (target family : String) (shipped : Path) :
    let r := h.reconcile target family shipped
    let looks := [.find target, if h.isMapped target then .resolve target else .probe target]
    (h.Forestalls target family shipped → r.calls = looks ++ [.load shipped]) ∧
    (¬ h.Forestalls target family shipped → r.calls = looks) ∧
    (∀ a b, r.value = .upToDate a b ↔ h.Compared target family shipped a b ∧ b ≤ a) ∧
    (∀ a b, r.value = .alreadyBound a b ↔
      h.Compared target family shipped a b ∧ a < b ∧ h.isMapped target = true) ∧
    (∀ path a b, r.value = .loaded path a b ↔
      path = shipped ∧ h.Compared target family shipped a b ∧ a < b ∧ h.isMapped target = false ∧
        h.load shipped = .ok ()) ∧
    (∀ path reason, r.value = .loadFailed path reason ↔
      path = shipped ∧ h.Forestalls target family shipped ∧ ∃ e, h.load shipped = .error e ∧ reason = e.message) ∧
    (r.value = .indeterminate ↔ ¬ ∃ a b, h.Compared target family shipped a b) := by
  intro r looks
  by_cases hc : ∃ a b, h.Compared target family shipped a b
  · obtain ⟨a, b, hc⟩ := hc
    have hversions : ∀ {a' b'}, h.Compared target family shipped a' b' ↔ a' = a ∧ b' = b := by
      intro a' b'
      constructor
      · exact fun hc' => hc'.unique hc
      · rintro ⟨rfl, rfl⟩
        exact hc
    have hforestalls : h.Forestalls target family shipped ↔ h.isMapped target = false ∧ a < b := by
      simp [Forestalls, hversions]
    obtain ⟨system, hvalue, hcalls⟩ := reconcile_of_compared hc
    simp only [hversions, hforestalls, r, looks, hvalue, hcalls]
    -- With the two versions known, each ending is settled by what `act` does.
    rcases le_or_gt b a with hle | hlt
    · obtain ⟨hacts, hnocall⟩ := act_of_le h target system shipped (h.isMapped target) hle
      grind [locating]
    · cases hm : h.isMapped target with
      | true =>
        obtain ⟨hacts, hnocall⟩ := act_of_bound h target system shipped hlt
        grind [locating]
      | false =>
        obtain ⟨hacts, honecall⟩ := act_of_unbound h target system shipped hlt
        cases hl : h.load shipped with
        | ok _ => grind [locating]
        | error e => grind [locating]
  · obtain ⟨hvalue, hcalls⟩ := reconcile_of_not_compared hc
    have hnone : ∀ {a b}, ¬ h.Compared target family shipped a b := fun {a b} hab => hc ⟨a, b, hab⟩
    simp [r, looks, hvalue, hcalls, Forestalls, hnone, locating]

end Host

end LibraryGuard
