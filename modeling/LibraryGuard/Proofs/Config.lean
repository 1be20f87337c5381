import LibraryGuard.Config
import LibraryGuard.Proofs.Except
import LibraryGuard.Proofs.Text.Utf8
import LibraryGuard.Proofs.Toml.Document

/-!
# The layers of a configuration

Each setting shows as the value that a document would give it (`value?`). One entry gives its setting its value and leaves the
others (`value?_of_set`), so of entries with distinct keys every setting has the value of its entry, and keeps what it had if
there is no entry (`value?_of_foldlM`). Whether all are accepted depends on each one alone (`exists_foldlM_iff`). Above the
document the environment replaces two settings (`value?_withOverrides`). The layers together are `settings_layered`.
-/

namespace LibraryGuard

namespace Setting

/-- The setting with a key is the one that has it. -/
theorem ofKey?_eq_some_iff {k : String} {s : Setting} : ofKey? k = some s ↔ k = s.key := by
  constructor
  · intro h
    have hkey : s.key = k := by simpa using List.find?_some h
    exact hkey.symm
  · rintro rfl
    cases s <;> decide

theorem key_injective : Function.Injective key := fun _ _ h =>
  Option.some.inj ((ofKey?_eq_some_iff.2 rfl).symm.trans (ofKey?_eq_some_iff.2 h))

/-- The kinds of settings: a text, a list of texts, a number. -/
inductive Kind where
  | text | texts | number
  deriving DecidableEq, Repr

/-- The kind of a setting. -/
def kind : Setting → Kind
  | .target | .versionFamily | .shipped | .lister | .probeProgram => .text
  | .probeArguments | .probeHidden => .texts
  | .probeTimeout | .dependencyDepth => .number

/-- The values of a kind. A number is one from zero up to the greatest one of 64 signed bits. -/
def Kind.Admits : Kind → Toml.Value → Prop
  | .text, v => ∃ t, v = .string t
  | .texts, v => ∃ ts : List String, v = .array (ts.map .string)
  | .number, v => ∃ n : Nat, n < 2 ^ 63 ∧ v = .integer n

/-- The variable that replaces a setting, if there is one. -/
def override? : Setting → Option String
  | .shipped => some "CXXGUARD_SHIPPED"
  | .probeProgram => some "CXXGUARD_PROBE"
  | _ => none

end Setting

namespace Config

/-! ## One value -/

/-- The value by which a document gives a setting what it is here. There is none for a shipped library that is not named. -/
def value? (c : Config) : Setting → Option Toml.Value
  | .target => some (.string c.target)
  | .versionFamily => some (.string c.versionFamily)
  | .shipped => c.shipped.map fun path => .string path.text
  | .lister => some (.string c.lister.text)
  | .probeProgram => some (.string c.probeProgram.text)
  | .probeArguments => some (.array (c.probeArguments.map .string))
  | .probeTimeout => some (.integer c.probeTimeout)
  | .probeHidden => some (.array (c.probeHidden.map .string))
  | .dependencyDepth => some (.integer c.dependencyDepth)

theorem textOf_eq_ok_iff {expected : Expectation} {v : Toml.Value} {t : String} : textOf expected v = .ok t ↔ v = .string t := by
  cases v <;> simp [textOf]

theorem textsOf_eq_ok_iff {v : Toml.Value} {ts : List String} : textsOf v = .ok ts ↔ v = .array (ts.map .string) := by
  cases v with
  | array items =>
    rw [textsOf, Toml.Value.array.injEq]
    induction items generalizing ts with
    | nil => cases ts <;> simp [pure, Except.pure]
    | cons v items ih =>
      rw [List.mapM_cons, bind_eq_ok_iff]
      simp only [textOf_eq_ok_iff, bind_eq_ok_iff, ih]
      cases ts with
      | nil => simp [pure, Except.pure]
      | cons t ts => simp [pure, Except.pure, eq_comm]
  | _ => simp [textsOf]

theorem numberOf_eq_ok_iff {expected : Expectation} {v : Toml.Value} {n : Nat} :
    numberOf expected v = .ok n ↔ v = .integer n := by
  cases v with
  | integer m =>
    rw [numberOf]
    split
    next h =>
      rw [Except.ok.injEq, Toml.Value.integer.injEq]
      omega
    next h =>
      refine ⟨nofun, fun heq => ?_⟩
      rw [Toml.Value.integer.injEq] at heq
      omega
  | _ => simp [numberOf]

variable {c c' : Config} {s s' : Setting} {v : Toml.Value}

/-- Configurations that show the same in every setting are the same. -/
theorem eq_of_value? (h : ∀ s, c.value? s = c'.value? s) : c = c' := by
  have htexts : Function.Injective (List.map Toml.Value.string) := List.map_injective_iff.2 fun _ _ => Toml.Value.string.inj
  have hpath : Function.Injective Path.text := fun _ _ => congrArg Path.mk
  have hnamed : Function.Injective fun path : Path => Toml.Value.string path.text :=
    fun _ _ ht => hpath (Toml.Value.string.inj ht)
  have htarget := Toml.Value.string.inj (Option.some.inj (h .target))
  have hfamily := Toml.Value.string.inj (Option.some.inj (h .versionFamily))
  have hshipped := Option.map_injective hnamed (h .shipped)
  have hlister := hpath (Toml.Value.string.inj (Option.some.inj (h .lister)))
  have hprogram := hpath (Toml.Value.string.inj (Option.some.inj (h .probeProgram)))
  have harguments := htexts (Toml.Value.array.inj (Option.some.inj (h .probeArguments)))
  have htimeout := Int.ofNat.inj (Toml.Value.integer.inj (Option.some.inj (h .probeTimeout)))
  have hhidden := htexts (Toml.Value.array.inj (Option.some.inj (h .probeHidden)))
  have hdepth := Int.ofNat.inj (Toml.Value.integer.inj (Option.some.inj (h .dependencyDepth)))
  cases c
  cases c'
  simp only [mk.injEq]
  exact ⟨htarget, hfamily, hshipped, hlister, hprogram, harguments, htimeout, hhidden, hdepth⟩

/-- A value of the setting's kind is accepted. -/
theorem exists_set (c : Config) (h : s.kind.Admits v) : ∃ c', c.set s v = .ok c' := by
  cases s
  case target | versionFamily | shipped | lister | probeProgram =>
    obtain ⟨t, rfl⟩ := h
    exact ⟨_, rfl⟩
  case probeArguments | probeHidden =>
    obtain ⟨ts, rfl⟩ := h
    exact ⟨_, bind_eq_ok_iff.2 ⟨ts, textsOf_eq_ok_iff.2 rfl, rfl⟩⟩
  case probeTimeout | dependencyDepth =>
    obtain ⟨n, -, rfl⟩ := h
    exact ⟨_, bind_eq_ok_iff.2 ⟨n, numberOf_eq_ok_iff.2 rfl, rfl⟩⟩

/-- A value that is accepted is what its setting shows from then on, and the other settings show what they showed. -/
theorem value?_of_set (h : c.set s v = .ok c') : c'.value? s = some v ∧ ∀ s', s' ≠ s → c'.value? s' = c.value? s' := by
  cases s
  case target | versionFamily | shipped | lister | probeProgram =>
    obtain ⟨t, ht, heq⟩ := bind_eq_ok_iff.1 h
    obtain rfl := textOf_eq_ok_iff.1 ht
    obtain rfl := Except.ok.inj heq
    refine ⟨rfl, fun s' hne => ?_⟩
    cases s' <;> first | rfl | exact absurd rfl hne
  case probeArguments | probeHidden =>
    obtain ⟨ts, hts, heq⟩ := bind_eq_ok_iff.1 h
    obtain rfl := textsOf_eq_ok_iff.1 hts
    obtain rfl := Except.ok.inj heq
    refine ⟨rfl, fun s' hne => ?_⟩
    cases s' <;> first | rfl | exact absurd rfl hne
  case probeTimeout | dependencyDepth =>
    obtain ⟨n, hn, heq⟩ := bind_eq_ok_iff.1 h
    obtain rfl := numberOf_eq_ok_iff.1 hn
    obtain rfl := Except.ok.inj heq
    refine ⟨rfl, fun s' hne => ?_⟩
    cases s' <;> first | rfl | exact absurd rfl hne

/-- What a setting shows is of its kind, except that a number may be too great for a document. -/
theorem admits_of_value? (h : c.value? s = some v) (hv : v.Fits) : s.kind.Admits v := by
  cases s
  case shipped =>
    obtain ⟨path, -, rfl⟩ := Option.map_eq_some_iff.1 h
    exact ⟨_, rfl⟩
  case target | versionFamily | lister | probeProgram =>
    obtain rfl := Option.some.inj h
    exact ⟨_, rfl⟩
  case probeArguments | probeHidden =>
    obtain rfl := Option.some.inj h
    exact ⟨_, rfl⟩
  case probeTimeout | dependencyDepth =>
    obtain rfl := Option.some.inj h
    exact ⟨_, by exact_mod_cast (Toml.fitsInteger_iff.1 hv).2, rfl⟩

/-! ## The entries of a document -/

/-- An entry that is accepted: its key is that of a setting, and its value of the setting's kind. -/
def Accepts (e : String × Toml.Value) : Prop := ∃ s : Setting, e.1 = s.key ∧ s.kind.Admits e.2

variable {e : String × Toml.Value} {entries entries' : List (String × Toml.Value)} {text text' : String}

theorem setEntry_eq_ok_iff : c.setEntry e = .ok c' ↔ ∃ s : Setting, e.1 = s.key ∧ c.set s e.2 = .ok c' := by
  unfold setEntry
  split
  next s hs =>
    have hkey : e.1 = s.key := Setting.ofKey?_eq_some_iff.1 hs
    refine ⟨fun h => ⟨s, hkey, h⟩, fun ⟨s', hkey', h⟩ => ?_⟩
    obtain rfl : s = s' := Setting.key_injective (hkey.symm.trans hkey')
    exact h
  next hnone =>
    refine ⟨nofun, fun ⟨s, hkey, _⟩ => ?_⟩
    nomatch hnone.symm.trans (Setting.ofKey?_eq_some_iff.2 hkey)

/-- Whether an entry of a document is accepted does not depend on those before it. -/
theorem exists_setEntry_iff (c : Config) (hfits : e.2.Fits) : (∃ c', c.setEntry e = .ok c') ↔ Accepts e := by
  constructor
  · rintro ⟨c', h⟩
    obtain ⟨s, hkey, hset⟩ := setEntry_eq_ok_iff.1 h
    exact ⟨s, hkey, admits_of_value? (value?_of_set hset).1 hfits⟩
  · rintro ⟨s, hkey, hadmits⟩
    obtain ⟨c', hset⟩ := exists_set c hadmits
    exact ⟨c', setEntry_eq_ok_iff.2 ⟨s, hkey, hset⟩⟩

/-- Entries of a document are accepted together if each one is. -/
theorem exists_foldlM_iff (c : Config) (hfits : ∀ e ∈ entries, e.2.Fits) :
    (∃ c', entries.foldlM setEntry c = .ok c') ↔ ∀ e ∈ entries, Accepts e := by
  induction entries generalizing c with
  | nil => simp [pure, Except.pure]
  | cons e entries ih =>
    obtain ⟨he, hrest⟩ := List.forall_mem_cons.1 hfits
    simp only [List.foldlM_cons, bind_eq_ok_iff]
    rw [List.forall_mem_cons]
    constructor
    · rintro ⟨c', c₁, hentry, hfold⟩
      exact ⟨(exists_setEntry_iff c he).1 ⟨c₁, hentry⟩, (ih c₁ hrest).1 ⟨c', hfold⟩⟩
    · rintro ⟨hentry, hentries⟩
      obtain ⟨c₁, hentry⟩ := (exists_setEntry_iff c he).2 hentry
      obtain ⟨c', hfold⟩ := (ih c₁ hrest).2 hentries
      exact ⟨c', c₁, hentry, hfold⟩

/-- Entries with distinct keys give each setting the value of its entry, and leave the settings without one. -/
theorem value?_of_foldlM (h : entries.foldlM setEntry c = .ok c') (hkeys : (entries.map (·.1)).Nodup) (s : Setting) :
    c'.value? s = (entries.lookup s.key).or (c.value? s) := by
  induction entries generalizing c with
  | nil =>
    obtain rfl := Except.ok.inj h
    rfl
  | cons e entries ih =>
    obtain ⟨hnew, hrest⟩ := List.nodup_cons.1 hkeys
    rw [List.foldlM_cons] at h
    obtain ⟨c₁, hentry, hfold⟩ := bind_eq_ok_iff.1 h
    obtain ⟨s₀, hkey, hset⟩ := setEntry_eq_ok_iff.1 hentry
    obtain ⟨hself, hothers⟩ := value?_of_set hset
    rw [ih hfold hrest, List.lookup_cons]
    -- The entry decides about its own setting, as no later one has its key; about the others the later ones do.
    by_cases hs : s = s₀
    · subst hs
      have hlater : entries.lookup s.key = none := by
        rw [List.lookup_eq_none_iff]
        intro e' he'
        rw [← hkey]
        exact bne_iff_ne.2 fun heq => hnew (List.mem_map.2 ⟨e', he', heq.symm⟩)
      have hfound : (s.key == e.1) = true := beq_iff_eq.2 hkey.symm
      rw [hlater, hself, hfound]
      rfl
    · have hmissed : (s.key == e.1) = false :=
        beq_eq_false_iff_ne.2 fun heq => hs (Setting.key_injective (heq.trans hkey))
      rw [hothers s hs, hmissed]

/-- Of entries with distinct keys, the one with a key is found wherever it stands. -/
theorem lookup_eq_some_iff_mem (hkeys : (entries.map (·.1)).Nodup) {k : String} :
    entries.lookup k = some v ↔ (k, v) ∈ entries := by
  induction entries with
  | nil => exact ⟨nofun, nofun⟩
  | cons e entries ih =>
    obtain ⟨k', v'⟩ := e
    obtain ⟨hnew, hrest⟩ := List.nodup_cons.1 hkeys
    rw [List.lookup_cons, List.mem_cons]
    by_cases hk : k = k'
    · subst hk
      have hlater : (k, v) ∉ entries := fun hmem => hnew (List.mem_map_of_mem (f := (·.1)) hmem)
      simp [hlater, eq_comm]
    · have hmissed : (k == k') = false := beq_eq_false_iff_ne.2 hk
      rw [hmissed, ih hrest]
      simp [hk]

/-- So their order does not matter. -/
theorem lookup_of_perm (hkeys : (entries.map (·.1)).Nodup) (hperm : entries.Perm entries') (k : String) :
    entries.lookup k = entries'.lookup k := by
  have hkeys' : (entries'.map (·.1)).Nodup := (hperm.map _).nodup_iff.1 hkeys
  refine Option.ext fun v => ?_
  rw [lookup_eq_some_iff_mem hkeys, lookup_eq_some_iff_mem hkeys', hperm.mem_iff]

/-! ## A document -/

theorem ofText_eq_ok_iff (h : Toml.read? text = some entries) : ofText text = .ok c ↔ ofEntries entries = .ok c := by
  rw [ofText, h]
  exact mapError_eq_ok_iff

/-- A document is accepted if each of its entries is. -/
theorem exists_ofText_iff (h : Toml.read? text = some entries) : (∃ c, ofText text = .ok c) ↔ ∀ e ∈ entries, Accepts e := by
  simp only [ofText_eq_ok_iff h]
  exact exists_foldlM_iff {} (Toml.read?_sound h).2

/-- Its settings are those of its entries, and built in where there is none. -/
theorem value?_of_ofText (h : Toml.read? text = some entries) (hc : ofText text = .ok c) (s : Setting) :
    c.value? s = (entries.lookup s.key).or (({} : Config).value? s) :=
  value?_of_foldlM ((ofText_eq_ok_iff h).1 hc) (Toml.read?_sound h).1 s

/-- A document is accepted as another one is that has the same entries in another order, with the same settings. -/
theorem ofText_of_perm (h : Toml.read? text = some entries) (h' : Toml.read? text' = some entries')
    (hperm : entries.Perm entries') (hc : ofText text = .ok c) : ofText text' = .ok c := by
  obtain ⟨c', hc'⟩ : ∃ c', ofText text' = .ok c' := by
    rw [exists_ofText_iff h']
    exact fun e he => (exists_ofText_iff h).1 ⟨c, hc⟩ e (hperm.mem_iff.2 he)
  rw [hc']
  refine congrArg Except.ok (eq_of_value? fun s => ?_)
  rw [value?_of_ofText h' hc', value?_of_ofText h hc, lookup_of_perm (Toml.read?_sound h).1 hperm]

/-! ## An environment -/

/-- The environment replaces a setting that has a variable, if that is set and not empty. -/
theorem value?_withOverrides (c : Config) (env : Environment) (s : Setting) :
    (c.withOverrides env).value? s = ((s.override?.bind env.get?).map .string).or (c.value? s) := by
  cases s
  case shipped => cases hs : env.get? "CXXGUARD_SHIPPED" <;> simp [value?, withOverrides, Setting.override?, hs]
  case probeProgram => cases hp : env.get? "CXXGUARD_PROBE" <;> simp [value?, withOverrides, Setting.override?, hp]
  all_goals rfl

end Config

/-- The file at a path holds a text, in UTF-8. -/
def Files.HoldsText (files : Files) (path : Path) (text : String) : Prop :=
  ∃ content, files.read path = .ok content ∧ content.toList = Text.Utf8.encode text.toList

/-- It holds one text at most. -/
theorem Files.HoldsText.unique {files : Files} {path : Path} {text text' : String} (h : files.HoldsText path text)
    (h' : files.HoldsText path text') : text = text' := by
  obtain ⟨content, hread, hcontent⟩ := h
  obtain ⟨content', hread', hcontent'⟩ := h'
  obtain rfl := Except.ok.inj (hread.symm.trans hread')
  exact String.toList_injective (Option.some.inj ((Text.Utf8.decode_eq_some_iff.2 hcontent).symm.trans
    (Text.Utf8.decode_eq_some_iff.2 hcontent')))

theorem Files.readText_eq_ok_iff {files : Files} {path : Path} {text : String} :
    files.readText path = .ok text ↔ files.HoldsText path text := by
  unfold readText
  rw [bind_eq_ok_iff]
  refine exists_congr fun content => and_congr_right fun _ => ?_
  rw [← Text.Utf8.decode_eq_some_iff]
  cases hdecode : Text.Utf8.decode content.toList with
  | none => exact ⟨nofun, nofun⟩
  | some s =>
    simp only [pure, Except.pure, Except.ok.injEq, Option.some.injEq]
    exact ⟨fun h => by rw [← h, String.toList_ofList], fun h => by rw [h, String.ofList_toList]⟩

namespace Config

/-- The configuration below the variables: that of the file which the environment names, or the built-in one if it names none. -/
inductive IsBase (files : Files) (env : Environment) : Config → Prop where
  | file {path text : String} {c : Config} (isNamed : env.get? "CXXGUARD_CONFIG" = some path)
    (isHeld : files.HoldsText ⟨path⟩ text) (isAccepted : ofText text = .ok c) : IsBase files env c
  | builtIn (isUnnamed : env.get? "CXXGUARD_CONFIG" = none) : IsBase files env {}

variable {files : Files} {env : Environment} {path : Path} {c : Config}

theorem load_eq_ok_iff : load files path = .ok c ↔ ∃ text, files.HoldsText path text ∧ ofText text = .ok c := by
  unfold load
  simp only [bind_eq_ok_iff, mapError_eq_ok_iff, Files.readText_eq_ok_iff]

theorem isBase_iff_of_named {p : String} (h : env.get? "CXXGUARD_CONFIG" = some p) :
    IsBase files env c ↔ load files ⟨p⟩ = .ok c := by
  rw [load_eq_ok_iff]
  constructor
  · rintro (⟨isNamed, isHeld, isAccepted⟩ | ⟨isUnnamed⟩)
    · obtain rfl := Option.some.inj (h.symm.trans isNamed)
      exact ⟨_, isHeld, isAccepted⟩
    · nomatch h.symm.trans isUnnamed
  · rintro ⟨text, hheld, hc⟩
    exact .file h hheld hc

theorem isBase_iff_of_unnamed (h : env.get? "CXXGUARD_CONFIG" = none) : IsBase files env c ↔ c = {} := by
  constructor
  · rintro (⟨isNamed, -, -⟩ | -)
    · nomatch h.symm.trans isNamed
    · rfl
  · rintro rfl
    exact .builtIn h

/-- An environment describes what is below its variables, with what these replace. -/
theorem ofEnvironment_eq_ok_iff :
    ofEnvironment files env = .ok c ↔ ∃ base, IsBase files env base ∧ base.withOverrides env = c := by
  unfold ofEnvironment
  cases hnamed : env.get? "CXXGUARD_CONFIG" with
  | none =>
    simp only [isBase_iff_of_unnamed hnamed, exists_eq_left]
    exact ⟨Except.ok.inj, congrArg Except.ok⟩
  | some p =>
    simp only [isBase_iff_of_named hnamed]
    rw [bind_eq_ok_iff]
    exact exists_congr fun base => and_congr_right fun _ => ⟨Except.ok.inj, congrArg Except.ok⟩

/-- It describes none exactly if it names a file that does not hold a text or whose text is not accepted. -/
theorem ofEnvironment_fails_iff :
    (∃ e, ofEnvironment files env = .error e) ↔
      ∃ p, env.get? "CXXGUARD_CONFIG" = some p ∧ ((∀ text, ¬ files.HoldsText ⟨p⟩ text) ∨
        ∃ text, files.HoldsText ⟨p⟩ text ∧ ∀ c, ofText text ≠ .ok c) := by
  have hfails : (∃ e, ofEnvironment files env = .error e) ↔ ∀ base, ¬ IsBase files env base := by
    constructor
    · rintro ⟨e, he⟩ base hbase
      nomatch he.symm.trans (ofEnvironment_eq_ok_iff.2 ⟨base, hbase, rfl⟩)
    · intro hnone
      cases h : ofEnvironment files env with
      | error e => exact ⟨e, rfl⟩
      | ok c =>
        obtain ⟨base, hbase, -⟩ := ofEnvironment_eq_ok_iff.1 h
        exact absurd hbase (hnone base)
  rw [hfails]
  constructor
  · intro hnone
    cases hnamed : env.get? "CXXGUARD_CONFIG" with
    | none => exact absurd (.builtIn hnamed) (hnone {})
    | some p =>
      refine ⟨p, rfl, ?_⟩
      by_cases hheld : ∃ text, files.HoldsText ⟨p⟩ text
      · obtain ⟨text, hheld⟩ := hheld
        exact .inr ⟨text, hheld, fun c hc => hnone c (.file hnamed hheld hc)⟩
      · exact .inl fun text htext => hheld ⟨text, htext⟩
  · rintro ⟨p, hnamed, hbad⟩ base hbase
    obtain ⟨text, hheld, hc⟩ := load_eq_ok_iff.1 ((isBase_iff_of_named hnamed).1 hbase)
    rcases hbad with hnone | ⟨text', hheld', hbad⟩
    · exact hnone text hheld
    · obtain rfl := hheld.unique hheld'
      exact hbad base hc

/-- A document is accepted exactly if each of its entries has the key of a setting and a value of that setting's kind, and each
setting is then what its entry says, and built in if there is none. So the order of the entries does not matter, and documents
that differ in one key differ in its setting at most. An environment describes no configuration exactly if it names a file that
holds no text or one that is not accepted; otherwise a variable that is set and not empty decides about its setting, and the named
file or what is built in decides about the others. -/
theorem settings_layered :
    (∀ text entries, Toml.read? text = some entries →
      ((∃ c, ofText text = .ok c) ↔ ∀ e ∈ entries, Accepts e) ∧
        (∀ c, ofText text = .ok c → ∀ s : Setting, c.value? s = (entries.lookup s.key).or (({} : Config).value? s)) ∧
          ∀ text' entries', Toml.read? text' = some entries' →
            (entries.Perm entries' → ∀ c, ofText text = .ok c ↔ ofText text' = .ok c) ∧
              ∀ key, (∀ k, k ≠ key → entries.lookup k = entries'.lookup k) → ∀ c c', ofText text = .ok c →
                ofText text' = .ok c' → ∀ s : Setting, s.key ≠ key → c.value? s = c'.value? s) ∧
      ∀ (files : Files) (env : Environment),
        ((∃ e, ofEnvironment files env = .error e) ↔
          ∃ p, env.get? "CXXGUARD_CONFIG" = some p ∧ ((∀ text, ¬ files.HoldsText ⟨p⟩ text) ∨
            ∃ text, files.HoldsText ⟨p⟩ text ∧ ∀ c, ofText text ≠ .ok c)) ∧
          ∀ c, ofEnvironment files env = .ok c ↔ ∃ base, IsBase files env base ∧
            ∀ s : Setting, c.value? s = ((s.override?.bind env.get?).map .string).or (base.value? s) := by
  refine ⟨fun text entries h => ⟨exists_ofText_iff h, fun c hc => value?_of_ofText h hc, fun text' entries' h' => ⟨?_, ?_⟩⟩,
    fun files env => ⟨ofEnvironment_fails_iff, fun c => ?_⟩⟩
  · intro hperm c
    exact ⟨ofText_of_perm h h' hperm, ofText_of_perm h' h hperm.symm⟩
  · intro key hothers c c' hc hc' s hs
    rw [value?_of_ofText h hc, value?_of_ofText h' hc', hothers s.key hs]
  · rw [ofEnvironment_eq_ok_iff]
    refine exists_congr fun base => and_congr_right fun _ => ⟨?_, fun hvalues => eq_of_value? fun s => ?_⟩
    · rintro rfl
      exact value?_withOverrides base env
    · rw [value?_withOverrides, hvalues s]

/-! ## A document with two settings -/

/-- A document with a number and a text. -/
def twoSettings : String := "max_dependency_depth = 3\ntarget = \"libm.so.6\"\n"

theorem twoSettings_read :
    Toml.read? twoSettings = some [("max_dependency_depth", .integer 3), ("target", .string "libm.so.6")] := by
  -- Values are not compared as such, so the entries are told from what they give as a number and as a text.
  have hread : (Toml.read? twoSettings).map (·.map fun e => (e.1, (numberOf .count e.2).toOption, (textOf .string e.2).toOption)) =
      some [("max_dependency_depth", some 3, none), ("target", none, some "libm.so.6")] := by
    decide +kernel
  obtain ⟨entries, hentries, hshown⟩ := Option.map_eq_some_iff.1 hread
  obtain ⟨⟨depthKey, depth⟩, rest, rfl, hdepth, hrest⟩ := List.map_eq_cons_iff.1 hshown
  obtain ⟨⟨targetKey, target⟩, rest, rfl, htarget, hnil⟩ := List.map_eq_cons_iff.1 hrest
  obtain rfl := List.map_eq_nil_iff.1 hnil
  simp only [Prod.mk.injEq, toOption_eq_some_iff, numberOf_eq_ok_iff, textOf_eq_ok_iff] at hdepth htarget
  obtain ⟨rfl, rfl, -⟩ := hdepth
  obtain ⟨rfl, -, rfl⟩ := htarget
  exact hentries

/-- A state of the files in which every file holds this document. -/
def holdingTwoSettings : Files where
  isFile _ := true
  isPresent _ := true
  read _ := .ok (Text.Utf8.encode twoSettings.toList).toArray

theorem settings_layered_twoSettings :
    ofText twoSettings = .ok { target := "libm.so.6", dependencyDepth := 3 } ∧
      ofEnvironment holdingTwoSettings
          [("CXXGUARD_CONFIG", "guard.toml"), ("CXXGUARD_SHIPPED", "app"), ("CXXGUARD_PROBE", "")] =
        .ok { target := "libm.so.6", dependencyDepth := 3, shipped := some ⟨"app"⟩ } := by
  obtain ⟨hdocument, henvironment⟩ := settings_layered
  obtain ⟨haccepted, hvalues, -⟩ := hdocument _ _ twoSettings_read
  have hentries : ∀ e ∈ [("max_dependency_depth", Toml.Value.integer 3), ("target", .string "libm.so.6")], Accepts e := by
    simp only [List.forall_mem_cons, List.not_mem_nil, false_implies, implies_true, and_true]
    exact ⟨⟨.dependencyDepth, rfl, 3, by decide, rfl⟩, ⟨.target, rfl, _, rfl⟩⟩
  obtain ⟨c, hc⟩ := haccepted.2 hentries
  obtain rfl : c = { target := "libm.so.6", dependencyDepth := 3 } := by
    refine eq_of_value? fun s => (hvalues c hc s).trans ?_
    cases s <;> rfl
  have hnamed : Environment.get? [("CXXGUARD_CONFIG", "guard.toml"), ("CXXGUARD_SHIPPED", "app"), ("CXXGUARD_PROBE", "")]
      "CXXGUARD_CONFIG" = some "guard.toml" := by
    decide
  refine ⟨hc, ((henvironment _ _).2 _).2 ⟨_, .file hnamed ⟨_, rfl, rfl⟩ hc, fun s => ?_⟩⟩
  cases s <;> rfl

end Config

end LibraryGuard
