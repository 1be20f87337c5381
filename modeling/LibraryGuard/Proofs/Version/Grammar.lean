import LibraryGuard.Proofs.Except
import LibraryGuard.Proofs.Text.Blank
import LibraryGuard.Version
import Mathlib.Data.Nat.Digits.Defs

/-!
# Which texts are versions

A version is written with one to three components with single points between them, and a component is a run of decimal digits
for a number below 2^32 (`IsWritten`). A text that is not written so has a leftmost component that offends, and is refused for
what is wrong with this one (`FirstOffends`). So what reading answers is told by the components of a text alone
(`parse_written_or_offending`), and so is what it warns of where a text that is no version counts as `0.0.0`
(`warnings_of_isText`, `parseLenient_of_not_isText`).
-/

namespace LibraryGuard.Version

/-- A run of decimal digits. -/
def IsDecimal (c : List Char) : Prop := c ≠ [] ∧ ∀ d ∈ c, d.isDigit = true

/-- The number that digits stand for: each counts ten times as much as the one behind it. -/
def value (c : List Char) : Nat := Nat.ofDigits 10 (c.reverse.map fun d => d.toNat - '0'.toNat)

/-- A run of decimal digits for a number of 32 bits. -/
structure IsNumber (c : List Char) : Prop where
  isDecimal : IsDecimal c
  inRange : value c < 2 ^ 32

/-- A text is written with some components: one to three numbers with single points between them. -/
structure IsWritten (s : String) (cs : List (List Char)) : Prop where
  joined : s.toList = ['.'].intercalate cs
  not_nil : cs ≠ []
  at_most_three : cs.length ≤ 3
  areNumbers : ∀ c ∈ cs, IsNumber c

/-- What is wrong with the component at a position if there is room for some: before the last place it is no run of digits or its
number is too large, and one behind the last place is wrong whatever it is. -/
inductive Offends (places : Nat) : Nat → List Char → Fault → Prop where
  | notDecimal {i : Nat} {c : List Char} (hi : i < places) (h : ¬ IsDecimal c) : Offends places i c .notDecimal
  | outOfRange {i : Nat} {c : List Char} (hi : i < places) (h : IsDecimal c) (hlarge : 2 ^ 32 ≤ value c) :
      Offends places i c .outOfRange
  | tooMany {c : List Char} : Offends places places c .tooManyComponents

/-- What is wrong with the leftmost component that offends. -/
def FirstOffends (places : Nat) (cs : List (List Char)) (f : Fault) : Prop :=
  ∃ i c, cs[i]? = some c ∧ Offends places i c f ∧ ∀ j < i, ∀ d, cs[j]? = some d → ∀ g, ¬ Offends places j d g

/-- A text is a version: it is written with some components. -/
def IsText (s : String) : Prop := ∃ cs, IsWritten s cs

/-- The warning about a text that is no version: it names the text, and says what is wrong with the leftmost component that
offends. -/
def Complains (s : String) (w : Warning) : Prop :=
  ∃ fault, FirstOffends 3 (s.toList.splitOn '.') fault ∧
    w = ⟨.version, "invalid version string `" ++ s ++ "`: " ++ fault.message ++
      "; treating it as 0.0.0, runtime link errors may occur"⟩

/-- The three numbers of a version. -/
def numbers (v : Version) : List Nat := [v.major.toNat, v.minor.toNat, v.patch.toNat]

/-! ## One component -/

/-- The decimal digits are those of the library. -/
theorem isDigit_eq (c : Char) : isDigit c = c.isDigit := rfl

/-- Reading digits from the left gives the number that they stand for. -/
theorem decimal_eq_value (c : List Char) : decimal c = value c := by
  rw [decimal, value, Nat.ofDigits_eq_foldr, List.foldr_map, List.foldr_reverse]
  congr 1
  funext n d
  exact Nat.add_comm _ _

theorem isDecimal_iff (c : List Char) : IsDecimal c ↔ (c.isEmpty || !c.all isDigit) = false := by
  simp [IsDecimal, isDigit_eq]

/-- A component is a number of 32 bits, or no run of digits, or its number is too large. -/
theorem component_cases (c : List Char) :
    IsNumber c ∧ component c = .ok (UInt32.ofNat (value c)) ∨
    ¬ IsDecimal c ∧ component c = .error .notDecimal ∨
    IsDecimal c ∧ 2 ^ 32 ≤ value c ∧ component c = .error .outOfRange := by
  rw [component, decimal_eq_value]
  by_cases hdecimal : IsDecimal c
  · rw [if_neg (by rw [(isDecimal_iff c).1 hdecimal]; decide)]
    by_cases hrange : value c < UInt32.size
    · exact Or.inl ⟨⟨hdecimal, hrange⟩, if_pos hrange⟩
    · exact Or.inr (Or.inr ⟨hdecimal, Nat.le_of_not_lt hrange, if_neg hrange⟩)
  · rw [if_pos (by rwa [isDecimal_iff, Bool.not_eq_false] at hdecimal)]
    exact Or.inr (Or.inl ⟨hdecimal, rfl⟩)

/-- A component is read as a number exactly if it is one, and as the number that it stands for. -/
theorem component_eq_ok_iff {c : List Char} {n : UInt32} : component c = .ok n ↔ IsNumber c ∧ n.toNat = value c := by
  rcases component_cases c with ⟨hnumber, hread⟩ | ⟨hdecimal, hread⟩ | ⟨-, hlarge, hread⟩
  · have hvalue : (UInt32.ofNat (value c)).toNat = value c := UInt32.toNat_ofNat_of_lt' hnumber.inRange
    rw [hread, Except.ok.injEq, ← UInt32.toNat_inj, hvalue]
    exact ⟨fun h => ⟨hnumber, h.symm⟩, fun h => h.2.symm⟩
  · rw [hread]
    exact ⟨nofun, fun h => absurd h.1.isDecimal hdecimal⟩
  · rw [hread]
    exact ⟨nofun, fun h => absurd h.1.inRange (Nat.not_lt.2 hlarge)⟩

/-- A component for which there is room is refused exactly for what is wrong with it. -/
theorem component_eq_error_iff (places : Nat) {c : List Char} {f : Fault} :
    component c = .error f ↔ Offends (places + 1) 0 c f := by
  rcases component_cases c with ⟨hnumber, hread⟩ | ⟨hdecimal, hread⟩ | ⟨hdecimal, hlarge, hread⟩
  · rw [hread]
    refine ⟨nofun, fun h => ?_⟩
    cases h with
    | notDecimal _ h => exact absurd hnumber.isDecimal h
    | outOfRange _ _ h => exact absurd hnumber.inRange (Nat.not_lt.2 h)
  · rw [hread, Except.error.injEq]
    constructor
    · rintro rfl
      exact .notDecimal places.succ_pos hdecimal
    · intro h
      cases h with
      | notDecimal => rfl
      | outOfRange _ h => exact absurd h hdecimal
  · rw [hread, Except.error.injEq]
    constructor
    · rintro rfl
      exact .outOfRange places.succ_pos hdecimal hlarge
    · intro h
      cases h with
      | notDecimal _ h => exact absurd hdecimal h
      | outOfRange => rfl

/-! ## All components -/

variable {places : Nat} {c : List Char} {cs : List (List Char)} {f : Fault}

/-- Nothing is wrong with a component for which there is room exactly if it is a number. -/
theorem isNumber_iff_forall_not_offends : IsNumber c ↔ ∀ g, ¬ Offends (places + 1) 0 c g := by
  constructor
  · intro h g hg
    have hread := (component_eq_error_iff places).2 hg
    rw [component_eq_ok_iff.2 ⟨h, UInt32.toNat_ofNat_of_lt' h.inRange⟩] at hread
    nomatch hread
  · intro h
    cases hread : component c with
    | ok n => exact (component_eq_ok_iff.1 hread).1
    | error g => exact absurd ((component_eq_error_iff places).1 hread) (h g)

theorem offends_succ {i : Nat} : Offends (places + 1) (i + 1) c f ↔ Offends places i c f := by
  constructor
  · intro h
    cases h with
    | notDecimal hi h => exact .notDecimal (Nat.lt_of_succ_lt_succ hi) h
    | outOfRange hi h hlarge => exact .outOfRange (Nat.lt_of_succ_lt_succ hi) h hlarge
    | tooMany => exact .tooMany
  · intro h
    cases h with
    | notDecimal hi h => exact .notDecimal (Nat.succ_lt_succ hi) h
    | outOfRange hi h hlarge => exact .outOfRange (Nat.succ_lt_succ hi) h hlarge
    | tooMany => exact .tooMany

/-- Where there is no room, the first component offends. -/
theorem firstOffends_zero : FirstOffends 0 (c :: cs) f ↔ f = .tooManyComponents := by
  constructor
  · rintro ⟨i, d, -, hoffends, -⟩
    cases hoffends with
    | notDecimal hi => exact absurd hi (Nat.not_lt_zero i)
    | outOfRange hi => exact absurd hi (Nat.not_lt_zero i)
    | tooMany => rfl
  · rintro rfl
    exact ⟨0, c, rfl, .tooMany, fun j hj => absurd hj (Nat.not_lt_zero j)⟩

/-- The leftmost component that offends is the first one, or it is the leftmost of the others behind a number. -/
theorem firstOffends_succ :
    FirstOffends (places + 1) (c :: cs) f ↔ Offends (places + 1) 0 c f ∨ IsNumber c ∧ FirstOffends places cs f := by
  constructor
  · rintro ⟨i, d, hd, hoffends, hfirst⟩
    cases i with
    | zero =>
      obtain rfl := Option.some.inj hd
      exact Or.inl hoffends
    | succ i =>
      refine Or.inr ⟨isNumber_iff_forall_not_offends.2 (hfirst 0 i.succ_pos c rfl), i, d, hd, offends_succ.1 hoffends, ?_⟩
      intro j hj e he g hg
      exact hfirst (j + 1) (Nat.succ_lt_succ hj) e he g (offends_succ.2 hg)
  · rintro (hoffends | ⟨hnumber, i, d, hd, hoffends, hfirst⟩)
    · exact ⟨0, c, rfl, hoffends, fun j hj => absurd hj (Nat.not_lt_zero j)⟩
    · refine ⟨i + 1, d, hd, offends_succ.2 hoffends, ?_⟩
      intro j hj e he g hg
      cases j with
      | zero =>
        obtain rfl := Option.some.inj he
        exact isNumber_iff_forall_not_offends.1 hnumber g hg
      | succ j => exact hfirst j (Nat.lt_of_succ_lt_succ hj) e he g (offends_succ.1 hg)

/-- Components are read exactly if there is room for all of them and each is a number, and then as what they stand for. -/
theorem components_eq_ok_iff {vs : List UInt32} :
    components places cs = .ok vs ↔ cs.length ≤ places ∧ (∀ c ∈ cs, IsNumber c) ∧ vs.map (·.toNat) = cs.map value := by
  induction cs generalizing places vs with
  | nil => simp [components, eq_comm]
  | cons c cs ih =>
    cases places with
    | zero => simp [components]
    | succ places =>
      simp only [components, bind_eq_ok_iff, component_eq_ok_iff, ih, pure, Except.pure, Except.ok.injEq, List.length_cons,
        Nat.succ_le_succ_iff, List.forall_mem_cons, List.map_cons]
      constructor
      · rintro ⟨n, ⟨hnumber, hvalue⟩, ws, ⟨hlength, hnumbers, hvalues⟩, rfl⟩
        exact ⟨hlength, ⟨hnumber, hnumbers⟩, by rw [List.map_cons, hvalue, hvalues]⟩
      · rintro ⟨hlength, ⟨hnumber, hnumbers⟩, hvalues⟩
        obtain ⟨n, ws, rfl, hvalue, hvalues⟩ := List.map_eq_cons_iff.1 hvalues
        exact ⟨n, ⟨hnumber, hvalue⟩, ws, ⟨hlength, hnumbers, hvalues⟩, rfl⟩

/-- Components are refused exactly for what is wrong with the leftmost one that offends. -/
theorem components_eq_error_iff : components places cs = .error f ↔ FirstOffends places cs f := by
  induction cs generalizing places with
  | nil => simp [components, FirstOffends]
  | cons c cs ih =>
    cases places with
    | zero =>
      rw [firstOffends_zero, components, Except.error.injEq, eq_comm]
    | succ places =>
      simp only [components, bind_eq_error_iff, component_eq_error_iff places, ih, pure, Except.pure,
        firstOffends_succ, reduceCtorEq, and_false, exists_false, or_false]
      refine or_congr_right ⟨?_, ?_⟩
      · rintro ⟨n, hread, hrest⟩
        exact ⟨(component_eq_ok_iff.1 hread).1, hrest⟩
      · rintro ⟨hnumber, hrest⟩
        exact ⟨UInt32.ofNat (value c), component_eq_ok_iff.2 ⟨hnumber, UInt32.toNat_ofNat_of_lt' hnumber.inRange⟩, hrest⟩

/-! ## A whole text -/

variable {s : String}

/-- No digit is a point. -/
theorem IsDecimal.point_not_mem (h : IsDecimal c) : '.' ∉ c := fun hpoint => absurd (h.2 _ hpoint) (by decide)

/-- A text is written with the pieces between its points, and in no other way. -/
theorem isWritten_iff :
    IsWritten s cs ↔ cs = s.toList.splitOn '.' ∧ cs.length ≤ 3 ∧ ∀ c ∈ cs, IsNumber c := by
  constructor
  · intro h
    refine ⟨?_, h.at_most_three, h.areNumbers⟩
    rw [h.joined, List.splitOn_intercalate '.' (fun c hc => (h.areNumbers c hc).isDecimal.point_not_mem) h.not_nil]
  · rintro ⟨rfl, hlength, hnumbers⟩
    exact ⟨(List.intercalate_splitOn '.').symm, List.splitOn_ne_nil '.' _, hlength, hnumbers⟩

/-- Up to three numbers are those of a version, with zeros for the ones that are missing. -/
theorem numbers_ofComponents {vs : List UInt32} (h : vs.length ≤ 3) :
    (ofComponents vs).numbers = vs.map (·.toNat) ++ List.replicate (3 - vs.length) 0 := by
  rcases vs with _ | ⟨a, _ | ⟨b, _ | ⟨c, _ | ⟨d, vs⟩⟩⟩⟩
  · rfl
  · rfl
  · rfl
  · rfl
  · simp only [List.length_cons] at h
    omega

theorem numbers_injective : Function.Injective numbers := by
  rintro ⟨_, _, _⟩ ⟨_, _, _⟩ h
  simpa [numbers, UInt32.toNat_inj] using h

/-- The components that a text is written with are read. -/
theorem IsWritten.components_eq (h : IsWritten s cs) : ∃ vs, components 3 (s.toList.splitOn '.') = .ok vs := by
  obtain ⟨rfl, hlength, hnumbers⟩ := isWritten_iff.1 h
  refine ⟨(s.toList.splitOn '.').map fun c => UInt32.ofNat (value c), components_eq_ok_iff.2 ⟨hlength, hnumbers, ?_⟩⟩
  rw [List.map_map]
  exact List.map_congr_left fun c hc => UInt32.toNat_ofNat_of_lt' (hnumbers c hc).inRange

/-- A text is read as the version with the numbers that it is written with. -/
theorem parse_eq_ok_iff {v : Version} :
    parse s = .ok v ↔ ∃ cs, IsWritten s cs ∧ v.numbers = cs.map value ++ List.replicate (3 - cs.length) 0 := by
  rw [parse, Text.pieces_eq_splitOn]
  cases hread : components 3 (s.toList.splitOn '.') with
  | error f =>
    refine ⟨nofun, ?_⟩
    rintro ⟨cs, hwritten, -⟩
    obtain ⟨vs, hvs⟩ := hwritten.components_eq
    nomatch hread.symm.trans hvs
  | ok vs =>
    obtain ⟨hlength, hnumbers, hvalues⟩ := components_eq_ok_iff.1 hread
    have hcount : vs.length = (s.toList.splitOn '.').length := by simpa using congrArg List.length hvalues
    have hversion : (ofComponents vs).numbers =
        (s.toList.splitOn '.').map value ++ List.replicate (3 - (s.toList.splitOn '.').length) 0 := by
      rw [numbers_ofComponents (hcount ▸ hlength), hvalues, hcount]
    constructor
    · intro h
      obtain rfl := Except.ok.inj h
      exact ⟨_, isWritten_iff.2 ⟨rfl, hlength, hnumbers⟩, hversion⟩
    · rintro ⟨cs, hwritten, hv⟩
      obtain ⟨rfl, -⟩ := isWritten_iff.1 hwritten
      exact congrArg Except.ok (numbers_injective (hversion.trans hv.symm))

/-- A text is refused for what is wrong with the leftmost of its components that offends. -/
theorem parse_eq_error_iff {e : ParseError} :
    parse s = .error e ↔ e.input = s ∧ FirstOffends 3 (s.toList.splitOn '.') e.fault := by
  obtain ⟨input, fault⟩ := e
  rw [parse, Text.pieces_eq_splitOn, ← components_eq_error_iff]
  cases components 3 (s.toList.splitOn '.') with
  | error f => simp [eq_comm]
  | ok vs => simp

/-- A text is a version exactly if it is read as one. -/
theorem isText_iff : IsText s ↔ ∃ v, parse s = .ok v := by
  constructor
  · rintro ⟨cs, hwritten⟩
    obtain ⟨vs, hvs⟩ := hwritten.components_eq
    exact ⟨ofComponents vs, by rw [parse, Text.pieces_eq_splitOn, hvs]⟩
  · rintro ⟨v, hv⟩
    obtain ⟨cs, hwritten, -⟩ := parse_eq_ok_iff.1 hv
    exact ⟨cs, hwritten⟩

instance (s : String) : Decidable (IsText s) := decidable_of_iff ((parse s).isOk = true) <| by
  rw [isText_iff]
  cases parse s <;> simp [Except.isOk, Except.toBool]

/-! ## Reading leniently -/

/-- A version is read as it is, without a warning. -/
theorem parseLenient_of_parse {v : Version} (h : parse s = .ok v) : parseLenient s = ⟨v, []⟩ := by
  simp only [parseLenient, h]
  rfl

/-- A text that is refused is read as `0.0.0`, with a warning that says why. -/
theorem parseLenient_of_refused {e : ParseError} (h : parse s = .error e) :
    parseLenient s = ⟨zero, [⟨.version, "invalid version string `" ++ s ++ "`: " ++ e.fault.message ++
      "; treating it as 0.0.0, runtime link errors may occur"⟩]⟩ := by
  obtain rfl := (parse_eq_error_iff.1 h).1
  simp only [parseLenient, h]
  rfl

/-- A version is read without a warning. -/
theorem warnings_of_isText (h : IsText s) : (parseLenient s).warnings = [] := by
  obtain ⟨v, hv⟩ := isText_iff.1 h
  rw [parseLenient_of_parse hv]

/-- A text that is no version is read as `0.0.0`, with the one warning about it. -/
theorem parseLenient_of_not_isText (h : ¬ IsText s) : ∃ w, Complains s w ∧ parseLenient s = ⟨zero, [w]⟩ := by
  cases hread : parse s with
  | ok v => exact absurd (isText_iff.2 ⟨v, hread⟩) h
  | error e => exact ⟨_, ⟨e.fault, (parse_eq_error_iff.1 hread).2, rfl⟩, parseLenient_of_refused hread⟩

/-! ## What reading answers -/

/-- What reading a text answers. It succeeds exactly on the texts that are written with one to three numbers below 2^32 and single
points between them, and gives the version with these numbers, missing ones being zero. Every other text is refused for what is
wrong with the leftmost component that offends: a fourth one is one too many whatever it is, and one before it is no run of
digits, or its number is too large. Read leniently, a text that is refused counts as `0.0.0`, with one warning that says why. -/
theorem parse_written_or_offending (s : String) :
    (∀ v, parse s = .ok v ↔ ∃ cs, IsWritten s cs ∧ v.numbers = cs.map value ++ List.replicate (3 - cs.length) 0) ∧
      (∀ cs, IsWritten s cs → ∃ v, parse s = .ok v) ∧
      (∀ e, parse s = .error e ↔ e.input = s ∧ FirstOffends 3 (s.toList.splitOn '.') e.fault) ∧
      (∀ v, parse s = .ok v → parseLenient s = ⟨v, []⟩) ∧
      ∀ e, parse s = .error e → parseLenient s = ⟨zero, [⟨.version, "invalid version string `" ++ s ++ "`: " ++ e.fault.message ++
        "; treating it as 0.0.0, runtime link errors may occur"⟩]⟩ := by
  refine ⟨fun v => parse_eq_ok_iff, fun cs hwritten => isText_iff.1 ⟨cs, hwritten⟩, fun e => parse_eq_error_iff,
    fun v => parseLenient_of_parse, fun e => parseLenient_of_refused⟩

end LibraryGuard.Version
