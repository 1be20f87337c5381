import LibraryGuard.Elf.VersionImage
import LibraryGuard.Proofs.Elf.NewestVersion

/-!
# Whether all announced records are read

A section of version definitions announces how many definitions it has, and each definition how many names. The section is whole
if all of them are read, and otherwise one of the chains breaks off: a record that is due does not lie within the section, or a
record that is not the last one announced leads nowhere (`not_isWhole_iff`). A chain that breaks off is no fault to the walk,
which takes the newest version of what it has read by then. So the newest version counts all that is announced unless a chain
breaks off and no name before that is out of the table (`countsAll_iff`), and there are such images (`not_countsAll_cutImage`).
-/

namespace LibraryGuard.Elf

variable {α : Type}

/-! ## One chain -/

/-- In a chain of `limit` announced records that begins at `start`, record number `i` is announced, and is due at `offset`: there
the chain begins, or the record before leads there. -/
inductive Due (read : Nat → Option α) (step : α → Nat) (limit start : Nat) : Nat → Nat → Prop where
  | first (isAnnounced : 0 < limit) : Due read step limit start 0 start
  | next {i offset : Nat} {a : α} (before : Linked read step limit start i offset a) (goesOn : step a ≠ 0)
      (isAnnounced : i + 1 < limit) : Due read step limit start (i + 1) (offset + step a)

section Chain

variable {read : Nat → Option α} {step : α → Nat} {limit start i offset : Nat} {a : α}

/-- A record stands where it is due. -/
theorem linked_iff_due : Linked read step limit start i offset a ↔ Due read step limit start i offset ∧ read offset = some a := by
  constructor
  · rintro (⟨hannounced, hread⟩ | ⟨before, goesOn, hannounced, hread⟩)
    · exact ⟨.first hannounced, hread⟩
    · exact ⟨.next before goesOn hannounced, hread⟩
  · rintro ⟨⟨hannounced⟩ | ⟨before, goesOn, hannounced⟩, hread⟩
    · exact .first hannounced hread
    · exact .next before goesOn hannounced hread

/-- A record that is due is announced. -/
theorem Due.lt (h : Due read step limit start i offset) : i < limit := by
  cases h <;> assumption

/-- One record stands at each number of a chain. -/
theorem Linked.unique {offset' : Nat} {a' : α} (h : Linked read step limit start i offset a)
    (h' : Linked read step limit start i offset' a') : offset = offset' ∧ a = a' := by
  have hsame := ((chain_getElem?_iff ..).2 h).symm.trans ((chain_getElem?_iff ..).2 h')
  exact Prod.mk.inj (Option.some.inj hsame)

/-- A record is due in one place. -/
theorem Due.unique {offset' : Nat} (h : Due read step limit start i offset) (h' : Due read step limit start i offset') :
    offset = offset' := by
  cases h with
  | first => cases h' with
    | first => rfl
  | next before => cases h' with
    | next before' =>
      obtain ⟨rfl, rfl⟩ := before.unique before'
      rfl

/-- Either all announced records of a chain are there, or the first one that is not is due in a place where there is none, or
is not due since the one before leads nowhere. -/
theorem forall_linked_or (read : Nat → Option α) (step : α → Nat) (limit start : Nat) :
    (∀ i < limit, ∃ offset a, Linked read step limit start i offset a) ∨
      (∃ i offset, Due read step limit start i offset ∧ read offset = none) ∨
      ∃ i offset a, Linked read step limit start i offset a ∧ step a = 0 ∧ i + 1 < limit := by
  refine or_iff_not_imp_right.2 fun hbroken i hi => ?_
  obtain ⟨hthere, hgoesOn⟩ := not_or.1 hbroken
  have hfound : ∀ i offset, Due read step limit start i offset → ∃ a, Linked read step limit start i offset a := by
    intro i offset hdue
    cases hread : read offset with
    | none => exact absurd ⟨i, offset, hdue, hread⟩ hthere
    | some a => exact ⟨a, linked_iff_due.2 ⟨hdue, hread⟩⟩
  induction i with
  | zero =>
    obtain ⟨a, ha⟩ := hfound 0 start (.first hi)
    exact ⟨start, a, ha⟩
  | succ i ih =>
    obtain ⟨offset, a, ha⟩ := ih (by omega)
    have hstep : step a ≠ 0 := fun hzero => hgoesOn ⟨i, offset, a, ha, hzero, hi⟩
    obtain ⟨b, hb⟩ := hfound (i + 1) _ (.next ha hstep hi)
    exact ⟨_, b, hb⟩

/-- A record that is due in a place where there is none is not there. -/
theorem Due.not_linked (h : Due read step limit start i offset) (hread : read offset = none) :
    ¬ ∃ offset' a, Linked read step limit start i offset' a := by
  rintro ⟨offset', a, hthere⟩
  obtain ⟨hdue, hread'⟩ := linked_iff_due.1 hthere
  rw [h.unique hdue, hread'] at hread
  nomatch hread

/-- Behind a record that leads nowhere there is none. -/
theorem Linked.not_linked_succ (h : Linked read step limit start i offset a) (hend : step a = 0) :
    ¬ ∃ offset' b, Linked read step limit start (i + 1) offset' b := by
  rintro ⟨offset', b, hthere⟩
  cases hthere with
  | next before goesOn =>
    obtain ⟨rfl, rfl⟩ := h.unique before
    exact goesOn hend

end Chain

/-! ## The two chains of a section -/

section Records

variable (e : Encoding) (content : Bytes) (s : Section)

/-- A definition of a section stands at an offset, as number `i`. -/
def DefinitionAt (i offset : Nat) (d : VersionDefinition) : Prop :=
  Linked (definition? e content) (·.next) s.info 0 i offset d

/-- A name of a definition at an offset stands at a place, as number `j`. -/
def NameAt (offset : Nat) (d : VersionDefinition) (j place : Nat) (n : VersionName) : Prop :=
  Linked (VersionName.read? e content) (·.next) d.nameCount (offset + d.namesAt) j place n

/-- All definitions that a section announces are there, and all names that they announce. -/
def IsWhole : Prop :=
  ∀ i < s.info, ∃ offset d, DefinitionAt e content s i offset d ∧ ∀ j < d.nameCount, ∃ place n, NameAt e content offset d j place n

/-- How the walk over a section ends before all that is announced has been read. -/
inductive BreaksOff : Prop where
  /-- A definition that is due does not lie within the section. -/
  | definitionOutside {i offset : Nat} (due : Due (definition? e content) (·.next) s.info 0 i offset)
      (h : VersionDefinition.read? e content offset = none)
  /-- The names of a definition begin at the end of the section, or past it. -/
  | namesOutside {i offset : Nat} {d : VersionDefinition} (due : Due (definition? e content) (·.next) s.info 0 i offset)
      (isRead : VersionDefinition.read? e content offset = some d) (h : content.size ≤ offset + d.namesAt)
  /-- A definition that is not the last one leads nowhere. -/
  | definitionsEnd {i offset : Nat} {d : VersionDefinition} (there : DefinitionAt e content s i offset d) (h : d.next = 0)
      (isAnnounced : i + 1 < s.info)
  /-- A name that is due does not lie within the section. -/
  | nameOutside {i offset j place : Nat} {d : VersionDefinition} (there : DefinitionAt e content s i offset d)
      (due : Due (VersionName.read? e content) (·.next) d.nameCount (offset + d.namesAt) j place)
      (h : VersionName.read? e content place = none)
  /-- A name that is not the last one of its definition leads nowhere. -/
  | namesEnd {i offset j place : Nat} {d : VersionDefinition} {n : VersionName} (there : DefinitionAt e content s i offset d)
      (named : NameAt e content offset d j place n) (h : n.next = 0) (isAnnounced : j + 1 < d.nameCount)

variable {e content s}

/-- A section is not whole exactly if one of its chains breaks off. -/
theorem not_isWhole_iff : ¬ IsWhole e content s ↔ BreaksOff e content s := by
  constructor
  · intro hnot
    by_contra hunbroken
    refine hnot ?_
    rcases forall_linked_or (definition? e content) (·.next) s.info 0 with
      hall | ⟨i, offset, hdue, hnone⟩ | ⟨i, offset, d, hthere, hend, hannounced⟩
    · intro i hi
      obtain ⟨offset, d, hd⟩ := hall i hi
      refine ⟨offset, d, hd, ?_⟩
      rcases forall_linked_or (VersionName.read? e content) (·.next) d.nameCount (offset + d.namesAt) with
        hnames | ⟨j, place, hdue, hnone⟩ | ⟨j, place, n, hthere, hend, hannounced⟩
      · exact hnames
      · exact absurd (.nameOutside hd hdue hnone) hunbroken
      · exact absurd (.namesEnd hd hthere hend hannounced) hunbroken
    · refine absurd ?_ hunbroken
      cases hread : VersionDefinition.read? e content offset with
      | none => exact .definitionOutside hdue hread
      | some d =>
        rw [definition?, hread, Option.filter_some] at hnone
        exact .namesOutside hdue hread (by simpa using hnone)
    · exact absurd (.definitionsEnd hthere hend hannounced) hunbroken
  · intro hbroken hwhole
    cases hbroken with
    | definitionOutside due h =>
      obtain ⟨offset, d, hd, -⟩ := hwhole _ due.lt
      exact due.not_linked (by rw [definition?, h]; rfl) ⟨offset, d, hd⟩
    | namesOutside due isRead h =>
      obtain ⟨offset, d, hd, -⟩ := hwhole _ due.lt
      exact due.not_linked (by rw [definition?, isRead, Option.filter_some, if_neg (by simpa using h)]) ⟨offset, d, hd⟩
    | definitionsEnd there h isAnnounced =>
      obtain ⟨offset, d, hd, -⟩ := hwhole _ isAnnounced
      exact there.not_linked_succ h ⟨offset, d, hd⟩
    | nameOutside there due h =>
      obtain ⟨offset, d, hd, hnames⟩ := hwhole _ (linked_iff_due.1 there).1.lt
      obtain ⟨rfl, rfl⟩ := there.unique hd
      exact due.not_linked h (hnames _ due.lt)
    | namesEnd there named h isAnnounced =>
      obtain ⟨offset, d, hd, hnames⟩ := hwhole _ (linked_iff_due.1 there).1.lt
      obtain ⟨rfl, rfl⟩ := there.unique hd
      exact named.not_linked_succ h (hnames _ isAnnounced)

end Records

/-! ## The newest version -/

/-- The content of a section. -/
def Section.content (s : Section) (image : Bytes) : Bytes := image.extract s.offset (s.offset + s.size)

/-- The newest version of a family in an image counts all that is announced: if it is told, all definitions and all their names
are there, and it is the largest version that they carry; and if a chain breaks off, there is an error. -/
def CountsAll (image : Bytes) (family : String) : Prop :=
  (∀ v, (newestVersion image family).value = .ok v → ∃ o definitions table, IsOpened image o definitions table ∧
      IsWhole o.header.encoding (definitions.content image) definitions ∧ IsLUB (definedVersions image family) v) ∧
    ∀ o definitions table, IsOpened image o definitions table →
      BreaksOff o.header.encoding (definitions.content image) definitions →
        ∃ fault, (newestVersion image family).value = .error fault

/-- A chain of an opened image breaks off, and all names that are read before that are in the table. -/
structure IsCutOff (image : Bytes) (o : Object) (definitions : Section) (table : StringTable) : Prop where
  isOpened : IsOpened image o definitions table
  breaksOff : BreaksOff o.header.encoding (definitions.content image) definitions
  inRange : ∀ i j offset, Reaches o.header.encoding image definitions i j offset → table.get? offset ≠ none

open AnswerAux in
/-- The newest version of a family counts all that an image announces, unless the image is cut off. Then it is the newest version
that has been read by then. -/
theorem countsAll_iff (image : Bytes) (family : String) :
    (CountsAll image family ↔ ¬ ∃ o definitions table, IsCutOff image o definitions table) ∧
      ∀ o definitions table, IsCutOff image o definitions table →
        ∃ v, (newestVersion image family).value = .ok v ∧ IsLUB (definedVersions image family) v := by
  have hcut : ∀ o definitions table, IsCutOff image o definitions table →
      ∃ v, (newestVersion image family).value = .ok v ∧ IsLUB (definedVersions image family) v := by
    rintro o definitions table ⟨hopened, -, hrange⟩
    have hvalue := value_of_opened family hopened
    rw [(find?_eq_none_iff image o definitions table).2 hrange] at hvalue
    rw [definedVersions_eq family hopened]
    exact ⟨_, hvalue, Version.isLUB_foldl_max ..⟩
  refine ⟨⟨?_, ?_⟩, hcut⟩
  · rintro ⟨-, herror⟩ ⟨o, definitions, table, h⟩
    obtain ⟨v, hv, -⟩ := hcut o definitions table h
    obtain ⟨fault, hfault⟩ := herror o definitions table h.isOpened h.breaksOff
    nomatch hv.symm.trans hfault
  · intro hnot
    refine ⟨fun v hv => ?_, fun o definitions table hopened hbroken => ?_⟩
    · rw [newestVersion_value_iff] at hv
      cases hv with
      | newest hopened hrange hnewest =>
        refine ⟨_, _, _, hopened, ?_, hnewest⟩
        by_contra hwhole
        exact hnot ⟨_, _, _, hopened, not_isWhole_iff.1 hwhole, hrange⟩
    · cases hvalue : (newestVersion image family).value with
      | error fault => exact ⟨fault, rfl⟩
      | ok v =>
        rw [newestVersion_value_iff] at hvalue
        cases hvalue with
        | newest hopened' hrange =>
          obtain ⟨rfl, rfl, rfl⟩ := opened_unique hopened hopened'
          exact absurd ⟨_, _, _, hopened, hbroken, hrange⟩ hnot

/-! ## An image that is cut off -/

/-- An image with two definitions, of which the first one leads nowhere. -/
def cutImage : Bytes := (VersionImage.encode ["GLIBCXX_3.4.26", "GLIBCXX_3.4.30"]).setIfInBounds 112 0

/-- The walk over this image finds one of the two definitions, and its version. -/
theorem newestVersion_cutImage : (newestVersion cutImage "GLIBCXX_").value = .ok ⟨3, 4, 26⟩ := by
  decide +kernel

theorem definitions_cutImage :
    (versionTable cutImage).toOption.map (fun (e, definitions, _) =>
      (definitions.info, (chain (definition? e (definitions.content cutImage)) (·.next) definitions.info 0).length)) = some (2, 1) := by
  decide +kernel

open AnswerAux in
/-- The newest version of an image may leave out a definition that the image announces. -/
theorem not_countsAll_cutImage : ¬ CountsAll cutImage "GLIBCXX_" := by
  rintro ⟨hcounts, -⟩
  obtain ⟨o, definitions, table, hopened, hwhole, -⟩ := hcounts _ newestVersion_cutImage
  have hread := definitions_cutImage
  cases htable : versionTable cutImage with
  | error fault =>
    rw [htable] at hread
    nomatch hread
  | ok opened =>
    obtain ⟨e, definitions', table'⟩ := opened
    obtain ⟨o', hopened', rfl⟩ := opened_of_table htable
    obtain ⟨rfl, rfl, rfl⟩ := opened_unique hopened hopened'
    rw [htable] at hread
    obtain ⟨hinfo, hlength⟩ := Prod.mk.inj (Option.some.inj hread)
    -- The second definition is announced, but the chain has one record.
    obtain ⟨offset, d, hd, -⟩ := hwhole 1 (by omega)
    have hsecond := (List.getElem?_eq_some_iff.1 ((chain_getElem?_iff ..).2 hd)).1
    omega

end LibraryGuard.Elf
