import LibraryGuard.Proofs.Elf.DefinitionWalk
import LibraryGuard.Proofs.Version.Order

/-!
# What the newest version of a library is

`Answer` says what the newest version of a family in an image is, or why it cannot be told, without running through the image:
the first of five conditions that fails names the fault, and if none does, the answer is the least upper bound of `0.0.0` and
of the versions that the names of the family carry. Exactly one result is an answer, and it is the one that is computed
(`newestVersion_value_iff`). So the answer does not depend on the order of the definitions, on repeated ones, or on names of
other families (`newestVersion_eq_iff_answer`).
-/

namespace LibraryGuard.Elf

/-- A file that begins as an image does, and that the reader accepts. -/
structure IsAccepted (image : Bytes) (o : Object) : Prop where
  isMagic : magic <+: image.toList
  isRead : Object.read image = .ok o

/-- The first section of version definitions of an accepted image, and the section that it links to. -/
structure IsLinked (image : Bytes) (o : Object) (definitions names : Section) : Prop extends IsAccepted image o where
  isFirst : o.versionSection? = some definitions
  isThere : o.sections[definitions.link]? = some names

/-- The section of version definitions of an accepted image, and the table of strings that it links to. -/
structure IsOpened (image : Bytes) (o : Object) (definitions : Section) (table : StringTable) : Prop where
  isTable : ∃ names, IsLinked image o definitions names ∧ StringTable.read image names.offset names.size = .ok table

/-- The walk over the definitions of an image reaches a name. -/
def Defines (image : Bytes) (name : String) : Prop :=
  ∃ o definitions table i j offset, IsOpened image o definitions table ∧
    Reaches o.header.encoding image definitions i j offset ∧ table.get? offset = some name

/-- The versions that the names of a family carry, each read leniently, and `0.0.0`. -/
def definedVersions (image : Bytes) (family : String) : Set Version :=
  {v | v = .zero ∨ ∃ text, Defines image (family ++ text) ∧ v = (Version.parseLenient text).value}

/-- What the newest version of a family in an image is, or why it cannot be told. -/
inductive Answer (image : Bytes) (family : String) : Except FormatError Version → Prop where
  | badMagic (h : ¬ magic <+: image.toList) : Answer image family (.error .badMagic)
  | notAccepted {cause : Malformation} (isMagic : magic <+: image.toList) (h : Object.read image = .error cause) :
      Answer image family (.error (.malformed cause))
  | noDefinitions {o : Object} (isAccepted : IsAccepted image o)
      (h : ∀ s ∈ o.sections, s.kind ≠ .versionDefinitions) : Answer image family (.error .missingVersionDefinitions)
  | noNames {o : Object} {definitions : Section} (isAccepted : IsAccepted image o)
      (isFirst : o.versionSection? = some definitions) (h : o.sections.length ≤ definitions.link) :
      Answer image family (.error .missingVersionDefinitions)
  | notTable {o : Object} {definitions names : Section} {cause : Malformation}
      (isLinked : IsLinked image o definitions names)
      (h : StringTable.read image names.offset names.size = .error cause) :
      Answer image family (.error (.malformed cause))
  | outOfRange {o : Object} {definitions : Section} {table : StringTable} {i j offset : Nat}
      (isOpened : IsOpened image o definitions table) (isReached : Reaches o.header.encoding image definitions i j offset)
      (h : table.get? offset = none)
      (isFirst : ∀ i' j' offset', Precedes i' j' i j → Reaches o.header.encoding image definitions i' j' offset' →
        table.get? offset' ≠ none) :
      Answer image family (.error (.nameOutOfRange offset))
  | newest {o : Object} {definitions : Section} {table : StringTable} {v : Version}
      (isOpened : IsOpened image o definitions table)
      (inRange : ∀ i j offset, Reaches o.header.encoding image definitions i j offset → table.get? offset ≠ none)
      (isNewest : IsLUB (definedVersions image family) v) : Answer image family (.ok v)

/-! ## The largest version among names -/

/-- What follows the common part of a family is the rest of the name. -/
theorem afterFamily?_eq_some_iff (family name text : String) : afterFamily? family name = some text ↔ name = family ++ text := by
  rw [afterFamily?, Option.map_eq_some_iff]
  simp only [Text.after?_eq_some_iff]
  constructor
  · rintro ⟨rest, h, rfl⟩
    rw [← String.toList_inj, String.toList_append, String.toList_ofList, h]
  · rintro rfl
    exact ⟨text.toList, String.toList_append, String.ofList_toList⟩

/-- The versions that the names of a family among some offsets carry. -/
def versionsOf (table : StringTable) (family : String) (names : List Nat) : List Version :=
  names.filterMap fun offset =>
    ((table.get? offset).bind (afterFamily? family)).map fun text => (Version.parseLenient text).value

/-- The newest version among names is the largest one, unless a name is not in the table: then the first such name is
reported. -/
theorem newestOf_value (table : StringTable) (family : String) (names : List Nat) (best : Version) :
    (newestOf table family names best).value =
      match names.find? fun offset => (table.get? offset).isNone with
      | some offset => .error (.nameOutOfRange offset)
      | none => .ok ((versionsOf table family names).foldl max best) := by
  induction names generalizing best with
  | nil => rfl
  | cons offset names ih =>
    rw [newestOf, versionsOf, List.filterMap_cons, List.find?_cons]
    cases hn : table.get? offset with
    | none => rfl
    | some name =>
      cases hf : afterFamily? family name with
      | none =>
        simp only [Option.bind_some, hf]
        exact ih best
      | some text =>
        simp only [Option.bind_some, hf, Logged.value_bind]
        exact ih _

/-! ## One case after the other -/

namespace AnswerAux

/-- The bytes of a file begin as an image does exactly when the computed test says so. -/
theorem hasMagic_iff (image : Bytes) : hasMagic image = true ↔ magic <+: image.toList := by
  rw [hasMagic, decide_eq_true_iff, Array.toList_extract, List.extract_eq_drop_take', List.prefix_iff_eq_take]
  simp only [List.drop_zero]
  exact eq_comm

/-- The table of names is looked for in five steps, of which the first that fails names the fault. -/
theorem versionTable_eq (image : Bytes) :
    versionTable image =
      if hasMagic image then
        match Object.read image with
        | .error cause => .error (.malformed cause)
        | .ok o =>
          match o.versionSection? with
          | none => .error .missingVersionDefinitions
          | some definitions =>
            match o.sections[definitions.link]? with
            | none => .error .missingVersionDefinitions
            | some names =>
              match StringTable.read image names.offset names.size with
              | .error cause => .error (.malformed cause)
              | .ok table => .ok (o.header.encoding, definitions, table)
      else .error .badMagic := by
  unfold versionTable
  cases hasMagic image with
  | false => rfl
  | true =>
    cases Object.read image with
    | error cause => rfl
    | ok o =>
      simp only [Except.mapError, bind, Except.bind, Bool.not_true, Bool.false_eq_true, if_false, if_true]
      cases o.versionSection? with
      | none => rfl
      | some definitions =>
        dsimp only
        cases o.sections[definitions.link]? with
        | none => rfl
        | some names =>
          dsimp only
          cases StringTable.read image names.offset names.size with
          | error cause => rfl
          | ok table => rfl

variable {image : Bytes} {o : Object} {definitions names : Section} {table : StringTable}

/-- A fault on the way to the table of names is the result, and nothing else is said. -/
theorem newestVersion_of_fault (family : String) {fault : FormatError} (h : versionTable image = .error fault) :
    newestVersion image family = pure (.error fault) := by
  rw [newestVersion, h]

theorem value_of_fault (family : String) {fault : FormatError} (h : versionTable image = .error fault) :
    (newestVersion image family).value = .error fault := by
  rw [newestVersion_of_fault family h]
  rfl

/-- An opened image has its table of names. -/
theorem versionTable_of_opened (h : IsOpened image o definitions table) :
    versionTable image = .ok (o.header.encoding, definitions, table) := by
  obtain ⟨names, hl, ht⟩ := h.isTable
  rw [versionTable_eq, if_pos ((hasMagic_iff image).2 hl.isMagic), hl.isRead]
  simp only [hl.isFirst, hl.isThere, ht]

/-- An opened image is judged by the names that its walk lists. -/
theorem newestVersion_of_opened (family : String) (h : IsOpened image o definitions table) :
    newestVersion image family = newestOf table family (reachedNames o.header.encoding image definitions) .zero := by
  rw [newestVersion, versionTable_of_opened h]

/-- What an opened image gives: the largest version of its names, or the first name that is not in the table. -/
theorem value_of_opened (family : String) (h : IsOpened image o definitions table) :
    (newestVersion image family).value =
      match (reachedNames o.header.encoding image definitions).find? fun offset => (table.get? offset).isNone with
      | some offset => .error (.nameOutOfRange offset)
      | none => .ok ((versionsOf table family (reachedNames o.header.encoding image definitions)).foldl max .zero) := by
  rw [newestVersion_of_opened family h]
  exact newestOf_value ..

/-- An image is opened in one way. -/
theorem opened_unique {o' : Object} {definitions' : Section} {table' : StringTable}
    (h : IsOpened image o definitions table) (h' : IsOpened image o' definitions' table') :
    o = o' ∧ definitions = definitions' ∧ table = table' := by
  obtain ⟨names, hl, ht⟩ := h.isTable
  obtain ⟨names', hl', ht'⟩ := h'.isTable
  obtain rfl : o = o' := Except.ok.inj (hl.isRead.symm.trans hl'.isRead)
  obtain rfl : definitions = definitions' := Option.some.inj (hl.isFirst.symm.trans hl'.isFirst)
  obtain rfl : names = names' := Option.some.inj (hl.isThere.symm.trans hl'.isThere)
  exact ⟨rfl, rfl, Except.ok.inj (ht.symm.trans ht')⟩

/-- The versions that an opened image defines are those of the names that its walk lists. -/
theorem definedVersions_eq (family : String) (h : IsOpened image o definitions table) :
    definedVersions image family =
      {v | v = .zero ∨ v ∈ versionsOf table family (reachedNames o.header.encoding image definitions)} := by
  ext v
  refine or_congr_right ?_
  simp only [versionsOf, List.mem_filterMap, mem_reachedNames_iff, Option.map_eq_some_iff, Option.bind_eq_some_iff,
    afterFamily?_eq_some_iff]
  constructor
  · rintro ⟨text, ⟨o', definitions', table', i, j, offset, ho, hr, hn⟩, rfl⟩
    obtain ⟨rfl, rfl, rfl⟩ := opened_unique h ho
    exact ⟨offset, ⟨i, j, hr⟩, text, ⟨_, hn, rfl⟩, rfl⟩
  · rintro ⟨offset, ⟨i, j, hr⟩, text, ⟨_, hn, rfl⟩, rfl⟩
    exact ⟨text, ⟨o, definitions, table, i, j, offset, h, hr, hn⟩, rfl⟩

/-- Every name of an opened image is in its table exactly when the search for one that is not finds none. -/
theorem find?_eq_none_iff (image : Bytes) (o : Object) (definitions : Section) (table : StringTable) :
    ((reachedNames o.header.encoding image definitions).find? fun offset => (table.get? offset).isNone) = none ↔
      ∀ i j offset, Reaches o.header.encoding image definitions i j offset → table.get? offset ≠ none := by
  simp only [List.find?_eq_none, mem_reachedNames_iff, Option.isNone_iff_eq_none]
  exact ⟨fun hn i j offset hr => hn offset ⟨i, j, hr⟩, fun hn offset ⟨i, j, hr⟩ => hn i j offset hr⟩

/-- A fault on the way to the table of names is the answer. -/
theorem answer_of_fault (family : String) {fault : FormatError} (h : versionTable image = .error fault) :
    Answer image family (.error fault) := by
  rw [versionTable_eq] at h
  split at h
  · rename_i hm
    have hm := (hasMagic_iff image).1 hm
    split at h
    · rename_i cause ho
      obtain rfl := Except.error.inj h
      exact .notAccepted hm ho
    · rename_i o ho
      split at h
      · rename_i hd
        obtain rfl := Except.error.inj h
        exact .noDefinitions ⟨hm, ho⟩ (by simpa [Object.versionSection?] using hd)
      · rename_i definitions hd
        split at h
        · rename_i hn
          obtain rfl := Except.error.inj h
          exact .noNames ⟨hm, ho⟩ hd (List.getElem?_eq_none_iff.1 hn)
        · rename_i names hn
          split at h
          · rename_i cause ht
            obtain rfl := Except.error.inj h
            exact .notTable ⟨⟨hm, ho⟩, hd, hn⟩ ht
          · nomatch h
  · rename_i hm
    obtain rfl := Except.error.inj h
    exact .badMagic (mt (hasMagic_iff image).2 hm)

/-- Where there is a table of names, the image is opened. -/
theorem opened_of_table {e : Encoding} (h : versionTable image = .ok (e, definitions, table)) :
    ∃ o, IsOpened image o definitions table ∧ o.header.encoding = e := by
  rw [versionTable_eq] at h
  split at h
  · rename_i hm
    have hm := (hasMagic_iff image).1 hm
    split at h
    · nomatch h
    · rename_i o ho
      split at h
      · nomatch h
      · rename_i d hd
        split at h
        · nomatch h
        · rename_i names hn
          split at h
          · nomatch h
          · rename_i t ht
            simp only [Except.ok.injEq, Prod.mk.injEq] at h
            obtain ⟨rfl, rfl, rfl⟩ := h
            exact ⟨o, ⟨names, ⟨⟨hm, ho⟩, hd, hn⟩, ht⟩, rfl⟩
  · nomatch h

/-- The computed result is an answer. -/
theorem answer_value (image : Bytes) (family : String) : Answer image family (newestVersion image family).value := by
  cases hv : versionTable image with
  | error fault =>
    rw [value_of_fault family hv]
    exact answer_of_fault family hv
  | ok opened =>
    obtain ⟨e, definitions, table⟩ := opened
    obtain ⟨o, ho, -⟩ := opened_of_table hv
    rw [value_of_opened family ho]
    cases hf : (reachedNames o.header.encoding image definitions).find? fun offset => (table.get? offset).isNone with
    | none =>
      refine .newest ho ((find?_eq_none_iff ..).1 hf) ?_
      rw [definedVersions_eq family ho]
      exact Version.isLUB_foldl_max ..
    | some offset =>
      obtain ⟨hn, i, j, hr, hfirst⟩ := (find?_reachedNames_iff ..).1 hf
      refine .outOfRange ho hr (Option.isNone_iff_eq_none.1 hn) fun i' j' offset' hp hr' hn' => ?_
      simpa [hn'] using hfirst i' j' offset' hp hr'

/-- There is no other answer than the computed result. -/
theorem value_of_answer {family : String} {r : Except FormatError Version} (h : Answer image family r) :
    (newestVersion image family).value = r := by
  have hmagic : magic <+: image.toList → hasMagic image = true := (hasMagic_iff image).2
  cases h with
  | badMagic h => exact value_of_fault family (by rw [versionTable_eq, if_neg (mt (hasMagic_iff image).1 h)])
  | notAccepted hm h => exact value_of_fault family (by rw [versionTable_eq, if_pos (hmagic hm), h])
  | noDefinitions ha h =>
    refine value_of_fault family ?_
    have hd : Object.versionSection? _ = none := List.find?_eq_none.2 (by simpa using h)
    rw [versionTable_eq, if_pos (hmagic ha.isMagic), ha.isRead]
    simp only [hd]
  | noNames ha hd h =>
    refine value_of_fault family ?_
    rw [versionTable_eq, if_pos (hmagic ha.isMagic), ha.isRead]
    simp only [hd, List.getElem?_eq_none h]
  | notTable hl h =>
    refine value_of_fault family ?_
    rw [versionTable_eq, if_pos (hmagic hl.isMagic), hl.isRead]
    simp only [hl.isFirst, hl.isThere, h]
  | outOfRange ho hr h hfirst =>
    rw [value_of_opened family ho, (find?_reachedNames_iff ..).2 ⟨Option.isNone_iff_eq_none.2 h, _, _, hr, ?_⟩]
    intro i' j' offset' hp hr'
    exact Option.isNone_eq_false_iff.2 (Option.ne_none_iff_isSome.1 (hfirst i' j' offset' hp hr'))
  | newest ho hin hv =>
    rw [value_of_opened family ho, (find?_eq_none_iff ..).2 hin]
    rw [definedVersions_eq family ho] at hv
    exact congrArg Except.ok ((Version.isLUB_foldl_max ..).unique hv)

end AnswerAux

open AnswerAux

/-- The computed result is the one that is an answer. -/
theorem newestVersion_value_iff (image : Bytes) (family : String) (r : Except FormatError Version) :
    (newestVersion image family).value = r ↔ Answer image family r :=
  ⟨fun h => h ▸ answer_value image family, value_of_answer⟩

/-- The newest version of a family in an image, and every reason why it cannot be told, are as `Answer` says. So two images
that define the same names of the family have the same newest version, in whatever order and however often they define them,
and whatever else they define. -/
theorem newestVersion_eq_iff_answer (family : String) :
    (∀ image r, (newestVersion image family).value = r ↔ Answer image family r) ∧
      ∀ image image' v v', (newestVersion image family).value = .ok v → (newestVersion image' family).value = .ok v' →
        (∀ text, Defines image (family ++ text) ↔ Defines image' (family ++ text)) → v = v' := by
  refine ⟨fun image r => newestVersion_value_iff image family r, ?_⟩
  intro image image' v v' hv hv' hsame
  rw [newestVersion_value_iff] at hv hv'
  cases hv with
  | newest _ _ hv =>
    cases hv' with
    | newest _ _ hv' =>
      have hset : definedVersions image family = definedVersions image' family := by
        simp only [definedVersions, hsame]
      exact (hset ▸ hv).unique hv'

end LibraryGuard.Elf
