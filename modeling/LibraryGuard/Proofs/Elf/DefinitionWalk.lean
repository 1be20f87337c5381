import LibraryGuard.Elf.NewestVersion

/-!
# The walk over the definitions of a library

A section of version definitions holds a chain of definition records, each of which leads to a chain of name records; in both,
a record says how far away the next one is. `Linked` says which record stands where in such a chain, without running along it,
and `Reaches` says which name the two chains lead to at which place: the number of the definition, and the number of the name
in it. The names that the walk lists are exactly these (`mem_reachedNames_iff`), in the order of their places, so the first of
them with some property is the one at the least place (`find?_reachedNames_iff`).
-/

namespace LibraryGuard.Elf

variable {α : Type}

/-- In a chain of at most `limit` records that begins at `start`, the record `a` stands at `offset` as number `i`. A step of
zero leads nowhere, and a record that cannot be read is not there. -/
inductive Linked (read : Nat → Option α) (step : α → Nat) (limit start : Nat) : Nat → Nat → α → Prop where
  | first {a : α} (isAnnounced : 0 < limit) (isRead : read start = some a) : Linked read step limit start 0 start a
  | next {i offset : Nat} {a b : α} (before : Linked read step limit start i offset a) (goesOn : step a ≠ 0)
      (isAnnounced : i + 1 < limit) (isRead : read (offset + step a) = some b) :
      Linked read step limit start (i + 1) (offset + step a) b

/-- A definition record whose names begin within the section. -/
def definition? (e : Encoding) (content : Bytes) (offset : Nat) : Option VersionDefinition :=
  (VersionDefinition.read? e content offset).filter fun d => offset + d.namesAt < content.size

/-- The walk over a section of version definitions reaches a name at some place: the chain of at most as many definitions as
the section announces has a definition number `i`, and the chain of at most as many names as that one announces has the name
as number `j`. -/
def Reaches (e : Encoding) (image : Bytes) (s : Section) (i j name : Nat) : Prop :=
  let content := image.extract s.offset (s.offset + s.size)
  ∃ offset d place n,
    Linked (definition? e content) (·.next) s.info 0 i offset d ∧
      Linked (VersionName.read? e content) (·.next) d.nameCount (offset + d.namesAt) j place n ∧ n.name = name

/-- The records of a chain with their offsets, from the first one on. -/
def chain (read : Nat → Option α) (step : α → Nat) : Nat → Nat → List (Nat × α)
  | 0, _ => []
  | limit + 1, offset =>
    match read offset with
    | none => []
    | some a => (offset, a) :: if step a = 0 then [] else chain read step limit (offset + step a)

/-! ## A chain lists the linked records -/

/-- A chain with a record put before it: each of its records has one more before it. -/
theorem Linked.cons {read : Nat → Option α} {step : α → Nat} {limit start i offset : Nat} {a b : α}
    (h : Linked read step limit (start + step a) i offset b) (ha : read start = some a) (hs : step a ≠ 0) :
    Linked read step (limit + 1) start (i + 1) offset b := by
  induction h with
  | first hl hb => exact .next (.first (by omega) ha) hs (by omega) hb
  | next _ hs' hl hb ih => exact .next ih hs' (by omega) hb

/-- The first record of a chain stands at its start, and the others are those of the chain that it leads to. -/
theorem Linked.uncons {read : Nat → Option α} {step : α → Nat} {limit start i offset : Nat} {b : α}
    (h : Linked read step (limit + 1) start i offset b) :
    ∃ a, read start = some a ∧ ((i = 0 ∧ offset = start ∧ b = a) ∨
      ∃ j, i = j + 1 ∧ step a ≠ 0 ∧ Linked read step limit (start + step a) j offset b) := by
  induction h with
  | first _ hb => exact ⟨_, hb, Or.inl ⟨rfl, rfl, rfl⟩⟩
  | next _ hs hl hb ih =>
    obtain ⟨a, ha, ⟨rfl, rfl, rfl⟩ | ⟨j, rfl, hsa, hj⟩⟩ := ih
    · exact ⟨_, ha, Or.inr ⟨0, rfl, hs, .first (by omega) hb⟩⟩
    · exact ⟨a, ha, Or.inr ⟨j + 1, rfl, hsa, .next hj hs (by omega) hb⟩⟩

/-- A chain that announces no record has none. -/
theorem not_linked_zero {read : Nat → Option α} {step : α → Nat} {start i offset : Nat} {a : α} :
    ¬ Linked read step 0 start i offset a := by
  rintro (⟨hl, _⟩ | ⟨_, _, hl, _⟩) <;> omega

/-- The records of a chain are the linked ones, each at its number. -/
theorem chain_getElem?_iff (read : Nat → Option α) (step : α → Nat) (limit start i offset : Nat) (a : α) :
    (chain read step limit start)[i]? = some (offset, a) ↔ Linked read step limit start i offset a := by
  induction limit generalizing start i with
  | zero => simp [chain, not_linked_zero]
  | succ limit ih =>
    constructor
    · intro h
      cases hr : read start with
      | none => simp [chain, hr] at h
      | some b =>
        cases i with
        | zero =>
          obtain ⟨rfl, rfl⟩ : start = offset ∧ b = a := by simpa [chain, hr] using h
          exact .first (by omega) hr
        | succ i =>
          by_cases hs : step b = 0
          · simp [chain, hr, hs] at h
          · simp only [chain, hr, hs, if_false, List.getElem?_cons_succ] at h
            exact ((ih _ _).1 h).cons hr hs
    · intro h
      obtain ⟨b, hr, ⟨rfl, rfl, rfl⟩ | ⟨j, rfl, hs, hj⟩⟩ := h.uncons
      · simp [chain, hr]
      · simp only [chain, hr, hs, if_false, List.getElem?_cons_succ]
        exact (ih _ _).2 hj

/-! ## The two chains of a section -/

/-- The chain of names is the names of a chain of name records. -/
theorem nameChain_eq (e : Encoding) (content : Bytes) (count offset : Nat) :
    nameChain e content count offset =
      (chain (VersionName.read? e content) (·.next) count offset).map fun r => r.2.name := by
  induction count generalizing offset with
  | zero => rfl
  | succ count ih =>
    rw [nameChain, chain]
    cases VersionName.read? e content offset with
    | none => rfl
    | some n => by_cases h : n.next = 0 <;> simp [h, ih]

/-- The names of each definition of a chain, one list for each definition. -/
def nameLists (e : Encoding) (content : Bytes) (limit offset : Nat) : List (List Nat) :=
  (chain (definition? e content) (·.next) limit offset).map fun r =>
    nameChain e content r.2.nameCount (r.1 + r.2.namesAt)

/-- The chain of definitions gives the names of one definition after the other. -/
theorem definitionChain_eq (e : Encoding) (content : Bytes) (limit offset : Nat) :
    definitionChain e content limit offset = (nameLists e content limit offset).flatten := by
  induction limit generalizing offset with
  | zero => rfl
  | succ limit ih =>
    rw [definitionChain, nameLists, chain, definition?]
    cases VersionDefinition.read? e content offset with
    | none => rfl
    | some d =>
      by_cases hd : content.size ≤ offset + d.namesAt
      · rw [Option.filter_some, if_neg (by simpa using hd)]
        simp [hd]
      · have hlt : offset + d.namesAt < content.size := by omega
        rw [Option.filter_some, if_pos (by simpa using hlt)]
        by_cases hn : d.next = 0
        · simp [hd, hn]
        · simp [hd, hn, ih, nameLists]

/-- A place of the lists of names holds what the walk reaches there. -/
theorem nameLists_getElem?_iff (e : Encoding) (image : Bytes) (s : Section) (i j name : Nat) :
    (∃ names, (nameLists e (image.extract s.offset (s.offset + s.size)) s.info 0)[i]? = some names ∧ names[j]? = some name) ↔
      Reaches e image s i j name := by
  simp only [nameLists, nameChain_eq, List.getElem?_map, Option.map_eq_some_iff]
  constructor
  · rintro ⟨_, ⟨⟨offset, d⟩, hd, rfl⟩, hn⟩
    rw [List.getElem?_map, Option.map_eq_some_iff] at hn
    obtain ⟨⟨place, n⟩, hn, rfl⟩ := hn
    exact ⟨offset, d, place, n, (chain_getElem?_iff ..).1 hd, (chain_getElem?_iff ..).1 hn, rfl⟩
  · rintro ⟨offset, d, place, n, hd, hn, rfl⟩
    refine ⟨_, ⟨(offset, d), (chain_getElem?_iff ..).2 hd, rfl⟩, ?_⟩
    rw [List.getElem?_map, (chain_getElem?_iff ..).2 hn]
    rfl

/-! ## Names and the first of them -/

/-- The place of one name comes before that of another: an earlier definition, or an earlier name of the same one. -/
def Precedes (i j i' j' : Nat) : Prop := i < i' ∨ i = i' ∧ j < j'

/-- The names of the walk are the reached ones. -/
theorem mem_reachedNames_iff (e : Encoding) (image : Bytes) (s : Section) (name : Nat) :
    name ∈ reachedNames e image s ↔ ∃ i j, Reaches e image s i j name := by
  simp only [← nameLists_getElem?_iff]
  rw [reachedNames, definitionChain_eq, List.mem_flatten]
  constructor
  · rintro ⟨names, hi, hj⟩
    obtain ⟨i, hi⟩ := List.mem_iff_getElem?.1 hi
    obtain ⟨j, hj⟩ := List.mem_iff_getElem?.1 hj
    exact ⟨i, j, names, hi, hj⟩
  · rintro ⟨i, j, names, hi, hj⟩
    exact ⟨names, List.mem_of_getElem? hi, List.mem_of_getElem? hj⟩

/-- The first item of several lists with some property is the one at the least place. -/
theorem find?_flatten_iff (lists : List (List α)) (p : α → Bool) (a : α) :
    lists.flatten.find? p = some a ↔ p a = true ∧ ∃ i j, (∃ l, lists[i]? = some l ∧ l[j]? = some a) ∧
      ∀ i' j' b, Precedes i' j' i j → (∃ l, lists[i']? = some l ∧ l[j']? = some b) → p b = false := by
  rw [List.find?_flatten_eq_some_iff]
  refine and_congr_right fun _ => ⟨?_, ?_⟩
  · rintro ⟨before, ys, zs, after, rfl, hbefore, hys⟩
    refine ⟨before.length, ys.length, ⟨ys ++ a :: zs, by simp, by simp⟩, ?_⟩
    rintro i' j' b (hi | ⟨rfl, hj⟩) ⟨l, hl, hb⟩
    · rw [List.getElem?_append_left hi] at hl
      simpa using hbefore l (List.mem_of_getElem? hl) b (List.mem_of_getElem? hb)
    · obtain rfl : ys ++ a :: zs = l := by simpa using hl
      rw [List.getElem?_append_left hj] at hb
      simpa using hys b (List.mem_of_getElem? hb)
  · rintro ⟨i, j, ⟨l, hl, ha⟩, hbefore⟩
    obtain ⟨hi, rfl⟩ := List.getElem?_eq_some_iff.1 hl
    obtain ⟨hj, rfl⟩ := List.getElem?_eq_some_iff.1 ha
    refine ⟨lists.take i, lists[i].take j, lists[i].drop (j + 1), lists.drop (i + 1), by simp, ?_, ?_⟩
    · intro l hl b hb
      obtain ⟨i', hi', rfl⟩ := List.mem_take_iff_getElem.1 hl
      obtain ⟨j', hb⟩ := List.mem_iff_getElem?.1 hb
      simpa using hbefore i' j' b (Or.inl (by omega)) ⟨_, List.getElem?_eq_getElem _, hb⟩
    · intro b hb
      obtain ⟨j', hj', rfl⟩ := List.mem_take_iff_getElem.1 hb
      simpa using hbefore i j' _ (Or.inr ⟨rfl, by omega⟩) ⟨_, hl, List.getElem?_eq_getElem _⟩

/-- The first name of the walk with some property is the one at the least place. -/
theorem find?_reachedNames_iff (e : Encoding) (image : Bytes) (s : Section) (p : Nat → Bool) (name : Nat) :
    (reachedNames e image s).find? p = some name ↔ p name = true ∧ ∃ i j, Reaches e image s i j name ∧
      ∀ i' j' name', Precedes i' j' i j → Reaches e image s i' j' name' → p name' = false := by
  rw [reachedNames, definitionChain_eq, find?_flatten_iff]
  simp only [nameLists_getElem?_iff]

end LibraryGuard.Elf
