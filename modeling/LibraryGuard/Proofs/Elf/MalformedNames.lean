import LibraryGuard.Proofs.Elf.VersionImage
import LibraryGuard.Proofs.Version.Grammar
import Mathlib.Data.List.Forall2
import Mathlib.Data.List.Nodup

/-!
# Names of a family that carry no version

A name of the family whose rest is no version gives one warning, which names the rest (`Version.Complains`), and counts as
`0.0.0`. So the warnings of a walk are one for each such name, in the order of the places at which the walk reads the names
(`newestVersion_complaints`), and leaving such a name out changes no answer (`newestVersion_omit`).
-/

namespace LibraryGuard

namespace Elf

open AnswerAux

/-! ## The places of a walk -/

/-- An item at a place of a walk: the number of the definition, the number of the name in it, and the item. -/
structure Placed (α : Type) where
  definition : Nat
  name : Nat
  item : α

variable {α : Type}

/-- The place of one item comes before that of another. -/
def Placed.Before (a b : Placed α) : Prop := Precedes a.definition a.name b.definition b.name

/-- The items of several lists, each at its place. -/
def placed (lists : List (List α)) : List (Placed α) :=
  lists.zipIdx.flatMap fun l => l.1.zipIdx.map fun a => ⟨l.2, a.2, a.1⟩

/-- The numbers of a list's items grow. -/
theorem zipIdx_pairwise (l : List α) : l.zipIdx.Pairwise fun a b => a.2 < b.2 := by
  have hnumbers : (l.zipIdx.map Prod.snd).Pairwise (· < ·) := by
    rw [List.zipIdx_map_snd]
    exact List.pairwise_lt_range'
  exact List.pairwise_map.1 hnumbers

/-- Without their places, the items are those of one list after the other. -/
theorem map_placed (lists : List (List α)) : (placed lists).map (·.item) = lists.flatten := by
  have hitems : ∀ l : List α × Nat, (l.1.zipIdx.map fun a => (⟨l.2, a.2, a.1⟩ : Placed α)).map (·.item) = l.1 := by
    intro l
    rw [List.map_map]
    exact List.zipIdx_map_fst 0 l.1
  rw [placed, List.map_flatMap, funext hitems, List.flatMap_def, List.zipIdx_map_fst]

/-- An item is at a place exactly when the lists have it there. -/
theorem mem_placed_iff (lists : List (List α)) (a : Placed α) :
    a ∈ placed lists ↔ ∃ l, lists[a.definition]? = some l ∧ l[a.name]? = some a.item := by
  simp only [placed, List.mem_flatMap, List.mem_map, Prod.exists, List.mem_zipIdx_iff_getElem?]
  constructor
  · rintro ⟨l, i, hl, b, j, hb, rfl⟩
    exact ⟨l, hl, hb⟩
  · rintro ⟨l, hl, ha⟩
    exact ⟨l, _, hl, _, _, ha, rfl⟩

/-- The items stand in the order of their places. -/
theorem placed_pairwise (lists : List (List α)) : (placed lists).Pairwise Placed.Before := by
  rw [placed, List.pairwise_flatMap]
  constructor
  · rintro ⟨l, i⟩ -
    rw [List.pairwise_map]
    exact (zipIdx_pairwise l).imp fun hlt => Or.inr ⟨rfl, hlt⟩
  · refine (zipIdx_pairwise lists).imp ?_
    intro a b hlt x hx y hy
    obtain ⟨p, -, rfl⟩ := List.mem_map.1 hx
    obtain ⟨q, -, rfl⟩ := List.mem_map.1 hy
    exact Or.inl hlt

/-- Of two places at most one comes before the other. -/
theorem Placed.Before.asymm {a b : Placed α} (h : a.Before b) : ¬ b.Before a := by
  unfold Before Precedes at *
  omega

/-- In the order of places no item stands twice, so that items of which there is one are that item alone. -/
theorem eq_singleton_of_pairwise {l : List (Placed α)} (h : l.Pairwise Placed.Before) {a : Placed α}
    (honly : ∀ b, b ∈ l ↔ b = a) : l = [a] := by
  have hdistinct : l.Nodup := h.imp fun {b c} hbc heq => (heq ▸ hbc).asymm (heq ▸ hbc)
  refine List.perm_singleton.1 ((List.perm_ext_iff_of_nodup hdistinct (List.nodup_singleton a)).2 fun b => ?_)
  rw [honly, List.mem_singleton]

/-- Items in the order of their places are kept up to the first one without a property: those are kept that have it, with all
before them. -/
theorem mem_takeWhile_iff {l : List (Placed α)} (h : l.Pairwise Placed.Before) (p : Placed α → Bool) (a : Placed α) :
    a ∈ l.takeWhile p ↔ a ∈ l ∧ p a = true ∧ ∀ b ∈ l, b.Before a → p b = true := by
  induction l with
  | nil => simp
  | cons x l ih =>
    obtain ⟨hx, hl⟩ := List.pairwise_cons.1 h
    rw [List.takeWhile_cons]
    cases hp : p x with
    | false =>
      simp only [Bool.false_eq_true, if_false, List.not_mem_nil, false_iff, List.mem_cons]
      rintro ⟨rfl | ha, hpa, hbefore⟩
      · exact absurd (hp.symm.trans hpa) (by decide)
      · exact absurd (hp.symm.trans (hbefore x (Or.inl rfl) (hx a ha))) (by decide)
    | true =>
      simp only [if_true, List.mem_cons, ih hl, forall_eq_or_imp]
      constructor
      · rintro (rfl | ⟨ha, hpa, hbefore⟩)
        · exact ⟨Or.inl rfl, hp, fun _ => hp, fun b hb hba => absurd hba (hx b hb).asymm⟩
        · exact ⟨Or.inr ha, hpa, fun _ => hp, hbefore⟩
      · rintro ⟨rfl | ha, hpa, -, hbefore⟩
        · exact Or.inl rfl
        · exact Or.inr ⟨ha, hpa, hbefore⟩

/-! ## The warnings of a walk -/

/-- The walk over the definitions of an image reads a name at some place: it reaches the name there, and every name that it
reaches before is in the table. -/
def Reads (image : Bytes) (i j : Nat) (name : String) : Prop :=
  ∃ o definitions table offset, IsOpened image o definitions table ∧
    Reaches o.header.encoding image definitions i j offset ∧ table.get? offset = some name ∧
    ∀ i' j' offset', Precedes i' j' i j → Reaches o.header.encoding image definitions i' j' offset' →
      table.get? offset' ≠ none

/-- The rest of a name of the family, if there is a name at the offset and its rest is no version. -/
def malformedRest? (table : StringTable) (family : String) (offset : Nat) : Option String :=
  ((table.get? offset).bind (afterFamily? family)).filter fun rest => ¬ Version.IsText rest

/-- The rest at an offset is no version exactly when the name there is one of the family with such a rest. -/
theorem malformedRest?_eq_some_iff (table : StringTable) (family : String) (offset : Nat) (rest : String) :
    malformedRest? table family offset = some rest ↔
      table.get? offset = some (family ++ rest) ∧ ¬ Version.IsText rest := by
  simp only [malformedRest?, Option.filter_eq_some_iff, Option.bind_eq_some_iff, afterFamily?_eq_some_iff,
    decide_eq_true_eq, exists_eq_right]

/-- The rests that are no versions, up to the first name that is not in the table, each at the place of its name. -/
def malformedRests (table : StringTable) (family : String) (names : List (Placed Nat)) : List (Placed String) :=
  (names.takeWhile fun n => (table.get? n.item).isSome).filterMap fun n =>
    (malformedRest? table family n.item).map fun rest => ⟨n.definition, n.name, rest⟩

/-- The first name comes first, if it is in the table; if not, nothing is read. -/
theorem malformedRests_cons (table : StringTable) (family : String) (n : Placed Nat) (names : List (Placed Nat)) :
    malformedRests table family (n :: names) =
      if (table.get? n.item).isSome then
        ((malformedRest? table family n.item).map fun rest => ⟨n.definition, n.name, rest⟩).toList ++
          malformedRests table family names
      else [] := by
  rw [malformedRests, List.takeWhile_cons]
  split
  · cases hr : malformedRest? table family n.item with
    | none => simp [hr, malformedRests]
    | some rest => simp [hr, malformedRests]
  · rfl

/-- Each rest that is no version gives one warning, in the order of the names. -/
theorem newestOf_complaints (table : StringTable) (family : String) (names : List (Placed Nat)) (best : Version) :
    List.Forall₂ (fun rest w => Version.Complains rest.item w) (malformedRests table family names)
      (newestOf table family (names.map (·.item)) best).warnings := by
  induction names generalizing best with
  | nil => exact .nil
  | cons n names ih =>
    rw [malformedRests_cons, malformedRest?, List.map_cons, newestOf]
    cases hn : table.get? n.item with
    | none => exact .nil
    | some name =>
      rw [Option.isSome_some, if_pos rfl, Option.bind_some]
      dsimp only
      cases hf : afterFamily? family name with
      | none => exact ih best
      | some rest =>
        rw [Option.filter_some]
        by_cases ht : Version.IsText rest
        · rw [if_neg (by simpa using ht)]
          simpa [Version.warnings_of_isText ht] using ih _
        · obtain ⟨w, hw, hread⟩ := Version.parseLenient_of_not_isText ht
          rw [if_pos (by simpa using ht)]
          simpa [hread] using ⟨hw, ih _⟩

/-- Names that are read at their places in order: the rests that are no versions are in order too. -/
theorem malformedRests_pairwise {names : List (Placed Nat)} (h : names.Pairwise Placed.Before) (table : StringTable)
    (family : String) : (malformedRests table family names).Pairwise Placed.Before := by
  rw [malformedRests, List.pairwise_filterMap]
  refine (h.sublist (List.takeWhile_sublist _)).imp ?_
  intro a b hbefore x hx y hy
  obtain ⟨rest, -, rfl⟩ := Option.map_eq_some_iff.1 hx
  obtain ⟨rest', -, rfl⟩ := Option.map_eq_some_iff.1 hy
  exact hbefore

/-- Of names at their places in order, the rests that are no versions are those at the places of the names of the family with
such a rest, as long as every name before is in the table. -/
theorem mem_malformedRests_iff {names : List (Placed Nat)} (h : names.Pairwise Placed.Before) (table : StringTable)
    (family : String) (rest : Placed String) :
    rest ∈ malformedRests table family names ↔
      (∃ offset, ⟨rest.definition, rest.name, offset⟩ ∈ names ∧ table.get? offset = some (family ++ rest.item) ∧
        ∀ b ∈ names, Precedes b.definition b.name rest.definition rest.name → table.get? b.item ≠ none) ∧
      ¬ Version.IsText rest.item := by
  simp only [malformedRests, List.mem_filterMap, Option.map_eq_some_iff, malformedRest?_eq_some_iff, mem_takeWhile_iff h,
    Option.isSome_iff_ne_none]
  constructor
  · rintro ⟨n, ⟨hn, -, hbefore⟩, _, ⟨hname, hrest⟩, rfl⟩
    exact ⟨⟨n.item, hn, hname, hbefore⟩, hrest⟩
  · rintro ⟨⟨offset, hn, hname, hbefore⟩, hrest⟩
    exact ⟨_, ⟨hn, by rw [hname]; exact nofun, hbefore⟩, rest.item, ⟨hname, hrest⟩, rfl⟩

/-- The warnings about an image are one for each name of the family whose rest is no version, in the order of the places at
which the walk reads these names. -/
theorem newestVersion_complaints (image : Bytes) (family : String) :
    ∃ rests : List (Placed String), rests.Pairwise Placed.Before ∧
      (∀ rest, rest ∈ rests ↔ Reads image rest.definition rest.name (family ++ rest.item) ∧ ¬ Version.IsText rest.item) ∧
      List.Forall₂ (fun rest w => Version.Complains rest.item w) rests (newestVersion image family).warnings := by
  cases hv : versionTable image with
  | error fault =>
    rw [newestVersion_of_fault family hv]
    refine ⟨[], .nil, fun rest => ⟨fun hrest => absurd hrest List.not_mem_nil, ?_⟩, .nil⟩
    rintro ⟨⟨o, definitions, table, offset, ho, -⟩, -⟩
    nomatch hv.symm.trans (versionTable_of_opened ho)
  | ok opened =>
    obtain ⟨e, definitions, table⟩ := opened
    obtain ⟨o, ho, rfl⟩ := opened_of_table hv
    let names := placed (nameLists o.header.encoding (image.extract definitions.offset (definitions.offset + definitions.size))
      definitions.info 0)
    have hnames : names.map (·.item) = reachedNames o.header.encoding image definitions := by
      rw [map_placed, reachedNames, definitionChain_eq]
    refine ⟨malformedRests table family names, malformedRests_pairwise (placed_pairwise _) table family, ?_, ?_⟩
    · intro rest
      have hplace : ∀ n : Placed Nat, n ∈ names ↔ Reaches o.header.encoding image definitions n.definition n.name n.item :=
        fun n => (mem_placed_iff ..).trans (nameLists_getElem?_iff ..)
      rw [mem_malformedRests_iff (placed_pairwise _)]
      refine and_congr_left fun _ => ⟨?_, ?_⟩
      · rintro ⟨offset, hn, hname, hbefore⟩
        exact ⟨o, definitions, table, offset, ho, (hplace _).1 hn, hname,
          fun i j offset' hprecedes hreached => hbefore ⟨i, j, offset'⟩ ((hplace _).2 hreached) hprecedes⟩
      · rintro ⟨o', definitions', table', offset, ho', hreached, hname, hbefore⟩
        obtain ⟨rfl, rfl, rfl⟩ := opened_unique ho ho'
        exact ⟨offset, (hplace _).2 hreached, hname, fun b hb hprecedes => hbefore _ _ _ hprecedes ((hplace _).1 hb)⟩
    · rw [newestVersion_of_opened family ho, ← hnames]
      exact newestOf_complaints table family names .zero

/-- A name of the family whose rest is no version is warned of when it is read. -/
theorem Reads.exists_complaint {image : Bytes} {i j : Nat} {family rest : String} (h : Reads image i j (family ++ rest))
    (hrest : ¬ Version.IsText rest) : ∃ w ∈ (newestVersion image family).warnings, Version.Complains rest w := by
  obtain ⟨rests, -, hmem, hall⟩ := newestVersion_complaints image family
  obtain ⟨k, hk, hget⟩ := List.mem_iff_getElem.1 ((hmem ⟨i, j, rest⟩).2 ⟨h, hrest⟩)
  have hk' : k < (newestVersion image family).warnings.length := hall.length_eq ▸ hk
  refine ⟨_, List.getElem_mem hk', ?_⟩
  have hcomplains := hall.get hk hk'
  rwa [List.get_eq_getElem, List.get_eq_getElem, hget] at hcomplains

/-- Every warning about an image is about a version. -/
theorem source_of_mem_warnings {image : Bytes} {family : String} {w : Warning} (h : w ∈ (newestVersion image family).warnings) :
    w.source = .version := by
  obtain ⟨rests, -, -, hall⟩ := newestVersion_complaints image family
  obtain ⟨i, hi, rfl⟩ := List.mem_iff_getElem.1 h
  obtain ⟨fault, -, hw⟩ := hall.get (hall.length_eq ▸ hi) hi
  simp only [List.get_eq_getElem] at hw
  rw [hw]

/-- The walk over a written image reads the names that it was written for, one in each definition. -/
theorem reads_encode_iff {names : List String} (hnul : ∀ name ∈ names, '\x00' ∉ name.toList)
    (hsize : (VersionImage.encode names).size < 2 ^ 32) {i j : Nat} {name : String} :
    Reads (VersionImage.encode names) i j name ↔ names[i]? = some name ∧ j = 0 := by
  have hlayout := VersionImage.encode_layout names
  obtain ⟨o, hopened, hencoding⟩ := opened_of_table (hlayout.versionTable_eq hsize)
  constructor
  · rintro ⟨o', definitions, table, offset, hopened', hreached, hname, -⟩
    obtain ⟨rfl, rfl, rfl⟩ := opened_unique hopened hopened'
    rw [hencoding] at hreached
    exact (hlayout.reaches_name_iff hsize hnul).1 ⟨offset, hreached, hname⟩
  · intro hplace
    obtain ⟨offset, hreached, hname⟩ := (hlayout.reaches_name_iff hsize hnul).2 hplace
    rw [← hencoding] at hreached
    refine ⟨o, _, _, offset, hopened, hreached, hname, ?_⟩
    intro i' j' offset' _ hreached'
    rw [hencoding, hlayout.reaches_iff hsize] at hreached'
    obtain ⟨name', -, hget⟩ := VersionImage.get?_nameOffset hnul hreached'.1
    rw [hget]
    exact nofun

/-! ## Leaving a name out -/

/-- What the walk over the definitions of an image finds, in order: names, and offsets that are not in the table. -/
def Finds (image : Bytes) (found : List (Except Nat String)) : Prop :=
  ∃ o definitions table, IsOpened image o definitions table ∧
    found = (reachedNames o.header.encoding image definitions).map fun offset => (table.get? offset).elim (.error offset) .ok

/-- The offset that is not in the table, if that is what was found. -/
def outOfTable? : Except Nat String → Option Nat
  | .error offset => some offset
  | .ok _ => none

/-- The version that is found, if it is a name of the family. -/
def foundVersion? (family : String) : Except Nat String → Option Version
  | .error _ => none
  | .ok name => (afterFamily? family name).map fun rest => (Version.parseLenient rest).value

/-- The newest version of a family is told by what the walk finds: the first offset that is not in the table, or else the
largest version. -/
theorem value_of_finds (family : String) {image : Bytes} {found : List (Except Nat String)} (h : Finds image found) :
    (newestVersion image family).value =
      match found.findSome? outOfTable? with
      | some offset => .error (.nameOutOfRange offset)
      | none => .ok ((found.filterMap (foundVersion? family)).foldl max .zero) := by
  obtain ⟨o, definitions, table, ho, rfl⟩ := h
  have hfault : (Option.guard fun offset => (table.get? offset).isNone) =
      outOfTable? ∘ fun offset => (table.get? offset).elim (.error offset) .ok := by
    funext offset
    cases hn : table.get? offset <;> simp [Option.guard, outOfTable?, hn]
  have hversions : (fun offset => ((table.get? offset).bind (afterFamily? family)).map fun rest =>
      (Version.parseLenient rest).value) =
        foundVersion? family ∘ fun offset => (table.get? offset).elim (.error offset) .ok := by
    funext offset
    cases hn : table.get? offset <;> simp [foundVersion?, hn]
  have hvalue := value_of_opened family ho
  rw [List.find?_eq_findSome?_guard, hfault, ← List.findSome?_map, versionsOf, hversions, ← List.filterMap_map] at hvalue
  exact hvalue

/-- The walk over a written image finds the names that it was written for. -/
theorem finds_encode {names : List String} (hnul : ∀ name ∈ names, '\x00' ∉ name.toList)
    (hsize : (VersionImage.encode names).size < 2 ^ 32) : Finds (VersionImage.encode names) (names.map .ok) := by
  have hlayout := VersionImage.encode_layout names
  obtain ⟨o, hopened, hencoding⟩ := opened_of_table (hlayout.versionTable_eq hsize)
  refine ⟨o, _, _, hopened, ?_⟩
  rw [hencoding, hlayout.reachedNames_eq hsize]
  refine List.ext_getElem? fun i => ?_
  rw [List.getElem?_map, List.getElem?_map]
  cases hoffset : (VersionImage.nameOffsets 1 names)[i]? with
  | none =>
    have hle := List.getElem?_eq_none_iff.1 hoffset
    rw [VersionImage.length_nameOffsets] at hle
    rw [List.getElem?_eq_none hle]
    rfl
  | some offset =>
    obtain ⟨name, hname, hget⟩ := VersionImage.get?_nameOffset hnul hoffset
    simp [hname, hget]

/-- Leaving out a name of the family whose rest is no version changes no answer. -/
theorem newestVersion_omit {family rest : String} (hrest : ¬ Version.IsText rest) {image image' : Bytes}
    {before after : List (Except Nat String)} (h : Finds image (before ++ .ok (family ++ rest) :: after))
    (h' : Finds image' (before ++ after)) : (newestVersion image family).value = (newestVersion image' family).value := by
  obtain ⟨w, -, hread⟩ := Version.parseLenient_of_not_isText hrest
  have hafter : afterFamily? family (family ++ rest) = some rest := (afterFamily?_eq_some_iff ..).2 rfl
  have hversion : foundVersion? family (.ok (family ++ rest)) = some .zero := by
    rw [foundVersion?, hafter, Option.map_some, hread]
  have hfault : outOfTable? (.ok (family ++ rest)) = none := rfl
  have hmax : ∀ v : Version, max v .zero = v := fun v => max_eq_left v.zero_le
  simp only [value_of_finds family h, value_of_finds family h', List.findSome?_append, List.findSome?_cons, hfault,
    List.filterMap_append, List.filterMap_cons, hversion, List.foldl_append, List.foldl_cons, hmax]

end Elf

end LibraryGuard
