import LibraryGuard.Toml.Document
import Mathlib.Algebra.Ring.Int.Defs
import Mathlib.Algebra.Ring.Nat
import Mathlib.Data.List.Nodup

/-!
# What a document can hold

The entries of a document have distinct keys, and each integer among them fits 64 signed bits (`read?_sound`). The second is known
of every value that is read (`gives_value`); the first is kept by every line that is added (`Progress.isDocument_add`), since an
entry is put in either with a new key or in the place of the entry with its key.
-/

namespace LibraryGuard

namespace Text.Reader

variable {α β : Type} {P : β → Prop}

/-- Whatever a reader reads has a property. -/
def Gives (r : Reader β) (P : β → Prop) : Prop := ∀ s b rest, r s = some (b, rest) → P b

theorem gives_pure {b : β} (h : P b) : Gives (pure b) P := by
  rintro s b' rest ⟨⟩
  exact h

theorem gives_failure : Gives (failure : Reader β) P := nofun

/-- Of readers in sequence the last one decides, which may know what the one before it has read. -/
theorem gives_bind {r : Reader α} {f : α → Reader β} {Q : α → Prop} (hr : Gives r Q) (hf : ∀ a, Q a → Gives (f a) P) :
    Gives (r >>= f) P := by
  intro s b rest h
  obtain ⟨⟨a, s'⟩, ha, hb⟩ := Option.bind_eq_some_iff.1 h
  exact hf a (hr s a s' ha) s' b rest hb

/-- The same, if it does not matter what was read before. -/
theorem gives_seq {r : Reader α} {f : α → Reader β} (hf : ∀ a, Gives (f a) P) : Gives (r >>= f) P :=
  gives_bind (Q := fun _ => True) (fun _ _ _ _ => trivial) fun a _ => hf a

/-- Of two alternatives each one may have been read. -/
theorem gives_orElse {r r' : Reader β} (hr : Gives r P) (hr' : Gives r' P) : Gives (r <|> r') P := by
  intro s b rest h
  have h : (r s <|> r' s) = some (b, rest) := h
  cases hs : r s with
  | none => exact hr' s b rest (by simpa [hs] using h)
  | some x => exact hr s b rest (by simpa [hs] using h)

/-- Whatever is read again and again has the property each time. -/
theorem gives_upTo {r : Reader β} (hr : Gives r P) (n : Nat) : Gives (upTo r n) fun bs => ∀ b ∈ bs, P b := by
  induction n with
  | zero => exact gives_pure (by simp)
  | succ n ih =>
    refine gives_orElse (gives_bind hr fun b hb => gives_bind ih fun bs hbs => gives_pure ?_) (gives_pure (by simp))
    exact List.forall_mem_cons.2 ⟨hb, hbs⟩

theorem gives_many {r : Reader β} (hr : Gives r P) : Gives (many r) fun bs => ∀ b ∈ bs, P b :=
  fun s => gives_upTo hr s.length s

/-- Reading a whole text is reading. -/
theorem Gives.readAll? {r : Reader β} (hr : Gives r P) {s : List Char} {b : β} (h : r.readAll? s = some b) : P b := by
  unfold Reader.readAll? at h
  split at h
  next b' hb =>
    obtain rfl := Option.some.inj h
    exact hr _ _ _ hb
  next => nomatch h

end Text.Reader

namespace Toml

open Text (Reader)
open Text.Reader

/-! ## The integers of a document -/

/-- A value that is an integer fits 64 signed bits. -/
def Value.Fits : Value → Prop
  | .integer n => fitsInteger n = true
  | _ => True

theorem fitsInteger_iff {n : Int} : fitsInteger n = true ↔ -2 ^ 63 ≤ n ∧ n < 2 ^ 63 := by
  have hleast : Int64.minValue.toInt = -2 ^ 63 := by decide
  have hgreatest : Int64.maxValue.toInt = 2 ^ 63 - 1 := by decide
  rw [fitsInteger, hleast, hgreatest, Bool.and_eq_true, decide_eq_true_iff, decide_eq_true_iff, Int.le_sub_one_iff]

theorem gives_integerOf (n : Int) : Gives (integerOf n) Value.Fits := by
  unfold integerOf
  split
  next h => exact gives_pure h
  next => exact gives_failure

theorem gives_markedInteger (mark : Char) (base : Nat) (isDigit : Char → Bool) :
    Gives (markedInteger mark base isDigit) Value.Fits :=
  gives_seq fun _ => gives_seq fun _ => gives_integerOf _

theorem gives_integer : Gives integer Value.Fits :=
  gives_orElse (gives_markedInteger _ _ _) <| gives_orElse (gives_markedInteger _ _ _) <|
    gives_orElse (gives_markedInteger _ _ _) <| gives_seq fun _ => gives_seq fun _ => gives_integerOf _

theorem gives_moment : Gives moment Value.Fits := by
  intro s v rest h
  obtain ⟨_, -, heq⟩ := Option.map_eq_some_iff.1 h
  obtain ⟨rfl, -⟩ := Prod.mk.inj heq
  trivial

theorem gives_decimalFloat : Gives decimalFloat Value.Fits := by
  have hend : ∀ x, Gives (if x = .infinite false then failure else pure (.float x)) Value.Fits := by
    intro x
    split
    · exact gives_failure
    · exact gives_pure trivial
  refine gives_seq fun _ => gives_seq fun _ => gives_seq fun places => ?_
  dsimp only
  split
  · exact gives_seq fun _ => hend _
  · exact gives_seq fun _ => hend _

theorem gives_specialFloat : Gives specialFloat Value.Fits :=
  gives_seq fun _ => gives_orElse (gives_seq fun _ => gives_pure trivial) (gives_seq fun _ => gives_pure trivial)

theorem gives_plainValue : Gives plainValue Value.Fits :=
  gives_orElse (gives_seq fun _ => gives_pure trivial) <| gives_orElse gives_moment <| gives_orElse gives_decimalFloat <|
    gives_orElse gives_specialFloat <| gives_orElse gives_integer <|
      gives_orElse (gives_seq fun _ => gives_pure trivial) (gives_seq fun _ => gives_pure trivial)

theorem gives_array (item : Reader Value) : Gives (array item) Value.Fits := by
  refine gives_seq fun _ => gives_seq fun items => ?_
  split
  · exact gives_seq fun _ => gives_seq fun _ => gives_seq fun _ => gives_pure trivial
  · exact gives_seq fun _ => gives_seq fun _ => gives_pure trivial

/-! ## The keys of a table -/

namespace Node

/-- The value that a node is, if it is no table and no array of tables. -/
def leaf? : Node → Option Value
  | .leaf v => some v
  | _ => none

/-- An edit ends in a table or in an array of tables. -/
def Inner (edit : Node → Option Node) : Prop := ∀ n n', edit n = some n' → n'.leaf? = none

theorem inner_addLeaf (isDotted : Bool) (key : String) (v : Value) : Inner (addLeaf isDotted key v) := by
  intro n n' h
  unfold addLeaf at h
  split at h
  · split at h
    · obtain rfl := Option.some.inj h
      rfl
    · nomatch h
  · nomatch h

theorem inner_define (key : String) : Inner (define key) := by
  intro n n' h
  unfold define at h
  split at h
  · split at h
    · obtain rfl := Option.some.inj h
      rfl
    · obtain rfl := Option.some.inj h
      rfl
    · nomatch h
  · nomatch h

theorem inner_extend (key : String) : Inner (extend key) := by
  intro n n' h
  unfold extend at h
  split at h
  · split at h
    · obtain rfl := Option.some.inj h
      rfl
    · obtain rfl := Option.some.inj h
      rfl
    · nomatch h
  · nomatch h

/-- So does an edit at the end of a path. -/
theorem inner_editAt (way : Origin) {edit : Node → Option Node} (he : Inner edit) (path : List String) :
    Inner (editAt way edit path) := by
  intro n n' h
  cases path with
  | nil => exact he n n' h
  | cons key path =>
    cases n with
    | leaf v => nomatch h
    | array tables => nomatch h
    | table origin entries =>
      rw [editAt] at h
      obtain ⟨child, -, rfl⟩ := Option.map_eq_some_iff.1 h
      rfl

theorem inner_insert (path : List String) (key : String) (v : Value) : Inner (insert path key v) :=
  inner_editAt _ (inner_addLeaf _ _ _) path

/-- Entries as a document can have them: their keys are distinct, and an integer among them fits 64 signed bits. -/
def Sound (entries : List (String × Node)) : Prop :=
  (entries.map (·.1)).Nodup ∧ ∀ e ∈ entries, ∀ v, e.2.leaf? = some v → v.Fits

variable {entries : List (String × Node)} {key : String} {n n' : Node}

/-- An entry with a new key is added. -/
theorem Sound.concat (h : Sound entries) (hnew : entries.lookup key = none) (hn : ∀ v, n.leaf? = some v → v.Fits) :
    Sound (entries ++ [(key, n)]) := by
  obtain ⟨hkeys, hfits⟩ := h
  constructor
  · rw [List.map_append]
    refine hkeys.append (List.nodup_singleton key) (List.disjoint_singleton.2 fun hmem => ?_)
    obtain ⟨e, he, rfl⟩ := List.mem_map.1 hmem
    simpa using List.lookup_eq_none_iff.1 hnew e he
  · intro e he
    rcases List.mem_append.1 he with he | he
    · exact hfits e he
    · rw [List.mem_singleton.1 he]
      exact hn

/-- Some of the entries are left out. -/
theorem Sound.sublist {entries' : List (String × Node)} (h : Sound entries) (hsub : entries'.Sublist entries) :
    Sound entries' :=
  ⟨h.1.sublist (hsub.map _), fun e he => h.2 e (hsub.subset he)⟩

/-- A table or an array of tables is put in. -/
theorem Sound.putEntry (h : Sound entries) (hn : n.leaf? = none) : Sound (putEntry entries key n) := by
  have hfits : ∀ v, n.leaf? = some v → v.Fits := fun v hv => nomatch hn.symm.trans hv
  unfold Node.putEntry
  split
  · constructor
    · have hkeys : (entries.map fun e => if e.1 = key then (key, n) else e).map (·.1) = entries.map (·.1) := by
        rw [List.map_map]
        refine List.map_congr_left fun e _ => ?_
        by_cases he : e.1 = key <;> simp [he]
      rw [hkeys]
      exact h.1
    · intro e he
      obtain ⟨e', he', rfl⟩ := List.mem_map.1 he
      split
      · exact hfits
      · exact h.2 e' he'
  next hnew => exact h.concat (Option.not_isSome_iff_eq_none.1 hnew) hfits

/-- A table with such entries. -/
def IsDocument : Node → Prop
  | .table _ entries => Sound entries
  | _ => False

/-- An edit leaves such a table as such a table. -/
def Keeps (edit : Node → Option Node) : Prop := ∀ n n', edit n = some n' → n.IsDocument → n'.IsDocument

theorem keeps_addLeaf (isDotted : Bool) (key : String) {v : Value} (hv : v.Fits) : Keeps (addLeaf isDotted key v) := by
  intro n n' h hn
  unfold addLeaf at h
  split at h
  · split at h
    next hnew =>
      obtain rfl := Option.some.inj h
      refine Sound.concat hn (Option.isNone_iff_eq_none.1 hnew.2) fun v' hv' => ?_
      rwa [← Option.some.inj hv']
    next => nomatch h
  · nomatch h

theorem keeps_define (key : String) : Keeps (define key) := by
  intro n n' h hn
  unfold define at h
  split at h
  next origin entries =>
    have hn : Sound entries := hn
    split at h
    next hnew =>
      obtain rfl := Option.some.inj h
      exact hn.concat hnew nofun
    next inner hold =>
      obtain rfl := Option.some.inj h
      refine (hn.sublist List.filter_sublist).concat (List.lookup_eq_none_iff.2 fun e he => ?_) nofun
      have hne : e.1 ≠ key := by simpa using List.of_mem_filter he
      exact bne_iff_ne.2 hne.symm
    next => nomatch h
  next => nomatch h

theorem keeps_extend (key : String) : Keeps (extend key) := by
  intro n n' h hn
  unfold extend at h
  split at h
  next origin entries =>
    have hn : Sound entries := hn
    split at h
    next =>
      obtain rfl := Option.some.inj h
      exact hn.putEntry rfl
    next =>
      obtain rfl := Option.some.inj h
      exact hn.putEntry rfl
    next => nomatch h
  next => nomatch h

/-- So does an edit at the end of a path: the entry on the way is put in as a table or an array of tables. -/
theorem keeps_editAt (way : Origin) {edit : Node → Option Node} (hi : Inner edit) (hk : Keeps edit) (path : List String) :
    Keeps (editAt way edit path) := by
  intro n n' h hn
  cases path with
  | nil => exact hk n n' h hn
  | cons key path =>
    cases n with
    | leaf v => nomatch h
    | array tables => nomatch h
    | table origin entries =>
      have hn : Sound entries := hn
      rw [editAt] at h
      obtain ⟨child, hchild, rfl⟩ := Option.map_eq_some_iff.1 h
      refine hn.putEntry ?_
      split at hchild
      next => exact inner_editAt way hi path _ _ hchild
      next => nomatch hchild
      next =>
        obtain ⟨last, -, rfl⟩ := Option.map_eq_some_iff.1 hchild
        rfl
      next =>
        split at hchild
        · nomatch hchild
        · exact inner_editAt way hi path _ _ hchild

theorem keeps_insert (path : List String) (key : String) {v : Value} (hv : v.Fits) : Keeps (insert path key v) :=
  keeps_editAt _ (inner_addLeaf _ _ _) (keeps_addLeaf _ _ hv) path

/-- The value of such an edit's end is no integer. -/
theorem fits_value {n : Node} (h : n.leaf? = none) : n.value.Fits := by
  cases n with
  | leaf v => nomatch h
  | table origin entries =>
    rw [Node.value]
    trivial
  | array tables =>
    rw [Node.value]
    trivial

theorem entryValues_eq_map (entries : List (String × Node)) : entryValues entries = entries.map fun e => (e.1, e.2.value) := by
  induction entries with
  | nil => rw [entryValues, List.map_nil]
  | cons e rest ih =>
    obtain ⟨key, n⟩ := e
    rw [entryValues, entryValue, List.map_cons, ih]

end Node

/-! ## The lines of a document -/

/-- What is kept by one step is kept by all of them. -/
theorem foldlM_keeps {α β : Type} {P : β → Prop} {Q : α → Prop} {f : β → α → Option β}
    (hf : ∀ b a b', f b a = some b' → Q a → P b → P b') :
    ∀ {as : List α} {b b' : β}, as.foldlM f b = some b' → (∀ a ∈ as, Q a) → P b → P b' := by
  intro as
  induction as with
  | nil =>
    intro b b' h _ hb
    obtain rfl := Option.some.inj h
    exact hb
  | cons a as ih =>
    intro b b' h hQ hb
    rw [List.foldlM_cons] at h
    obtain ⟨c, hc, h⟩ := Option.bind_eq_some_iff.1 h
    obtain ⟨ha, has⟩ := List.forall_mem_cons.1 hQ
    exact ih h has (hf b a c hc ha hb)

theorem gives_inlineTable (item : Reader Value) : Gives (inlineTable item) Value.Fits := by
  refine gives_seq fun _ => gives_seq fun entries => gives_seq fun _ => gives_seq fun _ => ?_
  split
  next n h =>
    refine gives_pure (Node.fits_value ?_)
    exact foldlM_keeps (P := fun n => n.leaf? = none) (Q := fun _ => True)
      (fun n e n' h _ _ => Node.inner_insert e.1 e.2.1 e.2.2 n n' h) h (fun _ _ => trivial) rfl
  next => exact gives_failure

theorem gives_value (depth : Nat) : Gives (value depth) Value.Fits := by
  cases depth with
  | zero => exact gives_plainValue
  | succ depth => exact gives_orElse gives_plainValue (gives_orElse (gives_array _) (gives_inlineTable _))

/-- A line on which the value of an entry, if there is one, fits. -/
def Line.Fits : Line → Prop
  | .entry _ _ v => v.Fits
  | _ => True

theorem gives_headerBetween (isArray : Bool) (left right : List Char) : Gives (headerBetween isArray left right) Line.Fits :=
  gives_seq fun _ => gives_seq fun _ => gives_seq fun _ => gives_seq fun _ => gives_pure trivial

theorem gives_line : Gives line Line.Fits := by
  refine gives_seq fun _ => gives_seq fun next => ?_
  split
  · exact gives_failure
  · exact gives_seq fun _ => gives_pure trivial
  · exact gives_seq fun _ => gives_pure trivial
  · exact gives_seq fun _ => gives_seq fun _ => gives_pure trivial
  · exact gives_orElse (gives_headerBetween _ _ _) (gives_headerBetween _ _ _)
  · refine gives_seq fun parts => gives_seq fun _ => gives_seq fun _ => ?_
    exact gives_bind (gives_value _) fun v hv => gives_seq fun _ => gives_pure hv

theorem gives_lines : Gives lines fun ls => ∀ l ∈ ls, l.Fits :=
  gives_seq fun _ => gives_bind (gives_many gives_line) fun _ hls => gives_seq fun _ => gives_pure hls

/-- One more line leaves a document with distinct keys and fitting integers as such a document. -/
theorem Progress.isDocument_add (p : Progress) (l : Line) (p' : Progress) (h : p.add l = some p') (hl : l.Fits)
    (hp : p.root.IsDocument) : p'.root.IsDocument := by
  cases l with
  | nothing =>
    obtain rfl := Option.some.inj h
    exact hp
  | entry path key v =>
    obtain ⟨root, hroot, rfl⟩ := Option.map_eq_some_iff.1 h
    exact Node.keeps_editAt .implied (Node.inner_insert path key v) (Node.keeps_insert path key hl) p.opened _ _ hroot hp
  | header isArray path =>
    obtain ⟨root, hroot, rfl⟩ := Option.map_eq_some_iff.1 h
    obtain ⟨key, -, hroot⟩ := Option.bind_eq_some_iff.1 hroot
    cases isArray with
    | true => exact Node.keeps_editAt .implied (Node.inner_extend key) (Node.keeps_extend key) _ _ _ hroot hp
    | false => exact Node.keeps_editAt .implied (Node.inner_define key) (Node.keeps_define key) _ _ _ hroot hp

/-- The entries of a document have distinct keys, and every integer among them fits 64 signed bits. -/
theorem read?_sound {text : String} {entries : List (String × Value)} (h : read? text = some entries) :
    (entries.map (·.1)).Nodup ∧ ∀ e ∈ entries, e.2.Fits := by
  obtain ⟨ls, hls, h⟩ := Option.bind_eq_some_iff.1 h
  obtain ⟨p, hp, h⟩ := Option.bind_eq_some_iff.1 h
  have hdoc : p.root.IsDocument :=
    foldlM_keeps (P := fun p => p.root.IsDocument) Progress.isDocument_add hp (gives_lines.readAll? hls)
      ⟨List.nodup_nil, fun _ he => nomatch he⟩
  generalize p.root = root at h hdoc
  cases root with
  | leaf v => nomatch hdoc
  | array tables => nomatch hdoc
  | table origin nodes =>
    obtain ⟨hkeys, hfits⟩ := hdoc
    rw [Node.value] at h
    obtain rfl := Option.some.inj h
    rw [Node.entryValues_eq_map]
    constructor
    · rwa [List.map_map]
    · intro e he
      obtain ⟨⟨key, n⟩, hn, rfl⟩ := List.mem_map.1 he
      cases n with
      | leaf v =>
        dsimp only
        rw [Node.value]
        exact hfits _ hn v rfl
      | table origin entries => exact Node.fits_value rfl
      | array tables => exact Node.fits_value rfl

end Toml

end LibraryGuard
