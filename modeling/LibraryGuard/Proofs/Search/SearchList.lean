import LibraryGuard.Elf.VersionImage
import LibraryGuard.FileTree
import LibraryGuard.Proofs.Elf.NewestVersion
import LibraryGuard.Proofs.Except
import LibraryGuard.Proofs.Text.Blank
import LibraryGuard.Search.SearchList

/-!
# Which library an executable's search lists lead to

`ShippedAnswer` says what the search for a library gives, or why there is none, without running through the lists: the first of
three conditions that fails names the error, and if none does, the answer is the first file (`IsFirstFile`) among the candidates
of the newer lists, followed by those of the older ones. Exactly one result is an answer, and it is the one that is computed
(`shippedFor_eq_iff_shippedAnswer`). Several lists are searched as the one list is that has them with colons between them
(`find?_intercalate`), and what is found in a tree stands there as a regular file (`exists_node_of_find?`).
-/

namespace LibraryGuard

/-! ## The first file of several paths -/

/-- The answer is the first of the paths that leads to a file, or nothing if none does. -/
inductive IsFirstFile (files : Files) : List Path → Option Path → Prop where
  | none {paths : List Path} (h : ∀ p ∈ paths, files.isFile p = false) : IsFirstFile files paths none
  | some {before after : List Path} {p : Path} (h : ∀ q ∈ before, files.isFile q = false) (hp : files.isFile p = true) :
      IsFirstFile files (before ++ p :: after) (some p)

theorem isFirstFile_iff (files : Files) (paths : List Path) (answer : Option Path) :
    IsFirstFile files paths answer ↔ paths.find? files.isFile = answer := by
  constructor
  · rintro (h | ⟨h, hp⟩)
    · exact List.find?_eq_none.2 fun p hp => by simp [h p hp]
    · exact List.find?_eq_some_iff_append.2 ⟨hp, _, _, rfl, fun q hq => by simp [h q hq]⟩
  · intro h
    cases answer with
    | none => exact .none fun p hp => by simpa using List.find?_eq_none.1 h p hp
    | some p =>
      obtain ⟨hp, before, after, rfl, hbefore⟩ := List.find?_eq_some_iff_append.1 h
      exact .some (fun q hq => by simpa using hbefore q hq) hp

namespace SearchList

/-! ## Several lists -/

variable (files : Files) (origin : Path) (target : String)

/-- Lists that are searched after others are as if they stood behind them. -/
theorem find?_append (lists others : List String) :
    find? files (lists ++ others) origin target =
      (find? files lists origin target).or (find? files others origin target) := by
  rw [find?, List.flatMap_append, List.find?_append]
  rfl

/-- A colon keeps the directories on its two sides apart. -/
theorem entries_append (list other : String) : entries (list ++ ":" ++ other) = entries list ++ entries other := by
  have hchars : (list ++ ":" ++ other).toList = list.toList ++ ':' :: other.toList := by
    rw [String.toList_append, String.toList_append, List.append_assoc]
    rfl
  rw [entries, Text.pieces_eq_splitOn, hchars, List.splitOn_append_cons_self, List.filter_append, entries, entries,
    Text.pieces_eq_splitOn, Text.pieces_eq_splitOn]

/-- The one list that has several with colons between them holds the directories of all. -/
theorem entries_intercalate (lists : List String) : entries (":".intercalate lists) = lists.flatMap entries := by
  induction lists with
  | nil => rfl
  | cons list rest ih =>
    cases rest with
    | nil => rw [String.intercalate_singleton, List.flatMap_singleton]
    | cons next rest => rw [String.intercalate_cons_cons, entries_append, ih, ← List.flatMap_cons]

/-- Several lists are searched as the one list is that has them with colons between them. -/
theorem find?_intercalate (lists : List String) :
    find? files lists origin target = find? files [":".intercalate lists] origin target := by
  rw [find?, find?, List.flatMap_singleton]
  unfold candidates
  rw [entries_intercalate, List.map_flatMap]

end SearchList

/-! ## What is found in a tree -/

/-- What is a regular file for the guard. -/
inductive Node.IsRegular : Node → Prop where
  | file (content : Bytes) (mayRun : Bool) : IsRegular (.file content mayRun)
  | tool (name : String) : IsRegular (.tool name)

/-- A path is that of a file in a tree if it leads to a place with a regular file. -/
theorem FileTree.isFile_eq_true_iff {t : FileTree} {p : Path} :
    t.isFile p = true ↔ ∃ place n, t.place p = .ok place ∧ t.node? place = some n ∧ n.IsRegular := by
  rw [isFile, find]
  constructor
  · intro h
    cases hplace : t.place p with
    | error fault =>
      rw [hplace] at h
      cases h
    | ok place =>
      cases hnode : t.node? place with
      | none => simp [hplace, hnode, bind, Except.bind] at h
      | some n =>
        refine ⟨place, n, rfl, hnode, ?_⟩
        cases n with
        | file content mayRun => exact .file content mayRun
        | tool name => exact .tool name
        | _ => simp [hplace, hnode, bind, Except.bind, pure, Except.pure] at h
  · rintro ⟨place, n, hplace, hnode, hregular⟩
    cases hregular <;> simp [hplace, hnode, bind, Except.bind, pure, Except.pure]

/-- What is found in a tree stands there as a regular file: it is no directory, and no link that leads nowhere. -/
theorem SearchList.exists_node_of_find? {t : FileTree} {lists : List String} {origin : Path} {target : String} {p : Path}
    (h : find? t.files lists origin target = some p) :
    ∃ place n, t.place p = .ok place ∧ t.node? place = some n ∧ n.IsRegular :=
  FileTree.isFile_eq_true_iff.1 (List.find?_some (p := t.files.isFile) h)

/-! ## The search of an executable -/

/-- What the search for a library gives, or why there is none. -/
inductive ShippedAnswer (files : Files) (executable : Path) (target : String) : Except GuardError (Option Path) → Prop where
  | unreadable {cause : AccessFault} (h : files.read executable = .error cause) :
      ShippedAnswer files executable target (.error (.unreadable executable cause))
  | badMagic {image : Bytes} (isRead : files.read executable = .ok image) (h : ¬Elf.magic <+: image.toList) :
      ShippedAnswer files executable target (.error (.format executable .badMagic))
  | notAccepted {image : Bytes} {cause : Elf.Malformation} (isRead : files.read executable = .ok image)
      (isMagic : Elf.magic <+: image.toList) (h : Elf.Object.read image = .error cause) :
      ShippedAnswer files executable target (.error (.format executable (.malformed cause)))
  | searched {image : Bytes} {o : Elf.Object} {answer : Option Path} (isRead : files.read executable = .ok image)
      (isAccepted : Elf.IsAccepted image o)
      (isFirst : IsFirstFile files ((o.searchLists.runpaths ++ o.searchLists.rpaths).flatMap fun list =>
        SearchList.candidates list executable.origin target) answer) :
      ShippedAnswer files executable target (.ok answer)

/-- The search takes three steps that can fail, and then goes through all lists at once. -/
theorem shippedFor_eq (files : Files) (executable : Path) (target : String) :
    shippedFor files executable target =
      match files.read executable with
      | .error cause => .error (.unreadable executable cause)
      | .ok image =>
        if Elf.hasMagic image then
          match Elf.Object.read image with
          | .error cause => .error (.format executable (.malformed cause))
          | .ok o =>
            .ok (SearchList.find? files (o.searchLists.runpaths ++ o.searchLists.rpaths) executable.origin target)
        else .error (.format executable .badMagic) := by
  unfold shippedFor Elf.searchLists
  cases files.read executable with
  | error cause => rfl
  | ok image =>
    cases hmagic : Elf.hasMagic image with
    | false =>
      simp only [Except.mapError, bind, Except.bind, hmagic]
      rfl
    | true =>
      simp only [Except.mapError, bind, Except.bind, hmagic, if_true]
      cases Elf.Object.read image with
      | error cause => rfl
      | ok o => exact congrArg Except.ok (SearchList.find?_append ..).symm

variable {files : Files} {executable : Path} {target : String} {r : Except GuardError (Option Path)}

/-- What is computed is an answer. -/
theorem shippedAnswer_shippedFor (files : Files) (executable : Path) (target : String) :
    ShippedAnswer files executable target (shippedFor files executable target) := by
  rw [shippedFor_eq]
  cases hread : files.read executable with
  | error cause => exact .unreadable hread
  | ok image =>
    dsimp only
    split
    next hmagic =>
      rw [Elf.AnswerAux.hasMagic_iff] at hmagic
      cases hobject : Elf.Object.read image with
      | error cause => exact .notAccepted hread hmagic hobject
      | ok o => exact .searched hread ⟨hmagic, hobject⟩ ((isFirstFile_iff ..).2 rfl)
    next hmagic => exact .badMagic hread (mt (Elf.AnswerAux.hasMagic_iff image).2 hmagic)

/-- There is no other answer. -/
theorem ShippedAnswer.shippedFor_eq (h : ShippedAnswer files executable target r) : shippedFor files executable target = r := by
  rw [LibraryGuard.shippedFor_eq]
  cases h with
  | unreadable h => simp only [h]
  | badMagic isRead h =>
    rw [← Elf.AnswerAux.hasMagic_iff] at h
    simp only [isRead, if_neg h]
  | notAccepted isRead isMagic h =>
    rw [← Elf.AnswerAux.hasMagic_iff] at isMagic
    simp only [isRead, if_pos isMagic, h]
  | searched isRead isAccepted isFirst =>
    have hmagic := (Elf.AnswerAux.hasMagic_iff _).2 isAccepted.isMagic
    simp only [isRead, if_pos hmagic, isAccepted.isRead, SearchList.find?, (isFirstFile_iff ..).1 isFirst]

/-- The search for a library gives the one answer there is. Its lists count as the one list that has them with colons between
them, and what is found in a tree stands there as a regular file. -/
theorem shippedFor_eq_iff_shippedAnswer (files : Files) (executable : Path) (target : String) :
    (∀ r, shippedFor files executable target = r ↔ ShippedAnswer files executable target r) ∧
      (∀ lists origin, SearchList.find? files lists origin target =
        SearchList.find? files [":".intercalate lists] origin target) ∧
      ∀ (t : FileTree) lists origin p, SearchList.find? t.files lists origin target = some p →
        ∃ place n, t.place p = .ok place ∧ t.node? place = some n ∧ n.IsRegular := by
  refine ⟨fun r => ⟨?_, ShippedAnswer.shippedFor_eq⟩, fun lists origin => SearchList.find?_intercalate files origin target lists,
    fun t lists origin p => SearchList.exists_node_of_find?⟩
  rintro rfl
  exact shippedAnswer_shippedFor files executable target

/-! ## A library that is found through the older list -/

open Elf.VersionImage (number nameTable) in
/-- The plainest image with a newer and an older search list: the header, a segment for the whole file and one for the dynamic
section, the dynamic section, and its strings. -/
def listsImage (runpath rpath : String) : Bytes :=
  let strings := nameTable [runpath, rpath]
  let dynamicAt := 64 + 2 * 56
  let stringsAt := dynamicAt + 5 * 16
  let segment := fun kind start size => number 4 kind ++ number 4 0 ++ number 8 start ++ number 8 start ++ number 8 start ++
    number 8 size ++ number 8 size ++ number 8 0
  let entry := fun (tag : Elf.DynamicTag) value => number 8 tag.code ++ number 8 value
  let header := [0x7F, 0x45, 0x4C, 0x46, 2, 1, 1] ++ List.replicate 9 0 ++ number 2 3 ++ number 2 62 ++ number 4 1 ++
    number 8 0 ++ number 8 64 ++ number 8 0 ++ number 4 0 ++ number 2 64 ++ number 2 56 ++ number 2 2 ++ number 2 64 ++
    number 2 0 ++ number 2 0
  (header ++ segment 1 0 (stringsAt + strings.length) ++ segment 2 dynamicAt (5 * 16) ++ entry .strings stringsAt ++
    entry .stringsSize strings.length ++ entry .runpath 1 ++ entry .rpath (runpath.utf8ByteSize + 2) ++ entry .null 0 ++
    strings).toArray

/-- An executable with two lists, where there is a library in each of the directories of the older one. -/
def olderDirectories : Files where
  isFile path := path.text ∈ ["/opt/lib/libstdc++.so.6", "/usr/lib/libstdc++.so.6"]
  isPresent path := path.text ∈ ["/opt/lib/libstdc++.so.6", "/usr/lib/libstdc++.so.6", "/app/bin/tool"]
  read path := if path.text = "/app/bin/tool" then .ok (listsImage "$ORIGIN/../lib" "/opt/lib::/usr/lib") else .error .missing

theorem listsImage_read :
    ∃ o, Elf.Object.read (listsImage "$ORIGIN/../lib" "/opt/lib::/usr/lib") = .ok o ∧
      o.searchLists = ⟨["$ORIGIN/../lib"], ["/opt/lib::/usr/lib"]⟩ := by
  have hlists : (Elf.Object.read (listsImage "$ORIGIN/../lib" "/opt/lib::/usr/lib")).toOption.map (·.searchLists) =
      some ⟨["$ORIGIN/../lib"], ["/opt/lib::/usr/lib"]⟩ := by
    decide +kernel
  obtain ⟨o, hobject, hsame⟩ := Option.map_eq_some_iff.1 hlists
  exact ⟨o, toOption_eq_some_iff.1 hobject, hsame⟩

/-- The directory of the newer list has no library in it, and of those of the older list the first one is taken. -/
theorem shippedFor_olderDirectories :
    shippedFor olderDirectories ⟨"/app/bin/tool"⟩ "libstdc++.so.6" = .ok (some ⟨"/opt/lib/libstdc++.so.6"⟩) ∧
      SearchList.find? olderDirectories ["$ORIGIN/../lib:/opt/lib::/usr/lib"] ⟨"/app/bin"⟩ "libstdc++.so.6" =
        some ⟨"/opt/lib/libstdc++.so.6"⟩ := by
  obtain ⟨o, hobject, hlists⟩ := listsImage_read
  have hmagic : Elf.magic <+: (listsImage "$ORIGIN/../lib" "/opt/lib::/usr/lib").toList := ⟨_, rfl⟩
  have hpaths : (["$ORIGIN/../lib"] ++ ["/opt/lib::/usr/lib"]).flatMap (fun list =>
      SearchList.candidates list ⟨"/app/bin"⟩ "libstdc++.so.6") =
        [⟨"/app/bin/../lib/libstdc++.so.6"⟩] ++ ⟨"/opt/lib/libstdc++.so.6"⟩ :: [⟨"/usr/lib/libstdc++.so.6"⟩] := by
    decide +kernel
  have hfirst : IsFirstFile olderDirectories ((["$ORIGIN/../lib"] ++ ["/opt/lib::/usr/lib"]).flatMap fun list =>
      SearchList.candidates list ⟨"/app/bin"⟩ "libstdc++.so.6") (some ⟨"/opt/lib/libstdc++.so.6"⟩) := by
    rw [hpaths]
    exact .some (by decide) (by decide)
  have horigin : (⟨"/app/bin/tool"⟩ : Path).origin = ⟨"/app/bin"⟩ := by decide
  obtain ⟨hanswer, hjoined, -⟩ := shippedFor_eq_iff_shippedAnswer olderDirectories ⟨"/app/bin/tool"⟩ "libstdc++.so.6"
  constructor
  · refine (hanswer _).2 (.searched rfl ⟨hmagic, hobject⟩ ?_)
    rwa [hlists, horigin]
  · have hlist : "$ORIGIN/../lib:/opt/lib::/usr/lib" = ":".intercalate ["$ORIGIN/../lib", "/opt/lib::/usr/lib"] := by
      decide +kernel
    rw [hlist, ← hjoined]
    exact (isFirstFile_iff ..).1 hfirst

end LibraryGuard
