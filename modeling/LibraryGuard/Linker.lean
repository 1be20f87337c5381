import LibraryGuard.Elf.Segment
import LibraryGuard.Reconciliation

/-!
# The linker

The linker maps a library from a path, or from a bare name that it looks for in its search path and among the installed
libraries. It looks at the identification, the header and the segments of a file before it maps it, and refuses a file for the
first cause that it finds. The library with the empty name is the program itself, which has no path.
-/

namespace LibraryGuard

/-- Why the linker does not map a file. -/
inductive LinkFault where
  | nulInName
  | cannotOpen (cause : AccessFault)
  | cannotRead (cause : AccessFault)
  | tooShort | badMagic | wrongClass | wrongOrder | wrongIdentVersion | wrongInterface | wrongInterfaceVersion | badPadding
  | wrongVersion | notLibrary | wrongEntrySize | unreadableSegments | misaligned | noSegments | noDynamicSection
  | executable
  deriving DecidableEq, Repr

/-- The words of the system for a fault, without its number. -/
def AccessFault.plainMessage (f : AccessFault) : String :=
  match Text.cut? " (os error".toList f.message.toList with
  | some (words, _) => String.ofList words
  | none => f.message

/-- The words for a fault. -/
def LinkFault.message : LinkFault → String
  | .nulInName => "path contains a NUL byte"
  | .cannotOpen cause => "cannot open shared object file: " ++ cause.plainMessage
  | .cannotRead cause => "cannot read file data: " ++ cause.plainMessage
  | .tooShort => "file too short"
  | .badMagic => "invalid ELF header"
  | .wrongClass => "wrong ELF class: ELFCLASS32"
  | .wrongOrder => "ELF file data encoding not little-endian"
  | .wrongIdentVersion => "ELF file version ident does not match current one"
  | .wrongInterface => "ELF file OS ABI invalid"
  | .wrongInterfaceVersion => "ELF file ABI version invalid"
  | .badPadding => "nonzero padding in e_ident"
  | .wrongVersion => "ELF file version does not match current one"
  | .notLibrary => "only ET_DYN and ET_EXEC can be loaded"
  | .wrongEntrySize => "ELF file's phentsize not the expected size"
  | .unreadableSegments => "cannot read file data"
  | .misaligned => "ELF load command address/offset not page-aligned"
  | .noSegments => "object file has no loadable segments"
  | .noDynamicSection => "object file has no dynamic section"
  | .executable => "cannot dynamically load executable"

namespace Loadable

open Elf

/-- The fault if a condition does not hold. -/
def require (condition : Bool) (f : LinkFault) : Except LinkFault Unit := if condition then .ok () else .error f

/-- The encoding of the images that the linker maps. -/
def native : Encoding := ⟨.bits64, .little⟩

/-- The size of a page of memory. -/
def pageSize : Nat := 0x1000

/-- A number in the native encoding, zero where there is none. -/
def number (image : Bytes) (offset width : Nat) : Nat := (image.nat? .little offset width).getD 0

/-- Checks the identification. An image for another machine counts as missing. -/
def checkIdentification (image : Bytes) : Except LinkFault Unit := do
  require (64 ≤ image.size) .tooShort
  let byte := fun i => number image i 1
  require (hasMagic image) .badMagic
  require (byte 4 = 2) .wrongClass
  require (byte 5 = 1) .wrongOrder
  require (byte 6 = 1) .wrongIdentVersion
  require (byte 7 = 0 || byte 7 = 3) .wrongInterface
  require (byte 8 < 4) .wrongInterfaceVersion
  require ((List.range 7).all fun i => byte (9 + i) = 0) .badPadding

/-- Checks the header. -/
def checkHeader (image : Bytes) : Except LinkFault Unit := do
  require (number image 20 4 = 1) .wrongVersion
  require (number image 18 2 = 62) (.cannotOpen .missing)
  require (number image 16 2 = 3 || number image 16 2 = 2) .notLibrary
  require (number image 54 2 = 56) .wrongEntrySize

/-- Checks a loadable segment: its bytes have the same place in a page of the file and in one of the memory. -/
def checkLoad (s : Segment) : Except LinkFault Unit := require (s.address % pageSize = s.offset % pageSize) .misaligned

/-- Checks the segments. -/
def checkSegments (image : Bytes) : Except LinkFault Unit := do
  let table := records (Segment.read? native image) (Segment.entrySize native) (number image 56 2) (number image 32 8)
  match table with
  | none => .error .unreadableSegments
  | some segments => do
    let loads := segments.filter (·.kind = .load)
    loads.forM checkLoad
    require (!loads.isEmpty) .noSegments
    require (number image 16 2 = 3) .executable
    require (segments.any fun s => s.kind = .dynamic && s.fileSize ≠ 0) .noDynamicSection

/-- Why an image is not mapped, if it is not. -/
def checkImage (image : Bytes) : Except LinkFault Unit := do
  checkIdentification image
  checkHeader image
  checkSegments image

end Loadable

/-- What a linker goes by: the files, its search path, the directory of the installed libraries and their names, and the names
of those that are mapped. -/
structure Linker where
  files : Files
  searchPath : List Path
  systemDirectory : Path
  installed : List String
  resident : List String

/-- What is mapped. -/
inductive Mapped where
  | program
  | library (path : Path)
  deriving DecidableEq, Repr

namespace Linker

/-- The directories of a search path: colons or semicolons stand between them, an empty one is the current one, and each but
the root ends in one slash. -/
def directories (list : String) : List Path :=
  let entry := fun (s : List Char) =>
    match s.reverse.dropWhile (· = '/') with
    | [] => if s.isEmpty then "./".toList else ['/']
    | kept => (kept.reverse ++ ['/'])
  if list = "" then []
  else ((Text.pieces ':' list.toList).flatMap (Text.pieces ';')).map fun s => Path.ofChars (entry s)

/-- The path of the installed library of a name. -/
def installedPath (l : Linker) (name : String) : Path := l.systemDirectory.join ⟨name⟩

/-- Maps the file at a path. -/
def mapFile (l : Linker) (path : Path) : Except LinkFault Mapped :=
  match l.files.read path with
  | .error .isDirectory => .error (.cannotRead .isDirectory)
  | .error cause => .error (.cannotOpen cause)
  | .ok image => (Loadable.checkImage image).map fun () => .library path

/-- Whether the search goes on behind a file that was refused for this fault. -/
def isPassedOver : LinkFault → Bool
  | .cannotOpen .missing | .cannotOpen .notDirectory | .wrongClass => true
  | _ => false

/-- Maps the first file of a name in some directories that is not passed over. -/
def mapIn? (l : Linker) (name : String) (directories : List Path) : Option (Except (String × LinkFault) Mapped) :=
  directories.findSome? fun d =>
    let path := d.join ⟨name⟩
    match l.mapFile path with
    | .ok m => some (.ok m)
    | .error f => if isPassedOver f then none else some (.error (path.text, f))

/-- Maps a library by its name: from the search path, or the installed one. -/
def mapName (l : Linker) (name : String) : Except (String × LinkFault) Mapped :=
  match l.mapIn? name l.searchPath with
  | some answer => answer
  | none =>
    if l.installed.contains name then .ok (.library (l.installedPath name))
    else
      match l.files.read (l.installedPath name) with
      | .error .nameTooLong => .error (name, .cannotOpen .nameTooLong)
      | _ => .error (name, .cannotOpen .missing)

/-- Maps a library, or says what it failed at and why. -/
def map (l : Linker) (name : String) : Except (String × LinkFault) Mapped :=
  if name = "" then .ok .program
  else if name.toList.contains '/' then (l.mapFile ⟨name⟩).mapError (name, ·)
  else l.mapName name

/-- Loads a library from a path or by its name. -/
def load (l : Linker) (path : Path) : Except GuardError Mapped :=
  if path.chars.contains '\x00' then .error (.load path LinkFault.nulInName.message)
  else (l.map path.text).mapError fun (what, fault) => .load path (what ++ ": " ++ fault.message)

/-- The linker after it has loaded a library by its name. -/
def afterLoading (l : Linker) (name : String) : Linker :=
  if l.installed.contains name && !l.resident.contains name then { l with resident := l.resident ++ [name] } else l

/-- What is mapped under a name. -/
def find? (l : Linker) (name : String) : Option Mapped :=
  if name = "" then some .program
  else (l.resident.find? fun n => n = name || (l.installedPath n).text = name).map fun n => .library (l.installedPath n)

/-- The path of what is mapped. -/
def pathOf : Mapped → Except GuardError Path
  | .library path => .ok path
  | .program => .error (.resolution "link-map entry names the main program")

/-- The path of what is mapped under a name. -/
def resolve (l : Linker) (name : String) : Except GuardError Path :=
  match l.find? name with
  | some m => pathOf m
  | none => .error (.resolution "invalid handle")

/-- Loads a library and says where it was found, as the worker does. -/
def locate (l : Linker) (name : String) : Except GuardError Path := do
  let path ← pathOf (← l.load ⟨name⟩)
  if path.isAbsolute then return path
  else .error (.resolution ("linker reported a relative path for " ++ name ++ ": " ++ path.text))

end Linker

end LibraryGuard
