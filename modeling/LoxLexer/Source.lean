/-!
# Reading sources

What the system answers when a file is read, and which answers give a source text: the bytes must be
UTF-8 and at most a million of them.

`Folder` is a working folder with at most one entry, for runs that touch no disk: `Folder.read` is
the answer of the system there. A path is followed part by part, and what stands at a place is
looked up when the place is left or read, so the first part that cannot be followed decides the
fault.
-/

namespace LoxLexer

/-! ## Faults -/

/-- Why a file gives no text. -/
inductive ReadFault where
  | notFound
  | isDirectory
  | notADirectory
  | nameTooLong
  /-- The path holds the character with code point zero. -/
  | nulInPath
  | notUtf8
  /-- Another fault of the system, with its description and number. -/
  | other (description : String) (code : Nat)

/-- The text of a fault of the system. -/
def systemMessage (description : String) (code : Nat) : String :=
  description ++ " (os error " ++ toString code ++ ")"

/-- The text of a fault. -/
def ReadFault.message : ReadFault → String
  | notFound => systemMessage "No such file or directory" 2
  | isDirectory => systemMessage "Is a directory" 21
  | notADirectory => systemMessage "Not a directory" 20
  | nameTooLong => systemMessage "File name too long" 36
  | nulInPath => "file name contained an unexpected NUL byte"
  | notUtf8 => "stream did not contain valid UTF-8"
  | other description code => systemMessage description code

/-- Why a path gives no source. -/
inductive SourceError where
  | unreadable (path : String) (fault : ReadFault)
  | tooLarge (size : Nat)

/-- What went wrong, and then its cause if it has one. -/
def SourceError.chain : SourceError → List String
  | unreadable path fault => ["failed to read '" ++ path ++ "'", fault.message]
  | tooLarge size => ["source file exceeds 1MB limit (" ++ toString size ++ " bytes)"]

/-! ## Sources -/

/-- The greatest number of bytes in a source file. -/
def maxSourceSize : Nat := 1000000

/-- The source that reading a path gives. Bytes that are not UTF-8 are reported before a size over
    the limit. -/
def sourceOf (path : String) (contents : Except ReadFault ByteArray) :
    Except SourceError String :=
  match contents with
  | .error fault => .error (.unreadable path fault)
  | .ok bytes =>
    match String.fromUTF8? bytes with
    | none => .error (.unreadable path .notUtf8)
    | some text => if bytes.size ≤ maxSourceSize then .ok text else .error (.tooLarge bytes.size)

/-! ## Folders -/

/-- What stands at a place. -/
inductive FolderEntry where
  | file (bytes : ByteArray)
  | directory

/-- A place that a path leads to. -/
structure Place where
  /-- Whether the names are counted from the working folder, and not from a directory outside it. -/
  inside : Bool
  /-- The names to the place, the innermost first. -/
  names : List (List Char)

/-- The directory that holds a place. Above the working folder, and above any directory outside it,
    there is again a directory. -/
def Place.parent (place : Place) : Place :=
  match place.names with
  | [] => ⟨false, []⟩
  | _ :: names => ⟨place.inside, names⟩

/-- The place under a name in a directory. -/
def Place.child (place : Place) (name : List Char) : Place :=
  ⟨place.inside, name :: place.names⟩

/-- A working folder with at most one entry. -/
structure Folder where
  /-- The names to the entry, the innermost first, and what stands there. -/
  entry? : Option (List (List Char) × FolderEntry)

namespace Folder

/-- The folder with nothing in it. -/
def empty : Folder := ⟨none⟩

/-- The parts of a path between its slashes, some of which may be empty. -/
def pathParts (path : String) : List (List Char) :=
  path.toList.splitOnP (· == '/')

/-- Whether a part of a path stays where it is, as an empty one and a single dot do. -/
def stays (part : List Char) : Bool :=
  part == [] || part == ['.']

/-- The folder with one entry at a path below it. -/
def holding (path : String) (entry : FolderEntry) : Folder :=
  ⟨some ((pathParts path).filter (!stays ·) |>.reverse, entry)⟩

/-- What stands at a place: the entry, or one of the directories above it. -/
def entryAt? (folder : Folder) (place : Place) : Option FolderEntry :=
  -- The working folder is there even if nothing else is.
  if place.names = [] then some .directory
  else match folder.entry? with
    | none => none
    | some (names, entry) =>
      if !place.inside then none
      else if place.names = names then some entry
      else if place.names.isSuffixOf names then some .directory
      else none

/-- Follows one part of a path, which only a directory lets one do. Nothing is asked of the place
    that it leads to. -/
def step (folder : Folder) (place : Place) (part : List Char) : Except ReadFault Place :=
  match folder.entryAt? place with
  | none => .error .notFound
  | some (.file _) => .error .notADirectory
  | some .directory =>
    if stays part then .ok place
    else if part = ['.', '.'] then .ok place.parent
    -- Behind a file no name is looked at, so one that is too long is not noticed there.
    else if 255 < (String.ofList part).utf8ByteSize then .error .nameTooLong
    else .ok (place.child part)

/-- What the system answers when a path is read. A path that starts with a slash is followed from
    outside the folder. -/
def read (folder : Folder) (path : String) : Except ReadFault ByteArray :=
  if '\x00' ∈ path.toList then .error .nulInPath
  else if path.isEmpty then .error .notFound
  else if 4096 ≤ path.utf8ByteSize then .error .nameTooLong
  else
    let start : Place := ⟨path.toList.head? != some '/', []⟩
    match (pathParts path).foldlM folder.step start with
    | .error fault => .error fault
    | .ok place =>
      -- The last place is looked up here, as following a path asks nothing of it.
      match folder.entryAt? place with
      | none => .error .notFound
      | some .directory => .error .isDirectory
      | some (.file bytes) => .ok bytes

end Folder

end LoxLexer
