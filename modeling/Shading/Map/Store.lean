/-
Stores for archives. A memory store keeps blobs by key and counts how it is
used. A directory store keeps each blob in a file named after its key: letters,
digits, underscores and hyphens stay and every other character becomes an
underscore, so different keys may share a file. A file is first written under a
temporary name and then moved into place. The directory may also hold other
directories; a path names one, and making it makes those on the way to it.
-/

import Shading.Table

namespace Shading

structure MemoryStore where
  blobs : Table String (List UInt8) := .empty
  gets : Nat := 0
  hits : Nat := 0
  puts : Nat := 0
deriving Inhabited

namespace MemoryStore

/-- Looks a blob up and counts the attempt. -/
def get (store : MemoryStore) (key : String) : Option (List UInt8) × MemoryStore :=
  let blob := store.blobs.get? key
  (blob, { store with gets := store.gets + 1, hits := store.hits + blob.isSome.toNat })

def put (store : MemoryStore) (key : String) (blob : List UInt8) : MemoryStore :=
  { store with blobs := store.blobs.insert key blob, puts := store.puts + 1 }

end MemoryStore

/-- What a name in a directory stands for. -/
inductive DirectoryEntry where
  | file (content : List UInt8)
  | directory
deriving DecidableEq, Inhabited

/-- The entries of the directory, and the blob of the empty key, whose file lies
beside the directory and not in it. -/
structure DirectoryStore where
  entries : Table String DirectoryEntry := .empty
  beside : Option (List UInt8) := none
deriving Inhabited

namespace DirectoryStore

def keptChar (char : Char) : Bool := char.isAlphanum || char = '_' || char = '-'

def stem (key : String) : String :=
  String.ofList (key.toList.map fun char => if keptChar char then char else '_')

def fileName (key : String) : String := stem key ++ ".sm"

def temporaryName (key : String) : String := fileName key ++ ".tmp"

/-- The longest name a directory takes, in bytes. -/
def longestName : Nat := 255

def isTooLong (name : String) : Bool := longestName < name.utf8ByteSize

/-! ### Blobs -/

def get (store : DirectoryStore) (key : String) : Option (List UInt8) :=
  if key = "" then store.beside
  else match store.entries.get? (fileName key) with
    | some (.file content) => some content
    | _ => none

/-- Writes the temporary file and moves it. Writing fails if the temporary name
is too long or is a directory's; moving fails if the final name is a
directory's, and then the temporary file stays. -/
def put (store : DirectoryStore) (key : String) (blob : List UInt8) : DirectoryStore :=
  let temporary := temporaryName key
  if key = "" then { store with beside := some blob }
  else if isTooLong temporary then store
  else if store.entries.get? temporary = some .directory then store
  else if store.entries.get? (fileName key) = some .directory then
    { store with entries := store.entries.insert temporary (.file blob) }
  else
    { store with entries := (store.entries.erase temporary).insert (fileName key) (.file blob) }

/-! ### Directories -/

/-- Follows a path from `depth` levels below the store's directory and makes what
is missing. It ends where a name is too long or is a file's, and where it leaves
the store's directory. Below the top level nothing is kept but the depth. -/
def makeFrom (store : DirectoryStore) (depth : Nat) : List String → DirectoryStore
  | [] => store
  | name :: rest =>
    if name = "" || name = "." then store.makeFrom depth rest
    else if name = ".." then
      match depth with
      | 0 => store
      | above + 1 => store.makeFrom above rest
    else if isTooLong name then store
    else match depth, store.entries.get? name with
      | 0, some (.file _) => store
      | 0, none =>
        { store with entries := store.entries.insert name .directory }.makeFrom 1 rest
      | _, _ => store.makeFrom (depth + 1) rest

/-- Makes the directory at a path. One that starts at the root of all directories
leads away from the store, and one with a null character is no path. -/
def makeDirectory (store : DirectoryStore) (path : String) : DirectoryStore :=
  let chars := path.toList
  if chars.head? = some '/' || chars.any (· = '\x00') then store
  else store.makeFrom 0 ((chars.splitOn '/').map String.ofList)

/-- The names in the directory, sorted. -/
def listing (store : DirectoryStore) : List String :=
  store.entries.keys.mergeSort fun left right => left ≤ right

end DirectoryStore

end Shading
