import Mathlib.Data.Rat.Defs
import TiktokClone.Foundation.FileManager

/-!
# The video cache manager

The memory cache, the files of the disk cache and the manager's methods. The
directory, the digest and the number formatter come from the system and are
parameters. The jobs that a method submits to the serial queue are modelled as
functions of their own; every completion handler is given the list of its calls. A
trap of the Swift code has no result.

The optional fields of the manager are set by its initializer and never reset.
-/

namespace TiktokClone

/-- What the cache manager uses of the system it runs on. -/
structure CacheSystem where
  /-- `diskDirectoryURL!.path` -/
  diskDirectory : String
  /-- `SHA256.hash(data:)` -/
  sha256 : ByteArray → Vector UInt8 32
  /-- `NumberFormatter.string(from:)`, given the maximum and the minimum number of
  fraction digits. -/
  numberFormatter : Nat → Nat → ℚ → Option String

/-- The two levels of the cache. In memory an entry without data is the `NSNull`
that an absent `Data` is stored as. -/
structure VideoCacheManager where
  memoryCache : AList fun _ : String => Option Data
  diskCache : FileManager

/-- `String.format(decimal:)` with its default numbers of digits -/
def CacheSystem.format (sys : CacheSystem) (decimal : ℚ) : Option String :=
  sys.numberFormatter 1 1 decimal

/-- `String(format: "%02x", byte)` -/
def format02x (byte : UInt8) : List Char :=
  [Nat.digitChar (byte.toNat / 16), Nat.digitChar (byte.toNat % 16)]

/-- SHA-2 hash -/
def CacheSystem.sha2 (sys : CacheSystem) (key : String) : String :=
  let inputData := key.toUTF8
  let hashed := sys.sha256 inputData
  .ofList (hashed.toList.flatMap format02x)

/-- Get Disk Cache Path: encrypting the key with SHA-2 in pathName -/
def CacheSystem.diskCachePathForKey (sys : CacheSystem) (key : String)
    (fileExtension : Option String) : String :=
  let fileName := sys.sha2 key
  let cachePathForKey := sys.diskDirectory ++ "/" ++ fileName
  match fileExtension with
  | some fileExtension => cachePathForKey ++ "." ++ fileExtension
  | none => cachePathForKey

/-- The forced cast of a file size to `Float` traps on a number that needs more than
24 significant bits. -/
def forcedFloat (size : Nat) : Option ℚ :=
  if 2 ^ (size.log2 - 23) ∣ size then some size else none

/-- How the loop of `clearDiskCache` ends. -/
inductive DiskClearing
  | trapped
  | thrown (diskCache : FileManager)
  | cleared (diskCache : FileManager) (folderSize : ℚ)

namespace FileManager

/-- The loop of `clearDiskCache` over the contents of the directory. The sizes are added exactly,
where a `Float` rounds every sum. -/
def clearContents (faults : FileFaults) (directory : String) :
    List String → ℚ → FileManager → DiskClearing
  | [], folderSize, diskCache => .cleared diskCache folderSize
  | name :: contents, folderSize, diskCache =>
    let path := directory ++ "/" ++ name
    match diskCache.attributesOfItem faults path with
    | none => .thrown diskCache
    | some size =>
      match forcedFloat size with
      | none => .trapped
      | some size =>
        match diskCache.removeItem faults path with
        | none => .thrown diskCache
        | some diskCache => clearContents faults directory contents (folderSize + size) diskCache

end FileManager

namespace VideoCacheManager

/-- Store Data in Memory Cache -/
def storeDataToMemoryCache (m : VideoCacheManager) (data : Option Data) (key : String) :
    VideoCacheManager :=
  { m with memoryCache := m.memoryCache.insert key data }

/-- Store Data in File Manager System using Firebase -/
def storeDataToDiskCache (sys : CacheSystem) (m : VideoCacheManager) (data : Option Data)
    (key : String) (fileExtension : Option String) : VideoCacheManager :=
  { m with
    diskCache := m.diskCache.createFile (sys.diskCachePathForKey key fileExtension) data }

/-- Store Data in Cache: the job on the queue. -/
def storeDataToCache (sys : CacheSystem) (m : VideoCacheManager) (data : Option Data)
    (key : String) (fileExtension : Option String) : VideoCacheManager :=
  (m.storeDataToMemoryCache data key).storeDataToDiskCache sys data key fileExtension

def dataFromMemoryCache (m : VideoCacheManager) (key : String) : Option Data :=
  (m.memoryCache.lookup key).join

def dataFromDiskCache (sys : CacheSystem) (m : VideoCacheManager) (key : String)
    (fileExtension : Option String) : Option Data :=
  m.diskCache.contents (sys.diskCachePathForKey key fileExtension)

/-- Query Video Data: the calls of the completion handler are the second component. -/
def queryDataFromCache (sys : CacheSystem) (m : VideoCacheManager) (key : String)
    (fileExtension : Option String) : VideoCacheManager × List (Option Data) :=
  match m.dataFromMemoryCache key with
  | some data => (m, [some data])
  | none =>
    match m.dataFromDiskCache sys key fileExtension with
    | some data => (m.storeDataToMemoryCache (some data) key, [some data])
    | none => (m, [none])

/-- The calls of the completion handler that `queryURLFromCache` makes on the queue. -/
def queryURLFromCache (sys : CacheSystem) (m : VideoCacheManager) (key : String)
    (fileExtension : Option String) : List (Option String) :=
  let path := sys.diskCachePathForKey key fileExtension
  if m.diskCache.fileExists path then [some path] else [none]

/-- Clear All Data in Memory Cache -/
def clearMemoryCache (m : VideoCacheManager) : VideoCacheManager := { m with memoryCache := ∅ }

/-- Clear All Data in Disk Cache; the string is the formatted size in MB. -/
def clearDiskCache (sys : CacheSystem) (faults : FileFaults) (m : VideoCacheManager) :
    Option (VideoCacheManager × String) :=
  match m.diskCache.contentsOfDirectory faults sys.diskDirectory with
  | none => some (m, "0")
  | some contents =>
    match m.diskCache.clearContents faults sys.diskDirectory contents 0 with
    | .trapped => none
    | .thrown diskCache => some ({ m with diskCache := diskCache }, "0")
    | .cleared diskCache folderSize =>
      some ({ m with diskCache := diskCache },
        (sys.format (folderSize / 1024 / 1024)).getD "0")

/-- Clear All Data in cache: the job on the queue, with the size for the completion. -/
def clearCache (sys : CacheSystem) (faults : FileFaults) (m : VideoCacheManager) :
    Option (VideoCacheManager × String) :=
  m.clearMemoryCache.clearDiskCache sys faults

/-- The cache of a new installation: no entry and no file. -/
def empty : VideoCacheManager := ⟨∅, ⟨∅⟩⟩

end VideoCacheManager

end TiktokClone
