import TiktokClone.Library.FixedWidth
import TiktokClone.Cache.VideoCacheManager

/-!
# Paths of the disk cache

A path is the directory, the 64 hexadecimal digits of the key's digest and the
extension, if one is given. The digits have a fixed width and are not a dot, so a
path determines the digest and the optional extension.
-/

namespace TiktokClone

open Library

theorem digitChar_injOn {m n : Nat} (hm : m < 16) (hn : n < 16)
    (h : Nat.digitChar m = Nat.digitChar n) : m = n := by
  have hall : ∀ i j : Fin 16, Nat.digitChar i = Nat.digitChar j → i = j := by decide
  exact congrArg Fin.val (hall ⟨m, hm⟩ ⟨n, hn⟩ h)

theorem length_format02x (byte : UInt8) : (format02x byte).length = 2 := rfl

/-- Two hexadecimal digits determine their byte. -/
theorem format02x_injective : Function.Injective format02x := by
  intro a b h
  have ha := a.toNat_lt
  have hb := b.toNat_lt
  rw [format02x, format02x, List.cons.injEq, List.cons.injEq] at h
  obtain ⟨hhigh, hlow, _⟩ := h
  have hdiv := digitChar_injOn (by omega) (by omega) hhigh
  have hmod := digitChar_injOn (by omega) (by omega) hlow
  refine UInt8.toNat_inj.mp ?_
  omega

theorem hexDigit_of_mem_format02x {byte : UInt8} {c : Char} (h : c ∈ format02x byte) :
    c ∈ "0123456789abcdef".toList := by
  have hall : ∀ i : Fin 16, Nat.digitChar i ∈ "0123456789abcdef".toList := by decide
  have hlt := byte.toNat_lt
  rw [format02x, List.mem_cons, List.mem_singleton] at h
  rcases h with rfl | rfl
  · exact hall ⟨byte.toNat / 16, by omega⟩
  · exact hall ⟨byte.toNat % 16, by omega⟩

namespace CacheSystem

variable (sys : CacheSystem)

theorem toList_sha2 (key : String) :
    (sys.sha2 key).toList = (sys.sha256 key.toUTF8).toList.flatMap format02x :=
  String.toList_ofList

/-- The digest has 64 digits, all of them hexadecimal. -/
theorem sha2_digits (key : String) : (sys.sha2 key).length = 64 ∧
    ∀ c ∈ (sys.sha2 key).toList, c ∈ "0123456789abcdef".toList := by
  constructor
  · rw [← String.length_toList, toList_sha2, length_flatMap_of_width length_format02x]
    simp
  · intro c hc
    rw [toList_sha2, List.mem_flatMap] at hc
    obtain ⟨byte, _, hbyte⟩ := hc
    exact hexDigit_of_mem_format02x hbyte

/-- The digits of the digest determine the digest. -/
theorem sha2_inj {key key' : String} (h : sys.sha2 key = sys.sha2 key') :
    sys.sha256 key.toUTF8 = sys.sha256 key'.toUTF8 := by
  have hlist := congrArg String.toList h
  rw [toList_sha2, toList_sha2] at hlist
  exact Vector.toList_inj.mp
    (flatMap_injective_of_width length_format02x Nat.two_pos format02x_injective hlist)

/-- What a path appends to the directory and its slash. -/
def pathSuffix (key : String) (fileExtension : Option String) : String :=
  match fileExtension with
  | some fileExtension => sys.sha2 key ++ "." ++ fileExtension
  | none => sys.sha2 key

theorem diskCachePathForKey_eq (key : String) (fileExtension : Option String) :
    sys.diskCachePathForKey key fileExtension =
      sys.diskDirectory ++ "/" ++ sys.pathSuffix key fileExtension := by
  cases fileExtension with
  | none => rfl
  | some fileExtension => simp [diskCachePathForKey, pathSuffix, String.append_assoc]

theorem toList_pathSuffix (key : String) (fileExtension : Option String) :
    (sys.pathSuffix key fileExtension).toList =
      (sys.sha2 key).toList ++ fileExtension.elim [] fun e => '.' :: e.toList := by
  cases fileExtension with
  | none => exact (List.append_nil _).symm
  | some fileExtension =>
    rw [pathSuffix, String.toList_append, String.toList_append, List.append_assoc]
    rfl

/-- No two pairs of a digest and an optional extension share a path. -/
theorem diskCachePathForKey_inj {key key' : String} {fileExtension fileExtension' : Option String}
    (h : sys.diskCachePathForKey key fileExtension =
      sys.diskCachePathForKey key' fileExtension') :
    sys.sha256 key.toUTF8 = sys.sha256 key'.toUTF8 ∧ fileExtension = fileExtension' := by
  rw [diskCachePathForKey_eq, diskCachePathForKey_eq, ← String.toList_inj] at h
  simp only [String.toList_append, List.append_assoc, List.append_cancel_left_eq,
    toList_pathSuffix] at h
  have hlen : (sys.sha2 key).toList.length = (sys.sha2 key').toList.length := by
    rw [String.length_toList, String.length_toList, (sys.sha2_digits key).1,
      (sys.sha2_digits key').1]
  obtain ⟨hdigits, hextension⟩ := List.append_inj h hlen
  refine ⟨sys.sha2_inj (String.toList_inj.mp hdigits), ?_⟩
  cases fileExtension with
  | none =>
    cases fileExtension' with
    | none => rfl
    | some _ => cases hextension
  | some _ =>
    cases fileExtension' with
    | none => cases hextension
    | some _ => exact congrArg some (String.toList_inj.mp (List.cons.inj hextension).2)

/-- A device that has met the keys `a` and `b`, with their SHA-256 digests. -/
def twoKeys : CacheSystem where
  diskDirectory := "/Documents/VideoCache"
  sha256 data :=
    if data.data.toList = [97] then
      #v[0xca, 0x97, 0x81, 0x12, 0xca, 0x1b, 0xbd, 0xca, 0xfa, 0xc2, 0x31,
        0xb3, 0x9a, 0x23, 0xdc, 0x4d, 0xa7, 0x86, 0xef, 0xf8, 0x14, 0x7c,
        0x4e, 0x72, 0xb9, 0x80, 0x77, 0x85, 0xaf, 0xee, 0x48, 0xbb]
    else if data.data.toList = [98] then
      #v[0x3e, 0x23, 0xe8, 0x16, 0x00, 0x39, 0x59, 0x4a, 0x33, 0x89, 0x4f,
        0x65, 0x64, 0xe1, 0xb1, 0x34, 0x8b, 0xbd, 0x7a, 0x00, 0x88, 0xd4,
        0x2c, 0x4a, 0xcb, 0x73, 0xee, 0xae, 0xd5, 0x9c, 0x00, 0x9d]
    else .replicate 32 0
  numberFormatter _ _ _ := none

example : twoKeys.diskCachePathForKey "a" (some "mp4") = "/Documents/VideoCache/" ++
    "ca978112ca1bbdcafac231b39a23dc4da786eff8147c4e72b9807785afee48bb.mp4" := by decide

/-- The digest does not collide on these keys. -/
def CollisionFree (keys : Set String) : Prop := Set.InjOn (fun key => sys.sha256 key.toUTF8) keys

variable {sys}

/-- Without collisions a path belongs to one key and one optional extension. -/
theorem CollisionFree.path_inj {keys : Set String} (h : sys.CollisionFree keys)
    {key key' : String} (hkey : key ∈ keys) (hkey' : key' ∈ keys)
    {fileExtension fileExtension' : Option String} :
    sys.diskCachePathForKey key fileExtension = sys.diskCachePathForKey key' fileExtension' ↔
      (key, fileExtension) = (key', fileExtension') := by
  constructor
  · intro hpath
    obtain ⟨hdigest, rfl⟩ := sys.diskCachePathForKey_inj hpath
    rw [h hkey hkey' hdigest]
  · intro hpair
    cases hpair
    rfl

end CacheSystem

end TiktokClone
