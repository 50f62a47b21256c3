import TiktokClone.Library.Writes
import TiktokClone.Cache.Clearing

/-!
# The disk cache as a map

On keys whose digests do not collide the files of the cache directory are a map
from pairs of a key and an optional extension to data: a store updates it and a
clear empties it.
-/

namespace TiktokClone

open Library

/-- The disk cache holds exactly this map on the given keys. -/
def Holds (sys : CacheSystem) (keys : Set String) (m : VideoCacheManager)
    (contents : String × Option String → Option Data) : Prop :=
  ∀ key ∈ keys, ∀ fileExtension,
    m.dataFromDiskCache sys key fileExtension = contents (key, fileExtension)

variable {sys : CacheSystem} {keys : Set String} {m m' : VideoCacheManager}
  {contents : String × Option String → Option Data}

theorem holds_empty (sys : CacheSystem) (keys : Set String) :
    Holds sys keys .empty fun _ => none := fun _ _ _ => rfl

/-- Memory operations keep the map. -/
theorem Holds.congr (h : Holds sys keys m contents) (hd : m'.diskCache = m.diskCache) :
    Holds sys keys m' contents := by
  intro key hkey fileExtension
  rw [← h key hkey, VideoCacheManager.dataFromDiskCache, VideoCacheManager.dataFromDiskCache, hd]

/-- A store updates the map at its pair and nowhere else. -/
theorem Holds.storeDataToCache (h : Holds sys keys m contents) (hfree : sys.CollisionFree keys)
    {key : String} (hkey : key ∈ keys) (data : Data) (fileExtension : Option String) :
    Holds sys keys (m.storeDataToCache sys (some data) key fileExtension)
      (Function.update contents (key, fileExtension) (some data)) := by
  intro key' hkey' fileExtension'
  have hstored : (m.storeDataToCache sys (some data) key fileExtension).dataFromDiskCache sys key'
      fileExtension' = AList.lookup (sys.diskCachePathForKey key' fileExtension')
        (m.diskCache.files.insert (sys.diskCachePathForKey key fileExtension) data) := rfl
  rw [hstored]
  by_cases hpair : (key', fileExtension') = (key, fileExtension)
  · cases hpair
    rw [AList.lookup_insert, Function.update_self]
  · rw [AList.lookup_insert_ne (mt (hfree.path_inj hkey' hkey).mp hpair),
      Function.update_of_ne hpair]
    exact h key' hkey' fileExtension'

/-- A clear that completes leaves no file of the cache and no entry in memory. -/
theorem VideoCacheManager.clearCache_spec {size : String}
    (h : m.clearCache sys .none = some (m', size)) :
    m'.memoryCache = ∅ ∧ Holds sys keys m' fun _ => none := by
  obtain ⟨hmemory, hdisk⟩ := clearDiskCache_spec h
  refine ⟨hmemory, fun key _ fileExtension => ?_⟩
  rw [dataFromDiskCache, sys.diskCachePathForKey_eq_itemPath]
  exact hdisk _

end TiktokClone
