import TiktokClone.Library.Keyed
import TiktokClone.Foundation.Basic

/-!
# Posts

The post with its two initializers, the dictionary that its synthesized encoder
makes under the raw values of the coding keys, and the hand-written decoder. Their
composition is computed for every post: only the two optional fields can change.
-/

namespace TiktokClone

open Library

/-- A value in a dictionary; the posts hold strings and integers only. -/
inductive AnyValue
  | string (s : String)
  | int (n : Int)
  deriving DecidableEq, Repr

/-- `[String: Any]` -/
abbrev Dictionary := AList fun _ : String => AnyValue

namespace Dictionary

/-- `dictionary[key] as? String ?? ""` -/
def string (dictionary : Dictionary) (key : String) : String :=
  match dictionary.lookup key with
  | some (.string s) => s
  | _ => ""

/-- `dictionary[key] as? Int ?? 0` -/
def int (dictionary : Dictionary) (key : String) : Int :=
  match dictionary.lookup key with
  | some (.int n) => n
  | _ => 0

theorem string_of_lookup {dictionary : Dictionary} {key s : String}
    (h : dictionary.lookup key = some (.string s)) : dictionary.string key = s := by
  rw [string, h]

theorem int_of_lookup {dictionary : Dictionary} {key : String} {n : Int}
    (h : dictionary.lookup key = some (.int n)) : dictionary.int key = n := by
  rw [int, h]

/-- An optional string field that is absent reads as the empty string. -/
theorem string_of_lookup_map {dictionary : Dictionary} {key : String} {s : Option String}
    (h : dictionary.lookup key = s.map .string) : dictionary.string key = s.getD "" := by
  rw [string, h]
  cases s <;> rfl

end Dictionary

structure Post where
  id : String
  video : String
  videoURL : Option URL
  videoFileExtension : Option String
  videoHeight : Int
  videoWidth : Int
  autherID : String
  autherName : String
  caption : String
  music : String
  likeCount : Int
  shareCount : Int
  commentID : String
  deriving DecidableEq, Repr

namespace Post

inductive CodingKeys
  | id
  | video
  | videoURL
  | videoFileExtension
  | videoHeight
  | videoWidth
  | autherID
  | autherName
  | caption
  | music
  | likeCount
  | shareCount
  | commentID
  deriving DecidableEq, Repr

namespace CodingKeys

/-- The raw value of a key is its name, with one exception. -/
def rawValue : CodingKeys → String
  | id => "id"
  | video => "video"
  | videoURL => "videoURL"
  | videoFileExtension => "videoFileExtension"
  | videoHeight => "videoHeight"
  | videoWidth => "videoWidth"
  | autherID => "author"
  | autherName => "autherName"
  | caption => "caption"
  | music => "music"
  | likeCount => "likeCount"
  | shareCount => "shareCount"
  | commentID => "commentID"

/-- The keys in the order of their declaration. -/
def allCases : List CodingKeys :=
  [id, video, videoURL, videoFileExtension, videoHeight, videoWidth, autherID, autherName,
    caption, music, likeCount, shareCount, commentID]

theorem mem_allCases (key : CodingKeys) : key ∈ allCases := by
  cases key <;> decide

theorem rawValue_injective : Function.Injective rawValue := by
  intro key key' h
  cases key <;> cases key' <;> first | rfl | exact absurd h (by decide)

end CodingKeys

/-- `init(id:video:videoURL:...)` -/
def ofFields (f : Foundation) (id video : String) (videoURL : Option URL)
    (videoFileExtension : Option String) (videoHeight videoWidth : Int)
    (autherID autherName caption music : String) (likeCount shareCount : Int)
    (commentID : String) : Post where
  id := id
  video := video
  videoURL := some (videoURL.getD (f.fileURL ""))
  videoFileExtension := some (videoFileExtension.getD "mp4")
  videoHeight := videoHeight
  videoWidth := videoWidth
  autherID := autherID
  autherName := autherName
  caption := caption
  music := music
  likeCount := likeCount
  shareCount := shareCount
  commentID := commentID

/-- `init(dictionary:)` -/
def ofDictionary (f : Foundation) (dictionary : Dictionary) : Post where
  id := dictionary.string "id"
  video := dictionary.string "video"
  videoURL := f.url (dictionary.string "videoURL")
  videoFileExtension := some (dictionary.string "videoFileExtension")
  videoHeight := dictionary.int "videoHeight"
  videoWidth := dictionary.int "videoWidth"
  autherID := dictionary.string "author"
  autherName := dictionary.string "autherName"
  caption := dictionary.string "caption"
  music := dictionary.string "music"
  likeCount := dictionary.int "likeCount"
  shareCount := dictionary.int "shareCount"
  commentID := dictionary.string "commentID"

/-- A post made by one of the initializers. -/
inductive Built (f : Foundation) : Post → Prop
  | ofFields (id video : String) (videoURL : Option URL) (videoFileExtension : Option String)
      (videoHeight videoWidth : Int) (autherID autherName caption music : String)
      (likeCount shareCount : Int) (commentID : String) :
      Built f (.ofFields f id video videoURL videoFileExtension videoHeight videoWidth autherID
        autherName caption music likeCount shareCount commentID)
  | ofDictionary (dictionary : Dictionary) : Built f (.ofDictionary f dictionary)

/-- What the synthesized `encode(to:)` writes for a key; an absent optional writes nothing. -/
def encoded (p : Post) : CodingKeys → Option AnyValue
  | .id => some (.string p.id)
  | .video => some (.string p.video)
  | .videoURL => (p.videoURL.map URL.absoluteString).map .string
  | .videoFileExtension => p.videoFileExtension.map .string
  | .videoHeight => some (.int p.videoHeight)
  | .videoWidth => some (.int p.videoWidth)
  | .autherID => some (.string p.autherID)
  | .autherName => some (.string p.autherName)
  | .caption => some (.string p.caption)
  | .music => some (.string p.music)
  | .likeCount => some (.int p.likeCount)
  | .shareCount => some (.int p.shareCount)
  | .commentID => some (.string p.commentID)

/-- The encoded post, parsed again as a JSON object. -/
def dictionary (p : Post) : Dictionary :=
  encodeKeyed CodingKeys.rawValue p.encoded CodingKeys.allCases

theorem lookup_dictionary (p : Post) (key : CodingKeys) :
    p.dictionary.lookup key.rawValue = p.encoded key :=
  lookup_encodeKeyed CodingKeys.rawValue_injective key.mem_allCases

/-- A post made by an initializer has a file extension. -/
theorem Built.videoFileExtension {f : Foundation} {p : Post} (h : p.Built f) :
    ∃ e, p.videoFileExtension = some e := by
  cases h with
  | ofFields => exact ⟨_, rfl⟩
  | ofDictionary => exact ⟨_, rfl⟩

/-- The decoder reads back what the encoder wrote under the other keys than `id`; an
absent URL is parsed from the empty string and an absent extension becomes empty. -/
theorem ofDictionary_eq {f : Foundation} {d : Dictionary} {p : Post}
    (h : ∀ key, key ≠ .id → d.lookup key.rawValue = p.encoded key) :
    ofDictionary f d = { p with
      id := d.string "id"
      videoURL := f.url ((p.videoURL.map URL.absoluteString).getD "")
      videoFileExtension := some (p.videoFileExtension.getD "") } := by
  have hvideo : d.string "video" = _ := Dictionary.string_of_lookup (h .video nofun)
  have hurl : d.string "videoURL" = _ := Dictionary.string_of_lookup_map (h .videoURL nofun)
  have hextension : d.string "videoFileExtension" = _ :=
    Dictionary.string_of_lookup_map (h .videoFileExtension nofun)
  have hheight : d.int "videoHeight" = _ := Dictionary.int_of_lookup (h .videoHeight nofun)
  have hwidth : d.int "videoWidth" = _ := Dictionary.int_of_lookup (h .videoWidth nofun)
  have hauthor : d.string "author" = _ := Dictionary.string_of_lookup (h .autherID nofun)
  have hname : d.string "autherName" = _ := Dictionary.string_of_lookup (h .autherName nofun)
  have hcaption : d.string "caption" = _ := Dictionary.string_of_lookup (h .caption nofun)
  have hmusic : d.string "music" = _ := Dictionary.string_of_lookup (h .music nofun)
  have hlikes : d.int "likeCount" = _ := Dictionary.int_of_lookup (h .likeCount nofun)
  have hshares : d.int "shareCount" = _ := Dictionary.int_of_lookup (h .shareCount nofun)
  have hcomment : d.string "commentID" = _ := Dictionary.string_of_lookup (h .commentID nofun)
  rw [ofDictionary, hvideo, hurl, hextension, hheight, hwidth, hauthor, hname, hcaption, hmusic,
    hlikes, hshares, hcomment]

/-- Decoding an encoded post. -/
theorem ofDictionary_dictionary (f : Foundation) (p : Post) :
    ofDictionary f p.dictionary = { p with
      videoURL := f.url ((p.videoURL.map URL.absoluteString).getD "")
      videoFileExtension := some (p.videoFileExtension.getD "") } := by
  have hid : p.dictionary.string "id" = p.id :=
    Dictionary.string_of_lookup (p.lookup_dictionary .id)
  rw [ofDictionary_eq fun key _ => p.lookup_dictionary key, hid]

end Post

end TiktokClone
