import TiktokClone.Library.Machine
import TiktokClone.Library.Family
import TiktokClone.Library.History
import TiktokClone.Library.Slice
import TiktokClone.Library.FixedWidth
import TiktokClone.Library.Significand
import TiktokClone.Library.Keyed
import TiktokClone.Library.Writes
import TiktokClone.Library.TwoLevel
import TiktokClone.Library.SerialQueue
import TiktokClone.Library.PublishSubject
import TiktokClone.Library.Filter
import TiktokClone.Library.Occurrences
import TiktokClone.Library.Decimal
import TiktokClone.Foundation.Basic
import TiktokClone.Foundation.RedirectURL
import TiktokClone.Foundation.FileManager
import TiktokClone.Foundation.Number
import TiktokClone.Cache.VideoCacheManager
import TiktokClone.Cache.DiskPath
import TiktokClone.Cache.Clearing
import TiktokClone.Cache.ClearingSizes
import TiktokClone.Cache.ReportedSizes
import TiktokClone.Cache.FailedClearing
import TiktokClone.Cache.Contents
import TiktokClone.Cache.Transparency
import TiktokClone.Cache.CacheQueue
import TiktokClone.Cache.Interleaving
import TiktokClone.Cache.Provenance
import TiktokClone.Cache.Emptying
import TiktokClone.Cache.Survival
import TiktokClone.Cache.Draining
import TiktokClone.Cache.Refinement
import TiktokClone.Cache.CallOrder
import TiktokClone.Player.LoadingRequest
import TiktokClone.Player.VideoPlayerView
import TiktokClone.Player.Response
import TiktokClone.Player.Loader
import TiktokClone.Player.Tracking
import TiktokClone.Player.Completion
import TiktokClone.Player.Conservation
import TiktokClone.Player.Failure
import TiktokClone.Player.Reuse
import TiktokClone.Player.CacheIntegrity
import TiktokClone.Player.Lifetime
import TiktokClone.Player.SharedCache
import TiktokClone.Post.Post
import TiktokClone.Post.Publishing
import TiktokClone.Post.Posting
import TiktokClone.Post.PublishingProtocol
import TiktokClone.Post.Firebase
import TiktokClone.Media.MediaViewController
import TiktokClone.Media.Recording
import TiktokClone.Media.Permissions
import TiktokClone.Media.Consent
import TiktokClone.Media.TemporaryFiles
import TiktokClone.Media.Captured
import TiktokClone.Profile.ProfileCollectionViewFlowLayout
import TiktokClone.Profile.Background
import TiktokClone.Profile.ClearedMessage
import TiktokClone.Home.CommentPopUpView
import TiktokClone.Home.HomeTableViewCell
import TiktokClone.Home.CellHistory
import TiktokClone.Home.OwnPost
import TiktokClone.Home.Gestures
import TiktokClone.Home.Display
import TiktokClone.Home.HomeViewController
import TiktokClone.Home.Feed
import TiktokClone.Home.FeedAtRest
import TiktokClone.Home.Fetching
import TiktokClone.Home.Paging
import TiktokClone.Home.Accumulation
import TiktokClone.Home.VisiblePosts
import TiktokClone.Home.OffScreen
import TiktokClone.Home.PublishedFeed
import TiktokClone.Home.CameraToFeed
