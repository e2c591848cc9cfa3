import EvoAudio.Lib.Machine
import EvoAudio.Lib.Pool
import EvoAudio.Lib.Table
import EvoAudio.Lib.Text
import EvoAudio.Lib.Words
import EvoAudio.Lib.Escape
import EvoAudio.Lib.ByteStream
import EvoAudio.Lib.Procedure
import EvoAudio.Lib.Broadcast
import EvoAudio.Lib.UnixPath
import EvoAudio.Lib.Paging
import EvoAudio.Lib.Grouping
import EvoAudio.Lib.Regex
import EvoAudio.Lib.Lines
import EvoAudio.Lib.LineWords
import EvoAudio.Lib.Edits
import EvoAudio.Lib.LineEdits
import EvoAudio.Lib.FixedWidth
import EvoAudio.Lib.Calendar
import EvoAudio.Lib.Positions
import EvoAudio.Lib.Segments
import EvoAudio.Lib.Trimming
import EvoAudio.Lib.ByteSlices
import EvoAudio.Lib.Joins
import EvoAudio.Lib.BlockOrder
import EvoAudio.Lib.Binary64
import EvoAudio.Lib.Blocks
import EvoAudio.Lib.RunningBest
import EvoAudio.Lib.Json
import EvoAudio.Lib.Recency
import EvoAudio.Lib.Checked
import EvoAudio.Lib.Replace
import EvoAudio.Lib.Markup
import EvoAudio.Lib.MatchWeight
import EvoAudio.Mpd.Protocol
import EvoAudio.Mpd.Tokenizer
import EvoAudio.Mpd.Batch
import EvoAudio.Mpd.Framing
import EvoAudio.Mpd.Connection
import EvoAudio.Mpd.Reply
import EvoAudio.Mpd.Codecs
import EvoAudio.Mpd.Responses
import EvoAudio.Mpd.SongBlocks
import EvoAudio.Mpd.Listings
import EvoAudio.Mpd.Durations
import EvoAudio.Multiroom.Groups
import EvoAudio.Multiroom.Election
import EvoAudio.Multiroom.RoleStore
import EvoAudio.Multiroom.Receiver
import EvoAudio.Multiroom.SplitBrain
import EvoAudio.Multiroom.Engagement
import EvoAudio.Multiroom.Convergence
import EvoAudio.Multiroom.Shutdown
import EvoAudio.Multiroom.Connections
import EvoAudio.Multiroom.Reaper
import EvoAudio.Multiroom.Balance
import EvoAudio.Multiroom.Wire
import EvoAudio.Multiroom.SyncProbes
import EvoAudio.Multiroom.ClockSamples
import EvoAudio.Multiroom.JitterBuffer
import EvoAudio.Multiroom.DueInstants
import EvoAudio.Names.Artist
import EvoAudio.Names.Album
import EvoAudio.Names.DiscFolders
import EvoAudio.Names.Brackets
import EvoAudio.Names.Credits
import EvoAudio.Names.CreditKeys
import EvoAudio.Names.DisplayKeys
import EvoAudio.Names.TitleSlices
import EvoAudio.Names.TitleCores
import EvoAudio.Playback.Server
import EvoAudio.Playback.Session
import EvoAudio.Playback.Park
import EvoAudio.Playback.Selection
import EvoAudio.Playback.QueueVerbs
import EvoAudio.Playback.Registry
import EvoAudio.Playback.Sources
import EvoAudio.Playback.Mounts
import EvoAudio.Playback.Outages
import EvoAudio.Playback.Stickers
import EvoAudio.Playback.GoneCuration
import EvoAudio.Playback.PruneSafety
import EvoAudio.Playback.PruneCoverage
import EvoAudio.Playback.AlbumTiles
import EvoAudio.Playback.Facets
import EvoAudio.Playback.FacetPages
import EvoAudio.Playback.Drill
import EvoAudio.Playback.PlaylistVerbs
import EvoAudio.Playback.ShelfCalls
import EvoAudio.Playback.Browse
import EvoAudio.Playback.Mirrors
import EvoAudio.Playback.ScanProgress
import EvoAudio.Playback.Supervisor
import EvoAudio.Playback.Commands
import EvoAudio.Playback.Mute
import EvoAudio.Playback.Search
import EvoAudio.Playback.Works
import EvoAudio.Playback.Totals
import EvoAudio.Playback.ScanPolls
import EvoAudio.Playback.Timestamps
import EvoAudio.Playback.PlaylistEdits
import EvoAudio.Playback.PlaylistOverwrites
import EvoAudio.Playback.PlaylistRewrites
import EvoAudio.Playback.PlaylistLoads
import EvoAudio.Playback.SkipTraversal
import EvoAudio.Playback.ContainerDescent
import EvoAudio.Playback.ContainerTrees
import EvoAudio.Playback.ContainerOrder
import EvoAudio.Playback.EmptySelections
import EvoAudio.Playback.QueueRewrites
import EvoAudio.Playback.Replaces
import EvoAudio.Playback.SourceProbe
import EvoAudio.Playback.ProbeTotality
import EvoAudio.Playback.ProbeCompletion
import EvoAudio.Playback.ExtendedRates
import EvoAudio.Playback.HeaderLayouts
import EvoAudio.Playback.HeaderParsing
import EvoAudio.Playback.HeaderReports
import EvoAudio.Playback.VbrTags
import EvoAudio.Spectrum.Demand
import EvoAudio.Topology.Store
import EvoAudio.Topology.Forwarder
import EvoAudio.Topology.Formats
import EvoAudio.Topology.Scoring
import EvoAudio.Artwork.Providers
import EvoAudio.Artwork.Index
import EvoAudio.Artwork.Eviction
import EvoAudio.Artwork.Coalescer
import EvoAudio.Artwork.Cascade
import EvoAudio.Artwork.Forgetting
import EvoAudio.Artwork.Staying
import EvoAudio.Artwork.NegativeCache
import EvoAudio.Artwork.PutOrder
import EvoAudio.Artwork.MemoHonesty
import EvoAudio.Options.Settings
import EvoAudio.Options.Transition
import EvoAudio.Options.Setters
import EvoAudio.Options.Calls
import EvoAudio.Options.Copies
import EvoAudio.Options.Acknowledged
import EvoAudio.Options.Verbs
import EvoAudio.Options.Invariant
import EvoAudio.Options.LastKnownGood
import EvoAudio.Storage.Aliases
import EvoAudio.Storage.Classifier
import EvoAudio.Storage.ProcTables
import EvoAudio.Storage.TableReading
import EvoAudio.Storage.Roles
import EvoAudio.Storage.Unescaping
import EvoAudio.Storage.StableIds
import EvoAudio.Boot.Config
import EvoAudio.Boot.Matches
import EvoAudio.Boot.Kinds
import EvoAudio.Boot.Edits
import EvoAudio.Boot.Frame
import EvoAudio.Boot.Reapply
import EvoAudio.Dlna.Browse
import EvoAudio.Dlna.Envelope
import EvoAudio.Dlna.Pages
import EvoAudio.Dlna.Replies
import EvoAudio.Notifications.Dispatcher
import EvoAudio.Notifications.Standing
import EvoAudio.Network.WifiRoles
import EvoAudio.Lib.ConfigText
import EvoAudio.Lib.ConfigEntries
import EvoAudio.Delivery.MpdFragment
import EvoAudio.Delivery.OptionsRender
import EvoAudio.Delivery.Injection
import EvoAudio.Lib.Streaks
import EvoAudio.Network.Supervisor
import EvoAudio.Network.SupervisorEvents
import EvoAudio.Lib.Histories
import EvoAudio.Options.Handshake
import EvoAudio.Lib.Spacing
import EvoAudio.Online.RateLimiter
import EvoAudio.Lib.StableSort
import EvoAudio.Online.ArtistSelection
import EvoAudio.Spectrum.Capture
