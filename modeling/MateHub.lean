import MateHub.Video.Sfu.Dead
import MateHub.Video.Sfu.DeadLines
import MateHub.Video.Sfu.Rollover
import MateHub.Video.MessageQueue
import MateHub.Video.Glare
import MateHub.Chat.Lifetime
import MateHub.Chat.Replay
import MateHub.Chat.Coherence
import MateHub.Web.Rotation
import MateHub.Web.Unread
import MateHub.Web.DmRecord
import MateHub.Hub.Guests
import MateHub.Video.Roster
import MateHub.Video.Pool
import MateHub.Hub.Enrolment
import MateHub.Hub.Isolation
import MateHub.Hub.Rank
import MateHub.Hub.Roles
import MateHub.Hub.Presence
import MateHub.Video.Sfu.Atomic
import MateHub.Video.Sfu.Labelling
import MateHub.Video.Sfu.QueuedOffers
import MateHub.Chat.ReadState
import MateHub.Chat.Buffer
import MateHub.Video.Sfu.Epochs
import MateHub.Chat.Newest
import MateHub.Video.Stun
import MateHub.Chat.AclSweep
import MateHub.Video.Sfu.Keyframes
import MateHub.Video.Sfu.Starving
import MateHub.Chat.ObjectUrl
import MateHub.Storage.Chunking
import MateHub.Chat.Transcode
import MateHub.Video.Tiles
import MateHub.Chat.RateLimit
import MateHub.Web.Markdown
import MateHub.Chat.Heartbeat
import MateHub.Video.Sfu.Pumped
import MateHub.Web.VoiceSync
import MateHub.General.Sso
import MateHub.Video.Sfu.Apart
import MateHub.Chat.Cutoff
import MateHub.Chat.Snowflakes
import MateHub.Hub.Vouching
