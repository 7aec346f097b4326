import StreamBrew.Alert.Proofs.Presentation
import StreamBrew.Alert.Proofs.Speech
import StreamBrew.Alert.Proofs.Retention
import StreamBrew.Alert.Proofs.Backlog
import StreamBrew.Alert.Proofs.Fencing
import StreamBrew.Alert.Proofs.Stream
import StreamBrew.Donations.Proofs.Generations
import StreamBrew.Donations.Proofs.Connections
import StreamBrew.Donations.Proofs.Batch
import StreamBrew.Donations.Proofs.Ingestion
import StreamBrew.Donations.Proofs.LiveListeners
import StreamBrew.Donations.Proofs.Supervisor
import StreamBrew.DonationAlerts.Proofs.Limiter
import StreamBrew.DonationAlerts.Proofs.Stream
import StreamBrew.Videos.Proofs.Metadata
import StreamBrew.Videos.Proofs.PoisonFree
import StreamBrew.Videos.Proofs.Ownership
import StreamBrew.Chat.Proofs.Rejections
import StreamBrew.Chat.Proofs.Lease
import StreamBrew.Chat.Proofs.Supervision
import StreamBrew.Chat.Proofs.Broker
import StreamBrew.Chat.Proofs.Oauth
import StreamBrew.Chat.Proofs.Bans
import StreamBrew.Chat.Proofs.Boosty
import StreamBrew.Chat.Proofs.Messages
import StreamBrew.StreamElements.Proofs.Sessions
import StreamBrew.Restream.Proofs.Lockout
import StreamBrew.Restream.Proofs.Plane
import StreamBrew.Restream.Proofs.Target
import StreamBrew.Videos.Proofs.Money
import StreamBrew.Videos.Proofs.Timestamp
import StreamBrew.Videos.Proofs.Schemas
import StreamBrew.Videos.Proofs.Shared
import StreamBrew.Alert.Proofs.Checks
import StreamBrew.Alert.Proofs.Spoken
import StreamBrew.Alert.Proofs.Finishing
import StreamBrew.Alert.Proofs.Replays
import StreamBrew.Alert.Proofs.Diagnostics
import StreamBrew.Donations.Proofs.Rejected
import StreamBrew.Streamlabs.Proofs.System
import StreamBrew.Videos.Proofs.Links
import StreamBrew.Alert.Proofs.Ndjson
import StreamBrew.Videos.Proofs.VideoTiming
import StreamBrew.Alert.Proofs.Upload
import StreamBrew.Chat.Proofs.StreamReducer
import StreamBrew.Chat.Proofs.DeadLetters
import StreamBrew.Chat.Proofs.Delivery
import StreamBrew.Chat.Proofs.Slots
import StreamBrew.Observability.Proofs.Logging
import StreamBrew.Videos.Proofs.Listing
import StreamBrew.Chat.Proofs.Youtube
import StreamBrew.DonationAlerts.Proofs.Client
import StreamBrew.Streamlabs.Proofs.Adapter
import StreamBrew.Alert.Proofs.OverlayRuns
import StreamBrew.Alert.Proofs.Screens
