import Messenger.Auth.ReuseDetection
import Messenger.Auth.Deadlock
import Messenger.Database.Startup
import Messenger.Services.Logout
import Messenger.Services.Failures
import Messenger.Session.History
import Messenger.Session.Reactivation
import Messenger.Realtime.Counter
import Messenger.Realtime.Joins
import Messenger.Realtime.Manager
import Messenger.Realtime.Endpoint
import Messenger.Realtime.Departures
import Messenger.Realtime.Ordering
import Messenger.Realtime.Presence
import Messenger.Redis.Stream
import Messenger.Social.Agreement
import Messenger.Social.Requests
import Messenger.Social.Confidentiality
import Messenger.Social.Consent
import Messenger.Services.Deletion
import Messenger.Services.PhantomBroadcasts
import Messenger.Services.SerialCalls
import Messenger.Services.Pages
import Messenger.Services.Retries
import Messenger.Social.Entitlement
import Messenger.Social.Administration
import Messenger.Services.Conversation
import Messenger.Services.LoginResult
import Messenger.Social.MissingEntities
import Messenger.Session.Credentials
import Messenger.Realtime.Inverse
import Messenger.Redis.Listening
import Messenger.Session.Eviction
import Messenger.Realtime.Dispatch
import Messenger.Social.Memberships
import Messenger.Redis.PubSub
import Messenger.App.Lifespan
import Messenger.Database.RoundTrip
import Messenger.Api.Privacy
import Messenger.Api.Persistence
import Messenger.Api.Readings
import Messenger.Social.Notices
import Messenger.Api.Announcements
