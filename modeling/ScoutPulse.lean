import ScoutPulse.Lib.Binary64
import ScoutPulse.Lib.Cookies
import ScoutPulse.Lib.Dates
import ScoutPulse.Lib.Decomposition
import ScoutPulse.Lib.Draws
import ScoutPulse.Lib.FloatText
import ScoutPulse.Lib.History
import ScoutPulse.Lib.Itinerary
import ScoutPulse.Lib.JavaScript
import ScoutPulse.Lib.Json
import ScoutPulse.Lib.Layers
import ScoutPulse.Lib.Ledger
import ScoutPulse.Lib.Loop
import ScoutPulse.Lib.Machine
import ScoutPulse.Lib.Matching
import ScoutPulse.Lib.Numbering
import ScoutPulse.Lib.OneTime
import ScoutPulse.Lib.OrderedSet
import ScoutPulse.Lib.Outcome
import ScoutPulse.Lib.Owned
import ScoutPulse.Lib.Pairs
import ScoutPulse.Lib.Parties
import ScoutPulse.Lib.Places
import ScoutPulse.Lib.Properties
import ScoutPulse.Lib.Ranges
import ScoutPulse.Lib.ReadCommitted
import ScoutPulse.Lib.Records
import ScoutPulse.Lib.Rows
import ScoutPulse.Lib.Strings
import ScoutPulse.Lib.Timeline
import ScoutPulse.Lib.Upsert
import ScoutPulse.Lib.Url
import ScoutPulse.Lib.Utf8
import ScoutPulse.Lib.Uuid
import ScoutPulse.Lib.Words
import ScoutPulse.Platform.AppErr
import ScoutPulse.Platform.Auth
import ScoutPulse.Platform.KeySet
import ScoutPulse.Platform.PublishedKeys
import ScoutPulse.Platform.RateLimit
import ScoutPulse.Platform.Waiting
import ScoutPulse.Identity.AccountSteps
import ScoutPulse.Identity.Accounts
import ScoutPulse.Identity.Attachment
import ScoutPulse.Identity.FlowRules
import ScoutPulse.Identity.Guesses
import ScoutPulse.Identity.Linearity
import ScoutPulse.Identity.Naming
import ScoutPulse.Identity.PasswordChange
import ScoutPulse.Identity.ProviderFlow
import ScoutPulse.Identity.RefreshToken
import ScoutPulse.Identity.Reuse
import ScoutPulse.Identity.Rotation
import ScoutPulse.Identity.SessionSteps
import ScoutPulse.Identity.SessionTable
import ScoutPulse.Identity.Sessions
import ScoutPulse.Identity.Validate
import ScoutPulse.Identity.WayIn
import ScoutPulse.Tab.Autosave
import ScoutPulse.Tab.Draft
import ScoutPulse.Tab.Logout
import ScoutPulse.Tab.Model
import ScoutPulse.Tab.PlayerNames
import ScoutPulse.Tab.SingleFlight
import ScoutPulse.Football.Article.Address
import ScoutPulse.Football.Article.Body
import ScoutPulse.Football.Article.Complete
import ScoutPulse.Football.Article.Decisions
import ScoutPulse.Football.Article.Desk
import ScoutPulse.Football.Article.Excerpt
import ScoutPulse.Football.Article.FirstDate
import ScoutPulse.Football.Article.Outline
import ScoutPulse.Football.Article.Publication
import ScoutPulse.Football.Article.Reading
import ScoutPulse.Football.Article.Rendering
import ScoutPulse.Football.Article.Review
import ScoutPulse.Football.Article.Service
import ScoutPulse.Football.Article.Soundness
import ScoutPulse.Football.Article.Tags
import ScoutPulse.Football.Authorizer
import ScoutPulse.Football.Coaches.Appointment
import ScoutPulse.Football.Coaches.Jobs
import ScoutPulse.Football.Coaches.Recording
import ScoutPulse.Football.Coaches.Spells
import ScoutPulse.Football.Grants
import ScoutPulse.Football.Importer.Accents
import ScoutPulse.Football.Importer.Accepted
import ScoutPulse.Football.Importer.Assigned
import ScoutPulse.Football.Importer.Classify
import ScoutPulse.Football.Importer.ClubMatch
import ScoutPulse.Football.Importer.Clubs
import ScoutPulse.Football.Importer.Dataset
import ScoutPulse.Football.Importer.Derived
import ScoutPulse.Football.Importer.History
import ScoutPulse.Football.Importer.Injective
import ScoutPulse.Football.Importer.Loans
import ScoutPulse.Football.Importer.Merge
import ScoutPulse.Football.Importer.Money
import ScoutPulse.Football.Importer.Moves
import ScoutPulse.Football.Importer.Names
import ScoutPulse.Football.Importer.Players
import ScoutPulse.Football.Importer.Postgres
import ScoutPulse.Football.Importer.Seasons
import ScoutPulse.Football.Importer.Standing
import ScoutPulse.Football.Importer.Transfers
import ScoutPulse.Football.Importer.Upsert
import ScoutPulse.Football.Importer.Valuations
import ScoutPulse.Football.Members.BoardRules
import ScoutPulse.Football.Members.Boards
import ScoutPulse.Football.Members.NoteRules
import ScoutPulse.Football.Members.Notes
import ScoutPulse.Football.Paging
import ScoutPulse.Football.Player.Validate
import ScoutPulse.Football.Register.Model
import ScoutPulse.Football.Register.SavedBack
import ScoutPulse.Football.Revocation
import ScoutPulse.Football.Search
import ScoutPulse.Football.Squad.Concurrent
import ScoutPulse.Football.Squad.Current
import ScoutPulse.Football.Squad.Interference
import ScoutPulse.Football.Squad.Locks
import ScoutPulse.Football.Squad.Progress
import ScoutPulse.Football.Squad.Steps
import ScoutPulse.Football.Squad.Store
import ScoutPulse.Football.Squad.Transfer
import ScoutPulse.Football.Valuation.Current
import ScoutPulse.Football.Valuation.Values
import ScoutPulse.Tactics.Edited
import ScoutPulse.Tactics.Editing
import ScoutPulse.Tactics.Engine
import ScoutPulse.Tactics.Geometry
import ScoutPulse.Tactics.Kept
import ScoutPulse.Tactics.Loaded
import ScoutPulse.Tactics.Meeting
import ScoutPulse.Tactics.Model
import ScoutPulse.Tactics.Motion
import ScoutPulse.Tactics.Playable
import ScoutPulse.Tactics.Playback
import ScoutPulse.Tactics.References
import ScoutPulse.Tactics.Released
import ScoutPulse.Tactics.Reloaded
import ScoutPulse.Tactics.Selection
import ScoutPulse.Tactics.SoundEdits
import ScoutPulse.Tactics.Steps
import ScoutPulse.Tactics.Store
import ScoutPulse.Tactics.Timing
import ScoutPulse.Tactics.UndoRedo
import ScoutPulse.Tactics.Viewed
import ScoutPulse.Games.Draw
import ScoutPulse.Games.PairPool
import ScoutPulse.Games.Rounds
import ScoutPulse.Games.Store
