import DclServer.Cache.Host
import DclServer.Catalogue.Bundled
import DclServer.Catalogue.Document
import DclServer.Catalogue.Layout
import DclServer.Json.Reader
import DclServer.Launch
import DclServer.Main
import DclServer.Server.Wire
import DclServer.Proofs.Cache.Stage
import DclServer.Proofs.Cache.Action
import DclServer.Proofs.Cache.Turns
import DclServer.Proofs.Cache.Invariant
import DclServer.Proofs.Cache.Run
import DclServer.Proofs.Cache.Freshness
import DclServer.Proofs.Cache.Sharing
import DclServer.Proofs.Cache.Representation
import DclServer.Proofs.Cache.Cancellation
import DclServer.Proofs.Cache.Queue
import DclServer.Proofs.Cache.History
import DclServer.Proofs.Cache.Outcome
import DclServer.Proofs.Cache.Projection
import DclServer.Proofs.Cache.Independence
import DclServer.Proofs.Completion.Denotation
import DclServer.Proofs.Catalogue
import DclServer.Proofs.Completion.RoundTrip
import DclServer.Proofs.Cache.Pushed
import DclServer.Proofs.Server.Configuration
import DclServer.Proofs.Completion.Skipping
import DclServer.Proofs.Completion.Chain
import DclServer.Proofs.Catalogue.Reading
import DclServer.Proofs.Catalogue.Acceptance
import DclServer.Proofs.Catalogue.Offence
import DclServer.Proofs.Server.Handled
import DclServer.Proofs.Server.Registering
import DclServer.Proofs.Server.Registration
import DclServer.Proofs.Server.Closing
import DclServer.Proofs.Server.Completion
import DclServer.Proofs.Catalogue.Construction
import DclServer.Proofs.Completion.Aggregation
import DclServer.Proofs.Completion.Spelling
import DclServer.Proofs.Yaml.Scalar
import DclServer.Proofs.Yaml.Lines
import DclServer.Proofs.Yaml.Building
import DclServer.Proofs.Catalogue.Rendering
import DclServer.Proofs.Negotiation
