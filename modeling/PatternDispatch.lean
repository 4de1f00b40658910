-- Pattern matching and multi-way dispatch over runtime values.
import PatternDispatch.Pattern.Combine
import PatternDispatch.Pattern.Digesters
import PatternDispatch.Pattern.Direct
import PatternDispatch.Pattern.Projection
import PatternDispatch.Site.Checked
import PatternDispatch.Switch.Hashers
import PatternDispatch.Proofs.Sequence
import PatternDispatch.Proofs.Hierarchy
import PatternDispatch.Proofs.Subclassing
import PatternDispatch.Proofs.Naming
import PatternDispatch.Proofs.Definitions
import PatternDispatch.Proofs.Membership
import PatternDispatch.Proofs.Building
import PatternDispatch.Proofs.Running
import PatternDispatch.Proofs.Counting
import PatternDispatch.Proofs.Carrier.Coding
import PatternDispatch.Proofs.Carrier.Positions
import PatternDispatch.Proofs.Carrier.Canonical
import PatternDispatch.Proofs.Carrier.Typed
import PatternDispatch.Proofs.Carrier.Requests
import PatternDispatch.Proofs.Reachable
import PatternDispatch.Proofs.Carrier.RoundTrip
import PatternDispatch.Proofs.Carrier.Naming
import PatternDispatch.Proofs.Carrier.Ceiling
import PatternDispatch.Proofs.Carrier.Rows
import PatternDispatch.Proofs.Carrier.Kept
import PatternDispatch.Proofs.Carrier.Layout
import PatternDispatch.Proofs.Carrier.Parts
import PatternDispatch.Proofs.Pattern.Bundle
import PatternDispatch.Proofs.Pattern.Pairing
import PatternDispatch.Proofs.Pattern.Builders
import PatternDispatch.Proofs.Pattern.Nested
import PatternDispatch.Proofs.Pattern.Exposed
import PatternDispatch.Proofs.Pattern.Soundness
import PatternDispatch.Proofs.Pattern.Refusals
import PatternDispatch.Proofs.Pattern.Closure
import PatternDispatch.Proofs.Pattern.Adapting
import PatternDispatch.Proofs.Pattern.Records
import PatternDispatch.Proofs.Pattern.Consumers
import PatternDispatch.Proofs.Pattern.Digesters
import PatternDispatch.Proofs.Pattern.Projections
import PatternDispatch.Proofs.Pattern.TypeTests
import PatternDispatch.Proofs.Pattern.Dropping
import PatternDispatch.Proofs.Pattern.Extraction
import PatternDispatch.Proofs.Pattern.Evaluation
import PatternDispatch.Proofs.Switch.Index
import PatternDispatch.Proofs.Switch.Search
import PatternDispatch.Proofs.Switch.Names
import PatternDispatch.Proofs.Switch.Restart
import PatternDispatch.Proofs.Switch.Types
import PatternDispatch.Proofs.Switch.Numeric
import PatternDispatch.Proofs.Switch.Strings
import PatternDispatch.Proofs.Switch.Constants
import PatternDispatch.Proofs.Switch.Rounds
import PatternDispatch.Proofs.Site.Linking
import PatternDispatch.Proofs.Site.Relinking
import PatternDispatch.Proofs.Site.Contract
import PatternDispatch.Proofs.Inhabitants
import PatternDispatch.Proofs.Equality
import PatternDispatch.Proofs.Text.Hash
import PatternDispatch.Proofs.Settings
