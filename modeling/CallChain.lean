import CallChain.Text.Blank
import CallChain.Text.Columns
import CallChain.Text.Digits
import CallChain.Text.LowerCase
import CallChain.Text.Pieces
import CallChain.Json.Reader
import CallChain.Json.Writer
import CallChain.Json.Fields
import CallChain.JavaType.Text
import CallChain.JavaType.Json
import CallChain.LookupError
import CallChain.Member.Json
import CallChain.Chain.Json
import CallChain.Limits.Json
import CallChain.Settings.Json
import CallChain.TypeTable.Assignable
import CallChain.TypeTable.Members
import CallChain.TypeTable.Json
import CallChain.TypeTable.Changes
import CallChain.Search.Hazards
import CallChain.Completion.Json
import CallChain.Completion.Complete
import CallChain.Main
import CallChain.Search.Levels
import CallChain.Search.Moments
import CallChain.Search.Sharing
import CallChain.Proofs.Search.Course
import CallChain.Proofs.Search.Enumeration
import CallChain.Proofs.Search.Validity
import CallChain.Proofs.Search.Truncation
import CallChain.Proofs.Snippet.Body
import CallChain.Proofs.Snippet.Typing
import CallChain.Proofs.Search.Completeness
import CallChain.Proofs.Search.Failures
import CallChain.Proofs.Search.Recall
import CallChain.Proofs.Search.Termination
import CallChain.Proofs.Completion.Starts
import CallChain.Proofs.Search.Acceptance
import CallChain.Proofs.Completion.Ranking
import CallChain.Proofs.Completion.Proposals
import CallChain.Proofs.Completion.Settings
import CallChain.Proofs.Completion.Titles
import CallChain.Proofs.TypeTable.Supertypes
import CallChain.Proofs.TypeTable.Preorder
import CallChain.Proofs.TypeTable.Covariance
import CallChain.Proofs.TypeTable.VisibleMembers
import CallChain.Proofs.Text.Marks
import CallChain.Proofs.JavaType.Signature
import CallChain.Proofs.Member.Key
import CallChain.Proofs.JavaType.Identifier
import CallChain.Proofs.Member.Slot
import CallChain.Proofs.Snippet.Placeholders
import CallChain.Proofs.Json.Fields
import CallChain.Proofs.Json.Formats
import CallChain.Proofs.Json.Spelling
import CallChain.Proofs.Json.Reading
import CallChain.Proofs.Json.RoundTrip
import CallChain.Proofs.Snippet.Printed
import CallChain.Proofs.TypeTable.Hiding
import CallChain.Proofs.Completion.Shadowing
import CallChain.Proofs.Completion.Ignored
import CallChain.Proofs.TypeTable.PrivateAccess
import CallChain.Proofs.TypeTable.Widening
import CallChain.Proofs.Search.Limit
import CallChain.Proofs.Search.Sharing
import CallChain.Proofs.JavaType.Dimensions
import CallChain.Proofs.Search.Frontier
import CallChain.Proofs.TypeTable.Declarations
