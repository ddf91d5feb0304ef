import BoundedPrintf.Main
import BoundedPrintf.Session
import BoundedPrintf.Log.Validation
import BoundedPrintf.Proofs.Sink.Producer
import BoundedPrintf.Proofs.Rendering.Step
import BoundedPrintf.Proofs.Rendering.Contract
import BoundedPrintf.Proofs.Field.Overflowing
import BoundedPrintf.Proofs.Rendering.Crashing
import BoundedPrintf.Proofs.Rendering.HeadStart
import BoundedPrintf.Proofs.Rendering.Truncation
import BoundedPrintf.Proofs.Template.Pieces
import BoundedPrintf.Proofs.Rendering.Arguments
import BoundedPrintf.Proofs.Rendering.Concatenation
import BoundedPrintf.Proofs.Directive.Grammar
import BoundedPrintf.Proofs.Template.Cuts
import BoundedPrintf.Proofs.Rendering.Visits
import BoundedPrintf.Proofs.Rendering.Counts
import BoundedPrintf.Proofs.Rendering.Requests
import BoundedPrintf.Proofs.Rendering.Modes
import BoundedPrintf.Proofs.Rendering.Escaping
import BoundedPrintf.Proofs.Template.Scanning
import BoundedPrintf.Proofs.Argument.Narrowing
import BoundedPrintf.Proofs.Rendering.Single
import BoundedPrintf.Proofs.Rendering.Stars
import BoundedPrintf.Proofs.Field.Integer
import BoundedPrintf.Proofs.Rendering.Integers
import BoundedPrintf.Proofs.Rendering.Answers
import BoundedPrintf.Proofs.Rendering.Relocating
import BoundedPrintf.Proofs.Text.Utf8
import BoundedPrintf.Proofs.Labelled.Lookup
import BoundedPrintf.Proofs.Conformance.Guarding
import BoundedPrintf.Proofs.Conformance.Pinning
import BoundedPrintf.Proofs.Json.Text
import BoundedPrintf.Proofs.Json.Number
import BoundedPrintf.Proofs.Json.RoundTrip
import BoundedPrintf.Proofs.Json.SingleLine
import BoundedPrintf.Proofs.Json.Whole
import BoundedPrintf.Proofs.Log.Reading
import BoundedPrintf.Proofs.Log.Emitting
import BoundedPrintf.Proofs.CommandLine.Logging
import BoundedPrintf.Proofs.CommandLine.Plan
import BoundedPrintf.Proofs.CommandLine.Jobs
import BoundedPrintf.Proofs.CommandLine.Verifying
import BoundedPrintf.Proofs.Fixture.Storing
import BoundedPrintf.Proofs.Conformance.Capturing
import BoundedPrintf.Proofs.Session.Resolving
import BoundedPrintf.Proofs.Binary64.Rounding
import BoundedPrintf.Proofs.FloatText.Parts
import BoundedPrintf.Proofs.Field.Width
import BoundedPrintf.Proofs.Numeral.Spelling
import BoundedPrintf.Proofs.Field.Spelling
import BoundedPrintf.Proofs.Binary64.Powers
import BoundedPrintf.Proofs.Binary64.Magnitude
import BoundedPrintf.Proofs.Binary64.Normalizing
import BoundedPrintf.Proofs.FloatText.Digits
import BoundedPrintf.Proofs.FloatText.Form
import BoundedPrintf.Proofs.Field.Casing
import BoundedPrintf.Proofs.FloatText.Mantissa
import BoundedPrintf.Proofs.Rendering.Casing
import BoundedPrintf.Proofs.Binary64.Value
import BoundedPrintf.Proofs.Binary64.Exact
import BoundedPrintf.Proofs.FloatText.Whole
import BoundedPrintf.Proofs.Binary64.Error
import BoundedPrintf.Proofs.FloatText.General
import BoundedPrintf.Proofs.FloatText.Large
import BoundedPrintf.Proofs.Rendering.LargeNumbers
import BoundedPrintf.Proofs.Binary64.Places
import BoundedPrintf.Proofs.FloatText.Fixed
import BoundedPrintf.Proofs.Calendar.Days
import BoundedPrintf.Proofs.Calendar.Stamps
import BoundedPrintf.Proofs.Log.TraceIds
import BoundedPrintf.Proofs.Log.Accepting
import BoundedPrintf.Proofs.Log.RoundTrip
import BoundedPrintf.Proofs.Fixture.Targets
import BoundedPrintf.Proofs.Rendering.Recipients
import BoundedPrintf.Proofs.Conformance.Counting
import BoundedPrintf.Proofs.Failure.First
import BoundedPrintf.Proofs.Text.Integer
import BoundedPrintf.Proofs.Fixture.ShortForms
import BoundedPrintf.Proofs.CommandLine.Rendering
import BoundedPrintf.Proofs.Conformance.Tabling
import BoundedPrintf.Proofs.FileTree.Listing
import BoundedPrintf.Proofs.FileTree.Writing
import BoundedPrintf.Proofs.Fixture.Loading
import BoundedPrintf.Proofs.Binary64.Search
import BoundedPrintf.Proofs.Directive.Turns
import BoundedPrintf.Proofs.Numeral.Overlaying
import BoundedPrintf.Proofs.FloatText.Reusing
