import ListingEditor.Text.Case
import ListingEditor.Text.Lines
import ListingEditor.Text.Quoted
import ListingEditor.Text.Slice
import ListingEditor.Text.Utf8
import ListingEditor.Text.Word
import ListingEditor.Pattern.Parser
import ListingEditor.Opcode
import ListingEditor.Listing.LineInfo
import ListingEditor.Listing.RuleChoice
import ListingEditor.Command
import ListingEditor.Highlight
import ListingEditor.Region
import ListingEditor.Preference.Config
import ListingEditor.Control
import ListingEditor.Indent.Request
import ListingEditor.Matcher
import ListingEditor.Proofs.Listing.Leading
import ListingEditor.Proofs.Highlight.Incremental
import ListingEditor.Proofs.Indent.Simulation
import ListingEditor.Proofs.Highlight.Lines
import ListingEditor.Proofs.Matcher.Certainty
import ListingEditor.Proofs.Region.Commenting
import ListingEditor.Proofs.Preference.Saving
import ListingEditor.Proofs.Preference.Reading
import ListingEditor.Proofs.Preference.Written
import ListingEditor.Proofs.Preference.Lookup
import ListingEditor.Proofs.Control.Chord
import ListingEditor.Proofs.Session.Activation
import ListingEditor.Proofs.Listing.Priority
import ListingEditor.Proofs.Buffer.Editing
import ListingEditor.Proofs.Session.Balance
import ListingEditor.Proofs.Session.Bindings
import ListingEditor.Proofs.Buffer.Uniform
import ListingEditor.Proofs.Indent.Lines
import ListingEditor.Proofs.Indent.Newline
import ListingEditor.Proofs.Region.LineByLine
import ListingEditor.Proofs.Region.Reindenting
import ListingEditor.Proofs.Listing.Operand
import ListingEditor.Proofs.Listing.CommentBody
import ListingEditor.Proofs.Listing.Indentation
import ListingEditor.Proofs.Buffer.Measure
import ListingEditor.Proofs.Indent.Exchange
import ListingEditor.Proofs.Indent.Line
import ListingEditor.Proofs.Highlight.Indentation
import ListingEditor.Proofs.Buffer.LineTexts
import ListingEditor.Proofs.Region.Selecting
import ListingEditor.Proofs.Region.Toggling
import ListingEditor.Proofs.Indent.Label
import ListingEditor.Proofs.Indent.LineBreak
import ListingEditor.Proofs.Ini.Names
import ListingEditor.Proofs.Session.Renewal
import ListingEditor.Proofs.Modeline
import ListingEditor.Proofs.Highlight.Tiling
import ListingEditor.Proofs.Listing.CommentSearch
import ListingEditor.Proofs.Indent.CommentLine
import ListingEditor.Proofs.Indent.Following
import ListingEditor.Proofs.Listing.Shapes
