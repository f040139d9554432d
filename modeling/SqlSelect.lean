import SqlSelect.Edit.Query
import SqlSelect.Event
import SqlSelect.Novelty
import SqlSelect.Proofs.Condition.Bracketing
import SqlSelect.Proofs.Condition.Filter
import SqlSelect.Proofs.Edit.Changes
import SqlSelect.Proofs.Edit.Conditions
import SqlSelect.Proofs.Edit.Qualifiers
import SqlSelect.Proofs.Edit.Slots
import SqlSelect.Proofs.Equality.Trees
import SqlSelect.Proofs.Joins.Reported
import SqlSelect.Proofs.Literal.Kinds
import SqlSelect.Proofs.Preference.Reader
import SqlSelect.Proofs.Quoting.Backslash
import SqlSelect.Proofs.Quoting.Containment
import SqlSelect.Proofs.Quoting.Names
import SqlSelect.Proofs.Quoting.Parentheses
import SqlSelect.Proofs.Quoting.Segments
import SqlSelect.Proofs.Reader.Uniqueness
import SqlSelect.Proofs.Tree.Inert
import SqlSelect.Proofs.Tree.Pruning
import SqlSelect.Proofs.Tree.Tail
import SqlSelect.Proofs.Union.Blocks
import SqlSelect.Proofs.Words.Spacing
import SqlSelect.Tree.Clauses
import SqlSelect.Tree.Equality
import SqlSelect.Tree.Tokens
