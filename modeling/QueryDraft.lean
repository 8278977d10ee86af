import QueryDraft.Service
import QueryDraft.Catalog.Samples
import QueryDraft.Proofs.Attach
import QueryDraft.Proofs.GroupSound
import QueryDraft.Proofs.Compile
import QueryDraft.Proofs.Components
import QueryDraft.Proofs.FromRows
import QueryDraft.Proofs.WellFormed
import QueryDraft.Proofs.Lockstep
import QueryDraft.Proofs.MirroredJoin
import QueryDraft.Proofs.SanitizedAlias
import QueryDraft.Proofs.Checked
import QueryDraft.Proofs.Outcome
import QueryDraft.Proofs.PartReading
import QueryDraft.Proofs.Edits
import QueryDraft.Proofs.Fragments
import QueryDraft.Proofs.Coherent
import QueryDraft.Proofs.FragmentValid
import QueryDraft.Proofs.IdentifierText
import QueryDraft.Proofs.Legible
import QueryDraft.Proofs.RoundTrip
import QueryDraft.Proofs.JsonText
import QueryDraft.Proofs.Documents
import QueryDraft.Proofs.Reloads
import QueryDraft.Proofs.ValidEdits
import QueryDraft.Proofs.Selecting
import QueryDraft.Proofs.FragmentTwice
import QueryDraft.Proofs.Sessions
import QueryDraft.Proofs.JoinKinds
import QueryDraft.Proofs.PreviewComment
import QueryDraft.Proofs.RemovedTable
import QueryDraft.Proofs.EnteredIds
import QueryDraft.Proofs.DistinctIds
import QueryDraft.Proofs.SelectList
import QueryDraft.Proofs.FreeAlias
import QueryDraft.Proofs.FragmentTables
import QueryDraft.Proofs.UsableFragment
import QueryDraft.Proofs.CanonicalText
import QueryDraft.Proofs.ProposedJoins
import QueryDraft.Proofs.Independence
import QueryDraft.Proofs.FullStarters
import QueryDraft.Proofs.Conditions
import QueryDraft.Proofs.Parameters
import QueryDraft.Proofs.QuotedText
import QueryDraft.Proofs.JoinPrecedence
import QueryDraft.Proofs.SuggestedJoins
import QueryDraft.Proofs.DanglingReferences
import QueryDraft.Proofs.Arrivals
import QueryDraft.Proofs.ChangedEntries
import QueryDraft.Proofs.KeptFormulas
