import ErrorAccessors.FileTree
import ErrorAccessors.Main
import ErrorAccessors.Parser.File
import ErrorAccessors.Settings.Print
import ErrorAccessors.Proofs.AnnotatedMethod
import ErrorAccessors.Proofs.AssignedNames
import ErrorAccessors.Proofs.AsyncForm
import ErrorAccessors.Proofs.CoherentOutline
import ErrorAccessors.Proofs.CorrectedTypes
import ErrorAccessors.Proofs.DelimitedOutline
import ErrorAccessors.Proofs.DistinctMembers
import ErrorAccessors.Proofs.EscapeReading
import ErrorAccessors.Proofs.ExplicitMethod
import ErrorAccessors.Proofs.HonouredEdits
import ErrorAccessors.Proofs.IntegerReading
import ErrorAccessors.Proofs.LaidOutTokens
import ErrorAccessors.Proofs.LostQualifiers
import ErrorAccessors.Proofs.MemberRounds
import ErrorAccessors.Proofs.MergedTypes
import ErrorAccessors.Proofs.MessageWords
import ErrorAccessors.Proofs.OpaqueBodies
import ErrorAccessors.Proofs.ReadableNames
import ErrorAccessors.Proofs.RegeneratedSources
import ErrorAccessors.Proofs.ReturnReadings
import ErrorAccessors.Proofs.RetypedText
import ErrorAccessors.Proofs.RunOrder
import ErrorAccessors.Proofs.SettledLayout
import ErrorAccessors.Proofs.SimultaneousEdits
import ErrorAccessors.Proofs.SiteDiscovery
import ErrorAccessors.Proofs.SpacedTokens
import ErrorAccessors.Proofs.SuggestedRepairs
import ErrorAccessors.Proofs.TypeContexts
import ErrorAccessors.Proofs.TypeRoundTrip
import ErrorAccessors.Proofs.UndeclaredTypes
import ErrorAccessors.Proofs.UnmarkedMethods
import ErrorAccessors.Proofs.VerbatimText
import ErrorAccessors.Proofs.WrittenField
