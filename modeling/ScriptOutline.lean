import ScriptOutline.Main
import ScriptOutline.Settings.Json
import ScriptOutline.Proofs.SharedStore
import ScriptOutline.Proofs.Concatenation
import ScriptOutline.Proofs.Forest
import ScriptOutline.Proofs.InnermostVariables
import ScriptOutline.Proofs.BraceBalance
import ScriptOutline.Proofs.RecordPlaces
import ScriptOutline.Proofs.ParameterLists
import ScriptOutline.Proofs.UncommentedRecords
import ScriptOutline.Proofs.ReportRoundTrip
import ScriptOutline.Proofs.TimedMap
import ScriptOutline.Proofs.ScanLocality
import ScriptOutline.Proofs.LiteralContents
import ScriptOutline.Proofs.OpenBraces
import ScriptOutline.Proofs.RepeatedRoutines
import ScriptOutline.Proofs.LintVerdict
import ScriptOutline.Proofs.VariableRanking
import ScriptOutline.Proofs.InheritedScopes
import ScriptOutline.Proofs.LabelRoundTrip
import ScriptOutline.Proofs.ArrowBodies
import ScriptOutline.Proofs.LiteralEnds
import ScriptOutline.Proofs.QuotedConstants
import ScriptOutline.Proofs.HeaderGaps
import ScriptOutline.Proofs.InitializerHints
import ScriptOutline.Proofs.LiteralHints
import ScriptOutline.Proofs.CheckedFindings
import ScriptOutline.Proofs.BracketHints
import ScriptOutline.Proofs.StatementHints
import ScriptOutline.Proofs.CommentHarvest
import ScriptOutline.Proofs.AgeingAnswers
import ScriptOutline.Proofs.ConfiguredLifetime
import ScriptOutline.Proofs.CaselessNames
import ScriptOutline.Proofs.CollectedScripts
import ScriptOutline.Proofs.LiveExtensions
import ScriptOutline.Proofs.ColourCodes
import ScriptOutline.Proofs.ListEnds
import ScriptOutline.Proofs.CommaCuts
import ScriptOutline.Proofs.NumeralHints
import ScriptOutline.Proofs.DocumentKeys
