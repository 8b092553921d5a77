import DisasmLens.CommandLine.Run
import DisasmLens.Main
import DisasmLens.Screen
import DisasmLens.Proofs.RetentionLaw
import DisasmLens.Proofs.Refiltering
import DisasmLens.Proofs.BlockLocality
import DisasmLens.Proofs.DiagnosticGrammar
import DisasmLens.Proofs.DiagnosticRoundTrip
import DisasmLens.Proofs.SessionRuns
import DisasmLens.Proofs.LatestBuild
import DisasmLens.Proofs.DiagnosticLines
import DisasmLens.Proofs.WatcherRuns
import DisasmLens.Proofs.SaveReports
import DisasmLens.Proofs.Notices
import DisasmLens.Proofs.Footprint
import DisasmLens.Proofs.SavedCode
import DisasmLens.Proofs.ObserverTurns
import DisasmLens.Proofs.JsonRoundTrip
import DisasmLens.Proofs.Locations
import DisasmLens.Proofs.Layers
import DisasmLens.Proofs.ObjectMembers
import DisasmLens.Proofs.SettingsFile
import DisasmLens.Proofs.SettingsRoundTrip
import DisasmLens.Proofs.CommandEndings
import DisasmLens.Proofs.ToolRuns
import DisasmLens.Proofs.PrintedListing
import DisasmLens.Proofs.CompiledPath
import DisasmLens.Proofs.WordsRoundTrip
import DisasmLens.Proofs.StyledLines
import DisasmLens.Proofs.ShownBuild
import DisasmLens.Proofs.CompilerArguments
import DisasmLens.Proofs.KeptCounts
import DisasmLens.Proofs.CommandEffects
import DisasmLens.Proofs.SuppliedListings
import DisasmLens.Proofs.TwoTargets
import DisasmLens.Proofs.FilteredLines
import DisasmLens.Proofs.Severities
import DisasmLens.Proofs.Repeatability
import DisasmLens.Proofs.LastLine
import DisasmLens.Proofs.ExecutablePaths
import DisasmLens.Proofs.SubmittedFlags
import DisasmLens.Proofs.WordSearch
import DisasmLens.Proofs.TokenPatterns
import DisasmLens.Proofs.InstructionSpans
import DisasmLens.Proofs.VersionLine
