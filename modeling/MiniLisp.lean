import MiniLisp.Session
import MiniLisp.Settings
import MiniLisp.Workspace
import MiniLisp.Proofs.Building.CanonicalTrees
import MiniLisp.Proofs.Building.EnoughRoom
import MiniLisp.Proofs.Building.Failures
import MiniLisp.Proofs.Building.FirstMalformed
import MiniLisp.Proofs.Building.Grammar
import MiniLisp.Proofs.Building.MalformedForms
import MiniLisp.Proofs.Building.Nesting
import MiniLisp.Proofs.Building.Rendering
import MiniLisp.Proofs.Building.Spelling
import MiniLisp.Proofs.Evaluation.Agreement
import MiniLisp.Proofs.Evaluation.ApplicationFaults
import MiniLisp.Proofs.Evaluation.BigStep
import MiniLisp.Proofs.Evaluation.Depth
import MiniLisp.Proofs.Evaluation.EnoughFrames
import MiniLisp.Proofs.Evaluation.Equations
import MiniLisp.Proofs.Evaluation.LastSteps
import MiniLisp.Proofs.Evaluation.MoreFrames
import MiniLisp.Proofs.Identity.Origins
import MiniLisp.Proofs.Identity.Watch
import MiniLisp.Proofs.Interpreter.Log
import MiniLisp.Proofs.Interpreter.NestedTexts
import MiniLisp.Proofs.Interpreter.RecursionLimit
import MiniLisp.Proofs.Interpreter.Sessions
import MiniLisp.Proofs.Numerals.Decimal
import MiniLisp.Proofs.Numerals.Notation
import MiniLisp.Proofs.Numerals.Syntax
import MiniLisp.Proofs.Quoting.Data
import MiniLisp.Proofs.Quoting.EqualData
import MiniLisp.Proofs.Quoting.PrintedData
import MiniLisp.Proofs.Quoting.QuotedForms
import MiniLisp.Proofs.Quoting.Spelling
import MiniLisp.Proofs.Reachability.BuiltPrograms
import MiniLisp.Proofs.Reachability.Cells
import MiniLisp.Proofs.Reachability.Closures
import MiniLisp.Proofs.Reading.Balance
import MiniLisp.Proofs.Reading.Brackets
import MiniLisp.Proofs.Reading.Layouts
import MiniLisp.Proofs.Reading.SourceTexts
import MiniLisp.Proofs.Reading.UnmatchedBrackets
import MiniLisp.Proofs.Reading.WrittenTokens
import MiniLisp.Proofs.Recursion.SelfApplication
import MiniLisp.Proofs.Scopes.ArgumentBinding
import MiniLisp.Proofs.Scopes.CallFrame
import MiniLisp.Proofs.Scopes.FrameChains
import MiniLisp.Proofs.Scopes.FreeNames
import MiniLisp.Proofs.Scopes.RelatedFrames
import MiniLisp.Proofs.Scopes.Renaming
import MiniLisp.Proofs.Scopes.ResolvedNames
import MiniLisp.Proofs.Settings.LimitTexts
import MiniLisp.Proofs.TwoRuns.Coupling
import MiniLisp.Proofs.TwoRuns.ExtraFrame
import MiniLisp.Proofs.TwoRuns.InlinedDatum
import MiniLisp.Proofs.TwoRuns.LexicalScope
import MiniLisp.Proofs.TwoRuns.LikeValues
import MiniLisp.Proofs.TwoRuns.Likeness
import MiniLisp.Proofs.TwoRuns.NewNames
import MiniLisp.Proofs.TwoRuns.RenamedParameter
import MiniLisp.Proofs.TwoRuns.Renumbering
import MiniLisp.Proofs.TwoRuns.RetaggedLiterals
import MiniLisp.Proofs.TwoRuns.SideBySide
import MiniLisp.Proofs.TwoRuns.Simulation
import MiniLisp.Proofs.TwoRuns.Worlds
import MiniLisp.Proofs.Values.Equality
import MiniLisp.Proofs.Workspaces.Persistence
import MiniLisp.Proofs.Texts.SelfDelimiting
import MiniLisp.Proofs.Values.DebuggingForms
import MiniLisp.Proofs.Texts.Excerpts
