import BuildConstants.Draft
import BuildConstants.Main
import BuildConstants.Proofs.Agreement
import BuildConstants.Proofs.Endings
import BuildConstants.Proofs.LeafChecks
import BuildConstants.Proofs.OutputPath
import BuildConstants.Proofs.RequestReading
import BuildConstants.Proofs.ShorthandPrinting
import BuildConstants.Proofs.DeclaredKinds
import BuildConstants.Proofs.HoleCounts
import BuildConstants.Proofs.VariableArguments
import BuildConstants.Proofs.CommentNesting
import BuildConstants.Proofs.FailedWrites
import BuildConstants.Proofs.LoneItems
import BuildConstants.Proofs.EarliestStop
import BuildConstants.Proofs.ProperTypes
import BuildConstants.Proofs.RegisteredNames
import BuildConstants.Proofs.PrintedTypes
import BuildConstants.Proofs.FirstMisfit
import BuildConstants.Proofs.Erasure
import BuildConstants.Proofs.WrittenElements
import BuildConstants.Proofs.SetEnumerations
import BuildConstants.Proofs.SetTagging
import BuildConstants.Proofs.IntegerSpellings
import BuildConstants.Proofs.CommentLines
import BuildConstants.Proofs.TemplateReading
import BuildConstants.Proofs.LongSpelling
import BuildConstants.Proofs.CatalogHistory
