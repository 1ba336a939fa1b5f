import ComponentSchema.Facts.Table
import ComponentSchema.Main
import ComponentSchema.Proofs.Text.WrittenDocComments
import ComponentSchema.Proofs.Json.RecordRoundTrip
import ComponentSchema.Proofs.Files.DirectoryScan
import ComponentSchema.Proofs.Loader.Discovery
import ComponentSchema.Proofs.Loader.ImportSpellings
import ComponentSchema.Proofs.Loader.LoadOrder
import ComponentSchema.Proofs.Binder.PublishedNames
import ComponentSchema.Proofs.Lookup.LexicalScoping
import ComponentSchema.Proofs.Lookup.NameDerivations
import ComponentSchema.Proofs.Lookup.ReexportChains
import ComponentSchema.Proofs.Checker.AliasLoops
import ComponentSchema.Proofs.Checker.ArenaNaming
import ComponentSchema.Proofs.Checker.DeclarationMeaning
import ComponentSchema.Proofs.Checker.ProgramSessions
import ComponentSchema.Proofs.Checker.QueryHistories
import ComponentSchema.Proofs.Checker.QuestionAnswers
import ComponentSchema.Proofs.Checker.ResolutionAnswers
import ComponentSchema.Proofs.ReturnInference.JsxReturns
import ComponentSchema.Proofs.ReturnInference.ReturnSets
import ComponentSchema.Proofs.Classifier.NameSegments
import ComponentSchema.Proofs.Extractor.AppendedSchemas
import ComponentSchema.Proofs.Extractor.ExtractorCalls
import ComponentSchema.Proofs.Extractor.SchemaProperties
import ComponentSchema.Proofs.Extractor.TypeExpansion
import ComponentSchema.Proofs.Traversal.DocumentContents
import ComponentSchema.Proofs.Traversal.RelistedFiles
import ComponentSchema.Proofs.Traversal.ScanIndependence
import ComponentSchema.Proofs.Traversal.Termination
import ComponentSchema.Proofs.Traversal.VisitedDeclarations
import ComponentSchema.Proofs.Rewriting.FunctionForms
import ComponentSchema.Proofs.Rewriting.MergedDeclarations
import ComponentSchema.Proofs.Rewriting.MovedDeclarations
import ComponentSchema.Proofs.Rewriting.RedundantParentheses
