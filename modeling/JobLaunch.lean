import JobLaunch.Admission
import JobLaunch.Answer
import JobLaunch.CommandLine.Arguments
import JobLaunch.CommandLine.Document
import JobLaunch.CommandLine.Report
import JobLaunch.CommandLine.Run
import JobLaunch.Config
import JobLaunch.Decimal.Double
import JobLaunch.Decimal.Shortest
import JobLaunch.Error
import JobLaunch.FactCache
import JobLaunch.Files
import JobLaunch.Id
import JobLaunch.Job
import JobLaunch.Json.Basic
import JobLaunch.Json.Number
import JobLaunch.Json.Read
import JobLaunch.Json.Write
import JobLaunch.LaunchConfig
import JobLaunch.Main
import JobLaunch.Novel
import JobLaunch.Options
import JobLaunch.Placement
import JobLaunch.Plan
import JobLaunch.Planning
import JobLaunch.Policy
import JobLaunch.Prompt
import JobLaunch.Proofs.ConsistentRuns
import JobLaunch.Proofs.ExcludedErrors
import JobLaunch.Proofs.FactUpdates
import JobLaunch.Proofs.FailedServices
import JobLaunch.Proofs.FieldDecisions
import JobLaunch.Proofs.FieldIndependence
import JobLaunch.Proofs.FieldOutcomes
import JobLaunch.Proofs.FileWalks
import JobLaunch.Proofs.HiddenPasswords
import JobLaunch.Proofs.JobResolution
import JobLaunch.Proofs.MissingAnswers
import JobLaunch.Proofs.PlannedSpecs
import JobLaunch.Proofs.PreviewedLaunches
import JobLaunch.Proofs.RelaunchChains
import JobLaunch.Proofs.RelaunchGate
import JobLaunch.Proofs.ReplayedOverrides
import JobLaunch.Proofs.RequestHonoured
import JobLaunch.Proofs.SecretAnswers
import JobLaunch.Proofs.SelectionDelta
import JobLaunch.Proofs.ServiceRuns
import JobLaunch.Proofs.SliceCounts
import JobLaunch.Proofs.SliceShares
import JobLaunch.Proofs.SlicedPlans
import JobLaunch.Proofs.StoreConsistency
import JobLaunch.Proofs.StoreGrowth
import JobLaunch.Proofs.StoreRuns
import JobLaunch.Proofs.StoredLaunches
import JobLaunch.Proofs.SurveyIntake
import JobLaunch.Proofs.UnchangedReplays
import JobLaunch.Proofs.UnpromptedOverrides
import JobLaunch.Proofs.UnpromptedRefusals
import JobLaunch.Proofs.UntouchedCaches
import JobLaunch.Proofs.VariableMerge
import JobLaunch.Proofs.Violations
import JobLaunch.Proofs.WorkflowSlices
import JobLaunch.Readiness
import JobLaunch.Record
import JobLaunch.Replay
import JobLaunch.Request
import JobLaunch.Resolution
import JobLaunch.Resolve
import JobLaunch.Resource
import JobLaunch.Service
import JobLaunch.Store
import JobLaunch.Summary
import JobLaunch.Survey
import JobLaunch.Table
import JobLaunch.Template
import JobLaunch.Text.Blank
import JobLaunch.Text.Digit
import JobLaunch.Timestamp
import JobLaunch.Value
import JobLaunch.Variables
import JobLaunch.VarsText
import JobLaunch.Yaml.Cursor
import JobLaunch.Yaml.Form
import JobLaunch.Yaml.Node
import JobLaunch.Yaml.Schema
import JobLaunch.Yaml.Text
import JobLaunch.Yaml.Token
import JobLaunch.Yaml.Tree
import JobLaunch.Proofs.ActiveJobs
import JobLaunch.Proofs.RecordedSummaries
import JobLaunch.Proofs.SliceCollections
import JobLaunch.Proofs.TreeChanges
import JobLaunch.Proofs.ConfinedCaches
import JobLaunch.Proofs.ReadyTemplates
import JobLaunch.Proofs.MergedVariables
import JobLaunch.Proofs.RestoredPasswords
import JobLaunch.Proofs.WrittenNumbers
import JobLaunch.Proofs.Calendar
import JobLaunch.Proofs.WrittenTimestamps
import JobLaunch.Proofs.ReadBack
import JobLaunch.Proofs.FaithfulRecords
import JobLaunch.Proofs.StoredRecords
import JobLaunch.Proofs.OverlaidJobs
import JobLaunch.Proofs.UnansweredQuestions
import JobLaunch.Proofs.NearestDoubles
import JobLaunch.Proofs.IntegerAnswers
import JobLaunch.Proofs.FilteredRelaunches
import JobLaunch.Proofs.TaskImpact
import JobLaunch.Proofs.LoosenedPolicies
import JobLaunch.Proofs.PreferredGroups
import JobLaunch.Proofs.ExactDeltas
import JobLaunch.Proofs.UpdateBatches
import JobLaunch.Proofs.FilledCaches
import JobLaunch.Proofs.StalenessFilter
import JobLaunch.Proofs.TrimmedTexts
import JobLaunch.Proofs.SurveyChoices
import JobLaunch.Proofs.FieldValues
import JobLaunch.Proofs.SignedDecimals
import JobLaunch.Proofs.RetentionDays
