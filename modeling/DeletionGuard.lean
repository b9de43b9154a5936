import DeletionGuard.Main
import DeletionGuard.Proofs.Invocation.Spelling
import DeletionGuard.Proofs.Log
import DeletionGuard.Proofs.Plan.Medium
import DeletionGuard.Proofs.Plan.Rendering
import DeletionGuard.Proofs.Plan.Truncation
import DeletionGuard.Proofs.Plan.Unknown
import DeletionGuard.Proofs.Report
import DeletionGuard.Proofs.Report.Lines
import DeletionGuard.Proofs.Report.Unambiguous
import DeletionGuard.Proofs.Run.Course
import DeletionGuard.Proofs.Run.ExitCode
import DeletionGuard.Proofs.Run.Output
import DeletionGuard.Proofs.Text.ControlSequence
import DeletionGuard.Proofs.Text.Split
import DeletionGuard.Proofs.Yaml.Reading
import DeletionGuard.Proofs.Writing
import DeletionGuard.Session
import DeletionGuard.Proofs.Yaml.Quoted
import DeletionGuard.Proofs.Yaml.Lines
import DeletionGuard.Proofs.Yaml.Plain
import DeletionGuard.Proofs.Yaml.Tokens
import DeletionGuard.Proofs.Yaml.Stream
import DeletionGuard.Proofs.Settings.Lines
import DeletionGuard.Proofs.Yaml.Refusal
import DeletionGuard.Proofs.Json.Message
import DeletionGuard.Proofs.Report.ErrorLine
import DeletionGuard.Proofs.Json.Decoding
import DeletionGuard.Proofs.Json.Horizon
import DeletionGuard.Proofs.Plan.Horizon
import DeletionGuard.Proofs.Json.Integer
import DeletionGuard.Proofs.Json.Due
import DeletionGuard.Proofs.Plan.Integer
import DeletionGuard.Proofs.Session
