import ExactPenalty.Conditioning
import ExactPenalty.Curvature
import ExactPenalty.Decimal
import ExactPenalty.Decimal.Binary
import ExactPenalty.Direction
import ExactPenalty.Evaluation
import ExactPenalty.Extended
import ExactPenalty.Iterate
import ExactPenalty.Ladder
import ExactPenalty.Linear.Eigen
import ExactPenalty.Linear.Elimination
import ExactPenalty.Linear.Mat
import ExactPenalty.Linear.Vec
import ExactPenalty.Log
import ExactPenalty.Message
import ExactPenalty.Options
import ExactPenalty.Problem.Formula
import ExactPenalty.Problem.Posed
import ExactPenalty.Quadratic.ActiveSet
import ExactPenalty.Quadratic.Program
import ExactPenalty.Quadratic.Reduced
import ExactPenalty.Quadratic.Rehearsed
import ExactPenalty.Quadratic.Solver
import ExactPenalty.Random
import ExactPenalty.Run
import ExactPenalty.Run.Climb
import ExactPenalty.Run.History
import ExactPenalty.Run.Session
import ExactPenalty.Run.Termination
import ExactPenalty.Scalar
import ExactPenalty.Search
import ExactPenalty.Search.Backtracking
import ExactPenalty.Search.Bracket
import ExactPenalty.Search.Trial
import ExactPenalty.Stationarity
import ExactPenalty.Steering
import ExactPenalty.Proofs.Linear
import ExactPenalty.Proofs.Quadratic
import ExactPenalty.Proofs.Violation
import ExactPenalty.Proofs.Violation.Linearized
import ExactPenalty.Proofs.Action
import ExactPenalty.Proofs.Steering
import ExactPenalty.Proofs.Direction
import ExactPenalty.Proofs.Steering.Descent
import ExactPenalty.Proofs.Steering.Duality
import ExactPenalty.Proofs.Curvature
import ExactPenalty.Proofs.Conditioning
import ExactPenalty.Proofs.Machine
import ExactPenalty.Proofs.Options
import ExactPenalty.Proofs.Search
import ExactPenalty.Proofs.Comparison
import ExactPenalty.Proofs.Rounding
import ExactPenalty.Proofs.Rounding.Factors
import ExactPenalty.Proofs.Run.Climb
import ExactPenalty.Proofs.Run.Iterations
import ExactPenalty.Proofs.Run.Session
import ExactPenalty.Proofs.Run.PenaltyParameter
import ExactPenalty.Proofs.Run.Decrease
import ExactPenalty.Proofs.Run.Definite
import ExactPenalty.Proofs.Run.Transcript
import ExactPenalty.Proofs.Run.Endings
import ExactPenalty.Proofs.Run.Stopping
import ExactPenalty.Proofs.Run.Evaluations
import ExactPenalty.Proofs.Rungs
import ExactPenalty.Proofs.Run.Stationary
import ExactPenalty.Proofs.Run.Secant
import ExactPenalty.Proofs.Search.Trials
import ExactPenalty.Proofs.Run.Answers
import ExactPenalty.Proofs.Attempts
import ExactPenalty.Proofs.InStep
import ExactPenalty.Proofs.Ladder
import ExactPenalty.Proofs.Run.InStep
import ExactPenalty.Proofs.Run.Truncation
import ExactPenalty.Proofs.Run.Shrinking
import ExactPenalty.Proofs.Run.PenaltyHistory
import ExactPenalty.Proofs.Run.LastRung
import ExactPenalty.Proofs.Run.Failures
import ExactPenalty.Proofs.Run.Segments
import ExactPenalty.Proofs.Run.RandomDirections
import ExactPenalty.Proofs.Run.ForcedMovement
import ExactPenalty.Proofs.Frame
import ExactPenalty.Proofs.Frame.Curvature
import ExactPenalty.Proofs.Frame.Problem
import ExactPenalty.Proofs.Frame.Direction
import ExactPenalty.Proofs.Frame.Climb
import ExactPenalty.Proofs.Frame.Invariance
import ExactPenalty.Proofs.Ladder.Walk
import ExactPenalty.Proofs.Run.StepRungs
import ExactPenalty.Proofs.Search.Calls
import ExactPenalty.Proofs.Solves
import ExactPenalty.Proofs.Run.Work
import ExactPenalty.Proofs.Relabelling
import ExactPenalty.Proofs.Run.Relabelled
import ExactPenalty.Proofs.Run.Unsteered
import ExactPenalty.Proofs.Run.TimeLimit
import ExactPenalty.Proofs.Run.FailingSteering
import ExactPenalty.Proofs.FirstLeast
import ExactPenalty.Proofs.Run.Remembered
import ExactPenalty.Proofs.Run.Tracked
import ExactPenalty.Proofs.Run.Certificate
import ExactPenalty.Proofs.Search.Brackets
import ExactPenalty.Proofs.Search.Acceptance
import ExactPenalty.Proofs.Search.Refusals
import ExactPenalty.Proofs.Search.Backtracking
import ExactPenalty.Proofs.Search.Kept
import ExactPenalty.Proofs.Steering.Selection
import ExactPenalty.Proofs.Steering.Reference
import ExactPenalty.Proofs.Steering.Attainable
import ExactPenalty.Proofs.Run.NonDescent
import ExactPenalty.Proofs.Curvature.Secant
import ExactPenalty.Proofs.Curvature.Updates
import ExactPenalty.Proofs.Conditioning.Spectrum
import ExactPenalty.Proofs.Quadratic.Projection
import ExactPenalty.Proofs.Elimination
import ExactPenalty.Proofs.Linear.Folds
import ExactPenalty.Proofs.Quadratic.Reduced
import ExactPenalty.Proofs.Quadratic.Polish
import ExactPenalty.Proofs.Quadratic.ActiveSet
import ExactPenalty.Proofs.Stationarity
import ExactPenalty.Proofs.Stationarity.Window
