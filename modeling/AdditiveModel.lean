import AdditiveModel.Model.Evaluate
import AdditiveModel.Real.Instance
import AdditiveModel.Proofs.Outcome
import AdditiveModel.Proofs.Shape
import AdditiveModel.Proofs.Rows
import AdditiveModel.Proofs.Partition
import AdditiveModel.Proofs.BlockRows
import AdditiveModel.Proofs.Selection
import AdditiveModel.Proofs.RowByRow
import AdditiveModel.Proofs.Exact
import AdditiveModel.Proofs.Matrix
import AdditiveModel.Proofs.Affine
import AdditiveModel.Proofs.BlockAffine
import AdditiveModel.Proofs.Difference
import AdditiveModel.Proofs.AffineRows
import AdditiveModel.Proofs.Expansion
import AdditiveModel.Proofs.Draws
import AdditiveModel.Proofs.Deviates
import AdditiveModel.Proofs.Evaluation
import AdditiveModel.Proofs.Alike
import AdditiveModel.Proofs.Independence
import AdditiveModel.Proofs.Binding
import AdditiveModel.Proofs.States
import AdditiveModel.Proofs.Effects
import AdditiveModel.Proofs.Strictness
import AdditiveModel.Proofs.Accumulation
import AdditiveModel.Proofs.Completion
import AdditiveModel.Proofs.Validity
import AdditiveModel.Proofs.Visible
import AdditiveModel.Proofs.Vectors
import AdditiveModel.Proofs.Agreement
import AdditiveModel.Proofs.Interpolation
import AdditiveModel.Proofs.Keys
import AdditiveModel.Proofs.Inputs
import AdditiveModel.Proofs.Levels
import AdditiveModel.Proofs.Ranges
import AdditiveModel.Proofs.Counts
import AdditiveModel.Proofs.Binary64
import AdditiveModel.Proofs.Formula
import AdditiveModel.Proofs.Alignment
import AdditiveModel.Proofs.Failure
import AdditiveModel.Proofs.Validation
import AdditiveModel.Proofs.Order
import AdditiveModel.Proofs.Hygiene
import AdditiveModel.Proofs.Offset
import AdditiveModel.Proofs.Generators
import AdditiveModel.Proofs.Seeded
import AdditiveModel.Proofs.Conversion
import AdditiveModel.Proofs.Columns
import AdditiveModel.Proofs.Totality
import AdditiveModel.Proofs.Calls
import AdditiveModel.Proofs.Lengths
import AdditiveModel.Proofs.Again
import AdditiveModel.Proofs.MainField
import AdditiveModel.Proofs.SharedDeviates
import AdditiveModel.Proofs.Weights
import AdditiveModel.Proofs.Observations
import AdditiveModel.Proofs.Definition
import AdditiveModel.Proofs.Blocks
import AdditiveModel.Proofs.Signs
import AdditiveModel.Proofs.Binary64Signs
import AdditiveModel.Proofs.Decomposition
import AdditiveModel.Proofs.Sampling
import AdditiveModel.Proofs.Filters
import AdditiveModel.Proofs.Binary64Decimals
import AdditiveModel.Proofs.Literals
import AdditiveModel.Proofs.SixDigits
import AdditiveModel.Proofs.Intervals
import AdditiveModel.Proofs.OrderedScalar
import AdditiveModel.Proofs.Binary64Rounding
import AdditiveModel.Proofs.Binary64Values
import AdditiveModel.Proofs.Binary64Order
import AdditiveModel.Proofs.ExtendedReals
import AdditiveModel.Proofs.Quantiles
import AdditiveModel.Proofs.ExactOrder
import AdditiveModel.Proofs.LastWrite
import AdditiveModel.Proofs.AffineParts
import AdditiveModel.Proofs.ExactSums
import AdditiveModel.Proofs.OrderStatistics
import AdditiveModel.Proofs.RowSummaries
import AdditiveModel.Proofs.AutoFormat
import AdditiveModel.Proofs.Entries
import AdditiveModel.Proofs.Layout
