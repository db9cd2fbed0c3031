import CompositeModels.Backend.Polynomial
import CompositeModels.Error.Message
import CompositeModels.Event.Message
import CompositeModels.Model.Closing
import CompositeModels.Model.Construction
import CompositeModels.Model.InPlace
import CompositeModels.Termination
import CompositeModels.Proofs.Answers
import CompositeModels.Proofs.Meaning
import CompositeModels.Proofs.Meaning.Stack
import CompositeModels.Proofs.Regular
import CompositeModels.Proofs.Realization
import CompositeModels.Proofs.Realization.Constraints
import CompositeModels.Proofs.Realization.Term
import CompositeModels.Proofs.Realization.AugmentedLagrangian
import CompositeModels.Proofs.Realization.Feasibility
import CompositeModels.Proofs.Realization.Smooth
import CompositeModels.Proofs.Construction
import CompositeModels.Proofs.Calls
import CompositeModels.Proofs.InPlace
import CompositeModels.Proofs.Restoring
import CompositeModels.Proofs.Session
import CompositeModels.Proofs.CacheTransparency
import CompositeModels.Proofs.Exact
import CompositeModels.Proofs.PenaltyState
import CompositeModels.Proofs.NearestPoint
import CompositeModels.Proofs.Slacks
import CompositeModels.Proofs.Lagrangian
import CompositeModels.Proofs.Stationarity
import CompositeModels.Proofs.SlackElimination
import CompositeModels.Proofs.Buffers
import CompositeModels.Proofs.Fusion
import CompositeModels.Proofs.Transpose
import CompositeModels.Proofs.Clamp
import CompositeModels.Proofs.ProximalOperator
import CompositeModels.Proofs.Projection
import CompositeModels.Proofs.Refusal
import CompositeModels.Proofs.Delivery
import CompositeModels.Proofs.Dimensions
import CompositeModels.Proofs.Frame
import CompositeModels.Proofs.Closing
import CompositeModels.Proofs.Release
import CompositeModels.Proofs.Inheritance
import CompositeModels.Proofs.Missing
import CompositeModels.Proofs.Missing.Stack
import CompositeModels.Proofs.Availability
import CompositeModels.Proofs.UniformPenalty
import CompositeModels.Proofs.Order
import CompositeModels.Proofs.Indicator
import CompositeModels.Proofs.Sense
import CompositeModels.Proofs.BoxPenalty
import CompositeModels.Proofs.LossGrowth
import CompositeModels.Proofs.InfeasibilityGradient
import CompositeModels.Proofs.EvenSquares
import CompositeModels.Proofs.BesideObjective
import CompositeModels.Proofs.ProximalTower
import CompositeModels.Proofs.LossOrder
import CompositeModels.Proofs.InfeasibilityMeasures
import CompositeModels.Proofs.SlackInfeasibility
import CompositeModels.Proofs.SignDirection
import CompositeModels.Proofs.PenaltyShapes
import CompositeModels.Proofs.Differentiation
import CompositeModels.Proofs.Slopes
import CompositeModels.Proofs.Plan
import CompositeModels.Proofs.Recomputation
import CompositeModels.Proofs.Cost
import CompositeModels.Proofs.Division
