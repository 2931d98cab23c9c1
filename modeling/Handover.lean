import Handover.Config.Load
import Handover.Engine
import Handover.Proofs.Config.Document
import Handover.Proofs.Engine.Accounting
import Handover.Proofs.Engine.Coverage
import Handover.Proofs.Engine.Delivery
import Handover.Proofs.Engine.Failure
import Handover.Proofs.Engine.Log
import Handover.Proofs.Engine.Outcome
import Handover.Proofs.Engine.Reach
import Handover.Proofs.Engine.Rejection
import Handover.Proofs.Engine.Sharding
import Handover.Proofs.Engine.Startup
import Handover.Proofs.Engine.Target
import Handover.Proofs.Fuzzy.Acceptance
import Handover.Proofs.Fuzzy.Area
import Handover.Proofs.Fuzzy.Arrangement
import Handover.Proofs.Fuzzy.Build
import Handover.Proofs.Fuzzy.Centroid
import Handover.Proofs.Fuzzy.Exact
import Handover.Proofs.Fuzzy.Map
import Handover.Proofs.Fuzzy.Rounds
import Handover.Proofs.Fuzzy.Safety
import Handover.Proofs.Fuzzy.Spread
import Handover.Proofs.Fuzzy.Symmetry
import Handover.Proofs.Fuzzy.Thin
import Handover.Proofs.Inference.Binding
import Handover.Proofs.Inference.Frame
import Handover.Proofs.Inference.Ranking
import Handover.Proofs.Service.Agreement
import Handover.Proofs.Service.Answer
import Handover.Proofs.Service.Delay
import Handover.Proofs.Service.Separation
import Handover.Proofs.Strategy.BestNeighbour
import Handover.Proofs.Strategy.Offset
import Handover.Proofs.Task.Sequential
import Handover.Proofs.Task.Turns
import Handover.Proofs.Trend.Matrix
import Handover.Proofs.Trend.Prediction
import Handover.Proofs.Trend.Window
import Handover.Proofs.Ue.Calls
import Handover.Proofs.Ue.Log
import Handover.Proofs.Ue.State
import Handover.Task
