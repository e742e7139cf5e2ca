import Fleet.Controller.Client
import Fleet.Service
import Fleet.Proofs.Attempt
import Fleet.Proofs.Plan.Outcome
import Fleet.Proofs.Plan.Advice
import Fleet.Proofs.Plan.Tracking
import Fleet.Proofs.Plan.Inspection
import Fleet.Proofs.Plan.Selection
import Fleet.Proofs.Plan.Replay
import Fleet.Proofs.Plan.Shelter
import Fleet.Proofs.Plan.Placement
import Fleet.Proofs.Plan.Drain
import Fleet.Proofs.Plan.Exploration
import Fleet.Proofs.Membership
import Fleet.Proofs.Plan.Reinstatement
import Fleet.Proofs.Plan.Shares
import Fleet.Proofs.Plan.Contract
import Fleet.Proofs.Linear
import Fleet.Proofs.Plan.Round
import Fleet.Proofs.Plan.Frame
import Fleet.Proofs.Plan.Rounds
import Fleet.Proofs.Plan.Consolidation
import Fleet.Proofs.Plan.Picks
import Fleet.Proofs.Plan.Relief
import Fleet.Proofs.Plan.Accounting
import Fleet.Proofs.Renaming.Engine
import Fleet.Proofs.Plan.Calm
import Fleet.Proofs.Accumulation
import Fleet.Proofs.Plan.Capacity
import Fleet.Proofs.Plan.Stranding
import Fleet.Proofs.Service.Bookkeeping
import Fleet.Proofs.Service.Independence
import Fleet.Proofs.Plan.Safety
import Fleet.Proofs.Inventory
import Fleet.Proofs.Destination.Exclusion
import Fleet.Proofs.Destination.Overlay
import Fleet.Proofs.Service.Endpoint
import Fleet.Proofs.Inventory.Residence
import Fleet.Proofs.Overload.Persistence
import Fleet.Proofs.Overload.Recency
import Fleet.Proofs.Power.Interpolation
import Fleet.Proofs.Samples
import Fleet.Proofs.Inventory.Reference
import Fleet.Proofs.Inventory.Attachment
import Fleet.Proofs.Destination.Power
import Fleet.Proofs.Plan.Admission
import Fleet.Proofs.Plan.Effort
import Fleet.Proofs.Service.Setup
import Fleet.Proofs.Membership.Relocation
import Fleet.Proofs.Parameters
import Fleet.Proofs.Service.Submission
import Fleet.Proofs.Plan.Timing
import Fleet.Proofs.Forecast.Mean
import Fleet.Proofs.Forecast.Adaptation
