import StateSpace.Description.Formula
import StateSpace.Description.System
import StateSpace.Proofs.Check
import StateSpace.Proofs.Combination
import StateSpace.Proofs.Document
import StateSpace.Proofs.OrderIndependence
import StateSpace.Proofs.Program.Correctness
import StateSpace.Proofs.Program.Reached
import StateSpace.Proofs.Program.Variables
import StateSpace.Proofs.ReachabilityGraph
import StateSpace.Proofs.Search.Blocks
import StateSpace.Proofs.Search.Recursion
import StateSpace.Proofs.Search.Work
import StateSpace.Proofs.TableCheck
import StateSpace.RandomRun
import StateSpace.Value.Equivalence
import StateSpace.Version
import StateSpace.Proofs.Locality
import StateSpace.Proofs.RandomRun
import StateSpace.Proofs.Search.Restriction
import StateSpace.Proofs.Verdict
import StateSpace.Proofs.Wording
import StateSpace.Proofs.Model.SodaMachine
import StateSpace.Proofs.Search.Faults
import StateSpace.Proofs.Program.ControlFlow
import StateSpace.Proofs.Program.Strengthening
import StateSpace.Proofs.Program.Totality
import StateSpace.Proofs.PathPool
import StateSpace.Proofs.Search.Ancestry
import StateSpace.Proofs.Adjacency
import StateSpace.Proofs.GraphCheck
import StateSpace.Proofs.Program.FaultOrder
import StateSpace.Proofs.Model.SodaMachine.SellingOut
import StateSpace.Proofs.RegularGraph
import StateSpace.Proofs.Model.SodaMachine.Size
import StateSpace.Proofs.Model.SodaMachine.Totals
import StateSpace.Proofs.Conjunction
import StateSpace.Proofs.Backwards
import StateSpace.Proofs.Laziness
import StateSpace.Proofs.Table
import StateSpace.Proofs.Program.Updates
import StateSpace.Proofs.Program.StateEquality
import StateSpace.Proofs.Document.Restoring
import StateSpace.Proofs.Document.Acceptance
import StateSpace.Proofs.Program.Assignment
import StateSpace.Proofs.Formula.Atoms
import StateSpace.Proofs.Formula.Support
import StateSpace.Proofs.Formula.Equality
import StateSpace.Proofs.Formula.Readability
import StateSpace.Proofs.Reporting
